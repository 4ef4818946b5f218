import BuildTree.Proofs.Nesting
import BuildTree.Proofs.Pieces
import BuildTree.Proofs.Snapshots
import Mathlib.Data.List.Induction

/-!
# Pending projects

A session announces its projects in one list, and they start one after the other.  The context
writes down a project when its entry is made; a project that starts again, while it is live or
after it finished, on its thread or on another, was written down already, or is so now.  So what is
pending of the list announced last are the projects that no start has named, before the list or
after it, up to the part of the name that counts.

    c.announced              the list announced last                    (Logged.announced)
    x ∈ c.begun              iff a start names x, as group:artifact     (Logged.begun)
    e live, a project        → its name is in c.begun                   (Logged.live)
-/

namespace BuildTree

open Execution Spy

/-! ## Algorithm -/

namespace Spy.Message

/-- The project that a message starts, as `group:artifact`. -/
def begins? (m : Message) : Option String :=
  if m.kind = .projectStarted then (m.param? "id").map normalizeProject else none

/-- The list of projects that a message announces: the pieces of its text between the marks,
trimmed, without those that are blank. -/
def Announces (m : Message) (projects : List String) : Prop :=
  match m.param? "projects" with
  | none => projects = []
  | some text => ∃ pieces, Text.Pieces "&&".toList text.toList pieces ∧
      projects = ((pieces.map Text.trim).filter (!·.isEmpty)).map String.ofList

/-- The list that the last announcement among some messages announces. -/
def LastAnnounced (ms : List Message) (projects : List String) : Prop :=
  (projects = [] ∧ ∀ m ∈ ms, m.kind ≠ .sessionStarted) ∨
  ∃ before m later, ms = before ++ m :: later ∧ m.kind = .sessionStarted ∧
    m.Announces projects ∧ ∀ m' ∈ later, m'.kind ≠ .sessionStarted

end Spy.Message

namespace Execution.Context

/-- What a context has written down of some messages. -/
structure Logged (ms : List Message) (c : Context) : Prop where
  announced : Message.LastAnnounced ms c.announced
  begun : ∀ x, x ∈ c.begun ↔ ∃ m ∈ ms, m.begins? = some x
  live : ∀ e ∈ c.live, e.kind = .project → normalizeProject e.name ∈ c.begun

/-- From one context to the other nothing is announced and no project is made. -/
structure Unlogged (c c' : Context) : Prop where
  announced : c'.announced = c.announced
  begun : c'.begun = c.begun
  live : ∀ e ∈ c'.live, e.kind = .project → e ∈ c.live

end Execution.Context

/-! ## Lemmas -/

/-! ### Names of projects -/

theorem not_mem_of_mem_splitOn {a : Char} {s p : List Char} (hp : p ∈ s.splitOn a) : a ∉ p := by
  induction s generalizing p with
  | nil =>
    rw [List.splitOn_nil, List.mem_singleton] at hp
    simp [hp]
  | cons c s ih =>
    rw [List.splitOn_cons_eq_if_modifyHead] at hp
    split at hp
    · rcases List.mem_cons.1 hp with rfl | hp
      · exact List.not_mem_nil
      · exact ih hp
    · next hc =>
      obtain ⟨q, qs, hq⟩ := List.exists_cons_of_ne_nil (List.splitOn_ne_nil a s)
      rw [hq] at ih
      rw [hq, List.modifyHead_cons] at hp
      rcases List.mem_cons.1 hp with rfl | hp
      · have hca : a ≠ c := fun h => hc (beq_iff_eq.2 h.symm)
        exact List.not_mem_cons_of_ne_of_not_mem hca (ih List.mem_cons_self)
      · exact ih (List.mem_cons_of_mem _ hp)

/-- A name that was reduced has two parts, so it is not reduced again. -/
theorem normalizeProject_normalizeProject (id : String) :
    normalizeProject (normalizeProject id) = normalizeProject id := by
  rw [normalizeProject.eq_def id]
  split
  · next group artifact version rest hparts =>
    have hgroup : ':' ∉ group := not_mem_of_mem_splitOn (s := id.toList) (by simp [hparts])
    have hartifact : ':' ∉ artifact := not_mem_of_mem_splitOn (s := id.toList) (by simp [hparts])
    rw [normalizeProject, String.toList_ofList,
      List.splitOn_append_cons_self_of_not_mem hgroup, List.splitOn_eq_singleton hartifact]
  · next hparts =>
    rw [normalizeProject]
    split
    · next group artifact version rest h => exact absurd h (hparts group artifact version rest)
    · rfl

/-! ### Lists of projects -/

namespace Spy.Message

variable {m : Message} {ms : List Message} {projects : List String}

theorem announces_announced (m : Message) : m.Announces m.announced := by
  unfold Announces announced
  cases m.param? "projects" with
  | none => rfl
  | some text => exact ⟨_, Text.pieces_splitAll (by decide) _, rfl⟩

theorem lastAnnounced_concat (hm : m.kind = .sessionStarted) :
    LastAnnounced (ms ++ [m]) m.announced :=
  Or.inr ⟨ms, m, [], rfl, hm, m.announces_announced, fun _ h => absurd h List.not_mem_nil⟩

theorem LastAnnounced.concat_of_ne (h : LastAnnounced ms projects)
    (hm : m.kind ≠ .sessionStarted) : LastAnnounced (ms ++ [m]) projects := by
  rcases h with ⟨hnil, hms⟩ | ⟨before, x, later, rfl, hx, hprojects, hlater⟩
  · exact Or.inl ⟨hnil, List.forall_mem_append.2 ⟨hms, List.forall_mem_singleton.2 hm⟩⟩
  · refine Or.inr ⟨before, x, later ++ [m], by simp, hx, hprojects, ?_⟩
    exact List.forall_mem_append.2 ⟨hlater, List.forall_mem_singleton.2 hm⟩

theorem exists_begins_concat (x : String) :
    (∃ m' ∈ ms ++ [m], m'.begins? = some x) ↔
      (∃ m' ∈ ms, m'.begins? = some x) ∨ m.begins? = some x := by
  simp [or_and_right, exists_or]

end Spy.Message

/-! ### What is not written down -/

namespace Execution.Context.Unlogged

variable {c c' c'' : Context}

theorem refl (c : Context) : Unlogged c c := ⟨rfl, rfl, fun _ he _ => he⟩

theorem trans (h : Unlogged c c') (h' : Unlogged c' c'') : Unlogged c c'' where
  announced := h'.announced.trans h.announced
  begun := h'.begun.trans h.begun
  live e he hkind := h.live e (h'.live e he hkind) hkind

theorem complete (c : Context) (e : Entry) : Unlogged c (c.complete e) :=
  ⟨rfl, rfl, fun _ he _ => mem_of_mem_complete he⟩

theorem make {kind : EntryKind} {thread : Nat} {project : Option String} {name : String} {e : Entry}
    (hkind : kind ≠ .project) (hmake : c.make kind thread project name = (c', e)) :
    Unlogged c c' := by
  obtain ⟨rfl, rfl⟩ := Prod.mk.inj hmake
  refine ⟨rfl, begunWith_of_ne hkind, fun e he hproject => ?_⟩
  rcases List.mem_append.1 he with he | he
  · exact he
  · rw [List.mem_singleton.1 he] at hproject
    exact absurd hproject hkind

end Execution.Context.Unlogged

/-! ### What is written down -/

namespace Execution.Context.Logged

variable {c c' : Context} {m : Message} {ms : List Message} {name : String}

/-- A message that writes nothing down. -/
theorem concat_of_unlogged (h : Logged ms c) (hc : Unlogged c c')
    (hannounced : m.kind ≠ .sessionStarted) (hbegins : m.begins? = none) :
    Logged (ms ++ [m]) c' where
  announced := by
    rw [hc.announced]
    exact h.announced.concat_of_ne hannounced
  begun x := by
    rw [hc.begun, Message.exists_begins_concat, h.begun, hbegins]
    simp
  live e he hkind := by
    rw [hc.begun]
    exact h.live e (hc.live e he hkind) hkind

theorem announce (h : Logged ms c) (hm : m.kind = .sessionStarted) :
    Logged (ms ++ [m]) (c.announce m.announced) where
  announced := Message.lastAnnounced_concat hm
  begun x := by
    have hbegins : m.begins? = none := by simp [Message.begins?, hm]
    rw [Message.exists_begins_concat, hbegins, ← h.begun]
    simp [Context.announce]
  live := h.live

/-- A project that is live was written down when it was made; any other is written down now. -/
theorem openProject (h : Logged ms c)
    (hm : m.kind = .projectStarted) (hname : m.param? "id" = some name) :
    Logged (ms ++ [m]) (c.openProject m.thread name).1 := by
  have hannounced : m.kind ≠ .sessionStarted := by simp [hm]
  have hbegins : m.begins? = some (normalizeProject name) := by simp [Message.begins?, hm, hname]
  unfold Context.openProject
  split
  · next e he =>
    obtain ⟨hlive, -, hkind, rfl⟩ := find?_eq_some he
    have hbegun := h.live e hlive hkind
    refine ⟨h.announced.concat_of_ne hannounced, fun x => ?_, h.live⟩
    rw [Message.exists_begins_concat, ← h.begun, hbegins, Option.some.injEq]
    exact ⟨Or.inl, fun hx => hx.elim id fun hx => hx ▸ hbegun⟩
  · refine ⟨h.announced.concat_of_ne hannounced, fun x => ?_, fun e he hkind => ?_⟩
    · rw [Message.exists_begins_concat, ← h.begun, hbegins, Option.some.injEq]
      simp [Context.create, eq_comm]
    · rcases List.mem_append.1 he with he | he
      · exact List.mem_append_left _ (h.live e he hkind)
      · rw [List.mem_singleton.1 he]
        exact List.mem_append_right _ List.mem_cons_self

end Execution.Context.Logged

/-! ### Messages -/

namespace Tracker

open Context (Logged Unlogged)

variable {o : Options} {t t' : Tracker} {m : Message} {now : Nat} {ms : List Message}

theorem Act.unlogged {es : List Event} (h : Act o m now t es t')
    (hannounced : m.kind ≠ .sessionStarted) (hstarted : m.kind ≠ .projectStarted) :
    Unlogged t.context t'.context := by
  cases h with
  | rests | restarts | fetches | resolves | complains => exact .refl _
  | announces hm => exact absurd hm hannounced
  | ends | fails => exact ⟨rfl, rfl, fun _ he _ => he⟩
  | starts hm hnew hmake =>
    cases hm with
    | project hm => exact absurd hm hstarted
    | task => exact .make (by decide) hmake
  | groups hm hcoord hidle hnew hmake => exact .make (by decide) hmake
  | finishes | closes => exact .complete _ _

/-- A message other than an announcement or the start of a project. -/
theorem unlogged_apply (t : Tracker) (m : Message) (now : Nat)
    (hannounced : m.kind ≠ .sessionStarted) (hstarted : m.kind ≠ .projectStarted) :
    Unlogged t.context (t.apply o m now).value.context := by
  obtain ⟨es, -, hacts⟩ := acts_apply o t m now
  exact hacts.fold (R := fun t _ t' => Unlogged t.context t'.context)
    (fun h => h.unlogged hannounced hstarted) .trans

theorem logged_fresh (session : Nat) : Logged [] (fresh session).context where
  announced := Or.inl ⟨rfl, fun _ h => absurd h List.not_mem_nil⟩
  begun := by simp [fresh, Context.fresh]
  live _ he := absurd he List.not_mem_nil

theorem logged_apply (h : Logged ms t.context) (o : Options) (m : Message) (now : Nat) :
    Logged (ms ++ [m]) (t.apply o m now).value.context := by
  by_cases hannounced : m.kind = .sessionStarted
  · have happly : (t.apply o m now).value.context = t.context.announce m.announced := by
      simp [Tracker.apply, hannounced]
    rw [happly]
    exact h.announce hannounced
  by_cases hstarted : m.kind = .projectStarted
  · have happly : (t.apply o m now).value = (t.startProject m now).value := by
      simp [Tracker.apply, hstarted]
    rw [happly]
    cases hname : m.param? "id" with
    | none =>
      have hbegins : m.begins? = none := by simp [Message.begins?, hname]
      have hsame : (t.startProject m now).value = t := by simp [startProject, hname]
      rw [hsame]
      exact h.concat_of_unlogged (.refl _) hannounced hbegins
    | some name =>
      have hopen : (t.startProject m now).value.context =
          (t.context.openProject m.thread name).1 := by simp [startProject, hname]
      rw [hopen]
      exact h.openProject hstarted hname
  have hbegins : m.begins? = none := by simp [Message.begins?, hstarted]
  exact h.concat_of_unlogged (unlogged_apply t m now hannounced hstarted) hannounced hbegins

theorem logged_applyAll (o : Options) (clock : Nat → Nat) (session : Nat) (ms : List Message) :
    Logged ms ((fresh session).applyAll o clock 0 ms).value.context := by
  induction ms using List.reverseRecOn with
  | nil => exact logged_fresh session
  | append_singleton ms m ih =>
    rw [applyAll_append]
    exact logged_apply ih o m _

/-! ## Top theorem -/

/-- After any messages the pending projects are those of the list announced last, in its order, that
no message started, before or after the announcement, on whatever thread, by a name that is reduced
to the same group and artifact.  Reducing a name twice is reducing it once. -/
theorem pending_eq_unstarted (o : Options) (clock : Nat → Nat) (session : Nat)
    (ms : List Message) :
    (∃ projects, Message.LastAnnounced ms projects ∧
      ((fresh session).applyAll o clock 0 ms).value.context.pending = projects.filter fun p =>
        !ms.any fun m => m.kind == .projectStarted &&
          (m.param? "id").any fun q => normalizeProject q == normalizeProject p) ∧
    ∀ id, normalizeProject (normalizeProject id) = normalizeProject id := by
  refine ⟨?_, normalizeProject_normalizeProject⟩
  have h := logged_applyAll o clock session ms
  refine ⟨_, h.announced, List.filter_congr fun p _ => ?_⟩
  congr 1
  rw [Bool.eq_iff_iff, List.contains_iff_mem, h.begun, List.any_eq_true]
  refine exists_congr fun m => and_congr_right fun _ => ?_
  simp [Message.begins?, Option.any_eq_true]

end Tracker

end BuildTree
