import BuildTree.Proofs.Histories
import BuildTree.Proofs.Lifecycle
import BuildTree.Proofs.Steps
import Mathlib.Data.List.Sort
import Mathlib.Logic.Relation

/-!
# Nesting

What a tracker does to its context is a sequence of small changes: an entry is asked for, which
creates it when there is none, an entry is completed, or a mark is set.  Every change keeps that
an entry lies inside its parent (`Nested`): later in the list, on the same thread.  So the list of
all live entries, turned around and sorted by threads, has children before their parents.

    apply, parseLine, finish, calls change the context             (changes_calls)
    Change c c' → Nested c → Nested c'                             (Change.nested)
    Nested c → p the parent of e → e before p in liveReversed c    (insideOut_liveReversed)
-/

namespace BuildTree

open Execution Spy

/-! ## Algorithm -/

namespace Execution

/-- Every entry comes before its parent, where both are in the list. -/
def InsideOut (es : List Entry) : Prop :=
  ∀ e ∈ es, ∀ p ∈ es, p.id = e.parent.id → [e, p].Sublist es

namespace Context

/-- One change of a context. -/
inductive Change (c : Context) : Context → Prop
  /-- An entry is asked for by its name, and created when there is none. -/
  | acquires (kind thread project name) : Change c (c.acquire kind thread project name).1
  | completes (e) : Change c (c.complete e)
  /-- What changes are neither entries nor numbers. -/
  | marks {c'} (hs : c'.session = c.session) (hn : c'.nextSeq = c.nextSeq)
      (hl : c'.live = c.live) : Change c c'

/-- Changes one after the other. -/
abbrev Changes : Context → Context → Prop := Relation.ReflTransGen Change

/-- The live entries stand in the order of their numbers.  One that is not under the session is
under a smaller number, and if that is live, then on the same thread. -/
structure Nested (c : Context) : Prop where
  numbered : c.Numbered
  ascending : c.live.Pairwise fun x y => x.id.seq < y.id.seq
  under : ∀ e ∈ c.live, e.parent.id = c.sessionId ∨ e.parent.id.seq < e.id.seq
  beside : ∀ e ∈ c.live, ∀ p ∈ c.live, p.id = e.parent.id → p.thread = e.thread

/-! ## One change -/

variable {c c' : Context} {e p : Entry}

theorem nested_fresh (session : Nat) : (fresh session).Nested where
  numbered := numbered_fresh session
  ascending := .nil
  under _ he := absurd he List.not_mem_nil
  beside _ he := absurd he List.not_mem_nil

theorem Numbered.seq_lt (h : c.Numbered) (he : e ∈ c.live) : e.id.seq < c.nextSeq := by
  obtain ⟨q, hq, hid⟩ := h.issued e he
  rwa [hid]

theorem Nested.congr (h : c.Nested) (hs : c'.session = c.session) (hn : c'.nextSeq = c.nextSeq)
    (hl : c'.live = c.live) : c'.Nested := by
  have hid : c'.sessionId = c.sessionId := congrArg EventId.session hs
  obtain ⟨hnumbered, hascending, hunder, hbeside⟩ := h
  refine ⟨hnumbered.congr hs hn hl, ?_, ?_, ?_⟩ <;> simpa only [hl, hid]

theorem Nested.complete (h : c.Nested) (e : Entry) : (c.complete e).Nested where
  numbered := h.numbered.complete e
  ascending := h.ascending.sublist List.filter_sublist
  under x hx := h.under x (mem_of_mem_complete hx)
  beside x hx p hp := h.beside x (mem_of_mem_complete hx) p (mem_of_mem_complete hp)

/-- What a new entry hangs under is the session, or live on its thread and of a smaller number. -/
theorem Hangs.parent_cases (h : c.Hangs e) :
    e.parent.id = c.sessionId ∨
      ∃ p ∈ c.live, p.thread = e.thread ∧ p.id.seq < e.id.seq ∧ e.parent.id = p.id := by
  cases h with
  | session h => exact Or.inl (congrArg Parent.id h)
  | project _ hlive hthread hseq _ h => exact Or.inr ⟨_, hlive, hthread, hseq, congrArg Parent.id h⟩
  | task _ hlive hthread hseq _ h => exact Or.inr ⟨_, hlive, hthread, hseq, congrArg Parent.id h⟩

/-- A new entry hangs under what was live before it, and nothing that was live hangs under it. -/
theorem Nested.concat (h : c.Nested) (hn : c'.Numbered) (hs : c'.session = c.session)
    (hl : c'.live = c.live ++ [e]) (hseq : e.id.seq = c.nextSeq) (hh : c.Hangs e) : c'.Nested := by
  have hsession : c'.sessionId = c.sessionId := congrArg EventId.session hs
  have hmem : ∀ {x}, x ∈ c'.live ↔ x ∈ c.live ∨ x = e := by simp [hl]
  refine ⟨hn, ?_, fun x hx => ?_, fun x hx p hp hid => ?_⟩
  · rw [hl, List.pairwise_append]
    refine ⟨h.ascending, List.pairwise_singleton _ _, fun x hx y hy => ?_⟩
    rw [List.mem_singleton.1 hy, hseq]
    exact h.numbered.seq_lt hx
  · rw [hsession]
    rcases hmem.1 hx with hx | rfl
    · exact h.under x hx
    · rcases hh.parent_cases with hsess | ⟨p, -, -, hlt, hpid⟩
      · exact Or.inl hsess
      · exact Or.inr (hpid ▸ hlt)
  · have hne : x.parent.id ≠ c.sessionId := by
      rw [← hid, ← hsession]
      exact hn.id_ne_sessionId hp
    rcases hmem.1 hx, hmem.1 hp with ⟨hx | rfl, hp | rfl⟩
    · exact h.beside x hx p hp hid
    · -- what was live hangs under a smaller number than the new one
      have hlt := (h.under x hx).resolve_left hne
      have hxseq := h.numbered.seq_lt hx
      rw [← hid] at hlt
      omega
    · obtain ⟨q, hq, hthread, -, hqid⟩ := hh.parent_cases.resolve_left hne
      rwa [h.numbered.eq_of_id_eq hp hq (hid.trans hqid)]
    · rfl

theorem Change.makes {kind : EntryKind} {thread : Nat} {project : Option String} {name : String}
    (hnew : c.find? kind thread name = none)
    (hmake : c.make kind thread project name = (c', e)) : Change c c' := by
  have hacquires := Change.acquires (c := c) kind thread project name
  rwa [acquire_of_absent hnew, hmake] at hacquires

theorem Change.nested (hc : Change c c') (h : c.Nested) : c'.Nested := by
  cases hc with
  | acquires kind thread project name =>
    cases hfound : c.find? kind thread name with
    | some e => rwa [acquire_of_found hfound]
    | none =>
      rw [acquire_of_absent hfound]
      have hcreate := h.concat (h.numbered.create kind thread name (c.parentOf kind thread project))
        rfl rfl rfl (hangs_create (fun _ => h.numbered.seq_lt) kind thread project name)
      exact hcreate.congr rfl rfl rfl
  | completes e => exact h.complete e
  | marks hs hn hl => exact h.congr hs hn hl

theorem Changes.nested (hc : Changes c c') (h : c.Nested) : c'.Nested := by
  induction hc with
  | refl => exact h
  | tail _ hstep ih => exact hstep.nested ih

theorem changes_foldl_complete (xs : List Entry) (c : Context) :
    Changes c (xs.foldl Context.complete c) := by
  induction xs generalizing c with
  | nil => exact .refl
  | cons e xs ih => exact .head (.completes e) (ih (c.complete e))

/-! ## The order of the live entries -/

/-- Of two live entries the one with the smaller number comes first. -/
theorem Nested.sublist_live (h : c.Nested) (hp : p ∈ c.live) (he : e ∈ c.live)
    (hlt : p.id.seq < e.id.seq) : [p, e].Sublist c.live := by
  have : Std.Antisymm fun x y : Entry => x.id.seq < y.id.seq :=
    ⟨fun _ _ hxy hyx => absurd hxy (Nat.lt_asymm hyx)⟩
  have hne : p ≠ e := fun hpe => Nat.lt_irrefl _ (hpe ▸ hlt)
  have hsub : [p, e].Subperm c.live :=
    List.subperm_of_subset (by simp [hne]) (by simp [hp, he])
  exact List.sublist_of_subperm_of_pairwise hsub (by simp [hlt]) h.ascending

theorem Nested.insideOut_liveReversed (h : c.Nested) : InsideOut c.liveReversed := by
  intro e he p hp hid
  rw [(liveReversed_perm c).mem_iff] at he hp
  have hlt : p.id.seq < e.id.seq := by
    rcases h.under e he with hsess | hlt
    · exact absurd (hid.trans hsess) (h.numbered.id_ne_sessionId hp)
    · rwa [hid]
  have hthread := h.beside e he p hp hid
  have hreverse : [e, p].Sublist c.live.reverse := (h.sublist_live hp he hlt).reverse
  -- sorting by threads is stable, and both are on one thread
  refine List.pair_sublist_mergeSort (fun x y z hxy hyz => ?_) (fun x y => ?_) ?_ hreverse
  · simp only [decide_eq_true_eq] at hxy hyz ⊢
    exact Nat.le_trans hxy hyz
  · simpa using Nat.le_total x.thread y.thread
  · simp [hthread]

end Context

end Execution

/-! ## What trackers and sessions change -/

namespace Tracker

variable {o : Options} {t t' : Tracker} {m : Message} {now : Nat}

theorem Act.changes {es : List Event} (h : Act o m now t es t') : t.context.Changes t'.context := by
  cases h with
  | rests | restarts | fetches | resolves | complains => exact .refl
  | announces | ends | fails => exact .single (.marks rfl rfl rfl)
  | starts hm hnew hmake | groups hm hcoord hidle hnew hmake =>
    exact .single (.makes hnew hmake)
  | finishes | closes => exact .single (.completes _)

theorem changes_apply : t.context.Changes (t.apply o m now).value.context := by
  obtain ⟨es, -, hacts⟩ := acts_apply o t m now
  exact hacts.fold (R := fun t _ t' => t.context.Changes t'.context) Act.changes .trans

theorem changes_processLine (raw : String) :
    t.context.Changes (t.processLine o raw now).value.2.context := by
  unfold processLine
  split
  · exact .refl
  · exact changes_apply

end Tracker

namespace Session

variable {o : Setup} {s : Session}

theorem changes_parseLine (o : Setup) (s : Session) (raw : String) (cursor : Cursor) :
    s.context.Changes (s.parseLine o raw cursor).value.2.1.context := by
  rcases parseLine_cases o s raw cursor with
    ⟨-, h⟩ | ⟨-, -, h⟩ | ⟨-, -, -, h⟩ | ⟨-, -, -, h⟩
  · rw [h, Emits.value_map, lateLine]
    dsimp only
    split
    · exact .refl
    · exact .single (.marks rfl rfl rfl)
  · rw [h, Emits.value_map, context, context, tracker_spyLine]
    exact Tracker.changes_processLine (t := s.tracker) raw
  · rw [h]
    exact .refl
  · rw [h, context, context, tracker_plainLine]
    exact .refl

theorem changes_call (c : Call) : s.context.Changes (s.call o c).value.context := by
  cases c with
  | line raw cursor => exact changes_parseLine o s raw cursor
  | finish =>
    cases hfin : s.finished with
    | true =>
      rw [call, finish_of_finished hfin]
      exact .refl
    | false =>
      rw [call, context, context, tracker_finish hfin]
      exact Context.changes_foldl_complete s.context.liveReversed s.context

theorem changes_calls (cs : List Call) : s.context.Changes (s.calls o cs).value.context := by
  induction cs generalizing s with
  | nil => exact .refl
  | cons c cs ih => exact (changes_call c).trans ih

/-! ## Top theorems -/

/-- Whatever lines a session has parsed, the first handling of the end of the output closes inside
out, all at one time.  Once the matchers had their say, every open download finishes, then every
live entry, an entry before its parent, then the session unless it had ended; with that nothing is
open. -/
theorem finish_inside_out (settings : Settings) (clock : Nat → Nat) (n : Nat)
    (ls : List (String × Cursor)) :
    let o := Setup.ofSettings settings clock
    let s := ((start settings (.fresh n)).calls o (lineCalls ls)).value
    let now := clock s.ticks
    let x := s.finish o
    ∃ (summary : List Event) (downloads : List Download) (entries : List Entry),
      x.events = summary ++ (downloads.map (·.finished now .unknown) ++
        (entries.map (·.finished now .unknown) ++
          if s.context.ended then []
          else [.finished (.session n) none now settings.sessionName .unknown])) ∧
      (∀ e ∈ summary, e.IsMessage (.session n)) ∧
      downloads.Perm s.tracker.downloads ∧ (downloads.map (·.coord)).Nodup ∧
      entries.Perm s.context.live ∧ (entries.map (·.id)).Nodup ∧ InsideOut entries ∧
      x.value.context.live = [] ∧ x.value.tracker.downloads = [] := by
  intro o s now x
  have htold := told_calls settings clock n (lineCalls ls)
  have hm := isBuiltIn_calls (o := o) (builtIn_start settings (.fresh n)) (lineCalls ls)
  have hfin : s.finished = false := finished_lineCalls o (start settings (.fresh n)) ls
  have hnested : s.context.Nested := (changes_calls (lineCalls ls)).nested (Context.nested_fresh n)
  have hid : s.context.sessionId = .session n := congrArg EventId.session htold.session
  have hdownloads := List.mergeSort_perm s.tracker.downloads fun a b => a.coord ≤ b.coord
  have hentries := s.context.liveReversed_perm
  obtain ⟨summary, hsummary, hevents⟩ := events_finish (o := o) hm hfin
  rw [events_flush, Tracker.sessionFinished, hid] at hevents
  rw [hid] at hsummary
  exact ⟨summary, Download.sorted s.tracker.downloads, s.context.liveReversed, hevents, hsummary,
    hdownloads, (hdownloads.map _).nodup_iff.2 htold.valid.coords,
    hentries, (hentries.map _).nodup_iff.2 hnested.numbered.distinct,
    hnested.insideOut_liveReversed, live_finish o s hfin,
    congrArg Tracker.downloads (tracker_finish hfin)⟩

end Session

end BuildTree
