import BuildTree.Proofs.Acts
import BuildTree.Proofs.Moves

/-!
# What a message does, as moves

Each act of a message is a sequence of moves, under two conditions: the parts of the tracker fit
together (`Valid`), and `K` holds of what is live after a message that may start something.

    Act o m now t es t'      →   Moves o K t es t'                        (Act.moves)
    apply = what the error matchers say, then acts                         (moves_apply)
    abandonAll                                                             (moves_abandonAll)
-/

namespace BuildTree

open Execution Spy

namespace Execution.Context

theorem holds_parentOf {c : Context} {kind : EntryKind} {thread : Nat} {project : Option String} :
    c.Holds (c.parentOf kind thread project).id := by
  cases kind with
  | project => exact holds_sessionId
  | task => exact holds_taskParent project
  | node => exact holds_nodeParent

end Execution.Context

namespace Tracker

variable {o : Options} {K : Entry → Prop} {t t' : Tracker} {m : Message} {now : Nat}
  {es : List Event} {c : Context} {e : Entry}

/-! ## Acts -/

/-- An entry that is made starts, and what it adds to the projects begun is written after that. -/
theorem moves_make {kind : EntryKind} {thread : Nat} {project : Option String} {name : String}
    (hmake : t.context.make kind thread project name = (c, e)) (hk : K e) (now : Nat) :
    Moves o K t [e.started now] { t with context := c } := by
  obtain ⟨rfl, rfl⟩ := Prod.mk.inj hmake
  let parent := t.context.parentOf kind thread project
  have hstart := Move.starts (o := o) (K := K) kind thread name parent now Context.holds_parentOf hk
  have hbegun := Move.marks (o := o) (K := K)
    (t := { t with context := (t.context.create kind thread name parent).1 })
    (t.context.make kind thread project name).1 rfl rfl rfl
  exact .more hstart hbegun.one

/-- No download hangs under a project or a task. -/
theorem Valid.node_ne_id (hv : t.Valid o) (he : e ∈ t.context.live) (hkind : e.kind ≠ .node) :
    ∀ d ∈ t.downloads, d.node ≠ e.id := by
  intro d hd hid
  obtain ⟨x, hx, hxk, -, hxid⟩ := hv.nodes d hd
  have : x = e := hv.numbered.eq_of_id_eq hx he (hxid.trans hid)
  exact hkind (this ▸ hxk)

theorem nodup_downloads (hv : t.Valid o) : t.downloads.Nodup := hv.coords.of_map _

/-- The downloads under a node finish one after the other, and then the node. -/
theorem moves_closes (hv : t.Valid o) (he : e ∈ t.context.live) (now : Nat) :
    Moves o K t
      ((Download.sorted (t.downloads.filter (·.node == e.id))).map (·.finished now .unknown) ++
        [e.finished now .success])
      ⟨t.context.complete e, t.downloads.filter (·.node != e.id)⟩ := by
  have hmem : ∀ d, d ∈ Download.sorted (t.downloads.filter (·.node == e.id)) ↔
      d ∈ t.downloads ∧ d.node = e.id := by
    simp [Download.sorted]
  have habandon := moves_abandon (o := o) (K := K) now hv.coords
    (fun d hd => ((hmem d).1 hd).1)
    ((List.mergeSort_perm _ _).nodup_iff.2 ((nodup_downloads hv).filter _))
  have hfilter : t.downloads.filter
      (· ∉ Download.sorted (t.downloads.filter (·.node == e.id))) =
        t.downloads.filter (·.node != e.id) := by
    refine List.filter_congr fun d hd => ?_
    rw [Bool.eq_iff_iff]
    simp [hmem, hd]
  have hfinish := Move.finishes (o := o) (K := K)
    (t := { t with downloads := t.downloads.filter (·.node != e.id) }) now .success he
    (fun d hd => by simpa using (List.mem_filter.1 hd).2)
  rw [hfilter] at habandon
  exact habandon.trans hfinish.one

theorem coord_ne_of_idle {coord : String} (h : t.isDownloading coord = false) :
    ∀ d ∈ t.downloads, d.coord ≠ coord := by
  intro d hd hcoord
  rw [isDownloading, download?, Bool.eq_false_iff, ne_eq, List.find?_isSome] at h
  exact h ⟨d, hd, by simpa using hcoord⟩

theorem holds_failureParent (thread : Nat) : t.context.Holds (t.failureParent o thread) := by
  unfold failureParent
  split
  · next e he =>
    rcases Option.or_eq_some_iff.1 he with he | ⟨-, he⟩
    · exact Context.holds_of_live (Context.find?_eq_some he).1
    · exact Context.holds_of_live (Context.innermostWith?_eq_some he).1
  · exact Context.holds_currentId

/-- A message that closes downloads starts nothing, so that `K` matters to the others only. -/
theorem Act.moves (hv : t.Valid o) (h : Act o m now t es t')
    (hk : m.closesDownloads = false → ∀ e ∈ t'.context.live, K e) : Moves o K t es t' := by
  cases h with
  | rests => exact .refl t
  | announces hm => exact (Move.marks (t.context.announce m.announced) rfl rfl rfl).one
  | ends outcome hm =>
    exact .more (.remarks (.sessionFinished now o.sessionName outcome))
      (Move.marks t.context.markEnded rfl rfl rfl).one
  | fails hm => exact (Move.marks t.context.markFailed rfl rfl rfl).one
  | starts hm hnew hmake =>
    refine moves_make hmake (hk hm.closesDownloads _ ?_) now
    obtain ⟨rfl, rfl⟩ := Prod.mk.inj hmake
    exact List.mem_append_right _ List.mem_cons_self
  | restarts hm hfound => exact (Move.restarts now (Context.find?_eq_some hfound).1).one
  | finishes hm hkind hfound =>
    obtain ⟨hlive, -, rfl, -⟩ := Context.find?_eq_some hfound
    exact (Move.finishes now m.outcome hlive (hv.node_ne_id hlive hkind)).one
  | closes hm hnode => exact moves_closes hv (Context.find?_eq_some hnode).1 now
  | fetches hm hcoord hidle hnode =>
    obtain ⟨hlive, -, hkind, hname⟩ := Context.find?_eq_some hnode
    exact (Move.fetches now hlive hkind hname rfl (coord_ne_of_idle hidle)).one
  | @groups coord c node hm hcoord hidle hnew hmake =>
    have hlive : node ∈ c.live := by
      obtain ⟨rfl, rfl⟩ := Prod.mk.inj hmake
      exact List.mem_append_right _ List.mem_cons_self
    have hnode : node.kind = .node ∧ node.name = o.downloadNode := by
      obtain ⟨rfl, rfl⟩ := Prod.mk.inj hmake
      exact ⟨rfl, rfl⟩
    have hstart := moves_make (o := o) hmake (hk (Message.closesDownloads_of_fetch hm) node hlive) now
    have hfetch := Move.fetches (o := o) (K := K) (t := { t with context := c })
      (d := ⟨coord, node.id⟩) now hlive hnode.1 hnode.2 rfl (coord_ne_of_idle hidle)
    exact hstart.trans hfetch.one
  | resolves outcome hm hcoord hd =>
    exact (Move.fetched now outcome (List.mem_of_find?_eq_some hd)).one
  | complains error hm hparent =>
    have hholds := hparent ▸ holds_failureParent m.thread
    refine moves_asides fun e he => ?_
    rcases List.mem_cons.1 he with rfl | he
    · exact .failureStarted now error hholds
    · rw [List.mem_singleton.1 he]
      exact .failureFinished _ now error _

theorem Act.valid (hv : t.Valid o) (h : Act o m now t es t') : t'.Valid o :=
  (h.moves (K := fun _ => True) hv fun _ _ _ => trivial).valid hv

theorem Acts.moves (hv : t.Valid o) (h : Acts o m now t es t')
    (hk : m.closesDownloads = false → ∀ e ∈ t'.context.live, K e) : Moves o K t es t' := by
  induction h with
  | one h => exact h.moves hv hk
  | more hm h _ ih =>
    have hact := h.moves (K := K) hv fun hnot => by simp [hm] at hnot
    exact hact.trans (ih (hact.valid hv) hk)

/-! ## Messages -/

/-- What the error matchers say hangs under something that the context holds. -/
theorem messages_reportError (ho : o.BuiltIn) :
    ∃ p, t.context.Holds p ∧ ∀ e ∈ (t.reportError o m).events, e.IsMessage p := by
  unfold reportError
  split
  · exact ⟨_, Context.holds_sessionId, fun _ he => absurd he List.not_mem_nil⟩
  · next error herror =>
    refine ⟨((t.context.innermostExecution? m.thread).map (·.id)).getD t.context.currentId, ?_, ?_⟩
    · cases he : t.context.innermostExecution? m.thread with
      | none => exact Context.holds_currentId
      | some e => exact Context.holds_of_live (Context.innermostWith?_eq_some he).1
    · intro e he
      simp only [Emits.events_bind, Emits.events_pure, List.append_nil] at he
      exact ErrorMatcher.messages_offer ho _ _ _ _ e he

theorem moves_apply (hv : t.Valid o) (ho : o.BuiltIn)
    (hk : ∀ e ∈ (t.apply o m now).value.context.live, K e) :
    Moves o K t (t.apply o m now).events (t.apply o m now).value := by
  obtain ⟨es, hevents, hacts⟩ := acts_apply o t m now
  obtain ⟨p, hp, hmessages⟩ := messages_reportError (t := t) (m := m) ho
  rw [hevents]
  exact (moves_messages hp hmessages).trans (hacts.moves hv fun _ => hk)

theorem moves_processLine (hv : t.Valid o) (ho : o.BuiltIn) (raw : String)
    (hk : ∀ e ∈ (t.processLine o raw now).value.2.context.live, K e) :
    Moves o K t (t.processLine o raw now).events (t.processLine o raw now).value.2 := by
  unfold processLine at hk ⊢
  split
  · exact .refl t
  · next m hm =>
    simp only [hm, Emits.events_bind, Emits.value_bind, Emits.events_pure, Emits.value_pure,
      List.append_nil] at hk ⊢
    exact moves_apply hv ho hk

/-! ## The end of the output -/

theorem moves_abandonAll (hv : t.Valid o) (now : Nat) :
    Moves o K t (t.abandonAll now).events (t.abandonAll now).value := by
  have hmem : ∀ d, d ∈ Download.sorted t.downloads ↔ d ∈ t.downloads := by
    simp [Download.sorted]
  have habandon := moves_abandon (o := o) (K := K) now hv.coords
    (fun d hd => (hmem d).1 hd) ((List.mergeSort_perm _ _).nodup_iff.2 (nodup_downloads hv))
  have hfilter : t.downloads.filter (· ∉ Download.sorted t.downloads) = [] := by
    simp [List.filter_eq_nil_iff, hmem]
  rw [hfilter] at habandon
  simpa [abandonAll, Download.abandon] using habandon

end Tracker

end BuildTree
