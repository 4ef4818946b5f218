import BuildTree.Proofs.Calls
import BuildTree.Proofs.Stream
import BuildTree.View.Tree

/-!
# Depths in the tree view

A node gets its depth when it starts, one more than its parent has just then, and keeps it until it
finishes.  So a live entry of a session is always deeper in the view than what it hangs under: a
parent that starts again is never put deeper than it was, and one that finished has depth 0.

    depthOf i after an event of another id   = depthOf i before it            (depthOf_render_of_ne)
    depthOf i after an event but its start   ≤ depthOf i before it            (depthOf_render_le)
    e live                                   → depthOf e.parent < depthOf e   (layered_calls)
-/

namespace BuildTree

open Execution Events

/-! ## Algorithm -/

namespace TreeView

/-- What a view shows for some events. -/
def shown (v : TreeView) (es : List Event) : List (Option String) := (v.renderAll es).1

/-- The view after some events. -/
def after (v : TreeView) (es : List Event) : TreeView := (v.renderAll es).2

/-- Every live entry is deeper than what it hangs under, which is the session or was numbered
before. -/
structure Layered (v : TreeView) (c : Context) : Prop where
  below : ∀ e ∈ c.live, v.depthOf (some e.parent.id) < v.depthOf (some e.id)
  earlier : ∀ e ∈ c.live, e.parent.id = c.sessionId ∨
    ∃ q < c.nextSeq, e.parent.id = .entry c.session q

end TreeView

/-! ## Lemmas -/

namespace TreeView

variable {v w : TreeView} {e : Event} {es fs : List Event} {i j : EventId} {c : Context}
  {x : Entry} {parent : Option EventId} {name : String}

@[simp] theorem after_nil : v.after [] = v := rfl

@[simp] theorem after_cons : v.after (e :: es) = (v.render e).2.after es := rfl

@[simp] theorem after_append : v.after (es ++ fs) = (v.after es).after fs := by
  induction es generalizing v with
  | nil => rfl
  | cons e es ih => exact ih

@[simp] theorem showOutput_render : (v.render e).2.showOutput = v.showOutput := by
  cases e with
  | output =>
    simp only [render]
    split <;> rfl
  | _ => rfl

@[simp] theorem showOutput_after : (v.after es).showOutput = v.showOutput := by
  induction es generalizing v with
  | nil => rfl
  | cons e es ih => rw [after_cons, ih, showOutput_render]

/-! ## One event -/

theorem depthOf_congr (h : w.depths = v.depths) (i : Option EventId) :
    w.depthOf i = v.depthOf i := by
  rw [depthOf, depthOf, h]

theorem depthOf_start_self :
    (v.start i parent name).depthOf (some i) = v.depthOf parent + 1 := by
  simp [depthOf, start, Table.get?_insert_self]

theorem depthOf_start_of_ne (h : j ≠ i) :
    (v.start i parent name).depthOf (some j) = v.depthOf (some j) := by
  simp [depthOf, start, Table.get?_insert_of_ne h]

theorem depthOf_finish_self : (v.finish i).depthOf (some i) = 0 := by
  simp [depthOf, finish, Table.get?_erase_self]

/-- Only its own start and finish change what is known of the depth of a node. -/
theorem get?_render_of_ne (h : e.id? ≠ some i) :
    (v.render e).2.depths.get? i = v.depths.get? i := by
  cases e with
  | started id parent time name => exact Table.get?_insert_of_ne fun hi => h (congrArg some hi.symm)
  | finished id parent time name outcome =>
    exact Table.get?_erase_of_ne fun hi => h (congrArg some hi.symm)
  | output parent text =>
    simp only [render]
    split <;> rfl
  | message => rfl

theorem depthOf_render_of_ne (h : e.id? ≠ some i) :
    (v.render e).2.depthOf (some i) = v.depthOf (some i) := by
  rw [depthOf, depthOf, Option.bind_some, Option.bind_some, get?_render_of_ne h]

/-- Only its start gives a node a larger depth. -/
theorem depthOf_render_le (h : isStart e = true → e.id? ≠ some i) :
    (v.render e).2.depthOf (some i) ≤ v.depthOf (some i) := by
  by_cases hi : e.id? = some i
  · cases e with
    | started => exact absurd hi (h rfl)
    | finished id parent time name outcome =>
      cases hi
      exact Nat.le_trans (Nat.le_of_eq depthOf_finish_self) (Nat.zero_le _)
    | output => cases hi
    | message => cases hi
  · exact Nat.le_of_eq (depthOf_render_of_ne hi)

/-! ## Layers -/

/-- An event of no live entry, and not the start of something that entries hang under. -/
theorem Layered.render (h : Layered v c) (hlive : ∀ x ∈ c.live, e.id? ≠ some x.id)
    (hparent : isStart e = true → ∀ x ∈ c.live, e.id? ≠ some x.parent.id) :
    Layered (v.render e).2 c := by
  refine ⟨fun x hx => ?_, h.earlier⟩
  rw [depthOf_render_of_ne (hlive x hx)]
  exact Nat.lt_of_le_of_lt (depthOf_render_le fun hs => hparent hs x hx) (h.below x hx)

theorem Layered.render_named (h : Layered v c) (hn : c.Numbered) {text : String}
    (he : e.id? = some (.named text)) : Layered (v.render e).2 c := by
  refine h.render (fun x hx hid => ?_) (fun _ x hx hid => ?_)
  · obtain ⟨q, -, hq⟩ := hn.issued x hx
    rw [he, hq] at hid
    cases hid
  · rcases h.earlier x hx with hp | ⟨q, -, hp⟩ <;> rw [he, hp] at hid <;> cases hid

/-- A new entry starts under something that the context holds. -/
theorem Layered.create (h : Layered v c) (hn : c.Numbered) (kind : EntryKind) (thread : Nat)
    (name : String) {p : Parent} (hp : c.Holds p.id) (now : Nat) :
    Layered (v.render ((c.create kind thread name p).2.started now)).2
      (c.create kind thread name p).1 := by
  have hnext : ∀ x ∈ c.live, x.parent.id ≠ .entry c.session c.nextSeq := by
    intro x hx hid
    rcases h.earlier x hx with hsession | ⟨q, hq, hentry⟩
    · rw [hsession] at hid
      cases hid
    · rw [hentry] at hid
      injection hid with _ hqs
      omega
  have hparent : p.id = c.sessionId ∨ ∃ q < c.nextSeq, p.id = .entry c.session q := by
    rcases hp with hp | ⟨x, hx, hid⟩
    · exact Or.inl hp
    · obtain ⟨q, hq, hxid⟩ := hn.issued x hx
      exact Or.inr ⟨q, hq, hid ▸ hxid⟩
  have hself : p.id ≠ .entry c.session c.nextSeq := by
    rcases hparent with hid | ⟨q, hq, hid⟩ <;> rw [hid]
    · exact fun heq => by cases heq
    · intro heq
      injection heq with _ hqs
      omega
  refine ⟨fun x hx => ?_, fun x hx => ?_⟩
  · show (v.start (.entry c.session c.nextSeq) (some p.id) name).depthOf _ <
      (v.start (.entry c.session c.nextSeq) (some p.id) name).depthOf _
    rcases List.mem_append.1 hx with hx | hx
    · rw [depthOf_start_of_ne (hn.id_ne_next hx), depthOf_start_of_ne (hnext x hx)]
      exact h.below x hx
    · rw [List.mem_singleton.1 hx]
      show _ < (v.start _ _ _).depthOf (some (.entry c.session c.nextSeq))
      rw [depthOf_start_self]
      exact Nat.lt_succ_of_le (Nat.le_of_eq (depthOf_start_of_ne hself))
  · rcases List.mem_append.1 hx with hx | hx
    · exact (h.earlier x hx).imp_right fun ⟨q, hq, hid⟩ => ⟨q, Nat.lt_succ_of_lt hq, hid⟩
    · rw [List.mem_singleton.1 hx]
      exact hparent.imp_right fun ⟨q, hq, hid⟩ => ⟨q, Nat.lt_succ_of_lt hq, hid⟩

/-- A live entry that starts again is put right below its parent, so it does not get deeper. -/
theorem Layered.restart (h : Layered v c) (hn : c.Numbered) (hx : x ∈ c.live) (now : Nat) :
    Layered (v.render (x.started now)).2 c := by
  have hbelow := h.below x hx
  have hself : x.parent.id ≠ x.id := fun hid => by
    rw [hid] at hbelow
    exact Nat.lt_irrefl _ hbelow
  refine ⟨fun y hy => ?_, h.earlier⟩
  show (v.start x.id (some x.parent.id) x.name).depthOf _ <
    (v.start x.id (some x.parent.id) x.name).depthOf _
  by_cases hyx : y.id = x.id
  · rw [hn.eq_of_id_eq hy hx hyx, depthOf_start_self, depthOf_start_of_ne hself]
    exact Nat.lt_succ_self _
  · have hy := h.below y hy
    rw [depthOf_start_of_ne hyx]
    by_cases hp : y.parent.id = x.id
    · rw [hp, depthOf_start_self]
      rw [hp] at hy
      exact Nat.lt_of_le_of_lt hbelow hy
    · rwa [depthOf_start_of_ne hp]

theorem Layered.complete (h : Layered v c) (hn : c.Numbered) (hx : x ∈ c.live) (now : Nat)
    (outcome : Outcome) : Layered (v.render (x.finished now outcome)).2 (c.complete x) := by
  refine ⟨fun y hy => ?_, fun y hy => h.earlier y (Context.mem_of_mem_complete hy)⟩
  obtain ⟨hy, hyx⟩ := (hn.mem_complete hx).1 hy
  have hid : (x.finished now outcome).id? ≠ some y.id := fun hid =>
    hyx (hn.eq_of_id_eq hy hx (Option.some.inj hid).symm)
  rw [depthOf_render_of_ne hid]
  exact Nat.lt_of_le_of_lt (depthOf_render_le fun hs => by cases hs) (h.below y hy)

/-! ## Moves and calls -/

theorem Layered.aside (h : Layered v c) (hn : c.Numbered) (he : Tracker.Aside c e) :
    Layered (v.render e).2 c := by
  cases he with
  | output => exact h.render (fun _ _ hid => by cases hid) (fun hs => by cases hs)
  | message => exact h
  | failureStarted now error => exact h.render_named hn rfl
  | failureFinished p now error => exact h.render_named hn rfl
  | sessionFinished now name outcome =>
    refine h.render (fun x hx hid => ?_) (fun hs => by cases hs)
    exact hn.id_ne_sessionId hx (Option.some.inj hid).symm

theorem Layered.move {o : Tracker.Options} {K : Entry → Prop} {t t' : Tracker}
    (h : Layered v t.context) (hn : t.context.Numbered) (hm : Tracker.Move o K t es t') :
    Layered (v.after es) t'.context := by
  cases hm with
  | starts kind thread name parent now hp => exact h.create hn kind thread name hp now
  | restarts now he => exact h.restart hn he now
  | finishes now outcome he => exact h.complete hn he now outcome
  | @fetches e d now =>
    have hid : (d.started now).id? = some (.named ("download" ++ d.coord)) := rfl
    exact h.render_named hn hid
  | @fetched d now outcome =>
    have hid : (d.finished now outcome).id? = some (.named ("download" ++ d.coord)) := rfl
    exact h.render_named hn hid
  | remarks ha => exact h.aside hn ha
  | marks c hs hnext hl =>
    refine ⟨by simpa only [hl, after_nil] using h.below, ?_⟩
    simpa only [hl, hnext, hs, Context.sessionId] using h.earlier

end TreeView

/-! ## Top theorems -/

/-- Whatever calls a session gets, in a view of its events every live entry is deeper than what it
hangs under. -/
theorem Session.layered_calls (settings : Settings) (clock : Nat → Nat) (n : Nat)
    (cs : List Call) (v : TreeView) :
    let x := (start settings (.fresh n)).calls (.ofSettings settings clock) cs
    TreeView.Layered (v.after x.events) x.value.context := by
  have hfresh : (Tracker.fresh n).Valid (Setup.ofSettings settings clock).toOptions ∧
      TreeView.Layered (v.after []) (Tracker.fresh n).context :=
    ⟨Tracker.valid_fresh _ n, ⟨fun _ he => absurd he List.not_mem_nil,
      fun _ he => absurd he List.not_mem_nil⟩⟩
  refine (calls_keep (K := fun _ => True) settings clock n cs (fun _ _ _ => trivial)
    (I := fun es t => t.Valid (Setup.ofSettings settings clock).toOptions ∧
      TreeView.Layered (v.after es) t.context) hfresh ?_).2
  rintro es t fs t' ⟨hv, h⟩ hm
  rw [TreeView.after_append]
  exact ⟨hm.valid hv, h.move hv.numbered hm⟩

end BuildTree
