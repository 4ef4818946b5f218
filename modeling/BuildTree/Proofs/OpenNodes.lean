import BuildTree.Proofs.Depths
import Mathlib.Data.List.Induction

/-!
# The open nodes of a view

A view keeps three things of the nodes that have started and not finished: their depths, their
names, and their ids in the order of the starts.  Each is changed on its own.  After any events,
also when nodes start again while they are open or finish without a start, the three agree, and
what is open is told by the events alone: the starts that no later finish of their ids follows.

    openStarts es                    those starts, in order
    (v.after es).running             their ids                               (Keeps.running)
    (v.after es).names.get? i        the name in the last of them that is of i   (Keeps.names)
    (v.after es).depths.ids          their ids, each once                    (Keeps.depths)

The depth that a node gets when it starts is kept until it finishes, so its finish stands one level
further out than its start, whatever happens to its parent meanwhile (`line_finished`).
-/

namespace BuildTree

open Events

/-! ## Algorithm -/

/-- Whether an event is a finish of an id. -/
def Event.finishes (i : EventId) : Event → Bool
  | .finished j .. => j == i
  | _ => false

namespace Events

/-- The starts that no later finish of their ids follows, by ids and names. -/
def openStarts : List Event → List (EventId × String)
  | [] => []
  | .started i _ _ name :: es =>
    if es.any (Event.finishes i) then openStarts es else (i, name) :: openStarts es
  | _ :: es => openStarts es

/-- In `before ++ start of i :: later` nothing later finishes `i`. -/
def Unfinished (i : EventId) (later : List Event) : Prop := ∀ e ∈ later, e.finishes i = false

/-- An id has a start that no later finish of it follows. -/
def StaysOpen (es : List Event) (i : EventId) : Prop :=
  ∃ before parent time name later,
    es = before ++ .started i parent time name :: later ∧ Unfinished i later

/-- The last start that no later finish of its id follows has a name. -/
def LastOpen (es : List Event) (name : String) : Prop :=
  ∃ before i parent time later, es = before ++ .started i parent time name :: later ∧
    Unfinished i later ∧ ∀ j, ¬ StaysOpen later j

end Events

namespace TreeView

/-- What a view shows for an event after others. -/
def line (v : TreeView) (before : List Event) (e : Event) : Option String :=
  ((v.after before).render e).1

/-- The three collections of a view tell of the same open nodes. -/
structure Keeps (v : TreeView) (opened : List (EventId × String)) : Prop where
  running : v.running = opened.map (·.1)
  names : ∀ i, v.names.get? i = opened.reverse.lookup i
  depths : ∀ i, i ∈ v.depths.ids ↔ i ∈ opened.map (·.1)

end TreeView

/-! ## Lemmas -/

/-! ### Starts that stay open -/

namespace Events

variable {es later : List Event} {e : Event} {i j : EventId} {parent : Option EventId}
  {time : Nat} {name : String} {outcome : Outcome}

theorem any_finishes_eq_false_iff : later.any (Event.finishes i) = false ↔ Unfinished i later :=
  List.any_eq_false.trans (by simp [Unfinished])

/-- What stays open of a stream is what no event behind it finishes. -/
theorem openStarts_append (es fs : List Event) :
    openStarts (es ++ fs) =
      (openStarts es).filter (fun p => !fs.any (Event.finishes p.1)) ++ openStarts fs := by
  induction es with
  | nil => rfl
  | cons e es ih =>
    cases e with
    | started i parent time name =>
      rw [List.cons_append, openStarts, openStarts, List.any_append, ih]
      cases hes : es.any (Event.finishes i) with
      | true => rfl
      | false =>
        cases hfs : fs.any (Event.finishes i) with
        | true => simp [hfs]
        | false => simp [hfs]
    | _ => exact ih

theorem eq_started_of_mem (h : (i, name) ∈ openStarts [e]) :
    ∃ parent time, e = .started i parent time name := by
  cases e with
  | started j parent time name' =>
    cases List.mem_singleton.1 h
    exact ⟨parent, time, rfl⟩
  | _ => cases h

theorem mem_openStarts_iff :
    (i, name) ∈ openStarts es ↔ ∃ before parent time later,
      es = before ++ .started i parent time name :: later ∧ Unfinished i later := by
  constructor
  · intro h
    induction es with
    | nil => cases h
    | cons e es ih =>
      rw [← List.singleton_append, openStarts_append, List.mem_append, List.mem_filter] at h
      rcases h with ⟨hmem, hlater⟩ | h
      · obtain ⟨parent, time, rfl⟩ := eq_started_of_mem hmem
        exact ⟨[], parent, time, es, rfl, any_finishes_eq_false_iff.1 (by simpa using hlater)⟩
      · obtain ⟨before, parent, time, later, rfl, hlater⟩ := ih h
        exact ⟨e :: before, parent, time, later, rfl, hlater⟩
  · rintro ⟨before, parent, time, later, rfl, hlater⟩
    rw [openStarts_append, openStarts, any_finishes_eq_false_iff.2 hlater]
    exact List.mem_append_right _ List.mem_cons_self

theorem staysOpen_iff : StaysOpen es i ↔ i ∈ (openStarts es).map (·.1) := by
  rw [List.mem_map]
  constructor
  · rintro ⟨before, parent, time, name, later, h⟩
    exact ⟨(i, name), mem_openStarts_iff.2 ⟨before, parent, time, later, h⟩, rfl⟩
  · rintro ⟨⟨i, name⟩, h, rfl⟩
    obtain ⟨before, parent, time, later, h⟩ := mem_openStarts_iff.1 h
    exact ⟨before, parent, time, name, later, h⟩

theorem lastOpen_of_getLast? (h : (openStarts es).getLast? = some (i, name)) :
    LastOpen es name := by
  induction es with
  | nil => cases h
  | cons e es ih =>
    rw [← List.singleton_append, openStarts_append, List.getLast?_append] at h
    cases hlast : (openStarts es).getLast? with
    | some p =>
      rw [hlast] at h
      cases h
      obtain ⟨before, j, parent, time, later, rfl, hlater⟩ := ih hlast
      exact ⟨e :: before, j, parent, time, later, rfl, hlater⟩
    | none =>
      -- no later start stays open, so it is the first event
      have hnone := List.getLast?_eq_none_iff.1 hlast
      rw [hlast, Option.none_or] at h
      obtain ⟨hmem, hlater⟩ := List.mem_filter.1 (List.mem_of_getLast? h)
      obtain ⟨parent, time, rfl⟩ := eq_started_of_mem hmem
      refine ⟨[], i, parent, time, es, rfl, any_finishes_eq_false_iff.1 (by simpa using hlater), ?_⟩
      simp [staysOpen_iff, hnone]

end Events

namespace TreeView

variable {v : TreeView} {es : List Event} {e : Event} {i : EventId} {parent : Option EventId}
  {name : String} {opened : List (EventId × String)}

/-! ### The collections, event by event -/

theorem Keeps.start (h : v.Keeps opened) : (v.start i parent name).Keeps (opened ++ [(i, name)]) where
  running := by
    rw [List.map_append, ← h.running]
    rfl
  names j := by
    rw [List.reverse_append, List.reverse_singleton, List.singleton_append, List.lookup_cons,
      ← h.names]
    by_cases hj : j = i
    · rw [hj, beq_self_eq_true]
      exact Table.get?_insert_self
    · rw [beq_false_of_ne hj]
      exact Table.get?_insert_of_ne hj
  depths j := by
    rw [List.map_append, List.mem_append, ← h.depths]
    exact Table.mem_ids_insert.trans (by simp [or_comm])

theorem Keeps.finish (h : v.Keeps opened) : (v.finish i).Keeps (opened.filter (·.1 != i)) where
  running := by
    rw [TreeView.finish, h.running, List.filter_map]
    rfl
  names j := by
    rw [← List.filter_reverse]
    by_cases hj : j = i
    · rw [hj, Table.lookup_filter_self]
      exact Table.get?_erase_self
    · rw [Table.lookup_filter_of_ne hj, ← h.names]
      exact Table.get?_erase_of_ne hj
  depths j := by
    have hmap : (opened.filter (·.1 != i)).map (·.1) = (opened.map (·.1)).filter (· != i) := by
      rw [List.filter_map]
      rfl
    rw [hmap, List.mem_filter, ← h.depths]
    exact Table.mem_ids_erase.trans (by simp [and_comm])

theorem Keeps.render (h : v.Keeps (openStarts es)) :
    (v.render e).2.Keeps (openStarts (es ++ [e])) := by
  cases e with
  | started i parent time name =>
    have hopen : openStarts (es ++ [.started i parent time name]) = openStarts es ++ [(i, name)] := by
      simp [openStarts_append, openStarts, Event.finishes]
    rw [hopen]
    exact h.start
  | finished i parent time name outcome =>
    have hopen : openStarts (es ++ [.finished i parent time name outcome]) =
        (openStarts es).filter (·.1 != i) := by
      simp [openStarts_append, openStarts, Event.finishes, bne, Bool.beq_comm]
    rw [hopen]
    exact h.finish
  | output parent text =>
    have hopen : openStarts (es ++ [.output parent text]) = openStarts es := by
      simp [openStarts_append, openStarts, Event.finishes]
    rw [hopen, TreeView.render]
    split
    · exact ⟨h.running, h.names, h.depths⟩
    · exact h
  | message parent severity title text position =>
    have hopen : openStarts (es ++ [.message parent severity title text position]) =
        openStarts es := by
      simp [openStarts_append, openStarts, Event.finishes]
    rw [hopen]
    exact h

/-- After any events a view has kept what stays open of them. -/
theorem keeps_after (showOutput color : Bool) (es : List Event) :
    (TreeView.after { showOutput, color } es).Keeps (openStarts es) := by
  induction es using List.reverseRecOn with
  | nil => exact ⟨rfl, fun _ => rfl, fun _ => Iff.rfl⟩
  | append_singleton es e ih =>
    rw [after_append]
    exact ih.render

theorem Keeps.runningLabel_eq (h : v.Keeps opened) :
    v.runningLabel = ((opened.getLast?).map (·.2)).getD "" := by
  rw [runningLabel, h.running, List.getLast?_map]
  cases hlast : opened.getLast? with
  | none => rfl
  | some p =>
    obtain ⟨i, name⟩ := p
    obtain ⟨earlier, rfl⟩ := List.getLast?_eq_some_iff.1 hlast
    simp [h.names]

/-! ### Lines of one node -/

@[simp] theorem color_render : (v.render e).2.color = v.color := by
  cases e with
  | output =>
    simp only [TreeView.render]
    split <;> rfl
  | _ => rfl

@[simp] theorem color_after : (v.after es).color = v.color := by
  induction es generalizing v with
  | nil => rfl
  | cons e es ih => rw [after_cons, ih, color_render]

theorem get?_after_of_ne (h : ∀ e ∈ es, e.id? ≠ some i) :
    (v.after es).depths.get? i = v.depths.get? i := by
  induction es generalizing v with
  | nil => rfl
  | cons e es ih =>
    obtain ⟨he, hes⟩ := List.forall_mem_cons.1 h
    rw [after_cons, ih hes, get?_render_of_ne he]

theorem line_started (before : List Event) (time : Nat) :
    v.line before (.started i parent time name) =
      some (indent ((v.after before).depthOf parent + 1) ++ v.paint .cyan ">" ++ " " ++
        v.paint .bold name) := by
  simp [line, TreeView.render, paint]

/-- The finish of a node stands one level further out than its start, which was the last. -/
theorem line_finished (before between : List Event) (time time' : Nat) (parent' : Option EventId)
    (name' : String) (outcome : Outcome) (h : ∀ e ∈ between, e.id? ≠ some i) :
    v.line (before ++ .started i parent time name :: between)
        (.finished i parent' time' name' outcome) =
      some (indent ((v.after before).depthOf parent) ++ finishedLabel parent' name' ++ " " ++
        v.status outcome) := by
  have hdepth : (v.after (before ++ .started i parent time name :: between)).depths.get? i =
      some ((v.after before).depthOf parent + 1) := by
    rw [after_append, after_cons, get?_after_of_ne h]
    exact Table.get?_insert_self
  have hstatus : (v.after (before ++ .started i parent time name :: between)).status outcome =
      v.status outcome := by
    cases outcome <;> simp only [status, paint, color_after]
  rw [line, TreeView.render, finishDepth, hdepth, hstatus]
  rfl

end TreeView

/-! ## Top theorem -/

/-- After any events the three collections of a view hold the same ids: those with a start that no
later finish follows.  The running label is the name in the last such start, or empty if there is
none.  A node that does not start again while it is open finishes on a line that is indented one
level less than the line of its start, whatever happens in between. -/
theorem after_keeps_open (showOutput color : Bool) (es : List Event) :
    let fresh : TreeView := { showOutput, color }
    let v := fresh.after es
    (∀ i, (i ∈ v.depths.ids ↔ StaysOpen es i) ∧ (i ∈ v.names.ids ↔ StaysOpen es i) ∧
      (i ∈ v.running ↔ StaysOpen es i)) ∧
    (LastOpen es v.runningLabel ∨ (∀ i, ¬ StaysOpen es i) ∧ v.runningLabel = "") ∧
    ∀ before i parent time name between, es = before ++ .started i parent time name :: between →
      (∀ e ∈ between, e.id? ≠ some i) →
      let depth := (fresh.after before).depthOf parent
      fresh.line before (.started i parent time name) =
        some (TreeView.indent (depth + 1) ++ fresh.paint .cyan ">" ++ " " ++
          fresh.paint .bold name) ∧
      ∀ parent' time' name' outcome,
        fresh.line es (.finished i parent' time' name' outcome) =
          some (TreeView.indent depth ++ TreeView.finishedLabel parent' name' ++ " " ++
            fresh.status outcome) := by
  intro fresh v
  have h : v.Keeps (openStarts es) := TreeView.keeps_after showOutput color es
  refine ⟨fun i => ⟨?_, ?_, ?_⟩, ?_, ?_⟩
  · rw [h.depths, staysOpen_iff]
  · rw [Table.mem_ids_iff, h.names, Table.isSome_lookup_iff, List.map_reverse, List.mem_reverse,
      staysOpen_iff]
  · rw [h.running, staysOpen_iff]
  · rw [h.runningLabel_eq]
    cases hlast : (openStarts es).getLast? with
    | some p => exact Or.inl (lastOpen_of_getLast? hlast)
    | none =>
      have hnone := List.getLast?_eq_none_iff.1 hlast
      exact Or.inr ⟨fun i hi => by simp [staysOpen_iff, hnone] at hi, rfl⟩
  · rintro before i parent time name between rfl hbetween
    exact ⟨TreeView.line_started before time, fun parent' time' name' outcome =>
      TreeView.line_finished before between time time' parent' name' outcome hbetween⟩

/-- A task whose project finishes before it still finishes one level further out than it started. -/
theorem after_keeps_open_parent_first :
    let app : EventId := .entry 1 1
    let compile : EventId := .entry 1 2
    let before : List Event := [.started app (some (.session 1)) 0 "app"]
    let between : List Event := [.finished app (some (.session 1)) 0 "app" .success]
    let fresh : TreeView := { showOutput := true, color := false }
    let es := before ++ .started compile (some app) 0 "compile" :: between
    (∀ e ∈ between, e.id? ≠ some compile) ∧
      fresh.line before (.started compile (some app) 0 "compile") = some "    > compile" ∧
      fresh.line es (.finished compile (some app) 0 "compile" .success) =
        some "  compile SUCCESS" := by
  intro app compile before between fresh es
  have hbetween : ∀ e ∈ between, e.id? ≠ some compile := by decide
  obtain ⟨hstart, hfinish⟩ := (after_keeps_open true false es).2.2 before compile (some app) 0
    "compile" between rfl hbetween
  refine ⟨hbetween, hstart.trans ?_, (hfinish (some app) 0 "compile" .success).trans ?_⟩
  · decide +kernel
  · decide +kernel

end BuildTree
