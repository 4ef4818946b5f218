import BuildTree.Proofs.TrackerMoves
import BuildTree.View.Summary

/-!
# Outcomes of the root

A summary keeps the last outcome that the root of the tree finished with.  A tracker finishes
the root only for the message that the session ended; the marks of its context, whether the
session ended and whether it failed, change for two kinds of messages only (`Quiet`).

    result (ofEvents es) = the last root outcome of es              (result_ofEvents)
    marks after m        = set by sessionEnded and projectFailed      (apply_marks)
-/

namespace BuildTree

open Execution Spy

/-! ## Algorithm -/

/-- The outcome of an event that finishes the root of the tree. -/
def Event.rootOutcome? : Event → Option Outcome
  | .finished _ none _ _ outcome => some outcome
  | _ => none

def Events.rootOutcomes (es : List Event) : List Outcome := es.filterMap Event.rootOutcome?

/-! ## Lemmas -/

namespace Events

@[simp] theorem rootOutcomes_nil : rootOutcomes [] = [] := rfl

@[simp] theorem rootOutcomes_append (es fs : List Event) :
    rootOutcomes (es ++ fs) = rootOutcomes es ++ rootOutcomes fs := List.filterMap_append

theorem rootOutcomes_cons (e : Event) (es : List Event) :
    rootOutcomes (e :: es) = e.rootOutcome?.toList ++ rootOutcomes es := by
  cases h : e.rootOutcome? <;> simp [rootOutcomes, h]

theorem rootOutcomes_eq_nil {es : List Event} (h : ∀ e ∈ es, e.rootOutcome? = none) :
    rootOutcomes es = [] := List.filterMap_eq_nil_iff.2 h

theorem rootOutcomes_of_messages {es : List Event} {p : EventId} (h : ∀ e ∈ es, e.IsMessage p) :
    rootOutcomes es = [] := by
  refine rootOutcomes_eq_nil fun e he => ?_
  obtain ⟨severity, title, text, position, rfl⟩ := h e he
  rfl

end Events

open Events

namespace Summary

theorem result_foldl (es : List Event) (s : Summary) :
    (es.foldl observe s).result = (rootOutcomes es).getLast?.or s.result := by
  induction es generalizing s with
  | nil => rfl
  | cons e es ih =>
    have hhead : (s.observe e).result = e.rootOutcome?.or s.result := by
      cases e with
      | finished i p time name outcome => cases p <;> rfl
      | message p severity => cases severity <;> rfl
      | _ => rfl
    rw [List.foldl_cons, ih, hhead, rootOutcomes_cons]
    cases e.rootOutcome? with
    | none => rfl
    | some outcome =>
      rw [Option.toList_some, List.singleton_append, List.getLast?_cons]
      cases (rootOutcomes es).getLast? <;> rfl

theorem result_ofEvents (es : List Event) :
    (ofEvents es).result = (rootOutcomes es).getLast? := by
  rw [ofEvents, result_foldl, Option.or_none]

end Summary

/-! ## Trackers -/

namespace Execution.Context

/-- Whether the session ended, and whether it failed. -/
def marks (c : Context) : Bool × Bool := (c.ended, c.failed)

variable (c : Context)

theorem marks_foldl_complete (xs : List Entry) : (xs.foldl complete c).marks = c.marks := by
  rw [foldl_complete_eq]
  rfl

end Execution.Context

namespace Tracker

variable {o : Options} {t t₁ t' : Tracker} {m : Message} {now : Nat} {es fs : List Event}

/-- Only the end of the session finishes the root, and each mark of the session is set by messages
of one kind. -/
structure Quiet (m : Message) (t : Tracker) (es : List Event) (t' : Tracker) : Prop where
  outcomes : m.kind ≠ .sessionEnded → rootOutcomes es = []
  ended : m.kind ≠ .sessionEnded → t'.context.ended = t.context.ended
  failed : m.kind ≠ .projectFailed → t'.context.failed = t.context.failed
  stays : t.context.failed = true → t'.context.failed = true

theorem Quiet.trans (h : Quiet m t es t₁) (h' : Quiet m t₁ fs t') : Quiet m t (es ++ fs) t' where
  outcomes hm := by rw [rootOutcomes_append, h.outcomes hm, h'.outcomes hm, List.nil_append]
  ended hm := (h'.ended hm).trans (h.ended hm)
  failed hm := (h'.failed hm).trans (h.failed hm)
  stays hf := h'.stays (h.stays hf)

theorem rootOutcomes_abandon (ds : List Download) (now : Nat) (why : String → Note) :
    rootOutcomes (Download.abandon ds now why).events = [] := by
  refine rootOutcomes_eq_nil fun e he => ?_
  obtain ⟨d, -, rfl⟩ := List.mem_map.1 he
  rfl

theorem Act.quiet (h : Act o m now t es t') : Quiet m t es t' := by
  cases h with
  | ends outcome hm => exact ⟨(absurd hm ·), (absurd hm ·), fun _ => rfl, id⟩
  | fails hm => exact ⟨fun _ => rfl, fun _ => rfl, (absurd hm ·), fun _ => rfl⟩
  | starts hm hnew hmake | groups hm hcoord hidle hnew hmake =>
    obtain ⟨rfl, rfl⟩ := Prod.mk.inj hmake
    exact ⟨fun _ => rfl, fun _ => rfl, fun _ => rfl, id⟩
  | closes hm hnode =>
    refine ⟨fun _ => rootOutcomes_eq_nil fun e he => ?_, fun _ => rfl, fun _ => rfl, id⟩
    obtain ⟨i, p, name, outcome, rfl⟩ := finished_of_mem_closes he
    rfl
  | _ => exact ⟨fun _ => rfl, fun _ => rfl, fun _ => rfl, id⟩

theorem quiet_apply (t : Tracker) (m : Message) (now : Nat) (ho : o.BuiltIn) :
    Quiet m t (t.apply o m now).events (t.apply o m now).value := by
  obtain ⟨es, hevents, hacts⟩ := acts_apply o t m now
  obtain ⟨p, -, hmessages⟩ := messages_reportError (t := t) (m := m) ho
  have hreport : Quiet m t (t.reportError o m).events t :=
    ⟨fun _ => rootOutcomes_of_messages hmessages, fun _ => rfl, fun _ => rfl, id⟩
  rw [hevents]
  exact hreport.trans (hacts.fold Act.quiet Quiet.trans)

/-- A message sets the marks by its kind, and only the end of the session finishes the root. -/
theorem apply_marks (t : Tracker) (m : Message) (now : Nat) (ho : o.BuiltIn) :
    (t.apply o m now).value.context.marks =
      (t.context.ended || m.kind == .sessionEnded, t.context.failed || m.kind == .projectFailed) ∧
    rootOutcomes (t.apply o m now).events =
      if m.kind = .sessionEnded then
        [if t.context.failed then .failure "one or more projects failed" else .success]
      else [] := by
  have hquiet := quiet_apply t m now ho
  cases hkind : m.kind with
  | sessionEnded =>
    obtain ⟨p, -, hmessages⟩ := messages_reportError (t := t) (m := m) ho
    simp [apply, hkind, rootOutcomes_of_messages hmessages, endSession, Context.marks,
      Context.markEnded, sessionFinished, rootOutcomes_cons, Event.rootOutcome?]
  | projectFailed =>
    have hended := hquiet.ended (by simp [hkind])
    have hfailed : (t.apply o m now).value.context.failed = true := by
      simp only [apply, hkind, Emits.value_bind]
      exact (act_finishProject (o := o) (by simp [Message.completes, hkind])).quiet.stays rfl
    have houtcomes := hquiet.outcomes (by simp [hkind])
    simp [Context.marks, hended, hfailed, houtcomes]
  | _ =>
    have hended := hquiet.ended (by simp [hkind])
    have hfailed := hquiet.failed (by simp [hkind])
    have houtcomes := hquiet.outcomes (by simp [hkind])
    simp [Context.marks, hended, hfailed, houtcomes]

end Tracker

end BuildTree
