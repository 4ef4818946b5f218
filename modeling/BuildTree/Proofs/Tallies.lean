import BuildTree.Proofs.BuiltIn
import Mathlib.Data.List.Induction

/-!
# What a built-in matcher answers for, and counts

A built-in matcher may be offered lines in any order, of any level and with any cursor, and be
finalized in between.  A line that it lets pass leaves no trace; a line that it takes becomes one
message under the parent it was given.  The matcher of the Java compiler counts the errors and the
warnings among its messages, out of memory and diagnostics alike, and starts again after each
summary.

    taken     → one message under the parent
    not taken → no event, and the cursor as it was                      (tryConsume_cases)
    the tally after some calls = that of what was said since a finalize   (after_javac)
-/

namespace BuildTree

open Execution

/-! ## Algorithm -/

/-- Whether an event is a message of some severity. -/
def Event.reports (severity : Severity) : Event → Bool
  | .message _ s .. => s == severity
  | _ => false

/-- The tally of some events: the errors and the warnings among their messages. -/
def Javac.Tally.ofEvents (es : List Event) : Javac.Tally :=
  ⟨es.countP (Event.reports .error), es.countP (Event.reports .warning)⟩

namespace LineMatcher

/-- What is done with a matcher. -/
inductive Call where
  | offer (context : Context) (parent : EventId) (line : Line) (cursor : Cursor)
  | finalize (session : EventId)

/-- A matcher, and what it has said since it was finalized last. -/
structure Spoken where
  matcher : LineMatcher
  said : List Event := []

def Spoken.call (s : Spoken) : Call → Spoken
  | .offer context parent line cursor =>
    let x := s.matcher.tryConsume context parent line cursor
    ⟨x.value.2.1, s.said ++ x.events⟩
  | .finalize session => ⟨(s.matcher.finalize session).value, []⟩

/-- A matcher after some calls. -/
def after (m : LineMatcher) (calls : List Call) : Spoken := calls.foldl Spoken.call { matcher := m }

end LineMatcher

/-! ## Lemmas -/

section
variable {es : List Event} {severity : Severity} {parent : EventId} {title text : String}
  {position : Option Position}

namespace Javac

theorem Tally.ofEvents_message :
    Tally.ofEvents (es ++ [.message parent severity title text position]) =
      (Tally.ofEvents es).count severity := by
  cases severity <;> simp [ofEvents, count, Event.reports]

/-- The summary of a tally that has counted something; the tally is empty afterwards. -/
theorem finalize_eq (tally : Tally) (session : EventId) :
    (finalize tally session).value = {} ∧
    (finalize tally session).events = if tally.errors = 0 ∧ tally.warnings = 0 then []
      else [Diagnostic.toEvent session .info tally.summary none] := by
  by_cases h : tally.errors = 0 ∧ tally.warnings = 0
  · obtain ⟨errors, warnings⟩ := tally
    obtain ⟨rfl, rfl⟩ := h
    exact ⟨rfl, rfl⟩
  · have hempty : tally.isEmpty = false := by
      simpa [Tally.isEmpty] using h
    rw [finalize, hempty, if_neg h]
    exact ⟨rfl, rfl⟩

end Javac

namespace LineMatcher

variable {m : LineMatcher} {calls : List Call} {c : Call}

theorem after_concat : m.after (calls ++ [c]) = (m.after calls).call c := by
  simp [after]

theorem isBuiltIn_after (hm : m.IsBuiltIn) (calls : List Call) :
    (m.after calls).matcher.IsBuiltIn := by
  induction calls using List.reverseRecOn with
  | nil => exact hm
  | append_singleton calls c ih =>
    rw [after_concat]
    cases c with
    | offer context parent line cursor => exact isBuiltIn_tryConsume ih context parent line cursor
    | finalize session =>
      have hall := isBuiltIn_finalizeAll (List.forall_mem_singleton.2 ih) session
      exact hall _ List.mem_cons_self

/-- The matcher of the Java compiler keeps the tally of what it has said since the last summary. -/
theorem after_javac (calls : List Call) :
    ((javac {}).after calls).matcher = javac (.ofEvents ((javac {}).after calls).said) := by
  induction calls using List.reverseRecOn with
  | nil => rfl
  | append_singleton calls c ih =>
    rw [after_concat]
    cases c with
    | offer context parent line cursor =>
      simp only [Spoken.call, ih, tryConsume]
      rcases Javac.tryConsume_cases (.ofEvents ((javac {}).after calls).said) parent line cursor with
        hpass | ⟨severity, title, text, position, rest, hvalue, hevents⟩
      · simp [hpass]
      · simp [hvalue, hevents, Javac.Tally.ofEvents_message]
    | finalize session =>
      simp only [Spoken.call, ih, finalize, Emits.value_map]
      exact congrArg javac (Javac.finalize_eq _ session).1

end LineMatcher

end

/-! ## Top theorem -/

namespace LineMatcher

/-- Whatever is done with a built-in matcher, a line that it does not take is left without a trace,
and a line that it takes becomes one message under the given parent.  The matcher of the Java
compiler gives a summary exactly if it has reported an error or a warning since it was finalized
last, and the summary has the numbers of those. -/
theorem calls_answered (calls : List Call) :
    (∀ m ∈ builtIn true true, ∀ context parent line cursor,
      let x := (m.after calls).matcher.tryConsume context parent line cursor
      (x.value.1 = false ∧ x.events = [] ∧ x.value.2.2 = cursor) ∨
      (x.value.1 = true ∧ ∃ e, x.events = [e] ∧ e.IsMessage parent)) ∧
    ∀ session,
      let said := ((javac {}).after calls).said
      let errors := said.countP (Event.reports .error)
      let warnings := said.countP (Event.reports .warning)
      (((javac {}).after calls).matcher.finalize session).events =
        if errors = 0 ∧ warnings = 0 then []
        else [Diagnostic.toEvent session .info
          s!"{errors} errors, {warnings} warnings reported by javac" none] := by
  refine ⟨fun m hm context parent line cursor => ?_, fun session => ?_⟩
  · have hbuiltIn := isBuiltIn_after (isBuiltIn_builtIn true true m hm) calls
    exact tryConsume_cases hbuiltIn context parent line cursor
  · rw [after_javac, finalize, Emits.events_map]
    exact (Javac.finalize_eq _ session).2

end LineMatcher

end BuildTree
