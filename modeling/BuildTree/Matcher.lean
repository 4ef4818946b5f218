import BuildTree.Diagnostic.Block
import BuildTree.Diagnostic.Javac
import BuildTree.Diagnostic.Kotlin
import BuildTree.Execution.Context

/-!
# Matchers

Line matchers look at output lines, error matchers at the error texts of spy messages.
Matchers stand in a list; an input is offered to those that support it, in order, until
one consumes it.

The built-in line matchers are the two compilers; a host adds rules of its own.
-/

namespace BuildTree

open Execution

/-! ## Error matchers -/

structure ErrorMatcher where
  supports : Spy.Kind → Bool
  tryConsume : Context → EventId → String → Emits Bool

namespace ErrorMatcher

/-- The matcher for blocks of compiler diagnostics. -/
def compilationFailure : ErrorMatcher where
  supports := Block.supports
  tryConsume _ parent error := Block.tryConsume parent error

/-- Offers an error text to matchers in order until one consumes it. -/
def offer (context : Context) (parent : EventId) (kind : Spy.Kind) (error : String) :
    List ErrorMatcher → Emits Bool
  | [] => pure false
  | m :: ms =>
    if m.supports kind then do
      if (← m.tryConsume context parent error) then pure true
      else offer context parent kind error ms
    else offer context parent kind error ms

end ErrorMatcher

/-! ## Line matchers -/

/-- A matcher of the host.  It may read further lines from the cursor, and gives back the last of
them if it does not want it; it never gives back a line that it did not read. -/
structure LineRule where
  supports : Option Level → Bool
  tryConsume : Context → EventId → Line → Cursor → Emits (Bool × Cursor)
  finalize : EventId → Emits Unit := fun _ => pure ()
  size_le : ∀ context parent line cursor,
    (tryConsume context parent line cursor).value.2.size ≤ cursor.size

inductive LineMatcher where
  | javac (tally : Javac.Tally)
  | kotlin
  | rule (r : LineRule)

namespace LineMatcher

/-- The built-in matchers that are switched on, in their order. -/
def builtIn (javac kotlin : Bool) : List LineMatcher :=
  (if javac then [LineMatcher.javac {}] else []) ++ if kotlin then [LineMatcher.kotlin] else []

def supports : LineMatcher → Option Level → Bool
  | javac _, l => Javac.supports l
  | kotlin, _ => true
  | rule r, l => r.supports l

/-- Whether the matcher consumed the line, the matcher afterwards, and the cursor. -/
def tryConsume (m : LineMatcher) (context : Context) (parent : EventId) (line : Line)
    (cursor : Cursor) : Emits (Bool × LineMatcher × Cursor) :=
  match m with
  | javac tally => do
    let (taken, tally, cursor) ← Javac.tryConsume tally parent line cursor
    pure (taken, javac tally, cursor)
  | kotlin => do
    let taken ← Kotlin.tryConsume parent line
    pure (taken, kotlin, cursor)
  | rule r => do
    let (taken, cursor) ← r.tryConsume context parent line cursor
    pure (taken, rule r, cursor)

theorem size_tryConsume_le (m : LineMatcher) (context : Context) (parent : EventId) (line : Line)
    (cursor : Cursor) :
    (m.tryConsume context parent line cursor).value.2.2.size ≤ cursor.size := by
  cases m with
  | javac tally => exact Javac.size_tryConsume_le tally parent line cursor
  | kotlin => exact Nat.le_refl _
  | rule r => exact r.size_le context parent line cursor

/-- Called when the session ends or the output runs out. -/
def finalize (m : LineMatcher) (session : EventId) : Emits LineMatcher :=
  match m with
  | javac tally => javac <$> Javac.finalize tally session
  | kotlin => pure kotlin
  | rule r => do
    r.finalize session
    pure (rule r)

/-- Offers a line to the matchers that support it, in order, until one consumes it. -/
def offer (context : Context) (parent : EventId) (line : Line) (cursor : Cursor) :
    List LineMatcher → Emits (Bool × List LineMatcher × Cursor)
  | [] => pure (false, [], cursor)
  | m :: ms =>
    if m.supports line.level then do
      let (taken, m, cursor) ← m.tryConsume context parent line cursor
      if taken then pure (true, m :: ms, cursor)
      else do
        let (taken, ms, cursor) ← offer context parent line cursor ms
        pure (taken, m :: ms, cursor)
    else do
      let (taken, ms, cursor) ← offer context parent line cursor ms
      pure (taken, m :: ms, cursor)

theorem size_offer_le (context : Context) (parent : EventId) (line : Line) (cursor : Cursor)
    (ms : List LineMatcher) :
    (offer context parent line cursor ms).value.2.2.size ≤ cursor.size := by
  induction ms generalizing cursor with
  | nil => exact Nat.le_refl _
  | cons m ms ih =>
    unfold offer
    split
    · have h := m.size_tryConsume_le context parent line cursor
      simp only [Emits.value_bind]
      split
      · exact h
      · exact Nat.le_trans (ih _) h
    · exact ih cursor

def finalizeAll (session : EventId) : List LineMatcher → Emits (List LineMatcher)
  | [] => pure []
  | m :: ms => do
    let m ← m.finalize session
    let ms ← finalizeAll session ms
    pure (m :: ms)

end LineMatcher

end BuildTree
