import BuildTree.Proofs.BuiltIn

/-!
# Matchers of a host

A matcher of the host may look ahead through the cursor: it reads, peeks, gives back the line read
last, emits events, and answers in the end.  A careful look ahead gives back once at most, and only
right after it read a line; then a run ends, for every turn of its loop takes a line away.

A look ahead is a finite tree, but a matcher may loop: what it does is chosen by how many lines are
left as well, and a loop is cut off at that number, where there is nothing more to read.

    Careful look ahead   →   it leaves no more lines than it found        (size_run_le)
    k turns from c       →   k lines less, or fewer still                 (Advances.size_le)
    readUntil stop n     =   the loop, for n lines or fewer               (pending_readUntil)
-/

namespace BuildTree

open Execution

/-! ## Algorithm -/

/-- What a matcher does with a cursor. -/
inductive Lookahead where
  | answer (taken : Bool)
  | emit (x : Emits Unit) (next : Lookahead)
  | read (next : Option String → Lookahead)
  | peek (next : Option Line → Lookahead)
  | giveBack (next : Lookahead)

namespace Lookahead

def run : Lookahead → Cursor → Emits (Bool × Cursor)
  | answer taken, c => pure (taken, c)
  | emit x next, c => do
    x
    next.run c
  | read next, c =>
    match c.next? with
    | none => (next none).run c
    | some (raw, rest) => (next (some raw)).run rest
  | peek next, c => (next c.peek.1).run c.peek.2
  | giveBack next, c => next.run c.giveBack

/-- Whether a look ahead gives back once at most, right after it read a line.  It still may while
`free`; it did nothing with the cursor since it read a line while `fresh`. -/
def Careful : Lookahead → (free fresh : Bool) → Prop
  | answer _, _, _ => True
  | emit _ next, free, fresh => next.Careful free fresh
  | read next, free, _ => (next none).Careful free false ∧ ∀ raw, (next (some raw)).Careful free true
  | peek next, free, _ => ∀ line, (next line).Careful free false
  | giveBack next, free, fresh => free = true ∧ fresh = true ∧ next.Careful false false

/-- Reads on until a line stops it, gives that back, and takes the rest.  The loop is cut off after
some number of lines. -/
def readUntil (stop : String → Bool) : Nat → Lookahead
  | 0 => answer true
  | lines + 1 => read fun next =>
    match next with
    | none => answer true
    | some raw => if stop raw then giveBack (answer true) else readUntil stop lines

end Lookahead

/-- A matcher of the host with a careful look ahead for every line it is offered and every number
of lines behind it. -/
structure HostRule where
  supports : Option Level → Bool
  lookahead : Context → EventId → Line → Nat → Lookahead
  careful : ∀ context parent line lines, (lookahead context parent line lines).Careful true false
  finalize : EventId → Emits Unit := fun _ => pure ()

/-! ## Lemmas -/

theorem Cursor.size_peek (c : Cursor) : c.peek.2.size = c.size := by
  rw [size, peek_pending, size]

namespace Lookahead

/-- While it may give back the line it holds, a careful look ahead can leave one line more. -/
theorem size_run_le {x : Lookahead} {free fresh : Bool} (h : x.Careful free fresh) (c : Cursor) :
    (x.run c).value.2.size ≤ c.size + if free && fresh then 1 else 0 := by
  induction x generalizing c free fresh with
  | answer taken => exact Nat.le_add_right _ _
  | emit x next ih => exact ih h c
  | read next ih =>
    obtain ⟨hnone, hsome⟩ := h
    rw [run]
    split
    · have := ih none hnone c
      simp only [Bool.and_false, Bool.false_eq_true, if_false] at this
      omega
    · next raw rest hnext =>
      -- the line read pays for the one that may come back
      have hrest := ih (some raw) (hsome raw) rest
      have hsize := Cursor.size_of_next? hnext
      have hone : (if free && true then 1 else 0) ≤ 1 := by split <;> omega
      omega
  | peek next ih =>
    have := ih c.peek.1 (h _) c.peek.2
    rw [Cursor.size_peek] at this
    simp only [Bool.and_false, Bool.false_eq_true, if_false] at this
    rw [run]
    omega
  | giveBack next ih =>
    obtain ⟨rfl, rfl, hnext⟩ := h
    have hback := ih hnext c.giveBack
    have hsize := Cursor.size_giveBack_le c
    simp only [Bool.and_false, Bool.false_eq_true, if_false] at hback
    simp only [run, Bool.and_self, if_true]
    omega

/-- It gives back the line that stops it, and nothing else. -/
theorem careful_readUntil (stop : String → Bool) (lines : Nat) (fresh : Bool) :
    (readUntil stop lines).Careful true fresh := by
  induction lines generalizing fresh with
  | zero => trivial
  | succ lines ih =>
    refine ⟨trivial, fun raw => ?_⟩
    dsimp only
    split
    · exact ⟨rfl, rfl, trivial⟩
    · exact ih true

/-- The loop is not cut off before the lines end. -/
theorem pending_readUntil (stop : String → Bool) {lines : Nat} {c : Cursor}
    (h : c.size ≤ lines) :
    ((readUntil stop lines).run c).value.2.pending = c.pending.dropWhile (!stop ·) := by
  induction lines generalizing c with
  | zero =>
    have hnil : c.pending = [] := List.eq_nil_of_length_eq_zero (Nat.le_zero.1 h)
    rw [hnil]
    exact hnil
  | succ lines ih =>
    rw [readUntil, run]
    split
    · next hnext =>
      rw [Cursor.next?_eq_none_iff.1 hnext]
      exact Cursor.next?_eq_none_iff.1 hnext
    · next raw rest hnext =>
      have hsize := Cursor.size_of_next? hnext
      rw [(Cursor.pending_of_next? hnext).1]
      dsimp only
      split
      · next hstop =>
        rw [List.dropWhile_cons_of_neg (by simp [hstop]), ← (Cursor.pending_of_next? hnext).1]
        exact (Cursor.giveBack_next? hnext).1
      · next hgoes =>
        rw [List.dropWhile_cons_of_pos (by simp [hgoes])]
        exact ih (by omega)

end Lookahead

namespace HostRule

/-- A careful matcher of the host as one that a session can hold. -/
def rule (h : HostRule) : LineRule where
  supports := h.supports
  tryConsume context parent line cursor :=
    (h.lookahead context parent line cursor.size).run cursor
  finalize := h.finalize
  size_le context parent line cursor := by
    simpa using Lookahead.size_run_le (h.careful context parent line cursor.size) cursor

/-- The matcher that takes a line with all lines up to the next one that stops it. -/
def readsUntil (supports : Option Level → Bool) (stop : String → Bool) : HostRule where
  supports := supports
  lookahead _ _ _ lines := .readUntil stop lines
  careful _ _ _ lines := Lookahead.careful_readUntil stop lines false

/-- A matcher that loops is one of these. -/
theorem pending_readsUntil (supports : Option Level → Bool) (stop : String → Bool)
    (context : Context) (parent : EventId) (line : Line) (cursor : Cursor) :
    ((readsUntil supports stop).rule.tryConsume context parent line cursor).value.2.pending =
      cursor.pending.dropWhile (!stop ·) := Lookahead.pending_readUntil stop (Nat.le_refl _)

end HostRule

/-! ## The loop of a run -/

namespace Session

/-- Every matcher is built in or a careful one of the host. -/
def Hosted (s : Session) : Prop := ∀ m ∈ s.matchers, m.IsBuiltIn ∨ ∃ h : HostRule, m = .rule h.rule

/-- One turn of the loop: the next line is parsed, with the cursor behind it.  The session is any
one, for a matcher of the host may remember what it saw and answer otherwise the next time. -/
inductive Advance (o : Setup) : Cursor → Cursor → Prop
  | parse {s : Session} (hs : s.Hosted) {c rest : Cursor} {raw : String}
      (h : c.next? = some (raw, rest)) : Advance o c (s.parseLine o raw rest).value.2.2

/-- Some number of turns. -/
inductive Advances (o : Setup) : Nat → Cursor → Cursor → Prop
  | none (c) : Advances o 0 c c
  | more {k c c₁ c'} (h : Advance o c c₁) (hs : Advances o k c₁ c') : Advances o (k + 1) c c'

variable {o : Setup} {c c' : Cursor}

theorem Advance.size_lt (h : Advance o c c') : c'.size < c.size := by
  cases h with
  | @parse s hs c rest raw h =>
    have htaken := Cursor.size_of_next? h
    have hleft := s.size_parseLine_le o raw rest
    omega

theorem Advances.size_le {k : Nat} (h : Advances o k c c') : k + c'.size ≤ c.size := by
  induction h with
  | none => omega
  | more h _ ih =>
    have := h.size_lt
    omega

end Session

end BuildTree
