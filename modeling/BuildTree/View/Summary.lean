import BuildTree.Event

/-!
# The verdict on a build

A summary of the events: the result of the session, which is the last finish of an entry
without parent, and the number of errors and warnings.  The verdict is a failure if the
session failed, or, when strictness is asked for, if no result was reported.
-/

namespace BuildTree

structure Summary where
  result : Option Outcome := none
  errors : Nat := 0
  warnings : Nat := 0
  deriving DecidableEq, Repr

/-- Why a build counts as failed. -/
inductive BuildFailure where
  | failed (message : String)
  | noResult
  deriving DecidableEq, Repr

def BuildFailure.message : BuildFailure → String
  | .failed m => "build failed: " ++ m
  | .noResult => "build did not report its result"

namespace Summary

def observe (s : Summary) : Event → Summary
  | .finished _ none _ _ outcome => { s with result := some outcome }
  | .message _ .error _ _ _ => { s with errors := s.errors + 1 }
  | .message _ .warning _ _ _ => { s with warnings := s.warnings + 1 }
  | _ => s

def ofEvents (es : List Event) : Summary := es.foldl observe {}

def verdict (s : Summary) (strict : Bool) : Option BuildFailure :=
  match s.result with
  | some (.failure m) => some (.failed m)
  | some .unknown => if strict then some .noResult else none
  | none => if strict then some .noResult else none
  | some _ => none

end Summary

end BuildTree
