import SqlSession.Engine.Basic

/-!
# Outcomes of statements

A statement that has been executed leaves a table or none, and a number of rows.  Without a table
the number says how many rows were changed.
-/

namespace SqlSession

structure Outcome where
  table : Option TableHandle
  processed : Nat
deriving DecidableEq, Repr

namespace Outcome

/-- The rows that the first so many statements have processed. -/
def processedThrough (count : Nat) (outcomes : List Outcome) : Nat :=
  ((outcomes.take count).map Outcome.processed).foldr (· + ·) 0

/-- The numbers of rows that the statements without a table have changed. -/
def changes (outcomes : List Outcome) : List Nat :=
  (outcomes.filter fun o => o.table.isNone).map Outcome.processed

/-- The largest number of changed rows that is reported. -/
def largestCount : Nat := 0x7FFFFFFFFFFFFFFF

/-- How many rows the statements have changed together, and minus one if none of them could change
rows.  The numbers are added up without a bound, so they are assumed to be less than `2 ^ 64` together. -/
def affected (outcomes : List Outcome) : Int :=
  match changes outcomes with
  | [] => -1
  | counts => (min (counts.foldr (· + ·) 0) largestCount : Nat)

theorem changes_append (xs ys : List Outcome) : changes (xs ++ ys) = changes xs ++ changes ys := by
  simp [changes]

end Outcome
end SqlSession
