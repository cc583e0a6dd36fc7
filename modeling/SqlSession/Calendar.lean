/-!
# Dates and timestamps

A date belongs to the Gregorian calendar extended to all years, so years can be zero or negative.
No time zone is involved.
-/

namespace SqlSession

structure Date where
  year : Int
  month : Nat
  day : Nat
deriving DecidableEq, Repr

/-- A date with a time of day.  A leap second is the second before it with a billion nanoseconds
more. -/
structure Timestamp where
  date : Date
  hour : Nat
  minute : Nat
  second : Nat
  nanosecond : Nat
deriving DecidableEq, Repr

namespace Date

/-- The start of the day. -/
def midnight (d : Date) : Timestamp := ⟨d, 0, 0, 0, 0⟩

end Date
end SqlSession
