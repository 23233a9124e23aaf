import Mathlib.Data.Int.Notation
import Mathlib.Tactic.Basic

/-!
# Datetimes

A datetime is a wall clock, in microseconds from the start of day 0, and the offset of
that clock from UTC where the datetime is aware.
-/

namespace Screener.Lib

/-- The microseconds of a day. -/
def dayLength : ℤ := 86400000000

structure Stamp where
  wall : ℤ
  offset : Option ℤ := none
deriving DecidableEq, Repr

namespace Stamp

/-- The wall clock in UTC; a naive datetime is taken to be there already. -/
def moment (s : Stamp) : ℤ := s.wall - s.offset.getD 0

/-- The ordinal of `date()`. -/
def date (s : Stamp) : Nat := (s.wall / dayLength).toNat

/-- From the first of January of year 1 to the last of December of year 9999. -/
def InYears (wall : ℤ) : Prop := dayLength ≤ wall ∧ wall < 3652060 * dayLength

instance (wall : ℤ) : Decidable (InYears wall) := by unfold InYears; infer_instance

/-- The moment as a datetime in UTC, if there is one. -/
def utc? (s : Stamp) : Option ℤ :=
  if s.offset.getD 0 = 0 ∨ InYears s.moment then some s.moment else none

theorem moment_of_utc? {s : Stamp} {m : ℤ} (h : s.utc? = some m) : s.moment = m := by
  unfold utc? at h
  split at h
  · exact Option.some.inj h
  · cases h

theorem utc?_of_zero {s : Stamp} (h : s.offset.getD 0 = 0) : s.utc? = some s.moment :=
  if_pos (.inl h)

end Stamp

end Screener.Lib
