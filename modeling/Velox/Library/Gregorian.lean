import Mathlib

namespace Gregorian

/-! The proleptic Gregorian calendar over all integer years, with day numbers counted so that
day 0 is 0000-01-02 and `weekday` 0 is a Sunday. -/

def leap (year : Int) : Bool :=
  year % 4 == 0 && (year % 100 != 0 || year % 400 == 0)

def yearLength (year : Int) : Int := if leap year then 366 else 365

/-- Leap years among `1..year` for positive `year`, shifted by a constant below. -/
def leapsThrough (year : Int) : Int := year / 4 - year / 100 + year / 400

def yearStart (year : Int) : Int := 365 * year + leapsThrough (year - 1)

def monthLengths (leapYear : Bool) : List Int :=
  [31, if leapYear then 29 else 28, 31, 30, 31, 30, 31, 31, 30, 31, 30, 31]

def monthLength (leapYear : Bool) (month : Int) : Int :=
  (monthLengths leapYear).getD (month - 1).toNat 0

def daysBeforeMonth (leapYear : Bool) (month : Int) : Int :=
  ((monthLengths leapYear).take (month - 1).toNat).sum

def IsDate (year month day : Int) : Prop :=
  1 ≤ month ∧ month ≤ 12 ∧ 1 ≤ day ∧ day ≤ monthLength (leap year) month

instance (year month day : Int) : Decidable (IsDate year month day) :=
  inferInstanceAs (Decidable (_ ∧ _))

def dayNumber (year month day : Int) : Int :=
  yearStart year + daysBeforeMonth (leap year) month + (day - 1)

def weekday (day : Int) : Int := day % 7

example : dayNumber 1970 1 1 = 719527 ∧ weekday (dayNumber 1970 1 1) = 4 := by decide

section Years

theorem yearStart_succ (year : Int) :
    yearStart (year + 1) = yearStart year + yearLength year := by
  unfold yearStart leapsThrough yearLength leap
  split <;> simp_all <;> omega

theorem yearStart_add_mul_400 (year cycles : Int) :
    yearStart (year + 400 * cycles) = yearStart year + 146097 * cycles := by
  unfold yearStart leapsThrough
  omega

theorem leap_add_mul_400 (year cycles : Int) : leap (year + 400 * cycles) = leap year := by
  have four : (year + 400 * cycles) % 4 = year % 4 := by omega
  have hundred : (year + 400 * cycles) % 100 = year % 100 := by omega
  have fourHundred : (year + 400 * cycles) % 400 = year % 400 := by omega
  simp only [leap, four, hundred, fourHundred]

theorem le_yearStart_sub {a b : Int} (ordered : a ≤ b) :
    365 * (b - a) ≤ yearStart b - yearStart a := by
  unfold yearStart leapsThrough
  omega

theorem yearStart_sub_le {a b : Int} (ordered : a ≤ b) :
    yearStart b - yearStart a ≤ 365 * (b - a) + (b - a) / 4 + 1 := by
  unfold yearStart leapsThrough
  omega

theorem exists_year (day : Int) :
    ∃ year, yearStart year ≤ day ∧ day < yearStart (year + 1) := by
  have zero : yearStart 0 = -1 := by decide
  have bounded : ∀ year, yearStart year ≤ day → year ≤ |day| + 1 := by
    intro year started
    by_cases positive : 0 ≤ year
    · have := le_yearStart_sub positive
      cases abs_cases day <;> omega
    · cases abs_cases day <;> omega
  have early : yearStart (-|day| - 1) ≤ day := by
    have := le_yearStart_sub (show -|day| - 1 ≤ 0 by cases abs_cases day <;> omega)
    cases abs_cases day <;> omega
  obtain ⟨year, first, last⟩ :=
    Int.exists_greatest_of_bdd (P := fun year => yearStart year ≤ day) ⟨|day| + 1, bounded⟩
      ⟨_, early⟩
  refine ⟨year, first, ?_⟩
  by_contra started
  have := last (year + 1) (not_lt.mp started)
  omega

end Years

section Months

theorem daysBeforeMonth_one (leapYear : Bool) : daysBeforeMonth leapYear 1 = 0 := rfl

theorem daysBeforeMonth_thirteen (year : Int) :
    daysBeforeMonth (leap year) 13 = yearLength year := by
  unfold yearLength
  cases leap year <;> rfl

theorem monthLength_eq_sub {month : Int} (leapYear : Bool) (first : 1 ≤ month)
    (last : month ≤ 12) :
    monthLength leapYear month =
      daysBeforeMonth leapYear (month + 1) - daysBeforeMonth leapYear month := by
  interval_cases month <;> cases leapYear <;> rfl

theorem isDate_of_daysBeforeMonth {year month dayOfYear : Int} (first : 1 ≤ month)
    (last : month ≤ 12) (after : daysBeforeMonth (leap year) month ≤ dayOfYear)
    (before : dayOfYear < daysBeforeMonth (leap year) (month + 1)) :
    IsDate year month (dayOfYear - daysBeforeMonth (leap year) month + 1) := by
  have length := monthLength_eq_sub (leap year) first last
  refine ⟨first, last, by omega, by omega⟩

end Months

end Gregorian
