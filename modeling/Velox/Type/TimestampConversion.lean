import Mathlib
import Velox.Library.Gregorian
import Velox.Library.LowerBound

/-! Calendar conversions of `util` (TimestampConversion.cpp) and of `Timestamp` (Timestamp.cpp).
Years, days and seconds are kept as `Int`: for the int32 fields of `std::tm` and the int64
epochs the functions accept, no intermediate value of the source leaves its C++ type. -/

namespace Velox

namespace util

def kMinYear : Int := -292275055
def kMaxYear : Int := 292278994
def kYearInterval : Int := 400
def kDaysPerYearInterval : Int := 146097

def kLeapDays : List Int := [0, 31, 29, 31, 30, 31, 30, 31, 31, 30, 31, 30, 31]
def kNormalDays : List Int := [0, 31, 28, 31, 30, 31, 30, 31, 31, 30, 31, 30, 31]
def kCumulativeDays : List Int := [0, 31, 59, 90, 120, 151, 181, 212, 243, 273, 304, 334, 365]
def kCumulativeLeapDays : List Int :=
  [0, 31, 60, 91, 121, 152, 182, 213, 244, 274, 305, 335, 366]

def kCumulativeYearDays : List Int := [
  0, 365, 730, 1096, 1461, 1826, 2191, 2557, 2922, 3287,
  3652, 4018, 4383, 4748, 5113, 5479, 5844, 6209, 6574, 6940,
  7305, 7670, 8035, 8401, 8766, 9131, 9496, 9862, 10227, 10592,
  10957, 11323, 11688, 12053, 12418, 12784, 13149, 13514, 13879, 14245,
  14610, 14975, 15340, 15706, 16071, 16436, 16801, 17167, 17532, 17897,
  18262, 18628, 18993, 19358, 19723, 20089, 20454, 20819, 21184, 21550,
  21915, 22280, 22645, 23011, 23376, 23741, 24106, 24472, 24837, 25202,
  25567, 25933, 26298, 26663, 27028, 27394, 27759, 28124, 28489, 28855,
  29220, 29585, 29950, 30316, 30681, 31046, 31411, 31777, 32142, 32507,
  32872, 33238, 33603, 33968, 34333, 34699, 35064, 35429, 35794, 36160,
  36525, 36890, 37255, 37621, 37986, 38351, 38716, 39082, 39447, 39812,
  40177, 40543, 40908, 41273, 41638, 42004, 42369, 42734, 43099, 43465,
  43830, 44195, 44560, 44926, 45291, 45656, 46021, 46387, 46752, 47117,
  47482, 47847, 48212, 48577, 48942, 49308, 49673, 50038, 50403, 50769,
  51134, 51499, 51864, 52230, 52595, 52960, 53325, 53691, 54056, 54421,
  54786, 55152, 55517, 55882, 56247, 56613, 56978, 57343, 57708, 58074,
  58439, 58804, 59169, 59535, 59900, 60265, 60630, 60996, 61361, 61726,
  62091, 62457, 62822, 63187, 63552, 63918, 64283, 64648, 65013, 65379,
  65744, 66109, 66474, 66840, 67205, 67570, 67935, 68301, 68666, 69031,
  69396, 69762, 70127, 70492, 70857, 71223, 71588, 71953, 72318, 72684,
  73049, 73414, 73779, 74145, 74510, 74875, 75240, 75606, 75971, 76336,
  76701, 77067, 77432, 77797, 78162, 78528, 78893, 79258, 79623, 79989,
  80354, 80719, 81084, 81450, 81815, 82180, 82545, 82911, 83276, 83641,
  84006, 84371, 84736, 85101, 85466, 85832, 86197, 86562, 86927, 87293,
  87658, 88023, 88388, 88754, 89119, 89484, 89849, 90215, 90580, 90945,
  91310, 91676, 92041, 92406, 92771, 93137, 93502, 93867, 94232, 94598,
  94963, 95328, 95693, 96059, 96424, 96789, 97154, 97520, 97885, 98250,
  98615, 98981, 99346, 99711, 100076, 100442, 100807, 101172, 101537, 101903,
  102268, 102633, 102998, 103364, 103729, 104094, 104459, 104825, 105190, 105555,
  105920, 106286, 106651, 107016, 107381, 107747, 108112, 108477, 108842, 109208,
  109573, 109938, 110303, 110669, 111034, 111399, 111764, 112130, 112495, 112860,
  113225, 113591, 113956, 114321, 114686, 115052, 115417, 115782, 116147, 116513,
  116878, 117243, 117608, 117974, 118339, 118704, 119069, 119435, 119800, 120165,
  120530, 120895, 121260, 121625, 121990, 122356, 122721, 123086, 123451, 123817,
  124182, 124547, 124912, 125278, 125643, 126008, 126373, 126739, 127104, 127469,
  127834, 128200, 128565, 128930, 129295, 129661, 130026, 130391, 130756, 131122,
  131487, 131852, 132217, 132583, 132948, 133313, 133678, 134044, 134409, 134774,
  135139, 135505, 135870, 136235, 136600, 136966, 137331, 137696, 138061, 138427,
  138792, 139157, 139522, 139888, 140253, 140618, 140983, 141349, 141714, 142079,
  142444, 142810, 143175, 143540, 143905, 144271, 144636, 145001, 145366, 145732,
  146097]

-- C++ `%` truncates; for the divisibility tests here the sign does not matter.
def isLeapYear (year : Int) : Bool :=
  year.tmod 4 == 0 && (year.tmod 100 != 0 || year.tmod 400 == 0)

def isValidDate (year month day : Int) : Bool :=
  if month < 1 ∨ month > 12 then false
  else if year < kMinYear ∨ year > kMaxYear then false
  else if day < 1 then false
  else if isLeapYear year then day ≤ kLeapDays.getD month.toNat 0
  else day ≤ kNormalDays.getD month.toNat 0

def addYearIntervals (year daysSinceEpoch : Int) : Int × Int :=
  if year < 1970 then
    addYearIntervals (year + kYearInterval) (daysSinceEpoch - kDaysPerYearInterval)
  else (year, daysSinceEpoch)
termination_by (1970 - year).toNat
decreasing_by simp only [kYearInterval]; omega

def subtractYearIntervals (year daysSinceEpoch : Int) : Int × Int :=
  if 2370 ≤ year then
    subtractYearIntervals (year - kYearInterval) (daysSinceEpoch + kDaysPerYearInterval)
  else (year, daysSinceEpoch)
termination_by (year - 2369).toNat
decreasing_by simp only [kYearInterval]; omega

def daysSinceEpochFromDate (year month day : Int) : Except String Int :=
  if !isValidDate year month day then
    .error ("Date out of range: " ++ toString year ++ "-" ++ toString month ++ "-" ++
      toString day)
  else
    let (year, daysSinceEpoch) := addYearIntervals year 0
    let (year, daysSinceEpoch) := subtractYearIntervals year daysSinceEpoch
    let daysSinceEpoch := daysSinceEpoch + kCumulativeYearDays.getD (year - 1970).toNat 0
    let daysSinceEpoch := daysSinceEpoch +
      if isLeapYear year then kCumulativeLeapDays.getD (month - 1).toNat 0
      else kCumulativeDays.getD (month - 1).toNat 0
    .ok (daysSinceEpoch + (day - 1))

def extractISODayOfTheWeek (daysSinceEpoch : Int) : Int :=
  if daysSinceEpoch < 0 then 7 - (-daysSinceEpoch + 3).tmod 7
  else (daysSinceEpoch + 3).tmod 7 + 1

section Calendar

open Gregorian

theorem isLeapYear_eq (year : Int) : isLeapYear year = leap year := by
  simp only [isLeapYear, leap, bne, beq_eq_decide, ← Int.dvd_iff_tmod_eq_zero,
    ← Int.dvd_iff_emod_eq_zero]

theorem kCumulativeYearDays_eq :
    kCumulativeYearDays =
      (List.range 401).map fun i : Nat => yearStart (1970 + i) - yearStart 1970 := by
  decide +kernel

theorem kCumulativeDays_eq :
    kCumulativeDays = (List.range 13).map fun i : Nat => daysBeforeMonth false (i + 1) := by
  decide

theorem kCumulativeLeapDays_eq :
    kCumulativeLeapDays = (List.range 13).map fun i : Nat => daysBeforeMonth true (i + 1) := by
  decide

theorem kLeapDays_getD {month : Int} (first : 1 ≤ month) (last : month ≤ 12) :
    kLeapDays.getD month.toNat 0 = monthLength true month ∧
      kNormalDays.getD month.toNat 0 = monthLength false month := by
  interval_cases month <;> decide

theorem isValidDate_iff (year month day : Int) :
    isValidDate year month day = true ↔
      IsDate year month day ∧ kMinYear ≤ year ∧ year ≤ kMaxYear := by
  unfold isValidDate IsDate
  by_cases months : month < 1 ∨ month > 12
  · simp only [months, if_true, Bool.false_eq_true, false_iff]
    omega
  · have lengths := kLeapDays_getD (show 1 ≤ month by omega) (show month ≤ 12 by omega)
    rw [isLeapYear_eq]
    cases leap year <;>
      simp only [months, lengths, if_false, Bool.false_eq_true, if_true] <;>
      split_ifs <;> simp <;> omega

theorem addYearIntervals_spec (year days : Int) :
    ∃ cycles : Int,
      addYearIntervals year days = (year + 400 * cycles, days - 146097 * cycles) ∧
      1970 ≤ year + 400 * cycles ∧ (year < 2370 → year + 400 * cycles < 2370) := by
  fun_induction addYearIntervals year days with
  | case1 year days below ih =>
    obtain ⟨cycles, result, first, last⟩ := ih
    simp only [kYearInterval, kDaysPerYearInterval] at result first last ⊢
    refine ⟨cycles + 1, ?_, by omega, fun _ => by omega⟩
    rw [result, Prod.mk.injEq]
    omega
  | case2 year days above =>
    exact ⟨0, by simp, by omega, by omega⟩

theorem subtractYearIntervals_spec (year days : Int) :
    ∃ cycles : Int,
      subtractYearIntervals year days = (year - 400 * cycles, days + 146097 * cycles) ∧
      year - 400 * cycles < 2370 ∧ (1970 ≤ year → 1970 ≤ year - 400 * cycles) := by
  fun_induction subtractYearIntervals year days with
  | case1 year days above ih =>
    obtain ⟨cycles, result, last, first⟩ := ih
    simp only [kYearInterval, kDaysPerYearInterval] at result first last ⊢
    refine ⟨cycles + 1, ?_, by omega, fun _ => by omega⟩
    rw [result, Prod.mk.injEq]
    omega
  | case2 year days below =>
    exact ⟨0, by simp, by omega, fun _ => by omega⟩

theorem daysSinceEpochFromDate_eq {year month day : Int} (date : IsDate year month day)
    (range : kMinYear ≤ year ∧ year ≤ kMaxYear) :
    daysSinceEpochFromDate year month day = .ok (dayNumber year month day - yearStart 1970) := by
  have valid : isValidDate year month day = true := (isValidDate_iff _ _ _).mpr ⟨date, range⟩
  obtain ⟨up, upEq, upFirst, upLast⟩ := addYearIntervals_spec year 0
  obtain ⟨down, downEq, downLast, downFirst⟩ :=
    subtractYearIntervals_spec (year + 400 * up) (0 - 146097 * up)
  -- the two loops leave a year in the table's range, a whole number of cycles away
  have final : subtractYearIntervals (year + 400 * up) (0 - 146097 * up) =
      (year + 400 * (up - down), -(146097 * (up - down))) := by
    rw [downEq, Prod.mk.injEq]
    constructor <;> ring
  have inTable : (year + 400 * (up - down) - 1970).toNat < 401 := by omega
  have table : kCumulativeYearDays.getD (year + 400 * (up - down) - 1970).toNat 0 =
      yearStart (year + 400 * (up - down)) - yearStart 1970 := by
    rw [kCumulativeYearDays_eq, List.getD_eq_getElem?_getD, List.getElem?_map,
      List.getElem?_range inTable]
    simp only [Option.map_some, Option.getD_some]
    congr 2
    omega
  obtain ⟨first, last, -, -⟩ := date
  have monthIndex : (month - 1).toNat < 13 := by omega
  have months : (if isLeapYear (year + 400 * (up - down)) then
      kCumulativeLeapDays.getD (month - 1).toNat 0 else kCumulativeDays.getD (month - 1).toNat 0) =
      daysBeforeMonth (leap year) month := by
    rw [kCumulativeLeapDays_eq, kCumulativeDays_eq, isLeapYear_eq, leap_add_mul_400]
    cases leap year <;>
      simp only [List.getD_eq_getElem?_getD, List.getElem?_map, List.getElem?_range monthIndex,
        Option.map_some, Option.getD_some, if_true, Bool.false_eq_true, if_false] <;>
      congr 1 <;> omega
  simp only [daysSinceEpochFromDate, valid, Bool.not_true, Bool.false_eq_true, if_false, upEq,
    final, table, months, Except.ok.injEq]
  rw [dayNumber, yearStart_add_mul_400]
  ring

theorem extractISODayOfTheWeek_eq (daysSinceEpoch : Int) :
    extractISODayOfTheWeek daysSinceEpoch = (daysSinceEpoch + 3) % 7 + 1 := by
  unfold extractISODayOfTheWeek
  split
  · rw [Int.tmod_eq_emod_of_nonneg (by omega)]
    omega
  · rw [Int.tmod_eq_emod_of_nonneg (by omega)]

end Calendar

end util

structure Tm where
  tmSec : Int
  tmMin : Int
  tmHour : Int
  tmMday : Int
  tmMon : Int
  tmYear : Int
  tmWday : Int
  tmYday : Int
  tmIsdst : Int
deriving DecidableEq, Repr

namespace Timestamp

def kTmYearBase : Int := 1900
def kLeapYearOffset : Int := 4000000000
def kSecondsPerHour : Int := 3600
def kSecondsPerDay : Int := 24 * kSecondsPerHour
def kDaysPerYear : Int := 365

def isLeap (y : Int) : Bool := util.isLeapYear y

/-- The offset keeps `y` nonnegative, where truncating division is floor division. -/
def leapThroughEndOf (y : Int) : Int :=
  let y := y + kLeapYearOffset
  y.tdiv 4 - y.tdiv 100 + y.tdiv 400

def daysBetweenYears (y1 y2 : Int) : Int :=
  365 * (y2 - y1) + leapThroughEndOf (y2 - 1) - leapThroughEndOf (y1 - 1)

def daysBeforeFirstDayOfMonth (leapYear : Bool) : List Int :=
  if leapYear then [0, 31, 60, 91, 121, 152, 182, 213, 244, 274, 305, 335]
  else [0, 31, 59, 90, 120, 151, 181, 212, 243, 273, 304, 334]

def borrowDays (rem days : Int) : Int × Int :=
  if rem < 0 then borrowDays (rem + kSecondsPerDay) (days - 1) else (rem, days)
termination_by (-rem).toNat
decreasing_by simp only [kSecondsPerDay, kSecondsPerHour]; omega

/-- The loop's `newy`: the year `days` days after the start of `y`, estimated with 365-day
    years. -/
def nextYear (y days : Int) : Int := y + days.tdiv kDaysPerYear - (if days < 0 then 1 else 0)

/-- The year loop of `epochToCalendarUtc`. It jumps to the estimate `y + days / 365` (a year
    further back for negative `days`) until `days` falls inside year `y`, and gives back the
    year, the day of the year and the flag `leapYear` that the loop condition assigned last.
    The source's loop is unbounded; `fuel` bounds the rounds. -/
def yearLoop : (fuel : Nat) → (y days : Int) → Option (Int × Int × Bool)
  | 0, _, _ => none
  | fuel + 1, y, days =>
    if days < 0 ∨ kDaysPerYear + (if isLeap y then 1 else 0) ≤ days then
      let newy := nextYear y days
      yearLoop fuel newy (days - daysBetweenYears y newy)
    else some (y, days, isLeap y)

/-- Rounds given to the year loop; `yearLoop_epoch` shows they are never all used. -/
def yearLoopFuel (days : Int) : Nat := days.natAbs + 4

/-- The calendar fields of an epoch in UTC, or `none` where the source returns false. -/
def epochToCalendarUtc (epoch : Int64) : Option Tm :=
  let (rem, days) :=
    borrowDays (epoch.toInt.tmod kSecondsPerDay) (epoch.toInt.tdiv kSecondsPerDay)
  let tmHour := rem.tdiv kSecondsPerHour
  let rem := rem.tmod kSecondsPerHour
  let tmMin := rem.tdiv 60
  let tmSec := rem.tmod 60
  let wday := (4 + days).tmod 7
  let tmWday := if wday < 0 then wday + 7 else wday
  if 1970 + days.tdiv kDaysPerYear ≤ -kLeapYearOffset + 10 then none
  else
    match yearLoop (yearLoopFuel days) 1970 days with
    | none => none
    | some (y, days, leapYear) =>
      let y := y - kTmYearBase
      if y > Int32.maxValue.toInt ∨ y < Int32.minValue.toInt then none
      else
        let months := daysBeforeFirstDayOfMonth leapYear
        let tmMon : Int := BinarySearch.upperBound months days - 1
        some { tmSec, tmMin, tmHour, tmMday := days - months.getD tmMon.toNat 0 + 1, tmMon,
               tmYear := y, tmWday, tmYday := days, tmIsdst := 0 }

def calendarUtcToEpoch (tm : Tm) : Int :=
  let year := tm.tmYear + 1900
  let month := tm.tmMon
  let (year, month) :=
    if month > 11 then (year + month.tdiv 12, month.tmod 12)
    else if month < 0 then
      let yearsDiff := (-month + 11).tdiv 12
      (year - yearsDiff, month + 12 * yearsDiff)
    else (year, month)
  let dayOfYear := -1 + (daysBeforeFirstDayOfMonth (isLeap year)).getD month.toNat 0 + tm.tmMday
  let daysSinceEpoch := daysBetweenYears 1970 year + dayOfYear
  kSecondsPerDay * daysSinceEpoch + kSecondsPerHour * tm.tmHour + 60 * tm.tmMin + tm.tmSec

example : calendarUtcToEpoch ⟨0, 0, 0, 29, 1, 100, 0, 0, 0⟩ = 951782400 := by decide

example : calendarUtcToEpoch ⟨0, 0, 0, 1, -11, 100, 0, 0, 0⟩ = 917827200 := by decide

section Conversions

open Gregorian

theorem isLeap_eq (y : Int) : isLeap y = leap y := util.isLeapYear_eq y

theorem leapThroughEndOf_eq {y : Int} (inside : -kLeapYearOffset ≤ y) :
    leapThroughEndOf y = leapsThrough y + 970000000 := by
  simp only [kLeapYearOffset] at inside
  simp only [leapThroughEndOf, kLeapYearOffset, leapsThrough,
    Int.tdiv_eq_ediv_of_nonneg (show 0 ≤ y + 4000000000 by omega)]
  omega

theorem daysBetweenYears_eq {y1 y2 : Int} (inside1 : -kLeapYearOffset < y1)
    (inside2 : -kLeapYearOffset < y2) :
    daysBetweenYears y1 y2 = yearStart y2 - yearStart y1 := by
  rw [daysBetweenYears, leapThroughEndOf_eq (by omega), leapThroughEndOf_eq (by omega), yearStart,
    yearStart]
  ring

theorem daysBeforeFirstDayOfMonth_eq (leapYear : Bool) :
    daysBeforeFirstDayOfMonth leapYear =
      (List.range 12).map fun i : Nat => daysBeforeMonth leapYear (i + 1) := by
  cases leapYear <;> decide

theorem daysBeforeFirstDayOfMonth_getD {month : Int} (leapYear : Bool) (first : 0 ≤ month)
    (last : month ≤ 11) :
    (daysBeforeFirstDayOfMonth leapYear).getD month.toNat 0 =
      daysBeforeMonth leapYear (month + 1) := by
  rw [daysBeforeFirstDayOfMonth_eq, List.getD_eq_getElem?_getD, List.getElem?_map,
    List.getElem?_range (by omega)]
  simp only [Option.map_some, Option.getD_some]
  congr 1
  omega

theorem calendarUtcToEpoch_eq (tm : Tm) (month : 0 ≤ tm.tmMon ∧ tm.tmMon ≤ 11)
    (year : -kLeapYearOffset < tm.tmYear + 1900) :
    calendarUtcToEpoch tm =
      86400 * (dayNumber (tm.tmYear + 1900) (tm.tmMon + 1) tm.tmMday - yearStart 1970) +
        3600 * tm.tmHour + 60 * tm.tmMin + tm.tmSec := by
  have notAbove : ¬ tm.tmMon > 11 := by omega
  have notBelow : ¬ tm.tmMon < 0 := by omega
  simp only [calendarUtcToEpoch, notAbove, notBelow, if_false, isLeap_eq,
    daysBeforeFirstDayOfMonth_getD _ month.1 month.2,
    daysBetweenYears_eq (show -kLeapYearOffset < 1970 by decide) year, dayNumber, kSecondsPerDay,
    kSecondsPerHour]
  ring

theorem borrowDays_tmod_tdiv (epoch : Int) :
    borrowDays (epoch.tmod kSecondsPerDay) (epoch.tdiv kSecondsPerDay) =
      (epoch % 86400, epoch / 86400) := by
  have day : kSecondsPerDay = 86400 := rfl
  have quotient := Int.tmod_def epoch kSecondsPerDay
  have above := Int.lt_tmod_of_pos epoch (show 0 < kSecondsPerDay by decide)
  have below := Int.tmod_lt_of_pos epoch (show 0 < kSecondsPerDay by decide)
  rw [day] at quotient above below ⊢
  rw [borrowDays, day]
  split
  · rw [borrowDays]
    simp only [day, show ¬ epoch.tmod 86400 + 86400 < 0 by omega, if_false, Prod.mk.injEq]
    omega
  · simp only [Prod.mk.injEq]
    omega

end Conversions

section YearLoop

open Gregorian

/-! The year loop, run on day `T` of the calendar from year `y` with `days = T - yearStart y`,
stops at the year `Y` that holds `T`. Each round jumps past `Y` or onto it, and never further
from it than before; at distance one it may jump over `Y` once, in a direction that depends on
where in year `Y` the day `T` falls, which is why `loopDistance` adds one on that side. -/

def loopDistance (T Y y : Int) : Int :=
  if y < Y then 2 * (Y - y) + (if 2 ≤ T - yearStart Y then 1 else 0)
  else if Y < y then 2 * (y - Y) + (if T - yearStart Y < 2 then 1 else 0)
  else 0

def Inside (Y y : Int) : Prop := -kLeapYearOffset < y ∧ -kLeapYearOffset < 2 * Y - y

variable {T Y : Int}

theorem nextYear_eq (y days : Int) :
    nextYear y days = if days < 0 then y - (-days) / 365 - 1 else y + days / 365 := by
  unfold nextYear kDaysPerYear
  split
  · have truncated : days.tdiv 365 = -((-days) / 365) := by
      rw [← Int.tdiv_eq_ediv_of_nonneg (by omega), Int.neg_tdiv, neg_neg]
    rw [truncated]
    ring
  · rw [Int.tdiv_eq_ediv_of_nonneg (by omega)]
    ring

section
variable (year : yearStart Y ≤ T ∧ T < yearStart (Y + 1))
include year

theorem continues_iff (y : Int) :
    (T - yearStart y < 0 ∨ kDaysPerYear + (if isLeap y then 1 else 0) ≤ T - yearStart y) ↔
      y ≠ Y := by
  have length : kDaysPerYear + (if isLeap y then 1 else 0) = yearLength y := by
    simp only [kDaysPerYear, yearLength, isLeap_eq]
    split <;> rfl
  have next := yearStart_succ y
  rw [length]
  constructor
  · rintro (before | after) rfl <;> omega
  · intro different
    rcases lt_or_gt_of_ne different with below | above
    · have := le_yearStart_sub (show y + 1 ≤ Y by omega)
      omega
    · have := le_yearStart_sub (show Y + 1 ≤ y by omega)
      omega

theorem nextYear_of_lt {y : Int} (below : y < Y) :
    Y ≤ nextYear y (T - yearStart y) ∧ nextYear y (T - yearStart y) - Y ≤ Y - y ∧
      (nextYear y (T - yearStart y) - Y < Y - y ∨ Y - y = 1 ∧ 364 ≤ T - yearStart Y) := by
  have least := le_yearStart_sub below.le
  have most := yearStart_sub_le below.le
  have mostNext := yearStart_sub_le (show y ≤ Y + 1 by omega)
  rw [nextYear_eq, if_neg (by omega)]
  omega

theorem nextYear_of_gt {y : Int} (above : Y < y) :
    nextYear y (T - yearStart y) ≤ Y ∧ Y - nextYear y (T - yearStart y) ≤ y - Y ∧
      (Y - nextYear y (T - yearStart y) < y - Y ∨ y - Y = 1 ∧ T - yearStart Y ≤ 1) := by
  have least := le_yearStart_sub (show Y + 1 ≤ y by omega)
  have most := yearStart_sub_le above.le
  rw [nextYear_eq, if_pos (by omega)]
  omega

theorem loopDistance_nextYear_lt {y : Int} (different : y ≠ Y) :
    loopDistance T Y (nextYear y (T - yearStart y)) < loopDistance T Y y := by
  unfold loopDistance
  rcases lt_or_gt_of_ne different with below | above
  · obtain ⟨landed, closer, overshoot⟩ := nextYear_of_lt year below
    split_ifs <;> omega
  · obtain ⟨landed, closer, overshoot⟩ := nextYear_of_gt year above
    split_ifs <;> omega

theorem inside_nextYear {y : Int} (inside : Inside Y y) (different : y ≠ Y) :
    Inside Y (nextYear y (T - yearStart y)) := by
  unfold Inside at *
  rcases lt_or_gt_of_ne different with below | above
  · obtain ⟨landed, closer, -⟩ := nextYear_of_lt year below
    omega
  · obtain ⟨landed, closer, -⟩ := nextYear_of_gt year above
    omega

theorem loopDistance_le (y : Int) : loopDistance T Y y ≤ |T - yearStart y| + 3 := by
  unfold loopDistance
  rcases lt_trichotomy y Y with below | same | above
  · have := le_yearStart_sub below.le
    rw [if_pos below]
    split <;> cases abs_cases (T - yearStart y) <;> omega
  · rw [if_neg (by omega), if_neg (by omega)]
    cases abs_cases (T - yearStart y) <;> omega
  · have := le_yearStart_sub (show Y + 1 ≤ y by omega)
    rw [if_neg (by omega), if_pos above]
    split <;> cases abs_cases (T - yearStart y) <;> omega

theorem yearLoop_self (fuel : Nat) :
    yearLoop (fuel + 1) Y (T - yearStart Y) = some (Y, T - yearStart Y, leap Y) := by
  rw [yearLoop, if_neg (fun continues => (continues_iff year Y).mp continues rfl), isLeap_eq]

theorem yearLoop_of_ne {y : Int} (fuel : Nat) (inside : -kLeapYearOffset < y)
    (insideNext : -kLeapYearOffset < nextYear y (T - yearStart y)) (different : y ≠ Y) :
    yearLoop (fuel + 1) y (T - yearStart y) =
      yearLoop fuel (nextYear y (T - yearStart y))
        (T - yearStart (nextYear y (T - yearStart y))) := by
  rw [yearLoop, if_pos ((continues_iff year y).mpr different)]
  dsimp only
  rw [daysBetweenYears_eq inside insideNext]
  congr 1
  ring

theorem yearLoop_run : ∀ (fuel : Nat) (y : Int), Inside Y y → loopDistance T Y y < fuel →
    yearLoop fuel y (T - yearStart y) = some (Y, T - yearStart Y, leap Y) := by
  intro fuel
  induction fuel with
  | zero =>
    intro y _ short
    have : 0 ≤ loopDistance T Y y := by
      unfold loopDistance
      split_ifs <;> omega
    omega
  | succ fuel ih =>
    intro y inside enough
    by_cases found : y = Y
    · subst found
      exact yearLoop_self year fuel
    · have next := inside_nextYear year inside found
      have closer := loopDistance_nextYear_lt year found
      rw [yearLoop_of_ne year fuel inside.1 next.1 found]
      exact ih _ next (by omega)

end

theorem yearLoop_epoch (T : Int)
    (guard : -kLeapYearOffset + 10 < 1970 + (T - yearStart 1970).tdiv kDaysPerYear)
    (year : yearStart Y ≤ T ∧ T < yearStart (Y + 1)) :
    yearLoop (yearLoopFuel (T - yearStart 1970)) 1970 (T - yearStart 1970) =
      some (Y, T - yearStart Y, leap Y) := by
  have rounds : yearLoopFuel (T - yearStart 1970) = (T - yearStart 1970).natAbs + 3 + 1 := rfl
  rw [rounds]
  by_cases found : (1970 : Int) = Y
  · subst found
    exact yearLoop_self year _
  · -- the first estimate is where the guard looks, so it is inside; the run goes on from there
    have first : -kLeapYearOffset < nextYear 1970 (T - yearStart 1970) := by
      simp only [nextYear, kLeapYearOffset] at guard ⊢
      split <;> omega
    have inside : Inside Y (nextYear 1970 (T - yearStart 1970)) := by
      refine ⟨first, ?_⟩
      rcases lt_or_gt_of_ne found with below | above
      · obtain ⟨landed, closer, -⟩ := nextYear_of_lt year below
        simp only [kLeapYearOffset]
        omega
      · obtain ⟨landed, -, -⟩ := nextYear_of_gt year above
        omega
    have closer := loopDistance_nextYear_lt year found
    have start := loopDistance_le year 1970
    rw [yearLoop_of_ne year _ (by decide) first found]
    exact yearLoop_run year _ _ inside (by push_cast; omega)

end YearLoop

section EpochToCalendar

open Gregorian

theorem daysBeforeFirstDayOfMonth_sorted (leapYear : Bool) :
    (daysBeforeFirstDayOfMonth leapYear).Pairwise (· ≤ ·) := by
  cases leapYear <;> decide

theorem upperBound_month (leapYear : Bool) (yday : Int) (first : 0 ≤ yday)
    (last : yday < daysBeforeMonth leapYear 13) :
    1 ≤ BinarySearch.upperBound (daysBeforeFirstDayOfMonth leapYear) yday ∧
      BinarySearch.upperBound (daysBeforeFirstDayOfMonth leapYear) yday ≤ 12 ∧
      daysBeforeMonth leapYear (BinarySearch.upperBound (daysBeforeFirstDayOfMonth leapYear) yday)
        ≤ yday ∧
      yday < daysBeforeMonth leapYear
        (BinarySearch.upperBound (daysBeforeFirstDayOfMonth leapYear) yday + 1) := by
  obtain ⟨fits, left, right⟩ :=
    BinarySearch.upperBound_bracketed yday (daysBeforeFirstDayOfMonth_sorted leapYear)
  set r := BinarySearch.upperBound (daysBeforeFirstDayOfMonth leapYear) yday
  have length : (daysBeforeFirstDayOfMonth leapYear).length = 12 := by cases leapYear <;> rfl
  have entry : ∀ i (inside : i < (daysBeforeFirstDayOfMonth leapYear).length),
      (daysBeforeFirstDayOfMonth leapYear)[i] = daysBeforeMonth leapYear (i + 1) := by
    intro i inside
    simp only [daysBeforeFirstDayOfMonth_eq, List.getElem_map, List.getElem_range]
  have positive : 1 ≤ r := by
    by_contra zero
    have start := right 0 (by omega) (by omega)
    rw [entry, show ((0 : Nat) : Int) + 1 = 1 from rfl, daysBeforeMonth_one] at start
    omega
  refine ⟨positive, by omega, ?_, ?_⟩
  · have before := left (r - 1) (by omega) (by omega)
    rw [entry, show ((r - 1 : Nat) : Int) + 1 = r by omega] at before
    omega
  · by_cases full : r = 12
    · rw [full]
      exact last
    · have after := right r (by omega) (by omega)
      rw [entry] at after
      omega

theorem weekday_adjust (x : Int) : (if x.tmod 7 < 0 then x.tmod 7 + 7 else x.tmod 7) = x % 7 := by
  have quotient := Int.tmod_def x 7
  have above := Int.lt_tmod_of_pos x (show (0 : Int) < 7 by decide)
  have below := Int.tmod_lt_of_pos x (show (0 : Int) < 7 by decide)
  split <;> omega

theorem epochToCalendarUtc_fields {epoch : Int64} {tm : Tm} {Y : Int}
    (converted : epochToCalendarUtc epoch = some tm)
    (year : yearStart Y ≤ yearStart 1970 + epoch.toInt / 86400 ∧
      yearStart 1970 + epoch.toInt / 86400 < yearStart (Y + 1)) :
    tm.tmYear + 1900 = Y ∧ Int32.minValue.toInt ≤ tm.tmYear ∧
      tm.tmYday = yearStart 1970 + epoch.toInt / 86400 - yearStart Y ∧
      tm.tmMon =
        (BinarySearch.upperBound (daysBeforeFirstDayOfMonth (leap Y)) tm.tmYday : Int) - 1 ∧
      tm.tmMday = tm.tmYday - (daysBeforeFirstDayOfMonth (leap Y)).getD tm.tmMon.toNat 0 + 1 ∧
      3600 * tm.tmHour + 60 * tm.tmMin + tm.tmSec = epoch.toInt % 86400 ∧
      tm.tmWday = (4 + epoch.toInt / 86400) % 7 := by
  have days : yearStart 1970 + epoch.toInt / 86400 - yearStart 1970 = epoch.toInt / 86400 := by ring
  have loop := yearLoop_epoch (Y := Y) (yearStart 1970 + epoch.toInt / 86400)
  rw [days] at loop
  unfold epochToCalendarUtc at converted
  rw [borrowDays_tmod_tdiv] at converted
  dsimp only at converted
  by_cases guard : 1970 + (epoch.toInt / 86400).tdiv kDaysPerYear ≤ -kLeapYearOffset + 10
  · rw [if_pos guard] at converted
    cases converted
  rw [if_neg guard, loop (by omega) year] at converted
  dsimp only at converted
  by_cases range : Y - kTmYearBase > Int32.maxValue.toInt ∨ Y - kTmYearBase < Int32.minValue.toInt
  · rw [if_pos range] at converted
    cases converted
  rw [if_neg range] at converted
  cases converted
  simp only [kTmYearBase] at range
  have remainder : 0 ≤ epoch.toInt % 86400 := by omega
  simp only [kTmYearBase, kSecondsPerHour, weekday_adjust, Int.tdiv_eq_ediv_of_nonneg remainder,
    Int.tmod_eq_emod_of_nonneg remainder,
    Int.tmod_eq_emod_of_nonneg (show 0 ≤ epoch.toInt % 86400 % 3600 by omega),
    Int.tdiv_eq_ediv_of_nonneg (show 0 ≤ epoch.toInt % 86400 % 3600 by omega), and_true,
    true_and]
  exact ⟨by ring, by omega, by omega⟩

end EpochToCalendar

end Timestamp

section Claims

open Gregorian

theorem calendar_conversions_agree :
    (∀ (year month day : Int) (tm : Tm), IsDate year month day → util.kMinYear ≤ year →
      year ≤ util.kMaxYear → tm.tmYear = year - 1900 → tm.tmMon = month - 1 →
      tm.tmMday = day → tm.tmHour = 0 → tm.tmMin = 0 → tm.tmSec = 0 →
      ∃ days, util.daysSinceEpochFromDate year month day = .ok days ∧
        days * 86400 = Timestamp.calendarUtcToEpoch tm) ∧
    (∀ days : Int, -Timestamp.kLeapYearOffset + 10 < 1970 + days.tdiv Timestamp.kDaysPerYear →
      ∃ result, Timestamp.yearLoop (Timestamp.yearLoopFuel days) 1970 days = some result) ∧
    (∀ (epoch : Int64) (tm : Tm), Timestamp.epochToCalendarUtc epoch = some tm →
      IsDate (tm.tmYear + 1900) (tm.tmMon + 1) tm.tmMday ∧
      tm.tmYday = daysBeforeMonth (leap (tm.tmYear + 1900)) (tm.tmMon + 1) + tm.tmMday - 1 ∧
      tm.tmWday = weekday (dayNumber (tm.tmYear + 1900) (tm.tmMon + 1) tm.tmMday) ∧
      Timestamp.calendarUtcToEpoch tm = epoch.toInt ∧
      util.extractISODayOfTheWeek (epoch.toInt / 86400) = (tm.tmWday + 6) % 7 + 1) := by
  have epochDay : yearStart 1970 = 719527 := by decide
  refine ⟨?dateToEpoch, ?terminates, ?epochToDate⟩
  case dateToEpoch =>
    intro year month day tm date low high tmYear tmMon tmMday hour minute second
    refine ⟨_, util.daysSinceEpochFromDate_eq date ⟨low, high⟩, ?_⟩
    have inside : -Timestamp.kLeapYearOffset < tm.tmYear + 1900 := by
      simp only [util.kMinYear, Timestamp.kLeapYearOffset] at low ⊢
      omega
    obtain ⟨first, last, -, -⟩ := date
    rw [Timestamp.calendarUtcToEpoch_eq tm ⟨by omega, by omega⟩ inside, tmYear, tmMon, tmMday,
      hour, minute, second]
    ring_nf
  case terminates =>
    intro days guard
    obtain ⟨Y, year⟩ := exists_year (yearStart 1970 + days)
    have loop := Timestamp.yearLoop_epoch (yearStart 1970 + days)
      (by rwa [add_sub_cancel_left]) year
    rw [add_sub_cancel_left] at loop
    exact ⟨_, loop⟩
  case epochToDate =>
    intro epoch tm converted
    obtain ⟨Y, year⟩ := exists_year (yearStart 1970 + epoch.toInt / 86400)
    obtain ⟨tmYear, range, tmYday, tmMon, tmMday, time, tmWday⟩ :=
      Timestamp.epochToCalendarUtc_fields converted year
    rw [tmYear]
    -- the day of the year lies in year `Y`, so the month lookup finds its month
    have length := yearStart_succ Y
    obtain ⟨first, last, after, before⟩ :=
      Timestamp.upperBound_month (leap Y) tm.tmYday (by omega)
        (by rw [daysBeforeMonth_thirteen]; omega)
    rw [← Int.sub_add_cancel (BinarySearch.upperBound _ _ : Int) 1, ← tmMon] at after before
    have monthStart := Timestamp.daysBeforeFirstDayOfMonth_getD (leap Y)
      (show 0 ≤ tm.tmMon by omega) (show tm.tmMon ≤ 11 by omega)
    have mday : tm.tmMday = tm.tmYday - daysBeforeMonth (leap Y) (tm.tmMon + 1) + 1 := by
      rw [tmMday, monthStart]
    have number : dayNumber Y (tm.tmMon + 1) tm.tmMday = yearStart 1970 + epoch.toInt / 86400 := by
      unfold dayNumber
      omega
    have inside : -Timestamp.kLeapYearOffset < tm.tmYear + 1900 := by
      simp only [Timestamp.kLeapYearOffset, show Int32.minValue.toInt = -2147483648 from rfl]
        at range ⊢
      omega
    refine ⟨?_, by omega, ?_, ?_, ?_⟩
    · rw [mday]
      exact isDate_of_daysBeforeMonth (by omega) (by omega) (by omega) (by omega)
    · rw [number, weekday, tmWday, epochDay]
      omega
    · rw [Timestamp.calendarUtcToEpoch_eq tm ⟨by omega, by omega⟩ inside, tmYear, number]
      omega
    · rw [util.extractISODayOfTheWeek_eq, tmWday]
      omega

end Claims

end Velox
