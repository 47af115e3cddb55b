import Mathlib.Algebra.Order.Ring.Int
import Mathlib.Order.Monotone.Basic
import Mathlib.Order.SuccPred.Archimedean
import Mathlib.Algebra.Order.SuccPred
import Mathlib.Data.Int.SuccPred
import Mathlib.Tactic.Common

/-!
# The proleptic Gregorian calendar

Years begin in March, so that the leap day is the last day of a year; months are
counted from March of the year 0, days from its first.
-/
namespace Calendar

/-- The days before a year. -/
def yearStart (year : Int) : Int := 365 * year + year / 4 - year / 100 + year / 400

/-- The days of a year before its `month`th month. -/
def monthOffset (month : Int) : Int := (153 * month + 2) / 5

/-- The first day of a month. -/
def monthStart (month : Int) : Int := yearStart (month / 12) + monthOffset (month % 12)

variable {year month day : Int}

theorem yearStart_succ (year : Int) :
    yearStart year + 365 ≤ yearStart (year + 1) ∧ yearStart (year + 1) ≤ yearStart year + 366 := by
  have h4 : (year + 1) / 4 = year / 4 ∨ (year + 1) / 4 = year / 4 + 1 := by omega
  have h100 : (year + 1) / 100 = year / 100 ∧ (year + 1) / 400 = year / 400 ∨
      (year + 1) / 100 = year / 100 + 1 ∧ (year + 1) / 4 = year / 4 + 1 ∧
        ((year + 1) / 400 = year / 400 ∨ (year + 1) / 400 = year / 400 + 1) := by omega
  unfold yearStart
  omega

theorem monthStart_in_year (hlow : 0 ≤ month) (hhigh : month ≤ 11) :
    monthStart (12 * year + month) = yearStart year + monthOffset month := by
  have hyear : (12 * year + month) / 12 = year := by omega
  have hmonth : (12 * year + month) % 12 = month := by omega
  rw [monthStart, hyear, hmonth]

/-- The month after, within the year or at the turn of the year. -/
theorem monthStart_next (year : Int) (hlow : 0 ≤ month) (hhigh : month ≤ 11) :
    monthStart (12 * year + month + 1) = yearStart year + monthOffset (month + 1) ∧ month < 11 ∨
      monthStart (12 * year + month + 1) = yearStart (year + 1) ∧ month = 11 := by
  obtain hlt | rfl : month < 11 ∨ month = 11 := by omega
  · refine .inl ⟨?_, hlt⟩
    rw [add_assoc]
    exact monthStart_in_year (by omega) (by omega)
  · have hturn : (12 * year + 11 + 1) = 12 * (year + 1) + 0 := by omega
    refine .inr ⟨?_, rfl⟩
    rw [hturn, monthStart_in_year le_rfl (by omega)]
    simp [monthOffset]

theorem monthStart_lt_succ (month : Int) : monthStart month < monthStart (month + 1) := by
  have hsplit : month = 12 * (month / 12) + month % 12 := by omega
  have hlow : 0 ≤ month % 12 := by omega
  have hhigh : month % 12 ≤ 11 := by omega
  have hyear := yearStart_succ (month / 12)
  rw [hsplit, monthStart_in_year hlow hhigh]
  obtain ⟨hnext, -⟩ | ⟨hnext, hlast⟩ := monthStart_next (month / 12) hlow hhigh
  · rw [hnext]
    unfold monthOffset
    omega
  · rw [hnext, hlast]
    unfold monthOffset
    omega

theorem monthStart_lt_iff {month' : Int} : monthStart month < monthStart month' ↔ month < month' :=
  (strictMono_int_of_lt_succ monthStart_lt_succ).lt_iff_lt

/-- A day lies in one month. -/
theorem month_unique {month' : Int} (h : monthStart month ≤ day ∧ day < monthStart (month + 1))
    (h' : monthStart month' ≤ day ∧ day < monthStart (month' + 1)) : month = month' := by
  have hlt := monthStart_lt_iff.mp (lt_of_le_of_lt h.1 h'.2)
  have hlt' := monthStart_lt_iff.mp (lt_of_le_of_lt h'.1 h.2)
  omega

section Era

/-! An era has 400 years; the last of its four centuries has one day more. -/

variable {century quad yearOfQuad dayOfYear dayOfEra : Int}

/-- A day of an era, by its century, its four years, its year and its day. -/
structure Splits (dayOfEra century quad yearOfQuad dayOfYear : Int) : Prop where
  century_range : 0 ≤ century ∧ century ≤ 3
  quad_range : 0 ≤ quad ∧ quad ≤ 24
  year_range : 0 ≤ yearOfQuad ∧ yearOfQuad ≤ 3
  day_low : 0 ≤ dayOfYear
  day_high : dayOfYear < 365 ∨ yearOfQuad = 3 ∧ dayOfYear = 365
  century_days : 1461 * quad + 365 * yearOfQuad + dayOfYear < 36524 ∨
    century = 3 ∧ 1461 * quad + 365 * yearOfQuad + dayOfYear = 36524
  sum : dayOfEra = 36524 * century + 1461 * quad + 365 * yearOfQuad + dayOfYear

theorem splits_exists (hlow : 0 ≤ dayOfEra) (hhigh : dayOfEra < 146097) :
    ∃ century quad yearOfQuad dayOfYear, Splits dayOfEra century quad yearOfQuad dayOfYear := by
  obtain ⟨century, dayOfCentury, hcentury, hday, hdays⟩ : ∃ century dayOfCentury : Int,
      (0 ≤ century ∧ century ≤ 3) ∧ (0 ≤ dayOfCentury ∧
        (dayOfCentury < 36524 ∨ century = 3 ∧ dayOfCentury = 36524)) ∧
      dayOfEra = 36524 * century + dayOfCentury := by
    by_cases hlast : dayOfEra = 146096
    · exact ⟨3, 36524, by omega⟩
    · exact ⟨dayOfEra / 36524, dayOfEra % 36524, by omega⟩
  obtain ⟨yearOfQuad, dayOfYear, hyear, hdayOfYear, hquad⟩ : ∃ yearOfQuad dayOfYear : Int,
      (0 ≤ yearOfQuad ∧ yearOfQuad ≤ 3) ∧ (0 ≤ dayOfYear ∧
        (dayOfYear < 365 ∨ yearOfQuad = 3 ∧ dayOfYear = 365)) ∧
      dayOfCentury % 1461 = 365 * yearOfQuad + dayOfYear := by
    by_cases hleap : dayOfCentury % 1461 = 1460
    · exact ⟨3, 365, by omega⟩
    · exact ⟨dayOfCentury % 1461 / 365, dayOfCentury % 1461 % 365, by omega⟩
  have hquads : dayOfCentury = 1461 * (dayOfCentury / 1461) + (365 * yearOfQuad + dayOfYear) := by
    omega
  refine ⟨century, dayOfCentury / 1461, yearOfQuad, dayOfYear, hcentury, by omega, hyear,
    hdayOfYear.1, hdayOfYear.2, ?_, ?_⟩
  · rw [add_assoc, ← hquads]
    exact hday.2
  · rw [hdays, add_assoc, add_assoc, ← hquads]

theorem div_quads (century quad rest : Int) (hlow : 0 ≤ rest) (hhigh : rest < 2920) :
    (36500 * century + 1460 * quad + rest) / 1460 =
      25 * century + quad + if rest < 1460 then 0 else 1 := by
  split <;> omega

/-- The year of a day of an era, by the leap days that came before it. -/
theorem Splits.yearOfEra (h : Splits dayOfEra century quad yearOfQuad dayOfYear) :
    (dayOfEra - dayOfEra / 1460 + dayOfEra / 36524 - dayOfEra / 146096) / 365 =
      100 * century + 4 * quad + yearOfQuad := by
  obtain ⟨hcentury, hquad, hyear, hlow, hhigh, hdays, hsum⟩ := h
  have hquads : dayOfEra / 1460 = 25 * century + quad +
      if 24 * century + quad + 365 * yearOfQuad + dayOfYear < 1460 then 0 else 1 := by
    rw [← div_quads century quad _ (by omega) (by omega)]
    congr 1
    omega
  have hcenturies : dayOfEra / 36524 - dayOfEra / 146096 = century := by
    obtain hdays | ⟨rfl, hdays⟩ := hdays
    · have hfirst : dayOfEra / 36524 = century := by omega
      have hsecond : dayOfEra / 146096 = 0 := by omega
      omega
    · have hlast : dayOfEra = 146096 := by omega
      rw [hlast]
      rfl
  have hnumerator : dayOfEra - dayOfEra / 1460 + dayOfEra / 36524 - dayOfEra / 146096 =
      365 * (100 * century + 4 * quad + yearOfQuad) + (dayOfYear -
        if 24 * century + quad + 365 * yearOfQuad + dayOfYear < 1460 then 0 else 1) := by
    omega
  rw [hnumerator]
  split <;> omega

theorem Splits.yearStart (h : Splits dayOfEra century quad yearOfQuad dayOfYear) :
    yearStart (100 * century + 4 * quad + yearOfQuad) = dayOfEra - dayOfYear := by
  obtain ⟨hcentury, hquad, hyear, -, -, -, hsum⟩ := h
  have h4 : (100 * century + 4 * quad + yearOfQuad) / 4 = 25 * century + quad := by omega
  have h100 : (100 * century + 4 * quad + yearOfQuad) / 100 = century := by omega
  have h400 : (100 * century + 4 * quad + yearOfQuad) / 400 = 0 := by omega
  rw [Calendar.yearStart, h4, h100, h400]
  omega

/-- The last day of a leap year is still before the next year. -/
theorem Splits.lt_next (h : Splits dayOfEra century quad yearOfQuad dayOfYear) :
    dayOfEra < Calendar.yearStart (100 * century + 4 * quad + yearOfQuad + 1) := by
  have hstart := h.yearStart
  have hyears := yearStart_succ (100 * century + 4 * quad + yearOfQuad)
  obtain ⟨hcentury, hquad, hyear, -, hhigh, hdays, -⟩ := h
  obtain hshort | ⟨rfl, rfl⟩ := hhigh
  · omega
  · have h4 : (100 * century + 4 * quad + 3 + 1) / 4 = 25 * century + quad + 1 := by omega
    have h100 : (100 * century + 4 * quad + 3 + 1) / 100 - (100 * century + 4 * quad + 3 + 1) / 400 =
        century := by omega
    unfold Calendar.yearStart at hstart ⊢
    omega

theorem yearStart_add_era (year era : Int) :
    Calendar.yearStart (year + era * 400) = Calendar.yearStart year + era * 146097 := by
  unfold Calendar.yearStart
  omega

end Era

end Calendar
