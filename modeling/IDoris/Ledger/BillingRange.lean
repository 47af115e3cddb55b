import IDoris.Ledger.Period
import IDoris.Library.Calendar
import IDoris.Library.Decimal
import IDoris.Library.Transaction
import IDoris.Library.WallClock

/-!
# The two billing calendars

One function puts an instant into a month, the other gives the instants of a month.
Both read the zone's wall clock, the second one backwards.
-/
namespace Ledger

open Bounded Transaction

/-- What a wall clock reading is in a zone: no instant, one, or two. -/
inductive LocalResult where
  | none
  | single (instant : Int)
  | ambiguous (earliest latest : Int)

def LocalResult.single? : LocalResult → Option Int
  | .single instant => some instant
  | _ => Option.none

/-- From one instant on and before another, in UTC milliseconds. -/
structure BillingPeriodRange where
  «from» : Int
  «to» : Int
  deriving DecidableEq

inductive BillingError where
  | invalidPeriod (period : String)
  | invalidTimeZone (billingTimezone : String)
  | invalidBoundary (period billingTimezone : String)
  deriving DecidableEq

/-- Year and month of `YYYY-MM`. -/
def parsePeriod (period : String) : Option (Nat × Nat) :=
  let year := period.toList.take 4
  let month := period.toList.drop 5
  if period.toList.length = 7 ∧ year.all Char.isDigit = true ∧ period.toList[4]? = some '-' ∧
      month.all Char.isDigit = true then
    some (Nat.ofDigitChars 10 year 0, Nat.ofDigitChars 10 month 0)
  else none

/-- The number of a month, counted from March of the year 0. -/
def monthNumber (year : Int) (month : Nat) : Int := 12 * year + month - 3

/-- The first day of a month, counted from 1970-01-01. -/
def firstDay (year : Int) (month : Nat) : Int :=
  Calendar.monthStart (monthNumber year month) - 719468

/-- The month after, in the next year after December. -/
def nextMonth (year month : Nat) : Nat × Nat :=
  if month = 12 then (year + 1, 1) else (year, month + 1)

section Range

variable (zones : Zones) (fromLocal : String → Int → LocalResult)

/-- The instant of a month's first midnight, when the zone's clock shows it exactly once. -/
def boundary (year month : Nat) (tz : String) : Option Int :=
  (fromLocal tz (firstDay year month * 86400)).single?.map (· * 1000)

def resolveBillingPeriodRange (period billingTimezone : String) :
    Except BillingError BillingPeriodRange := do
  let (year, month) ← orRefuse (parsePeriod period) (.invalidPeriod period)
  refuseIf (¬(1 ≤ month ∧ month ≤ 12)) (.invalidPeriod period)
  refuseIf (zones.fromStr billingTimezone).isNone (.invalidTimeZone billingTimezone)
  let next := nextMonth year month
  match boundary fromLocal year month billingTimezone,
      boundary fromLocal next.1 next.2 billingTimezone with
  | some start, some stop => pure ⟨start, stop⟩
  | _, _ => throw (.invalidBoundary period billingTimezone)

end Range

section Days

open Calendar

theorem fdiv_eq (a : Int) {b : Int} (h : 0 ≤ b) : a.fdiv b = a / b := Int.fdiv_eq_ediv_of_nonneg a h

/-- The year and month of a day, from the year and the day of the year that begin in March. -/
theorem yearMonth_of_splits {day era dayOfEra century quad yearOfQuad dayOfYear : Int}
    (h : Splits dayOfEra century quad yearOfQuad dayOfYear)
    (hday : day + 719468 = dayOfEra + era * 146097) (hlow : 0 ≤ dayOfEra)
    (hhigh : dayOfEra < 146097) :
    yearMonth day =
      if (5 * dayOfYear + 2) / 153 < 10 then
        (100 * century + 4 * quad + yearOfQuad + era * 400, ((5 * dayOfYear + 2) / 153 + 3).toNat)
      else
        (100 * century + 4 * quad + yearOfQuad + era * 400 + 1,
          ((5 * dayOfYear + 2) / 153 - 9).toNat) := by
  have hera : (day + 719468).fdiv 146097 = era := by
    rw [fdiv_eq _ (by decide)]
    omega
  have hdayOfEra : day + 719468 - era * 146097 = dayOfEra := by omega
  have hyear := h.yearOfEra
  have hstart := h.yearStart
  have hrange : 0 ≤ (5 * dayOfYear + 2) / 153 ∧ (5 * dayOfYear + 2) / 153 ≤ 11 := by
    have := h.day_low
    have := h.day_high
    omega
  have hdayOfYear : dayOfEra - (365 * (100 * century + 4 * quad + yearOfQuad) +
      (100 * century + 4 * quad + yearOfQuad) / 4 - (100 * century + 4 * quad + yearOfQuad) / 100) =
      dayOfYear := by
    have hlast : (100 * century + 4 * quad + yearOfQuad) / 400 = 0 := by
      have := h.century_range
      have := h.quad_range
      have := h.year_range
      omega
    rw [yearStart, hlast] at hstart
    omega
  unfold yearMonth
  simp only [hera, hdayOfEra, fdiv_eq _ (by decide : (0 : Int) ≤ 1460),
    fdiv_eq _ (by decide : (0 : Int) ≤ 36524), fdiv_eq _ (by decide : (0 : Int) ≤ 146096),
    fdiv_eq _ (by decide : (0 : Int) ≤ 365), fdiv_eq _ (by decide : (0 : Int) ≤ 4),
    fdiv_eq _ (by decide : (0 : Int) ≤ 100), fdiv_eq _ (by decide : (0 : Int) ≤ 153), hyear,
    hdayOfYear]
  generalize (5 * dayOfYear + 2) / 153 = shifted at hrange ⊢
  by_cases hshifted : shifted < 10
  · simp only [hshifted, if_true]
    rw [if_neg (by omega), add_zero]
  · simp only [hshifted, if_false]
    rw [if_pos (by omega)]

/-- The month `yearMonth` names is the one the day lies in. -/
theorem yearMonth_spec (day : Int) :
    (1 ≤ (yearMonth day).2 ∧ (yearMonth day).2 ≤ 12) ∧
    monthStart (monthNumber (yearMonth day).1 (yearMonth day).2) ≤ day + 719468 ∧
    day + 719468 < monthStart (monthNumber (yearMonth day).1 (yearMonth day).2 + 1) := by
  have hlow : 0 ≤ (day + 719468) % 146097 := by omega
  have hhigh : (day + 719468) % 146097 < 146097 := by omega
  have hday : day + 719468 = (day + 719468) % 146097 + (day + 719468) / 146097 * 146097 := by omega
  generalize (day + 719468) % 146097 = dayOfEra at hlow hhigh hday
  generalize (day + 719468) / 146097 = era at hday
  obtain ⟨century, quad, yearOfQuad, dayOfYear, h⟩ := splits_exists hlow hhigh
  have hdays := h.day_low
  have hmonth := h.day_high
  have hstart := h.yearStart
  have hnext := h.lt_next
  have hera := yearStart_add_era (100 * century + 4 * quad + yearOfQuad) era
  have heraNext := yearStart_add_era (100 * century + 4 * quad + yearOfQuad + 1) era
  rw [add_right_comm] at heraNext
  have hshifted : 0 ≤ (5 * dayOfYear + 2) / 153 ∧ (5 * dayOfYear + 2) / 153 ≤ 11 ∧
      monthOffset ((5 * dayOfYear + 2) / 153) ≤ dayOfYear ∧
      dayOfYear < monthOffset ((5 * dayOfYear + 2) / 153 + 1) := by
    unfold monthOffset
    omega
  rw [yearMonth_of_splits h hday hlow hhigh]
  generalize (5 * dayOfYear + 2) / 153 = shifted at hshifted ⊢
  generalize 100 * century + 4 * quad + yearOfQuad + era * 400 = year at hera heraNext ⊢
  have hnumber : ∀ number, number = 12 * year + shifted →
      monthStart number ≤ day + 719468 ∧ day + 719468 < monthStart (number + 1) := by
    rintro _ rfl
    refine ⟨?_, ?_⟩
    · rw [monthStart_in_year hshifted.1 hshifted.2.1]
      omega
    · obtain ⟨hthere, -⟩ | ⟨hthere, -⟩ := monthStart_next year hshifted.1 hshifted.2.1
      · rw [hthere]
        omega
      · rw [hthere]
        omega
  by_cases hten : shifted < 10
  · simp only [hten, if_true]
    exact ⟨by omega, hnumber _ (by unfold monthNumber; omega)⟩
  · simp only [hten, if_false]
    exact ⟨by omega, hnumber _ (by unfold monthNumber; omega)⟩

/-- A day is in a month exactly when it is not before its first day and before the next one's. -/
theorem yearMonth_eq_iff {year : Int} {month : Nat} (hlow : 1 ≤ month) (hhigh : month ≤ 12)
    (day : Int) :
    yearMonth day = (year, month) ↔ firstDay year month ≤ day ∧
      day < monthStart (monthNumber year month + 1) - 719468 := by
  obtain ⟨hrange, hstart, hnext⟩ := yearMonth_spec day
  unfold firstDay
  constructor
  · intro h
    simp only [h] at hstart hnext
    omega
  · rintro ⟨hfirst, hlast⟩
    have hsame : monthNumber (yearMonth day).1 (yearMonth day).2 = monthNumber year month :=
      month_unique ⟨hstart, hnext⟩ ⟨by omega, by omega⟩
    unfold monthNumber at hsame
    have hyear : (yearMonth day).1 = year := by omega
    have hmonth : (yearMonth day).2 = month := by omega
    rw [← hyear, ← hmonth]

end Days

section Format

variable {period : String} {year month : Nat}

/-- The digits of a period that was parsed. -/
structure Parsed (period : String) (year month : Nat) (years months : List Char) : Prop where
  text : period.toList = years ++ '-' :: months
  years_length : years.length = 4
  months_length : months.length = 2
  years_digits : ∀ c ∈ years, c.isDigit = true
  months_digits : ∀ c ∈ months, c.isDigit = true
  year_value : Nat.ofDigitChars 10 years 0 = year
  month_value : Nat.ofDigitChars 10 months 0 = month

theorem parsePeriod_eq_some (h : parsePeriod period = some (year, month)) :
    ∃ years months, Parsed period year month years months := by
  simp only [parsePeriod, Option.ite_none_right_eq_some, Option.some.injEq, Prod.mk.injEq] at h
  obtain ⟨⟨hlength, hyears, hdash, hmonths⟩, hyear, hmonth⟩ := h
  refine ⟨_, _, ⟨?_, ?_, ?_, List.all_eq_true.mp hyears, List.all_eq_true.mp hmonths, hyear,
    hmonth⟩⟩
  · obtain ⟨hlt, hget⟩ := List.getElem?_eq_some_iff.mp hdash
    rw [← hget, ← List.drop_eq_getElem_cons hlt, List.take_append_drop]
  · simp [hlength]
  · simp [hlength]

theorem zeroPadded_natCast (width n : Nat) :
    zeroPadded width (n : Int) = String.ofList (Decimal.padded width n) := by
  have hnonneg : ¬(n : Int) < 0 := Int.not_lt.mpr (Int.natCast_nonneg n)
  simp [zeroPadded, hnonneg, Decimal.padded, Nat.repr_eq_ofList_toDigits]

theorem zeroPadded_neg (width : Nat) {n : Int} (h : n < 0) :
    (zeroPadded width n).toList.head? = some '-' := by
  simp [zeroPadded, h]

/-- The formatted text of a month is the period exactly when it is the period's month. -/
theorem Parsed.format_eq_iff {years months : List Char} (h : Parsed period year month years months)
    (year' : Int) {month' : Nat} (hmonth : month' ≤ 12) :
    zeroPadded 4 year' ++ "-" ++ zeroPadded 2 month' = period ↔
      year' = year ∧ month' = month := by
  have hwidth : (Decimal.padded 2 month').length = months.length := by
    rw [h.months_length]
    exact Decimal.padded_length (by decide) (by omega)
  constructor
  · intro heq
    have hchars := congrArg String.toList heq
    simp only [String.toList_append, zeroPadded_natCast, String.toList_ofList, h.text,
      List.append_assoc] at hchars
    obtain ⟨hyears, hmonths⟩ := List.append_inj' hchars (by simp [hwidth])
    have hmonths' : Decimal.padded 2 month' = months := by simpa using hmonths
    have hnonneg : ¬year' < 0 := by
      intro hneg
      have hhead := zeroPadded_neg 4 hneg
      rw [hyears] at hhead
      have hdigit := h.years_digits '-' (List.mem_of_mem_head? hhead)
      cases hdigit
    obtain ⟨n, rfl⟩ := Int.eq_ofNat_of_zero_le (Int.not_lt.mp hnonneg)
    rw [zeroPadded_natCast, String.toList_ofList] at hyears
    refine ⟨?_, ?_⟩
    · rw [← h.year_value, ← hyears, Decimal.padded_value]
    · rw [← h.month_value, ← hmonths', Decimal.padded_value]
  · rintro ⟨rfl, rfl⟩
    apply String.toList_inj.mp
    have hyears : Decimal.padded 4 year = years := by
      rw [← h.year_value, ← h.years_length]
      exact Decimal.padded_ofDigitChars (by rw [h.years_length]; decide) h.years_digits
    have hmonths : Decimal.padded 2 month' = months := by
      rw [← h.month_value, ← h.months_length]
      exact Decimal.padded_ofDigitChars (by rw [h.months_length]; decide) h.months_digits
    simp [zeroPadded_natCast, hyears, hmonths, h.text]

end Format

section Agreement

open WallClock

/-- A reading is resolved to the one instant that shows it, when there is just one. -/
def Converts (zones : Zones) (fromLocal : String → Int → LocalResult) : Prop :=
  ∀ tz offset, zones.fromStr tz = some offset → ∀ local' instant,
    (fromLocal tz local').single? = some instant ↔
      reading offset instant = local' ∧ ShownOnce offset instant

/-- Offsets stay below a day, and change at most once within 48 hours of the start of a month. -/
structure Regular (zones : Zones) : Prop where
  withinDay : ∀ tz offset, zones.fromStr tz = some offset → WithinDay offset
  calm : ∀ tz offset, zones.fromStr tz = some offset → ∀ year month instant,
    1 ≤ month → month ≤ 12 → reading offset instant = firstDay year month * 86400 →
    OneTransition offset instant

variable {zones : Zones} {fromLocal : String → Int → LocalResult} {tz : String}
  {offset : Int → Int} {period : String} {year month : Nat} {start stop instant : Int}

theorem boundary_eq_some (hconverts : Converts zones fromLocal)
    (hzone : zones.fromStr tz = some offset) (h : boundary fromLocal year month tz = some start) :
    ∃ instant, start = instant * 1000 ∧ reading offset instant = firstDay year month * 86400 ∧
      ShownOnce offset instant := by
  obtain ⟨instant, hsingle, rfl⟩ := Option.map_eq_some_iff.mp h
  exact ⟨instant, rfl, (hconverts tz offset hzone _ _).mp hsingle⟩

/-- An instant is not before a month's boundary exactly when its local day is not before the
month's first day. -/
theorem boundary_le_iff (hconverts : Converts zones fromLocal) (hregular : Regular zones)
    (hzone : zones.fromStr tz = some offset) (hlow : 1 ≤ month) (hhigh : month ≤ 12)
    (h : boundary fromLocal year month tz = some start) (ts : Int) :
    start ≤ ts ↔ firstDay year month ≤ (reading offset (ts / 1000)) / 86400 := by
  obtain ⟨instant, rfl, hreading, honce⟩ := boundary_eq_some hconverts hzone h
  have hle := le_iff (hregular.withinDay tz offset hzone)
    (hregular.calm tz offset hzone year month instant hlow hhigh hreading) honce (ts / 1000)
  rw [hreading] at hle
  omega

/-- What a resolved range is made of. -/
theorem resolve_eq_ok {range : BillingPeriodRange}
    (h : resolveBillingPeriodRange zones fromLocal period tz = .ok range) :
    ∃ year month offset, parsePeriod period = some (year, month) ∧ 1 ≤ month ∧ month ≤ 12 ∧
      zones.fromStr tz = some offset ∧
      boundary fromLocal year month tz = some range.from ∧
      boundary fromLocal (nextMonth year month).1 (nextMonth year month).2 tz = some range.to := by
  simp only [resolveBillingPeriodRange, bind_eq_ok, orRefuse_eq_ok, refuseIf_eq_ok, exists_const,
    Prod.exists] at h
  obtain ⟨year, month, hparse, hmonth, hzone, h⟩ := h
  obtain ⟨offset, hoffset⟩ := Option.ne_none_iff_exists'.mp (by simpa using hzone)
  split at h
  · next start stop hstart hstop =>
    simp only [pure_eq_ok] at h
    subst h
    exact ⟨year, month, offset, hparse, (not_not.mp hmonth).1, (not_not.mp hmonth).2, hoffset,
      hstart, hstop⟩
  · exact absurd h throw_eq_ok

theorem nextMonth_spec (year : Nat) (hlow : 1 ≤ month) (hhigh : month ≤ 12) :
    (1 ≤ (nextMonth year month).2 ∧ (nextMonth year month).2 ≤ 12) ∧
      firstDay (nextMonth year month).1 (nextMonth year month).2 =
        Calendar.monthStart (monthNumber year month + 1) - 719468 := by
  unfold nextMonth firstDay monthNumber
  by_cases hlast : month = 12
  · simp only [hlast, if_true]
    refine ⟨by omega, ?_⟩
    congr 2
    omega
  · simp only [hlast, if_false]
    refine ⟨by omega, ?_⟩
    congr 2
    omega

/-- The period of an instant is the month of the day its wall clock shows. -/
theorem billingPeriodKey_eq_ok (hzone : zones.fromStr tz = some offset) {ts : I64}
    (hts : representable ts = true) (hparse : parsePeriod period = some (year, month)) :
    billingPeriodKey zones ts tz = .ok period ↔
      yearMonth (reading offset (ts.val / 1000) / 86400) = (↑year, month) := by
  obtain ⟨years, months, hparsed⟩ := parsePeriod_eq_some hparse
  have hformat := hparsed.format_eq_iff (yearMonth (reading offset (ts.val / 1000) / 86400)).1
    (yearMonth_spec (reading offset (ts.val / 1000) / 86400)).1.2
  have hday : (ts.val.fdiv 1000 + offset (ts.val.fdiv 1000)).fdiv 86400 =
      reading offset (ts.val / 1000) / 86400 := by
    rw [fdiv_eq _ (by decide), fdiv_eq _ (by decide)]
    rfl
  simp only [billingPeriodKey, hzone, hts, if_true, hday, Except.ok.injEq, Prod.ext_iff]
  exact hformat

/-- The instants of a resolved month are exactly those with its billing period, and the range of
the month after begins where this one ends. -/
theorem billing_calendars_agree (zones : Zones) (fromLocal : String → Int → LocalResult)
    (hconverts : Converts zones fromLocal) (hregular : Regular zones) (period tz : String)
    (range : BillingPeriodRange)
    (h : resolveBillingPeriodRange zones fromLocal period tz = .ok range) :
    (∀ ts : I64, representable ts = true →
      (range.from ≤ ts.val ∧ ts.val < range.to ↔ billingPeriodKey zones ts tz = .ok period)) ∧
    ∀ period' range' year month, parsePeriod period = some (year, month) →
      parsePeriod period' = some (nextMonth year month) →
      resolveBillingPeriodRange zones fromLocal period' tz = .ok range' → range.to = range'.from := by
  obtain ⟨year, month, offset, hparse, hlow, hhigh, hzone, hstart, hstop⟩ := resolve_eq_ok h
  obtain ⟨⟨hnextLow, hnextHigh⟩, hnextDay⟩ := nextMonth_spec year hlow hhigh
  refine ⟨?_, ?_⟩
  · intro ts hts
    have hafter := boundary_le_iff hconverts hregular hzone hlow hhigh hstart ts.val
    have hbefore := boundary_le_iff hconverts hregular hzone hnextLow hnextHigh hstop ts.val
    rw [hnextDay] at hbefore
    rw [billingPeriodKey_eq_ok hzone hts hparse, yearMonth_eq_iff hlow hhigh]
    omega
  · intro period' range' year' month' hparse' hnext h'
    obtain ⟨year'', month'', offset', hparse'', -, -, -, hstart', -⟩ := resolve_eq_ok h'
    rw [hparse, Option.some.injEq, Prod.mk.injEq] at hparse'
    obtain ⟨rfl, rfl⟩ := hparse'
    rw [hnext, Option.some.injEq] at hparse''
    rw [hparse''] at hstop
    rw [hstop, Option.some.injEq] at hstart'
    exact hstart'

end Agreement

section Skipped

open WallClock

/-- Pacific/Apia in December 2011: the clock went from the 29th to the 31st. -/
def skippedDay : Zones where
  fromStr
    | "Pacific/Apia" => some fun u => if u < 1325239200 then -36000 else 50400
    | _ => none

/-- The instants that show a reading, one for each of the two offsets. -/
def skippedReadings (tz : String) (reading : Int) : LocalResult :=
  if tz = "Pacific/Apia" then
    match decide (reading + 36000 < 1325239200), decide (1325239200 ≤ reading - 50400) with
    | true, true => .ambiguous (reading + 36000) (reading - 50400)
    | true, false => .single (reading + 36000)
    | false, true => .single (reading - 50400)
    | false, false => .none
  else .none

theorem skippedDay_fromStr {tz : String} {offset : Int → Int}
    (h : skippedDay.fromStr tz = some offset) :
    tz = "Pacific/Apia" ∧ offset = fun u => if u < 1325239200 then -36000 else 50400 := by
  simp only [skippedDay] at h
  split at h
  · exact ⟨rfl, (Option.some.inj h).symm⟩
  · cases h

theorem skippedReadings_converts : Converts skippedDay skippedReadings := by
  intro tz offset hzone local' instant
  obtain ⟨rfl, rfl⟩ := skippedDay_fromStr hzone
  simp only [skippedReadings, if_true, ShownOnce, reading]
  by_cases hearly : local' + 36000 < 1325239200
  · by_cases hlate : 1325239200 ≤ local' - 50400
    · omega
    · simp only [hearly, hlate, decide_true, decide_false, LocalResult.single?, Option.some.injEq]
      constructor
      · rintro rfl
        refine ⟨by rw [if_pos hearly]; omega, ?_⟩
        intro other hother
        split at hother <;> omega
      · rintro ⟨hshown, -⟩
        split at hshown <;> omega
  · by_cases hlate : 1325239200 ≤ local' - 50400
    · simp only [hearly, hlate, decide_true, decide_false, LocalResult.single?, Option.some.injEq]
      constructor
      · rintro rfl
        refine ⟨by rw [if_neg (by omega)]; omega, ?_⟩
        intro other hother
        split at hother <;> omega
      · rintro ⟨hshown, -⟩
        split at hshown <;> omega
    · simp only [hearly, hlate, decide_false, LocalResult.single?, reduceCtorEq, false_iff, not_and]
      intro hshown
      split at hshown <;> omega

theorem skippedDay_regular : Regular skippedDay where
  withinDay := by
    intro tz offset hzone u
    obtain ⟨-, rfl⟩ := skippedDay_fromStr hzone
    dsimp only
    split <;> omega
  calm := by
    intro tz offset hzone year month instant _ _ _
    obtain ⟨-, rfl⟩ := skippedDay_fromStr hzone
    exact ⟨1325239200, -36000, 50400, fun _ _ => rfl⟩

/-- The month the day is missing from still has each of its instants exactly once. -/
theorem billing_calendars_agree_skippedDay :
    resolveBillingPeriodRange skippedDay skippedReadings "2011-12" "Pacific/Apia" =
      .ok ⟨1322733600000, 1325325600000⟩ ∧
    (1322733600000 ≤ (I64.lit 1325239200000).val ∧ (I64.lit 1325239200000).val < 1325325600000 ↔
      billingPeriodKey skippedDay (.lit 1325239200000) "Pacific/Apia" = .ok "2011-12") :=
  ⟨by decide +kernel, (billing_calendars_agree skippedDay skippedReadings skippedReadings_converts
    skippedDay_regular "2011-12" "Pacific/Apia" ⟨1322733600000, 1325325600000⟩
    (by decide +kernel)).1 (.lit 1325239200000) (by decide)⟩

end Skipped

end Ledger
