import IDoris.Ledger.Schema

/-!
# Billing periods

The period of an instant is the local year and month in the billing zone. The
zone database itself is a parameter; the calendar is the proleptic Gregorian one.
-/
namespace Ledger

open Bounded

/-- The seconds a zone is ahead of UTC at a UTC instant in seconds, for each known zone name. -/
structure Zones where
  fromStr : String → Option (Int → Int)

def knownIanaTimeZones : List String :=
  ["UTC", "Asia/Bangkok", "Asia/Shanghai", "Asia/Tokyo", "Asia/Singapore", "Europe/London",
    "Europe/Berlin", "America/New_York", "America/Los_Angeles", "Australia/Sydney"]

def isIanaTimeZone (value : String) : Bool :=
  match value.toList.head? with
  | none => false
  | some c =>
    if c = '+' || c = '-' || c = '\u2212' then false else knownIanaTimeZones.contains value

/-- Year and month of a day counted from 1970-01-01. -/
def yearMonth (day : Int) : Int × Nat :=
  let z := day + 719468
  let era := z.fdiv 146097
  let dayOfEra := z - era * 146097
  let yearOfEra :=
    (dayOfEra - dayOfEra.fdiv 1460 + dayOfEra.fdiv 36524 - dayOfEra.fdiv 146096).fdiv 365
  let dayOfYear := dayOfEra - (365 * yearOfEra + yearOfEra.fdiv 4 - yearOfEra.fdiv 100)
  let shifted := (5 * dayOfYear + 2).fdiv 153
  let month := if shifted < 10 then shifted + 3 else shifted - 9
  (yearOfEra + era * 400 + if month ≤ 2 then 1 else 0, month.toNat)

/-- A number printed in at least `width` places, with leading zeros after the sign. -/
def zeroPadded (width : Nat) (n : Int) : String :=
  let digits := toString n.natAbs
  if n < 0 then "-" ++ String.ofList (List.replicate (width - 1 - digits.length) '0') ++ digits
  else String.ofList (List.replicate (width - digits.length) '0') ++ digits

/-- The instants, in milliseconds, that the calendar library can represent. -/
def representable (nowMs : I64) : Bool :=
  decide (-8334601228800000 ≤ nowMs.val ∧ nowMs.val ≤ 8210266876799999)

/-- The `YYYY-MM` billing period of an instant, read on the zone's wall clock. -/
def billingPeriodKey (zones : Zones) (nowMs : I64) (billingTimezone : String) :
    Except BudgetError String :=
  match zones.fromStr billingTimezone with
  | none => .error (.invalidTimeZone billingTimezone)
  | some offset =>
    if representable nowMs then
      let utc := nowMs.val.fdiv 1000
      let (year, month) := yearMonth ((utc + offset utc).fdiv 86400)
      .ok (zeroPadded 4 year ++ "-" ++ zeroPadded 2 month)
    else .error (.invalidTimestamp nowMs)

/-- A zone database cut down to two zones without daylight saving time. -/
def twoZones : Zones where
  fromStr
    | "UTC" => some fun _ => 0
    | "Asia/Bangkok" => some fun _ => 25200
    | _ => none

/-- One instant, two billing periods: half past midnight of a first of September in Bangkok. -/
example : billingPeriodKey twoZones (.lit 1788197400000) "UTC" = .ok "2026-08" ∧
    billingPeriodKey twoZones (.lit 1788197400000) "Asia/Bangkok" = .ok "2026-09" := by decide

end Ledger
