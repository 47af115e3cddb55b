import IDoris.Inspect.Normalize
import IDoris.Library.Coalesce

/-!
# Scanning every reading

A plain scan runs over each reading of a text; its hits are mapped back to the text,
sorted, and reported once each.
-/
namespace Inspect

open Scanner

/-- The order in which hits are sorted. -/
def Hit.le (a b : Hit) : Prop :=
  a.start < b.start ∨ a.start = b.start ∧ (a.length < b.length ∨
    a.length = b.length ∧ a.kind.index ≤ b.kind.index)

instance : DecidableRel Hit.le := fun _ _ => inferInstanceAs (Decidable (_ ∨ _))

/-- The same with the strictest copy first. -/
def Hit.strictestFirst (a b : Hit) : Prop :=
  a.start < b.start ∨ a.start = b.start ∧ (a.length < b.length ∨
    a.length = b.length ∧ (a.kind.index < b.kind.index ∨
      a.kind.index = b.kind.index ∧ b.sensitivity.rank ≤ a.sensitivity.rank))

instance : DecidableRel Hit.strictestFirst := fun _ _ => inferInstanceAs (Decidable (_ ∨ _))

def Hit.sameSpot (a b : Hit) : Bool :=
  a.kind = b.kind && a.start = b.start && a.length = b.length

def Hit.raise (kept later : Hit) : Hit :=
  { kept with sensitivity := kept.sensitivity.max later.sensitivity }

/-- Copies of one hit become one, with the highest sensitivity. -/
def sortDedup (hits : List Hit) : List Hit :=
  Coalesce.coalesce Hit.sameSpot Hit.raise (hits.insertionSort Hit.le)

section Views

variable (scan : List Nat → Option (List Hit))

/-- The hits of one reading, where they are in the text. -/
def scanView (view : View) : Option (List Hit) := do
  (← scan view.units).mapM fun hit => do
    let (start, length) ← view.originalSpan hit.start hit.length
    return { hit with start, length }

/-- An ideographic space, or parentheses whose kinds do not pair. -/
def malformedHkidSpelling (span : List Nat) : Bool :=
  span.contains 0x3000 || span.count 0xFF08 ≠ span.count 0xFF09 ||
    span.count '('.toNat ≠ span.count ')'.toNat

/-- The filter judges the text a hit covers, not the reading it was found in. -/
def dropFoldedMalformedHkid (hits : List Hit) (original : List Nat) : Option (List Hit) :=
  flatMapM (fun hit => do
    if hit.kind ≠ .hkIdentityCard then return [hit]
    let span ← slice original hit.start (hit.start + hit.length)
    return if malformedHkidSpelling span then [] else [hit]) hits

/-- The readings whose hits are filtered. -/
def foldedViews (units : List Nat) : List View :=
  [foldKeepingIgnorables units, normalize units, foldDigitsAndHomoglyphs units] ++
    [1, 2, 3].filterMap (skipShortEscapeDigits units)

/-- The hits of every reading, before copies are merged. -/
def hitsOfViews (units : List Nat) : Option (List Hit) := do
  let raw ← scanView scan (identity units)
  let folded ← flatMapM (fun view => do
    dropFoldedMalformedHkid (← scanView scan view) units) (foldedViews units)
  return raw ++ folded

def scanAllViews (units : List Nat) : Option (List Hit) := do
  return Coalesce.coalesce Hit.sameSpot (fun kept _ => kept)
    ((← hitsOfViews scan units).insertionSort Hit.strictestFirst)

end Views

end Inspect
