import IDoris.Inspect.Hkid
import Mathlib.Data.Bool.AllAny

/-!
# Invisible characters

A text and the same text with default-ignorable characters put in. The reading without
them is the text again, so a finding is kept unless it depends on a reading of the text
with an escape cut short, or on parentheses of which one is escaped.
-/
namespace Inspect

open Scanner Utf16

section Counting

variable {Q : Nat → Prop} {units : List Nat} {view : View} {base : Nat}

/-- Up to each cell the text and the reading hold the same units of a kind. -/
def Counts (Q : Nat → Prop) (units : List Nat) (base : Nat) (view : View) : Prop :=
  ∀ i c, view[i]? = some c → base ≤ c.first ∧ base ≤ c.stop ∧ ∀ q, Q q →
    (units.take (c.first - base)).count q = (view.units.take i).count q ∧
    (units.take (c.stop - base)).count q = (view.units.take (i + 1)).count q

theorem count_drop_take {xs : List Nat} {a b q : Nat} (h : a ≤ b) :
    ((xs.take b).drop a).count q = (xs.take b).count q - (xs.take a).count q := by
  have hsplit : xs.take b = xs.take a ++ (xs.take b).drop a := by
    conv_lhs => rw [← List.take_append_drop a (xs.take b), List.take_take, Nat.min_eq_left h]
  conv_rhs => rw [hsplit, List.count_append]
  omega

/-- The range behind a hit holds the same units of the kind. -/
theorem Counts.span (h : Counts Q units 0 view) (hview : view.Of units) {hit moved : Hit}
    (hfits : hit.Fits view.units) (hmoved : moveBack view hit = some moved) {q : Nat} (hq : Q q) :
    (moved.span units).count q = (hit.span view.units).count q := by
  obtain ⟨s, l, hspan, hrange⟩ := hview.originalSpan hfits
  obtain ⟨hlt, hle, -⟩ := hfits
  rw [Hit.stop] at hlt hle
  rw [View.length_units] at hle
  have hc : view[hit.start]? = some view[hit.start] := List.getElem?_eq_getElem (by omega)
  have hd : view[hit.start + hit.length - 1]? = some view[hit.start + hit.length - 1] :=
    List.getElem?_eq_getElem (by omega)
  simp only [moveBack, hspan, bind, Option.bind_some, pure, Option.some.injEq] at hmoved
  simp only [View.originalSpan, hc, hd, bind, Option.bind_some, pure, Option.some.injEq,
    Prod.mk.injEq] at hspan
  obtain ⟨rfl, rfl⟩ := hspan
  have hpos := hrange.1
  obtain ⟨-, -, hfirst⟩ := h _ _ hc
  obtain ⟨-, -, hlast⟩ := h _ _ hd
  have hfirst := (hfirst q hq).1
  have hlast := (hlast q hq).2
  rw [Nat.sub_zero] at hfirst hlast
  rw [show hit.start + hit.length - 1 + 1 = hit.start + hit.length by omega] at hlast
  subst hmoved
  rw [Hit.span, Hit.span, count_drop_take (by omega), count_drop_take (by omega)]
  simp only
  rw [show view[hit.start].first + (view[hit.start + hit.length - 1].stop - view[hit.start].first) =
    view[hit.start + hit.length - 1].stop by omega, hfirst, hlast]

theorem malformed_congr {xs ys : List Nat} (h : ∀ q, ¬Quiet q → xs.count q = ys.count q) :
    malformedHkidSpelling xs = malformedHkidSpelling ys := by
  have hspace : xs.contains 0x3000 = ys.contains 0x3000 := by
    rw [Bool.eq_iff_iff, List.contains_iff_mem, List.contains_iff_mem, ← List.count_pos_iff,
      ← List.count_pos_iff, h 0x3000 (by simp [Quiet])]
  rw [malformedHkidSpelling, malformedHkidSpelling, hspace, h 0xFF08 (by simp [Quiet]),
    h 0xFF09 (by simp [Quiet]), h '('.toNat (by simp [Quiet]), h ')'.toNat (by simp [Quiet])]

/-- Cells whose units come from the first units of the text, with a rest. -/
theorem Counts.append {front : List Nat} {cells rest : View} {tail : List Nat}
    (hcells : ∀ i c, cells[i]? = some c → base ≤ c.first ∧ base ≤ c.stop ∧ ∀ q, Q q →
      ((front ++ tail).take (c.first - base)).count q = (cells.units.take i).count q ∧
      ((front ++ tail).take (c.stop - base)).count q = (cells.units.take (i + 1)).count q)
    (hfront : ∀ q, Q q → front.count q = cells.units.count q)
    (hrest : Counts Q tail (base + front.length) rest) :
    Counts Q (front ++ tail) base (cells ++ rest) := by
  intro i c hc
  by_cases hi : i < cells.length
  · rw [List.getElem?_append_left hi] at hc
    obtain ⟨hfirst, hstop, hcount⟩ := hcells i c hc
    refine ⟨hfirst, hstop, fun q hq => ?_⟩
    have hview : ∀ n ≤ cells.length,
        (View.units (cells ++ rest)).take n = cells.units.take n := by
      intro n hn
      rw [View.units, List.map_append, List.take_append_of_le_length (by simpa using hn)]
      rfl
    rw [hview i hi.le, hview (i + 1) hi]
    exact hcount q hq
  · rw [List.getElem?_append_right (by omega)] at hc
    obtain ⟨hfirst, hstop, hcount⟩ := hrest _ c hc
    refine ⟨by omega, by omega, fun q hq => ?_⟩
    have htake : ∀ n, base + front.length ≤ n →
        ((front ++ tail).take (n - base)).count q =
          front.count q + (tail.take (n - (base + front.length))).count q := by
      intro n hn
      rw [List.take_append, List.take_of_length_le (by omega), List.count_append]
      congr 3
      omega
    have hview : ∀ n, cells.length ≤ n → ((cells ++ rest).map Cell.unit |>.take n).count q =
        cells.units.count q + (rest.units.take (n - cells.length)).count q := by
      intro n hn
      rw [List.map_append, List.take_append, List.take_of_length_le (by simpa using hn),
        List.count_append, List.length_map]
      rfl
    rw [htake _ hfirst, htake _ hstop, View.units, hview _ (by omega), hview _ (by omega),
      (hcount q hq).1, (hcount q hq).2, hfront q hq]
    refine ⟨rfl, ?_⟩
    rw [show i + 1 - cells.length = i - cells.length + 1 by omega]

theorem Counts.nil : Counts Q units base [] := by
  intro i c hc
  simp at hc

/-- Units that the reading leaves out. -/
theorem Counts.skip {front tail : List Nat} (hfront : ∀ q, Q q → front.count q = 0)
    (h : Counts Q tail (base + front.length) view) : Counts Q (front ++ tail) base view :=
  @Counts.append Q base front [] view tail (by simp) hfront h

/-- A unit that stands for itself. -/
theorem Counts.literal {u : Nat} {tail : List Nat} (h : Counts Q tail (base + 1) view) :
    Counts Q (u :: tail) base (⟨u, base, base + 1⟩ :: view) := by
  refine @Counts.append Q base [u] [⟨u, base, base + 1⟩] view tail ?_ (fun _ _ => rfl) h
  intro i c hc
  cases i with
  | zero =>
    cases hc
    simp [View.units]
  | succ i => simp at hc

end Counting

section Percent

variable {units : List Nat}

def IsParen (u : Nat) : Prop := u = '('.toNat ∨ u = ')'.toNat

/-- No escape of the text spells a parenthesis. -/
def NoEscapedParen (units : List Nat) : Prop :=
  ∀ c ∈ (decodePercentFrom 0 units 0).1, IsParen c.unit → c.stop = c.first + 1

theorem not_isParen_of_escapeUnit {u : Nat} (h : IsEscapeUnit u) : ¬IsParen u := by
  rintro (rfl | rfl)
  · obtain h | ⟨value, hvalue⟩ := h
    · exact absurd h (by decide)
    · exact absurd hvalue (by simp [hexValue, isDigit])
  · obtain h | ⟨value, hvalue⟩ := h
    · exact absurd h (by decide)
    · exact absurd hvalue (by simp [hexValue, isDigit])

theorem count_zero_of {xs : List Nat} {q : Nat} (hq : IsParen q) (h : ∀ u ∈ xs, ¬IsParen u) :
    xs.count q = 0 := List.count_eq_zero_of_not_mem fun hmem => h q hmem hq

/-- Percent decoding keeps the parentheses of a text without escaped ones. -/
theorem decodePercentFrom_counts (base : Nat)
    (h : ∀ c ∈ (decodePercentFrom 0 units base).1, IsParen c.unit → c.stop = c.first + 1) :
    Counts IsParen units base (decodePercentFrom 0 units base).1 := by
  induction hn : units.length using Nat.strong_induction_on generalizing units base with
  | h n ih =>
    cases hchar : percentChar units with
    | some found =>
      obtain ⟨c, consumed⟩ := found
      obtain ⟨hpos, hunits⟩ := percentChar_units hchar
      have hconsumed : consumed ≤ units.length := by
        obtain ⟨u, hu, -⟩ := hunits (consumed - 1) (by omega)
        have := (List.getElem?_eq_some_iff.mp hu).1
        omega
      have hwide : 1 < consumed := by
        simp only [percentChar, bind, Option.bind_eq_some_iff, pure, Option.some.injEq,
          Prod.mk.injEq] at hchar
        obtain ⟨-, -, width, -, -, -, -, -, -, -, -, rfl⟩ := hchar
        omega
      rw [decodePercentFrom_escape hchar] at h ⊢
      have hrest := ih (units.drop consumed).length (by rw [List.length_drop]; omega)
        (base + consumed) (fun c hc => h c (List.mem_append_right _ hc)) rfl
      have hfront : ∀ u ∈ units.take consumed, ¬IsParen u := by
        intro u hu
        obtain ⟨i, hi, rfl⟩ := List.getElem_of_mem hu
        rw [List.length_take] at hi
        obtain ⟨v, hv, hunit⟩ := hunits i (by omega)
        rw [List.getElem_take]
        rw [List.getElem?_eq_getElem (by omega), Option.some.injEq] at hv
        exact hv ▸ not_isParen_of_escapeUnit hunit
      have hcells : ∀ u ∈ View.units ((encodeChar c).map fun unit => ⟨unit, base, base + consumed⟩),
          ¬IsParen u := by
        intro u hu hparen
        obtain ⟨cell, hcell, rfl⟩ := List.mem_map.mp hu
        have hstop := h cell (List.mem_append_left _ hcell) hparen
        obtain ⟨unit, -, rfl⟩ := List.mem_map.mp hcell
        simp only at hstop
        omega
      have hsplit : units = units.take consumed ++ units.drop consumed :=
        (List.take_append_drop consumed units).symm
      have hlen : (units.take consumed).length = consumed := by
        rw [List.length_take]
        omega
      rw [hsplit]
      refine .append (fun i cell hcell => ?_) (fun q hq => ?_) ?_
      · have hmem := List.mem_of_getElem? hcell
        obtain ⟨unit, -, rfl⟩ := List.mem_map.mp hmem
        refine ⟨le_rfl, by simp only; omega, fun q hq => ?_⟩
        have hzero : ∀ n, ((View.units ((encodeChar c).map fun unit =>
            (⟨unit, base, base + consumed⟩ : Cell))).take n).count q = 0 :=
          fun n => count_zero_of hq fun u hu => hcells u (List.mem_of_mem_take hu)
        simp only [Nat.sub_self, List.take_zero, List.count_nil, Nat.add_sub_cancel_left]
        rw [hzero i, hzero (i + 1), List.take_append_of_le_length hlen.ge,
          List.take_of_length_le hlen.le, count_zero_of hq hfront]
        exact ⟨rfl, rfl⟩
      · rw [count_zero_of hq hfront, count_zero_of hq hcells]
      · rw [hlen, ← hsplit]
        exact hrest
    | none =>
      cases units with
      | nil => exact .nil
      | cons u rest =>
        rw [decodePercentFrom_literal hchar] at h ⊢
        have hrest := ih rest.length (by rw [← hn]; simp) (base + 1)
          (fun c hc => h c (List.mem_cons_of_mem _ hc)) rfl
        exact hrest.literal

end Percent

section Ascii

variable {dropIgnorables foldScripts : Bool} {units : List Nat}

def IsAscii (units : List Nat) : Prop := ∀ u ∈ units, u < 128

theorem isAscii_encode {t : String} (h : ∀ c ∈ t.toList, c.toNat < 128) : IsAscii (encode t) := by
  intro u hu
  obtain ⟨c, hc, hu⟩ := List.mem_flatMap.mp hu
  have hlt := h c hc
  rw [encodeChar, if_pos (by omega), List.mem_singleton] at hu
  exact hu ▸ hlt

theorem isDefaultIgnorable_ascii {u : Nat} (h : u < 128) : isDefaultIgnorable u = false := by
  have hall : ∀ u < 128, isDefaultIgnorable u = false := by decide
  exact hall u h

theorem foldBmp_ascii {u : Nat} (h : u < 128) : foldBmp u foldScripts = u := by
  have hall : ∀ foldScripts, ∀ u < 128, foldBmp u foldScripts = u := by decide
  exact hall foldScripts u h

theorem rewriteUnit_ascii {u : Nat} (h : u < 128) (i : Nat) :
    rewriteUnit dropIgnorables foldScripts u i = [⟨u, i, i + 1⟩] := by
  rw [rewriteUnit, isDefaultIgnorable_ascii h, Bool.and_false, if_neg (by simp), foldBmp_ascii h]

/-- Units that are rewritten to themselves. -/
theorem rewriteFrom_fixed (h : ∀ u ∈ units, isHigh u = false ∧
    ∀ i, rewriteUnit dropIgnorables foldScripts u i = [⟨u, i, i + 1⟩]) (base : Nat) :
    rewriteFrom dropIgnorables foldScripts units base =
      (units.zipIdx base).map fun (u, i) => (⟨u, i, i + 1⟩ : Cell) := by
  induction units generalizing base with
  | nil => rfl
  | cons u rest ih =>
    obtain ⟨hhigh, hunit⟩ := h u List.mem_cons_self
    rw [rewriteFrom_single hhigh, hunit, ih (fun v hv => h v (List.mem_cons_of_mem _ hv))]
    rfl

theorem rewriteFrom_ascii (h : IsAscii units) (base : Nat) :
    rewriteFrom dropIgnorables foldScripts units base =
      (units.zipIdx base).map fun (u, i) => (⟨u, i, i + 1⟩ : Cell) :=
  rewriteFrom_fixed (fun u hu => ⟨(isPlain_of_lt (by have := h u hu; omega)).1,
    rewriteUnit_ascii (h u hu)⟩) base

/-- An ASCII text has itself as each folded reading but those behind a short escape. -/
theorem foldedViews_ascii (h : IsAscii units) : ∀ view ∈ foldedViews units,
    view = identity units ∨ ∃ k ∈ [1, 2, 3], skipShortEscapeDigits units k = some view := by
  have hrewrite : ∀ {drop fold}, rewrite drop fold units = identity units :=
    rewriteFrom_ascii h 0
  intro view hview
  simp only [foldedViews, List.mem_append, List.mem_cons, List.not_mem_nil, or_false,
    List.mem_filterMap] at hview
  obtain (rfl | rfl | rfl) | ⟨k, hk, hview⟩ := hview
  · exact .inl hrewrite
  · exact .inl hrewrite
  · exact .inl hrewrite
  · exact .inr ⟨k, by simpa using hk, hview⟩

end Ascii

section Inserted

/-- A text with default-ignorable characters put in anywhere. -/
inductive Inserted : List Char → List Char → Prop
  | nil : Inserted [] []
  | keep {c : Char} {cs ds : List Char} : Inserted cs ds → Inserted (c :: cs) (c :: ds)
  | put {c : Char} {cs ds : List Char} :
      isDefaultIgnorable c.toNat = true → Inserted cs ds → Inserted cs (c :: ds)

theorem quiet_of_isDefaultIgnorable {u : Nat} (h : isDefaultIgnorable u = true) : Quiet u := by
  refine ⟨?_, ?_, ?_, ?_, ?_⟩ <;> rintro rfl <;> exact absurd h (by decide)

theorem quiet_of_surrogate {u : Nat} (h : isHigh u = true ∨ isLow u = true) : Quiet u := by
  simp only [isHigh, isLow, decide_eq_true_eq] at h
  simp only [Quiet, Char.reduceToNat]
  omega

theorem count_quiet {xs : List Nat} {q : Nat} (hq : ¬Quiet q) (h : ∀ u ∈ xs, Quiet u) :
    xs.count q = 0 := List.count_eq_zero_of_not_mem fun hmem => hq (h q hmem)

/-- A reading without ignorable characters is the text they were put into. -/
theorem rewrite_inserted {cs ds : List Char} (h : Inserted cs ds)
    (hascii : ∀ c ∈ cs, c.toNat < 128) (foldScripts : Bool) (base : Nat) :
    View.units (rewriteFrom true foldScripts (encodeChars ds) base) = encodeChars cs ∧
      Counts (fun q => ¬Quiet q) (encodeChars ds) base
        (rewriteFrom true foldScripts (encodeChars ds) base) := by
  induction h generalizing base with
  | nil => exact ⟨rfl, .nil⟩
  | @keep c cs ds _ ih =>
    have hc := hascii c List.mem_cons_self
    obtain ⟨hunits, hcounts⟩ := ih (fun d hd => hascii d (List.mem_cons_of_mem _ hd)) (base + 1)
    have hchar : encodeChar c = [c.toNat] := by rw [encodeChar, if_pos (by omega)]
    have hhigh : isHigh c.toNat = false := (isPlain_of_lt (by omega)).1
    rw [encodeChars_cons, encodeChars_cons, hchar, List.singleton_append, rewriteFrom_single hhigh,
      rewriteUnit_ascii hc]
    exact ⟨congrArg (c.toNat :: ·) hunits, hcounts.literal⟩
  | @put c cs ds hignorable _ ih =>
    obtain ⟨-, hhigh, -, hone⟩ | ⟨high, low, -, hhigh, hlow, hvalue, htwo⟩ := encodeChar_cases c
    · obtain ⟨hunits, hcounts⟩ := ih hascii (base + 1)
      have hdrop : rewriteUnit true foldScripts c.toNat base = [] := by
        rw [rewriteUnit, hignorable, Bool.and_self, if_pos rfl]
      rw [encodeChars_cons, hone, List.singleton_append, rewriteFrom_single hhigh, hdrop]
      have hquiet : ∀ u ∈ [c.toNat], Quiet u := fun u hu =>
        List.mem_singleton.mp hu ▸ quiet_of_isDefaultIgnorable hignorable
      exact ⟨hunits, .skip (fun q hq => count_quiet hq hquiet) hcounts⟩
    · obtain ⟨hunits, hcounts⟩ := ih hascii (base + 2)
      have hquiet : ∀ u ∈ [high, low], Quiet u := by
        intro u hu
        rw [List.mem_cons, List.mem_singleton] at hu
        obtain rfl | rfl := hu
        · exact quiet_of_surrogate (.inl hhigh)
        · exact quiet_of_surrogate (.inr hlow)
      rw [encodeChars_cons, htwo, List.cons_append, List.singleton_append,
        rewriteFrom_pair hhigh hlow, hvalue, hignorable, Bool.and_self, if_pos rfl]
      exact ⟨hunits, .skip (fun q hq => count_quiet hq hquiet) hcounts⟩

theorem inserted_filter (ds : List Char) :
    Inserted (ds.filter fun c => !isDefaultIgnorable c.toNat) ds := by
  induction ds with
  | nil => exact .nil
  | cons d ds ih =>
    rw [List.filter_cons]
    split
    · exact .keep ih
    · next hignorable => exact .put (by simpa using hignorable) ih

theorem inserted_of_filter {cs ds : List Char}
    (h : ds.filter (fun c => !isDefaultIgnorable c.toNat) = cs) : Inserted cs ds :=
  h ▸ inserted_filter ds

end Inserted

section WellSpelled

variable [Entropy] {units : List Nat}

omit [Entropy] in
theorem malformed_ascii {xs : List Nat} (h : IsAscii xs)
    (hcount : xs.count '('.toNat = xs.count ')'.toNat) : malformedHkidSpelling xs = false := by
  have hnone : ∀ q, 128 ≤ q → xs.count q = 0 := fun q hq =>
    List.count_eq_zero_of_not_mem fun hmem => absurd (h q hmem) (by omega)
  have hspace : xs.contains 0x3000 = false := by
    rw [← Bool.not_eq_true, List.contains_iff_mem]
    exact fun hmem => absurd (h _ hmem) (by decide)
  rw [malformedHkidSpelling, hspace, hnone 0xFF08 (by decide), hnone 0xFF09 (by decide), hcount]
  simp

omit [Entropy] in
theorem count_eq_of_wellSpelled {xs : List Nat} (h : malformedHkidSpelling xs = false) :
    xs.count '('.toNat = xs.count ')'.toNat := by
  simp only [malformedHkidSpelling, Bool.or_eq_false_iff, decide_eq_false_iff_not, not_not] at h
  exact h.2

omit [Entropy] in
theorem ascii_span (h : IsAscii units) (hit : Hit) : IsAscii (hit.span units) :=
  fun u hu => h u (List.mem_of_mem_take (List.mem_of_mem_drop hu))

omit [Entropy] in
/-- A token has no parentheses. -/
theorem scanToken_wellSpelled {inner : List Nat → Option (List Hit)} (hinner : FittingScan inner)
    {p : Nat × Nat} (hp : p ∈ runs isTokenMember units) {hits : List Hit}
    (h : scanToken inner units p = some hits) : ∀ hit ∈ hits, WellSpelled units hit := by
  obtain ⟨start, stop⟩ := p
  have hrun := isRun_of_mem_runs hp
  have hlt := hrun.lt
  have hfits := padded_fits hrun
  intro hit hhit _
  simp only [scanToken, slice_of_le hfits.1.le hfits.2.1, bind, Option.bind_some] at h
  obtain ⟨decoded, -, found, hfound, hmem⟩ := (mem_flatMapM h).mp hhit
  obtain ⟨found', hfound', hplace⟩ := reportDecoded_total hinner start
    (stop + (((units.drop stop).take 2).takeWhile (· = '='.toNat)).length - start) decoded
  rw [hfound, Option.some.injEq] at hfound'
  obtain ⟨hstart, hlength⟩ := hplace hit (hfound' ▸ hmem)
  refine malformed_quiet fun u hu => ?_
  rw [Hit.span, hstart, hlength,
    show start + (stop + (((units.drop stop).take 2).takeWhile (· = '='.toNat)).length - start) =
      start + (stop - start + (((units.drop stop).take 2).takeWhile (· = '='.toNat)).length) by
        omega, span_extended hlt.le hrun.le] at hu
  obtain hu | hu := List.mem_append.mp hu
  · obtain ⟨i, hi, rfl⟩ := List.getElem_of_mem hu
    rw [List.length_drop, List.length_take] at hi
    obtain ⟨v, hv, hmember⟩ := hrun.inside (start + i) (by omega) (by omega)
    rw [List.getElem_drop, List.getElem_take]
    rw [List.getElem?_eq_getElem (by omega), Option.some.injEq] at hv
    rw [hv]
    rw [isTokenMember, Bool.or_eq_true] at hmember
    obtain hmember | hmember := hmember
    · exact quiet_of_isAlnum hmember
    · have hall : ∀ v ∈ encode "+/_-", Quiet v := by
        intro v hv
        rw [show encode "+/_-" = [43, 47, 95, 45] by decide] at hv
        simp only [List.mem_cons, List.not_mem_nil, or_false] at hv
        simp only [Quiet, Char.reduceToNat]
        omega
      exact hall v (by simpa [oneOf] using hmember)
  · have hpadding : ((units.drop stop).take 2).takeWhile (· = '='.toNat) =
        (units.drop stop).take
          (((units.drop stop).take 2).takeWhile (· = '='.toNat)).length :=
      List.prefix_iff_eq_take.mp ((List.takeWhile_prefix _).trans (List.take_prefix 2 _))
    rw [← hpadding] at hu
    have hequals := List.all_eq_true.mp List.all_takeWhile u hu
    rw [decide_eq_true_eq] at hequals
    subst hequals
    simp [Quiet]

/-- In ASCII the ids found in decoded text have pairing parentheses, unless some are escaped. -/
theorem scan_wellSpelled (hpaired : Paired units) (hascii : IsAscii units)
    (hparen : NoEscapedParen units ∨ ∀ u ∈ units, ¬IsParen u) {hits : List Hit}
    (h : scan units = some hits) : ∀ hit ∈ hits, WellSpelled units hit := by
  simp only [scan, bind, Option.bind_eq_some_iff, pure, Option.some.injEq, scanDecoded] at h
  obtain ⟨plain, hplain, decoded, ⟨tokens, htokens, percent, hpercent, rfl⟩, rfl⟩ := h
  refine sortDedup_wellSpelled fun hit hhit => ?_
  simp only [List.mem_append] at hhit
  rcases hhit with hhit | hhit | hhit
  · exact scanPlain_wellSpelled hplain hit hhit
  · obtain ⟨p, hp, found, hfound, hmem⟩ := (mem_flatMapM htokens).mp hhit
    exact scanToken_wellSpelled decodedViews_fitting.2 hp hfound hit hmem
  · intro hkind
    unfold scanPercent at hpercent
    split at hpercent
    · cases hpercent
      cases hhit
    · next view hview =>
      have hof := decodePercent_of hpaired hview
      obtain ⟨inner, hinner, hfits⟩ := decodedViews_fitting.2 view.units hof.paired
      simp only [hinner] at hpercent
      obtain ⟨seen, hseen, hmoved⟩ := (mem_mapM_iff hpercent).mp hhit
      have hwell := scanAllViews_wellSpelled scanPlain_fitting scanPlain_wellSpelled hof.paired
        hinner seen hseen
      have hmoved : moveBack view seen = some hit := hmoved
      refine malformed_ascii (ascii_span hascii hit) ?_
      obtain hnone | hnone := hparen
      · have hcounts : Counts IsParen units 0 view := by
          simp only [decodePercent, Option.ite_none_right_eq_some, Option.some.injEq] at hview
          obtain ⟨-, rfl⟩ := hview
          exact decodePercentFrom_counts 0 hnone
        rw [hcounts.span hof (hfits seen hseen) hmoved (.inl rfl),
          hcounts.span hof (hfits seen hseen) hmoved (.inr rfl)]
        refine count_eq_of_wellSpelled (hwell ?_)
        exact (moveBack_same hmoved).1.symm.trans hkind
      · have hspan : ∀ u ∈ hit.span units, ¬IsParen u := fun u hu =>
          hnone u (List.mem_of_mem_take (List.mem_of_mem_drop hu))
        rw [count_zero_of (.inl rfl) hspan, count_zero_of (.inr rfl) hspan]

end WellSpelled

end Inspect
