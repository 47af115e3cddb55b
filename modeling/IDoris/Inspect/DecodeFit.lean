import IDoris.Inspect.NumbersFit
import IDoris.Inspect.TokensFit
import IDoris.Inspect.ViewsFit

/-!
# The decoders fit

An escape is made of ASCII units, so undoing percent encoding keeps characters whole; what
is found in a decoded token is reported at the token.
-/
namespace Inspect

open Scanner Utf16

section Plain

variable {units : List Nat} [Entropy]

theorem plainHits_fitting : FittingScan plainHits := by
  intro units hpaired
  obtain ⟨groups, hgroups, hgroupsFit⟩ := scanGroups_fitting units
  obtain ⟨formatted, hformatted, hformattedFit⟩ := scanFormatted_fitting units
  obtain ⟨country, hcountry, hcountryFit⟩ := scanCountryMobile_fitting units
  obtain ⟨tokens, htokens, htokensFit⟩ := scanTokens_fitting units
  obtain ⟨secrets, hsecrets, hsecretsFit⟩ := scanSecrets_fitting hpaired
  obtain ⟨crossline, hcrossline, hcrosslineFit⟩ := scanCrosslineModernId_fitting units
  simp only [plainHits, hgroups, hformatted, hcountry, htokens, hsecrets, hcrossline]
  refine ⟨_, rfl, fun hit hhit => ?_⟩
  simp only [List.mem_append] at hhit
  obtain ((((hhit | hhit) | hhit) | hhit) | hhit) | hhit := hhit
  · exact hgroupsFit hit hhit
  · exact hformattedFit hit hhit
  · exact hcountryFit hit hhit
  · exact htokensFit hit hhit
  · exact hsecretsFit hit hhit
  · exact hcrosslineFit hit hhit

theorem scanPlain_fitting : FittingScan scanPlain := by
  intro units hpaired
  obtain ⟨hits, hhits, hfits⟩ := plainHits_fitting units hpaired
  simp only [scanPlain, hhits]
  exact ⟨_, rfl, Fitting.sortDedup hfits⟩

end Plain

section Percent

variable {units : List Nat}

theorem isPlain_of_hexValue {u value : Nat} (h : hexValue u = some value) : IsPlain u := by
  unfold hexValue at h
  split at h
  · next hdigit => exact isPlain_of_isDigit hdigit
  · split at h
    · next hrange =>
      refine isPlain_of_lt ?_
      simp only [Char.reduceToNat] at hrange
      omega
    · split at h
      · next hrange =>
        refine isPlain_of_lt ?_
        simp only [Char.reduceToNat] at hrange
        omega
      · cases h

/-- An escape is a percent sign and two hexadecimal digits. -/
theorem byteAt_some {byte : Nat} (h : byteAt units = some byte) :
    ∃ high low rest a b, units = '%'.toNat :: high :: low :: rest ∧ hexValue high = some a ∧
      hexValue low = some b ∧ byte = a * 16 + b := by
  unfold byteAt at h
  split at h
  · next percent high low rest =>
    split at h
    · cases h
    · next hpercent =>
      simp only [ne_eq, not_not] at hpercent
      simp only [bind, Option.bind_eq_some_iff, pure, Option.some.injEq] at h
      obtain ⟨a, ha, b, hb, rfl⟩ := h
      exact ⟨high, low, rest, a, b, by rw [hpercent], ha, hb, rfl⟩
  · cases h

/-- The units an escape is made of. -/
def IsEscapeUnit (u : Nat) : Prop := u = '%'.toNat ∨ ∃ value, hexValue u = some value

theorem IsEscapeUnit.isPlain {u : Nat} (h : IsEscapeUnit u) : IsPlain u := by
  obtain rfl | ⟨value, hvalue⟩ := h
  · exact ⟨by decide, by decide⟩
  · exact isPlain_of_hexValue hvalue

theorem byteAt_unit {byte i : Nat} (h : byteAt units = some byte) (hi : i < 3) :
    ∃ u, units[i]? = some u ∧ IsEscapeUnit u := by
  obtain ⟨high, low, rest, a, b, rfl, ha, hb, -⟩ := byteAt_some h
  match i, hi with
  | 0, _ => exact ⟨_, rfl, .inl rfl⟩
  | 1, _ => exact ⟨_, rfl, .inr ⟨a, ha⟩⟩
  | 2, _ => exact ⟨_, rfl, .inr ⟨b, hb⟩⟩

theorem mem_of_mapM {α β : Type} {f : α → Option β} {xs : List α} {ys : List β}
    (h : xs.mapM f = some ys) {x : α} (hx : x ∈ xs) : ∃ y, f x = some y := by
  obtain ⟨y, -, hy⟩ := Loop.forall₂_left (Loop.mapM_outcome .option h) hx
  exact ⟨y, hy⟩

theorem percentChar_units {c : Char} {n : Nat} (h : percentChar units = some (c, n)) :
    0 < n ∧ ∀ i < n, ∃ u, units[i]? = some u ∧ IsEscapeUnit u := by
  simp only [percentChar, bind, Option.bind_eq_some_iff, pure, Option.some.injEq,
    Prod.mk.injEq] at h
  obtain ⟨first, hfirst, width, hwidth, bytes, hbytes, text, -, d, -, -, rfl⟩ := h
  have hpos : 0 < width := by
    unfold utf8Width at hwidth
    split at hwidth
    · cases hwidth
      omega
    · split at hwidth
      · cases hwidth
        omega
      · split at hwidth
        · cases hwidth
          omega
        · split at hwidth
          · cases hwidth
            omega
          · cases hwidth
  refine ⟨by omega, fun i hi => ?_⟩
  obtain ⟨byte, hbyte⟩ := mem_of_mapM hbytes (x := i / 3) (List.mem_range.mpr (by omega))
  obtain ⟨u, hu, hunit⟩ := byteAt_unit hbyte (i := i % 3) (Nat.mod_lt _ (by omega))
  refine ⟨u, ?_, hunit⟩
  rw [← hu, List.getElem?_drop]
  congr 1
  omega

theorem percentChar_some {c : Char} {n : Nat} (h : percentChar units = some (c, n)) :
    0 < n ∧ ∀ i < n, ∃ u, units[i]? = some u ∧ IsPlain u := by
  obtain ⟨hpos, hunits⟩ := percentChar_units h
  exact ⟨hpos, fun i hi => (hunits i hi).imp fun u hu => ⟨hu.1, hu.2.isPlain⟩⟩

theorem percentChar_none {u : Nat} {rest : List Nat} (h : ¬IsPlain u) :
    percentChar (u :: rest) = none := by
  cases hchar : percentChar (u :: rest) with
  | none => rfl
  | some found =>
    obtain ⟨hpos, hplain⟩ := percentChar_some (c := found.1) (n := found.2) hchar
    obtain ⟨v, hv, hv'⟩ := hplain 0 hpos
    rw [List.getElem?_cons_zero, Option.some.injEq] at hv
    exact absurd (hv ▸ hv') h

theorem decodePercentFrom_skip (skip : Nat) (units : List Nat) (i : Nat) :
    decodePercentFrom skip units i = decodePercentFrom 0 (units.drop skip) (i + skip) := by
  induction units generalizing skip i with
  | nil => simp [decodePercentFrom]
  | cons u rest ih =>
    cases skip with
    | zero => rfl
    | succ skip =>
      rw [decodePercentFrom, ih, List.drop_succ_cons, Nat.add_assoc, Nat.add_comm 1]

theorem decodePercentFrom_escape {c : Char} {n : Nat} (h : percentChar units = some (c, n))
    (i : Nat) : decodePercentFrom 0 units i =
      ((encodeChar c).map (fun unit => ⟨unit, i, i + n⟩) ++
        (decodePercentFrom 0 (units.drop n) (i + n)).1,
        (decodePercentFrom 0 (units.drop n) (i + n)).2 + 1) := by
  obtain ⟨hpos, hplain⟩ := percentChar_some h
  cases units with
  | nil =>
    obtain ⟨u, hu, -⟩ := hplain 0 hpos
    cases hu
  | cons u rest =>
    simp only [decodePercentFrom, h]
    rw [decodePercentFrom_skip, show rest.drop (n - 1) = (u :: rest).drop n by
      rw [← List.drop_succ_cons (a := u), Nat.sub_add_cancel hpos],
      show i + 1 + (n - 1) = i + n by omega]

theorem decodePercentFrom_literal {u : Nat} {rest : List Nat} (h : percentChar (u :: rest) = none)
    (i : Nat) : decodePercentFrom 0 (u :: rest) i =
      (⟨u, i, i + 1⟩ :: (decodePercentFrom 0 rest (i + 1)).1,
        (decodePercentFrom 0 rest (i + 1)).2) := by
  simp only [decodePercentFrom, h]

/-- Plain units in front can go, and whole characters are left. -/
theorem paired_drop {n : Nat} (h : Paired units)
    (hplain : ∀ i < n, ∃ u, units[i]? = some u ∧ IsPlain u) : Paired (units.drop n) := by
  induction n generalizing units with
  | zero => exact h
  | succ n ih =>
    obtain ⟨u, hu, hfirst⟩ := hplain 0 (Nat.succ_pos n)
    cases h with
    | nil => cases hu
    | @single v rest hhigh hlow hrest =>
      rw [List.drop_succ_cons]
      exact ih hrest fun i hi => by simpa using hplain (i + 1) (by omega)
    | @pair v w rest hhigh hlow hrest =>
      rw [List.getElem?_cons_zero, Option.some.injEq] at hu
      rw [hu, hfirst.1] at hhigh
      cases hhigh

/-- What holds of the cells of a text that was percent-decoded. -/
structure Decoded (units : List Nat) (base : Nat) (view : View) : Prop where
  paired : Paired view.units
  cell : ∀ c ∈ view, base ≤ c.first ∧ c.first < c.stop ∧ c.stop ≤ base + units.length
  order : view.Pairwise fun c d => c.first ≤ d.first
  low : ∀ c ∈ view, isLow c.unit = false →
    ∀ u, units[c.first - base]? = some u → isLow u = false
  high : ∀ c ∈ view, isHigh c.unit = false →
    ∀ u, units[c.stop - 1 - base]? = some u → isHigh u = false

/-- The rest of a text behind its first `n` units. -/
theorem Decoded.shift {n base : Nat} {view : View} (hn : n ≤ units.length)
    (h : Decoded (units.drop n) (base + n) view) : Decoded units base view := by
  refine ⟨h.paired, fun c hc => ?_, h.order, fun c hc hunit u hu => ?_, fun c hc hunit u hu => ?_⟩
  · have := h.cell c hc
    rw [List.length_drop] at this
    omega
  · have := h.cell c hc
    refine h.low c hc hunit u ?_
    rw [← hu, List.getElem?_drop]
    congr 1
    omega
  · have := h.cell c hc
    refine h.high c hc hunit u ?_
    rw [← hu, List.getElem?_drop]
    congr 1
    omega

theorem Decoded.append {base : Nat} {front back : View} (hpaired : Paired front.units)
    (hcell : ∀ c ∈ front, c.first = base ∧ base < c.stop ∧ c.stop ≤ base + units.length)
    (hlow : ∀ c ∈ front, isLow c.unit = false → ∀ u, units[0]? = some u → isLow u = false)
    (hhigh : ∀ c ∈ front, isHigh c.unit = false →
      ∀ u, units[c.stop - 1 - base]? = some u → isHigh u = false)
    (h : Decoded units base back) : Decoded units base (front ++ back) := by
  refine ⟨?_, fun c hc => ?_, ?_, fun c hc => ?_, fun c hc => ?_⟩
  · rw [View.units, List.map_append]
    exact hpaired.append h.paired
  · obtain hc | hc := List.mem_append.mp hc
    · have := hcell c hc
      omega
    · exact h.cell c hc
  · refine List.pairwise_append.mpr ⟨?_, h.order, fun c hc d hd => ?_⟩
    · refine List.pairwise_of_forall_mem_list fun c hc d hd => ?_
      rw [(hcell c hc).1, (hcell d hd).1]
    · rw [(hcell c hc).1]
      exact (h.cell d hd).1
  · obtain hc | hc := List.mem_append.mp hc
    · intro hunit u hu
      rw [(hcell c hc).1, Nat.sub_self] at hu
      exact hlow c hc hunit u hu
    · exact h.low c hc
  · obtain hc | hc := List.mem_append.mp hc
    · exact hhigh c hc
    · exact h.high c hc

theorem decodePercentFrom_decoded (h : Paired units) (base : Nat) :
    Decoded units base (decodePercentFrom 0 units base).1 := by
  induction hn : units.length using Nat.strong_induction_on generalizing units base with
  | h n ih =>
    cases hchar : percentChar units with
    | some found =>
      obtain ⟨c, consumed⟩ := found
      obtain ⟨hpos, hplain⟩ := percentChar_some hchar
      have hconsumed : consumed ≤ units.length := by
        obtain ⟨u, hu, -⟩ := hplain (consumed - 1) (by omega)
        have := (List.getElem?_eq_some_iff.mp hu).1
        omega
      have hrest := ih (units.drop consumed).length (by rw [List.length_drop]; omega)
        (paired_drop h hplain) (base + consumed) rfl
      rw [decodePercentFrom_escape hchar]
      refine .append ?_ ?_ ?_ ?_ (hrest.shift hconsumed)
      · rw [View.units, List.map_map]
        show Paired ((encodeChar c).map id)
        rw [List.map_id]
        simpa using paired_encodeChars [c]
      · intro cell hcell
        obtain ⟨unit, -, rfl⟩ := List.mem_map.mp hcell
        exact ⟨rfl, by simp only; omega, by simp only; omega⟩
      · intro cell hcell _ u hu
        obtain ⟨v, hv, hv'⟩ := hplain 0 hpos
        rw [hu, Option.some.injEq] at hv
        exact hv ▸ hv'.2
      · intro cell hcell _ u hu
        obtain ⟨unit, -, rfl⟩ := List.mem_map.mp hcell
        obtain ⟨v, hv, hv'⟩ := hplain (consumed - 1) (by omega)
        rw [show base + consumed - 1 - base = consumed - 1 by omega, hv,
          Option.some.injEq] at hu
        exact hu ▸ hv'.1
    | none =>
      cases h with
      | nil => exact ⟨.nil, by simp [decodePercentFrom], .nil, by simp [decodePercentFrom],
          by simp [decodePercentFrom]⟩
      | @single u rest hhigh hlow hrest =>
        have hrest' := ih rest.length (by rw [← hn]; simp) hrest (base + 1) rfl
        have hfront : Paired (View.units [⟨u, base, base + 1⟩]) := .single hhigh hlow .nil
        rw [decodePercentFrom_literal hchar]
        refine .append hfront ?_ ?_ ?_ (.shift (n := 1) (by simp) hrest')
        · simp
        · intro cell _ _ w hw
          rw [List.getElem?_cons_zero, Option.some.injEq] at hw
          exact hw ▸ hlow
        · intro cell hcell _ w hw
          rw [List.mem_singleton] at hcell
          subst hcell
          simp only [Nat.add_sub_cancel, Nat.sub_self, List.getElem?_cons_zero,
            Option.some.injEq] at hw
          exact hw ▸ hhigh
      | @pair u v rest hhigh hlow hrest =>
        have hrest' := ih rest.length (by rw [← hn]; simp only [List.length_cons]; omega) hrest (base + 2) rfl
        have hsecond : percentChar (v :: rest) = none := percentChar_none fun hplain => by
          rw [hplain.2] at hlow
          cases hlow
        rw [decodePercentFrom_literal hchar, decodePercentFrom_literal hsecond]
        have hrest' : Decoded (u :: v :: rest) base
            (decodePercentFrom 0 rest (base + 1 + 1)).1 := .shift (n := 2) (by simp) hrest'
        have hu : isLow u = false := isLow_of_isHigh hhigh
        refine ⟨.pair hhigh hlow hrest'.paired, fun c hc => ?_, ?_, fun c hc => ?_,
          fun c hc => ?_⟩
        · simp only [List.mem_cons] at hc
          obtain rfl | rfl | hc := hc
          · simp
          · simp only [List.length_cons]
            omega
          · exact hrest'.cell c hc
        · have hafter : ∀ d ∈ (decodePercentFrom 0 rest (base + 1 + 1)).1,
              base + 2 ≤ d.first := by
            intro d hd
            exact ((ih rest.length (by rw [← hn]; simp only [List.length_cons]; omega) hrest (base + 2) rfl).cell d hd).1
          simp only [List.pairwise_cons, List.mem_cons]
          refine ⟨fun d hd => ?_, fun d hd => ?_, hrest'.order⟩
          · obtain rfl | hd := hd
            · exact Nat.le_succ base
            · exact (hrest'.cell d hd).1
          · have := hafter d hd
            omega
        · simp only [List.mem_cons] at hc
          obtain rfl | rfl | hc := hc
          · intro hunit w hw
            rw [Nat.sub_self, List.getElem?_cons_zero, Option.some.injEq] at hw
            exact hw ▸ hunit
          · intro hunit
            simp only at hunit
            rw [hlow] at hunit
            cases hunit
          · exact hrest'.low c hc
        · simp only [List.mem_cons] at hc
          obtain rfl | rfl | hc := hc
          · intro hunit
            simp only at hunit
            rw [hhigh] at hunit
            cases hunit
          · intro hunit w hw
            simp only [show base + 1 + 1 - 1 - base = 1 by omega, List.getElem?_cons_succ,
              List.getElem?_cons_zero, Option.some.injEq] at hw
            exact hw ▸ hunit
          · exact hrest'.high c hc

theorem decodePercent_of (h : Paired units) {view : View} (hview : decodePercent units =
    some view) : view.Of units := by
  simp only [decodePercent, Option.ite_none_right_eq_some, Option.some.injEq] at hview
  obtain ⟨-, rfl⟩ := hview
  have hdecoded := decodePercentFrom_decoded h 0
  refine ⟨hdecoded.paired, fun c hc => ?_, hdecoded.order, hdecoded.low, hdecoded.high⟩
  have := hdecoded.cell c hc
  omega

end Percent

section Decoders

variable {units : List Nat} {inner : List Nat → Option (List Hit)}

theorem reportDecoded_total (hinner : FittingScan inner) (start length : Nat)
    (decoded : List Nat) : ∃ hits, reportDecoded inner start length decoded = some hits ∧
      ∀ hit ∈ hits, hit.start = start ∧ hit.length = length := by
  unfold reportDecoded
  split
  · exact ⟨[], rfl, by simp⟩
  · next text _ =>
    obtain ⟨hits, hhits, -⟩ := hinner _ (paired_encode text)
    rw [hhits]
    refine ⟨_, rfl, fun hit hhit => ?_⟩
    obtain ⟨inner, -, rfl⟩ := List.mem_map.mp hhit
    exact ⟨rfl, rfl⟩

theorem isPlain_of_isTokenMember {u : Nat} (h : isTokenMember u = true) : IsPlain u := by
  rw [isTokenMember, Bool.or_eq_true] at h
  exact h.elim isPlain_of_isAlnum (isPlain_of_oneOf (by decide))

/-- A run with the padding behind it still ends with an ASCII unit. -/
theorem padded_fits {start stop : Nat} (hrun : IsRun isTokenMember units start stop) :
    RangeFits units start
      (stop + (((units.drop stop).take 2).takeWhile (· = '='.toNat)).length) := by
  have hlt := hrun.lt
  rcases Nat.eq_zero_or_pos (((units.drop stop).take 2).takeWhile (· = '='.toNat)).length
    with hzero | hpos
  · rw [hzero, Nat.add_zero]
    exact .of_run (fun _ => isPlain_of_isTokenMember) hrun le_rfl hlt le_rfl
  · obtain ⟨u, hu, hm⟩ := hrun.inside start le_rfl hlt
    have hinside : (((units.drop stop).take 2).takeWhile (· = '='.toNat)).length - 1 <
        runLength (· = '='.toNat) ((units.drop stop).take 2) := by
      rw [runLength]
      omega
    obtain ⟨v, hv, hpad⟩ := member_of_lt_runLength hinside
    have htwo : (((units.drop stop).take 2).takeWhile (· = '='.toNat)).length ≤ 2 :=
      (List.takeWhile_prefix _).length_le.trans (List.length_take_le _ _)
    rw [List.getElem?_take, if_pos (by omega), List.getElem?_drop] at hv
    refine .of_plain (by omega) ⟨u, hu, isPlain_of_isTokenMember hm⟩ ⟨v, ?_, ?_⟩
    · rw [← hv]
      congr 1
      omega
    · rw [decide_eq_true_eq] at hpad
      rw [hpad]
      exact ⟨by decide, by decide⟩

theorem scanToken_fitting (hinner : FittingScan inner) {p : Nat × Nat}
    (hp : p ∈ runs isTokenMember units) : Fitting units (scanToken inner units p) := by
  obtain ⟨start, stop⟩ := p
  have hfits := padded_fits (isRun_of_mem_runs hp)
  simp only [scanToken, slice_of_le hfits.1.le hfits.2.1, bind, Option.bind_some]
  refine .flatMap fun decoded _ => ?_
  obtain ⟨hits, hhits, hspan⟩ := reportDecoded_total hinner start
    (stop + (((units.drop stop).take 2).takeWhile (· = '='.toNat)).length - start) decoded
  refine ⟨hits, hhits, fun hit hhit => ?_⟩
  obtain ⟨hstart, hlength⟩ := hspan hit hhit
  have := hfits.1
  simp only [Hit.Fits, Hit.stop, hstart, hlength, Nat.add_sub_cancel' hfits.1.le]
  exact hfits

theorem scanPercent_fitting (hinner : FittingScan inner) (h : Paired units) :
    Fitting units (scanPercent inner units) := by
  unfold scanPercent
  split
  · exact .nil
  · next view hview =>
    have hof := decodePercent_of h hview
    obtain ⟨hits, hhits, hfits⟩ := hinner _ hof.paired
    simp only [hhits]
    exact hof.mapBack hfits

theorem scanDecoded_fitting (hinner : FittingScan inner) (h : Paired units) :
    Fitting units (scanDecoded inner units) :=
  .append (.flatMap fun _ hp => scanToken_fitting hinner hp) (scanPercent_fitting hinner h)

/-- The whole scanner never indexes out of range, and its hits fit. -/
theorem scan_fitting [Entropy] : FittingScan scan := by
  intro units h
  obtain ⟨plain, hplain, hplainFit⟩ := scanPlain_fitting units h
  obtain ⟨decoded, hdecoded, hdecodedFit⟩ := scanDecoded_fitting
    (fun _ hpaired => scanAllViews_fitting scanPlain_fitting hpaired) h
  simp only [scan, hplain, hdecoded]
  exact ⟨_, rfl, Fitting.sortDedup fun hit hhit =>
    (List.mem_append.mp hhit).elim (hplainFit hit) (hdecodedFit hit)⟩

end Decoders

end Inspect
