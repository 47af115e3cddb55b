import IDoris.Inspect.Decode
import IDoris.Library.Loop

/-!
# Hits fit their text

Every plain rule stays inside the text it scans, and its hits start and end between
characters.
-/
namespace Inspect

open Scanner Utf16

/-- A range of a text that is not empty and starts and ends between characters. -/
def RangeFits (units : List Nat) (start stop : Nat) : Prop :=
  start < stop ∧ stop ≤ units.length ∧
    (∀ u, units[start]? = some u → isLow u = false) ∧
    (∀ u, units[stop - 1]? = some u → isHigh u = false)

def Hit.Fits (units : List Nat) (hit : Hit) : Prop := RangeFits units hit.start hit.stop

/-- A scan that never fails and whose hits fit. -/
def Fitting (units : List Nat) (result : Option (List Hit)) : Prop :=
  ∃ hits, result = some hits ∧ ∀ hit ∈ hits, hit.Fits units

section Plain

variable {u : Nat}

/-- A unit outside the surrogates. -/
def IsPlain (u : Nat) : Prop := isHigh u = false ∧ isLow u = false

theorem isPlain_of_lt (h : u < 0xD800) : IsPlain u := by
  simp only [IsPlain, isHigh, isLow, decide_eq_false_iff_not]
  omega

theorem isPlain_of_isDigit (h : isDigit u = true) : IsPlain u := by
  refine isPlain_of_lt ?_
  simp [isDigit] at h
  omega

theorem isPlain_of_isAlphabetic (h : isAlphabetic u = true) : IsPlain u := by
  refine isPlain_of_lt ?_
  simp [isAlphabetic, isLowercase, isUppercase] at h
  omega

theorem isPlain_of_isAlnum (h : isAlnum u = true) : IsPlain u := by
  rw [isAlnum, Bool.or_eq_true] at h
  exact h.elim isPlain_of_isAlphabetic isPlain_of_isDigit

theorem isPlain_of_isCheckX (h : isCheckX u = true) : IsPlain u := by
  refine isPlain_of_lt ?_
  simp [isCheckX] at h
  omega

theorem isPlain_of_oneOf {s : String} (hs : ∀ u ∈ Utf16.encode s, u < 0xD800)
    (h : oneOf s u = true) : IsPlain u := isPlain_of_lt (hs u (by simpa [oneOf] using h))

end Plain

section Range

variable {units : List Nat} {start stop : Nat}

theorem RangeFits.of_plain (hlt : start < stop)
    (hfirst : ∃ u, units[start]? = some u ∧ IsPlain u)
    (hlast : ∃ u, units[stop - 1]? = some u ∧ IsPlain u) : RangeFits units start stop := by
  obtain ⟨u, hu, hplain⟩ := hfirst
  obtain ⟨v, hv, hplain'⟩ := hlast
  have hle := (List.getElem?_eq_some_iff.mp hv).1
  refine ⟨hlt, by omega, fun w hw => ?_, fun w hw => ?_⟩
  · rw [hu, Option.some.injEq] at hw
    exact hw ▸ hplain.2
  · rw [hv, Option.some.injEq] at hw
    exact hw ▸ hplain'.1

/-- A run of plain units fits, and so does each part of it. -/
theorem RangeFits.of_run {member : Nat → Bool} (hplain : ∀ u, member u = true → IsPlain u)
    {a b : Nat} (h : IsRun member units a b) (ha : a ≤ start) (hlt : start < stop)
    (hb : stop ≤ b) : RangeFits units start stop := by
  obtain ⟨u, hu, hm⟩ := h.inside start ha (by omega)
  obtain ⟨v, hv, hm'⟩ := h.inside (stop - 1) (by omega) (by omega)
  exact .of_plain hlt ⟨u, hu, hplain u hm⟩ ⟨v, hv, hplain v hm'⟩

end Range

section Combine

variable {units : List Nat} {a b : Option (List Hit)}

theorem Fitting.nil : Fitting units (some []) := ⟨[], rfl, by simp⟩

theorem Fitting.bind {result : Option (List Hit)} {next : List Hit → Option (List Hit)}
    (h : Fitting units result)
    (hnext : ∀ hits, (∀ hit ∈ hits, hit.Fits units) → Fitting units (next hits)) :
    Fitting units (result.bind next) := by
  obtain ⟨hits, rfl, hfits⟩ := h
  exact hnext hits hfits

theorem Fitting.append (ha : Fitting units a) (hb : Fitting units b) :
    Fitting units (do return (← a) ++ (← b)) := by
  obtain ⟨xs, rfl, hxs⟩ := ha
  obtain ⟨ys, rfl, hys⟩ := hb
  refine ⟨xs ++ ys, rfl, fun hit hhit => ?_⟩
  exact (List.mem_append.mp hhit).elim (hxs hit) (hys hit)

theorem Fitting.flatMap {α : Type} {f : α → Option (List Hit)} {xs : List α}
    (h : ∀ x ∈ xs, Fitting units (f x)) : Fitting units (flatMapM f xs) := by
  obtain ⟨zs, hzs⟩ := flatMapM_isSome fun x hx => (h x hx).imp fun _ hys => hys.1
  refine ⟨zs, hzs, fun hit hhit => ?_⟩
  obtain ⟨x, hx, ys, hys, hmem⟩ := (mem_flatMapM hzs).mp hhit
  obtain ⟨ys', hys', hfits⟩ := h x hx
  rw [hys', Option.some.injEq] at hys
  exact hfits hit (hys ▸ hmem)

theorem Fitting.filter {hits : List Hit} (p : Hit → Bool) (h : ∀ hit ∈ hits, hit.Fits units) :
    Fitting units (some (hits.filter p)) :=
  ⟨_, rfl, fun hit hhit => h hit (List.mem_filter.mp hhit).1⟩

end Combine

section Classify

variable {d : List Nat} {c : Candidate}

theorem idStructure_isSome (h : 14 ≤ d.length) : ∃ found, idStructure d = some found := by
  have hget : ∀ i, i < 2 → ∃ x, d[i]? = some x := fun i hi =>
    ⟨d[i], List.getElem?_eq_getElem (by omega)⟩
  obtain ⟨x, hx⟩ := hget 0 (by omega)
  obtain ⟨y, hy⟩ := hget 1 (by omega)
  simp only [idStructure, slice_of_le (show 6 ≤ 10 by omega) (show 10 ≤ d.length by omega),
    slice_of_le (show 2 ≤ 6 by omega) (show 6 ≤ d.length by omega),
    slice_of_le (show 10 ≤ 12 by omega) (show 12 ≤ d.length by omega),
    slice_of_le (show 12 ≤ 14 by omega) (show 14 ≤ d.length by omega), hx, hy]
  exact ⟨_, rfl⟩

theorem legacyIdStructure_isSome (h : 12 ≤ d.length) :
    ∃ found, legacyIdStructure d = some found := by
  have hget : ∀ i, i < 2 → ∃ x, d[i]? = some x := fun i hi =>
    ⟨d[i], List.getElem?_eq_getElem (by omega)⟩
  obtain ⟨x, hx⟩ := hget 0 (by omega)
  obtain ⟨y, hy⟩ := hget 1 (by omega)
  simp only [legacyIdStructure, slice_of_le (show 6 ≤ 8 by omega) (show 8 ≤ d.length by omega),
    slice_of_le (show 8 ≤ 10 by omega) (show 10 ≤ d.length by omega),
    slice_of_le (show 10 ≤ 12 by omega) (show 12 ≤ d.length by omega), hx, hy]
  exact ⟨_, rfl⟩

theorem idSensitivity_isSome (first17 : List Nat) (check : Nat) :
    ∃ sensitivity, idSensitivity first17 check = some sensitivity := by
  have hlt : (List.zipWith (· * ·) first17 idWeights).sum % 11 < idCheck.length :=
    Nat.mod_lt _ (by decide)
  simp only [idSensitivity, List.getElem?_eq_getElem hlt]
  exact ⟨_, rfl⟩

/-- What `classify` may report: the run, or the run and the `X` behind it. -/
def Candidate.Covers (c : Candidate) (hit : Hit) : Prop :=
  hit.start = c.start ∧ (hit.length = c.stop - c.start ∨
    c.xSuffix = true ∧ hit.length = c.stop + 1 - c.start)

def Covering (c : Candidate) (result : Option (List Hit)) : Prop :=
  ∃ hits, result = some hits ∧ ∀ hit ∈ hits, c.Covers hit

theorem Covering.report {found : Option Bool} {kind : FindingKind} {sensitivity : Sensitivity}
    (h : ∃ b, found = some b) :
    Covering c (do return report (← found) (c.hit kind c.stop sensitivity)) := by
  obtain ⟨b, rfl⟩ := h
  refine ⟨_, rfl, fun hit hhit => ?_⟩
  obtain ⟨-, rfl⟩ := mem_report.mp hhit
  exact ⟨rfl, .inl rfl⟩

theorem classifyId_covering {check stop : Nat} (h : 14 ≤ d.length)
    (hstop : stop = c.stop ∨ c.xSuffix = true ∧ stop = c.stop + 1) :
    Covering c (classifyId c d check stop) := by
  obtain ⟨found, hfound⟩ := idStructure_isSome h
  obtain ⟨sensitivity, hsensitivity⟩ := idSensitivity_isSome d check
  simp only [classifyId, hfound, hsensitivity]
  cases found with
  | false => exact ⟨[], rfl, by simp⟩
  | true =>
    refine ⟨_, rfl, fun hit hhit => ?_⟩
    rw [List.mem_singleton] at hhit
    subst hhit
    refine ⟨rfl, hstop.imp ?_ ?_⟩
    · rintro rfl
      rfl
    · rintro ⟨hx, rfl⟩
      exact ⟨hx, rfl⟩

theorem classifySuffixed_covering : Covering c (classifySuffixed c) := by
  unfold classifySuffixed
  split
  · next h => exact classifyId_covering (by omega) (.inr ⟨h.2, rfl⟩)
  · exact ⟨[], rfl, by simp⟩

theorem classifyModern_covering : Covering c (classifyModern c) := by
  unfold classifyModern
  split
  · next hlen =>
    rw [slice_of_le (Nat.zero_le 17) (by omega), List.getElem?_eq_getElem (by omega)]
    exact classifyId_covering (by simp; omega) (.inl rfl)
  · exact ⟨[], rfl, by simp⟩

theorem classifyLegacy_covering : Covering c (classifyLegacy c) := by
  unfold classifyLegacy
  split
  · next hlen => exact .report (legacyIdStructure_isSome (by omega))
  · exact ⟨[], rfl, by simp⟩

theorem isMobileRun_isSome (d : List Nat) : ∃ found, isMobileRun d = some found := by
  unfold isMobileRun
  split
  · exact ⟨_, rfl⟩
  · split
    · next hlen =>
      rw [slice_of_le (Nat.zero_le 2) (by omega), slice_of_le (show 2 ≤ 13 by omega) (by omega)]
      exact ⟨_, rfl⟩
    · exact ⟨_, rfl⟩

theorem isCardRun_isSome (d : List Nat) : ∃ found, isCardRun d = some found := by
  unfold isCardRun
  split
  · next hlen =>
    rw [List.getElem?_eq_getElem (by omega)]
    exact ⟨_, rfl⟩
  · exact ⟨_, rfl⟩

/-- `classify` never fails and reports its candidate only. -/
theorem classify_covering (c : Candidate) : Covering c (classify c) := by
  obtain ⟨suffixed, hs, hsuffixed⟩ := classifySuffixed_covering (c := c)
  obtain ⟨modern, hm, hmodern⟩ := classifyModern_covering (c := c)
  obtain ⟨legacy, hl, hlegacy⟩ := classifyLegacy_covering (c := c)
  obtain ⟨mobile, hmobile⟩ := isMobileRun_isSome c.digits
  obtain ⟨card, hcard⟩ := isCardRun_isSome c.digits
  simp only [classify, hs, hm, hl, hmobile, hcard]
  refine ⟨_, rfl, fun hit hhit => ?_⟩
  simp only [List.mem_append, mem_report] at hhit
  obtain (((hhit | hhit) | hhit) | ⟨-, rfl⟩) | ⟨-, rfl⟩ := hhit
  · exact hsuffixed hit hhit
  · exact hmodern hit hhit
  · exact hlegacy hit hhit
  · exact ⟨rfl, .inl rfl⟩
  · exact ⟨rfl, .inl rfl⟩

/-- A candidate between two digits, with an `X` behind it where it says so. -/
structure Candidate.InText (c : Candidate) (units : List Nat) : Prop where
  lt : c.start < c.stop
  first : ∃ u, units[c.start]? = some u ∧ isDigit u = true
  last : ∃ u, units[c.stop - 1]? = some u ∧ isDigit u = true
  suffix : c.xSuffix = true → ∃ u, units[c.stop]? = some u ∧ isCheckX u = true

theorem classify_fitting {units : List Nat} (h : c.InText units) : Fitting units (classify c) := by
  obtain ⟨hits, hhits, hcovers⟩ := classify_covering c
  refine ⟨hits, hhits, fun hit hhit => ?_⟩
  obtain ⟨hstart, hlength⟩ := hcovers hit hhit
  have hlt := h.lt
  obtain ⟨u, hu, hdigit⟩ := h.first
  have hfirst : ∃ u, units[hit.start]? = some u ∧ IsPlain u :=
    ⟨u, hstart ▸ hu, isPlain_of_isDigit hdigit⟩
  obtain hlength | ⟨hx, hlength⟩ := hlength
  · obtain ⟨v, hv, hdigit'⟩ := h.last
    refine .of_plain (by simp only [Hit.stop]; omega) hfirst ⟨v, ?_, isPlain_of_isDigit hdigit'⟩
    rw [← hv, Hit.stop, hstart, hlength]
    congr 1
    omega
  · obtain ⟨v, hv, hcheck⟩ := h.suffix hx
    refine .of_plain (by simp only [Hit.stop]; omega) hfirst ⟨v, ?_, isPlain_of_isCheckX hcheck⟩
    rw [← hv, Hit.stop, hstart, hlength]
    congr 1
    omega

end Classify

end Inspect
