import IDoris.Inspect.Usable
import IDoris.Redact.Mint
import IDoris.Redact.Tokens

/-!
# Regions

The stretches that are replaced do not overlap and cut no character in two, so that a text is
cut at them into texts. Every region finds a free name.
-/
namespace Redact

open Inspect (InspectSpan InspectFinding InsidePair)
open Utf16 (encodeChars)

section Cuts

variable {cs : List Char} {i : Nat}

theorem insidePair_append (us : List Nat) {vs : List Nat} (h : InsidePair vs i) :
    InsidePair (us ++ vs) (us.length + i) := by
  obtain ⟨hpos, ⟨u, hu, hhigh⟩, v, hv, hlow⟩ := h
  refine ⟨by omega, ⟨u, ?_, hhigh⟩, v, ?_, hlow⟩
  · rw [show us.length + i - 1 = us.length + (i - 1) by omega,
      List.getElem?_append_right (by omega), Nat.add_sub_cancel_left]
    exact hu
  · rw [List.getElem?_append_right (by omega), Nat.add_sub_cancel_left]
    exact hv

/-- A text is cut where no character is cut in two. -/
theorem exists_cut (h : ¬InsidePair (encodeChars cs) i) (hi : i ≤ (encodeChars cs).length) :
    ∃ front back, cs = front ++ back ∧ (encodeChars front).length = i := by
  induction cs generalizing i with
  | nil =>
    have hzero : i = 0 := by simpa using hi
    exact ⟨[], [], rfl, by simp [hzero]⟩
  | cons c cs ih =>
    cases i with
    | zero => exact ⟨[], c :: cs, rfl, rfl⟩
    | succ i =>
      rw [Utf16.encodeChars_cons] at h hi
      obtain ⟨k, hk⟩ : ∃ k, i + 1 = (Utf16.encodeChar c).length + k := by
        obtain ⟨-, -, -, hc⟩ | ⟨u, v, -, hhigh, hlow, -, hc⟩ := Utf16.encodeChar_cases c
        · exact ⟨i, by rw [hc, List.length_singleton, Nat.add_comm]⟩
        · cases i with
          | zero =>
            refine absurd ⟨Nat.one_pos, ⟨u, ?_, hhigh⟩, v, ?_, hlow⟩ h
            · rw [hc]
              rfl
            · rw [hc]
              rfl
          | succ i => exact ⟨i, by rw [hc, List.length_cons, List.length_singleton]; omega⟩
      rw [hk] at h hi
      obtain ⟨front, back, rfl, hfront⟩ := ih (fun hinside => h (insidePair_append _ hinside)) (by
        rw [List.length_append] at hi
        omega)
      exact ⟨c :: front, back, rfl, by
        rw [Utf16.encodeChars_cons, List.length_append, hfront, hk]⟩

/-- A text is cut in the same way behind another. -/
theorem exists_cut_behind (front : List Char) {rest : List Char}
    (h : ¬InsidePair (encodeChars (front ++ rest)) i)
    (hfront : (encodeChars front).length ≤ i) (hi : i ≤ (encodeChars (front ++ rest)).length) :
    ∃ middle back, rest = middle ++ back ∧ (encodeChars (front ++ middle)).length = i := by
  obtain ⟨k, rfl⟩ := Nat.exists_eq_add_of_le hfront
  rw [Utf16.encodeChars_append] at h hi
  rw [List.length_append] at hi
  obtain ⟨middle, back, rfl, hmiddle⟩ :=
    exists_cut (fun hinside => h (insidePair_append _ hinside)) (by omega)
  exact ⟨middle, back, rfl, by rw [Utf16.encodeChars_append, List.length_append, hmiddle]⟩

theorem slice_encode (front middle back : List Char) :
    Scanner.slice (encodeChars (front ++ middle ++ back)) (encodeChars front).length
      (encodeChars (front ++ middle)).length = some (encodeChars middle) := by
  rw [Utf16.encodeChars_append, Utf16.encodeChars_append, List.length_append]
  exact Scanner.slice_append

end Cuts

section Regions

variable {units : List Nat} {regions : List Region} {region : Region}

/-- At least one unit, inside the text, and no character cut in two. -/
structure Region.Usable (units : List Nat) (region : Region) : Prop where
  lt : region.start < region.stop
  le : region.stop ≤ units.length
  start : ¬InsidePair units region.start
  stop : ¬InsidePair units region.stop
  kind : ∃ k, region.kind = label k

/-- Usable regions, each behind the ones before. -/
structure Tiled (units : List Nat) (regions : List Region) : Prop where
  usable : ∀ region ∈ regions, region.Usable units
  apart : regions.Pairwise fun a b => a.stop ≤ b.start

theorem pushRegion_tiled (h : Tiled units regions) (hregion : region.Usable units) :
    Tiled units (pushRegion regions region) := by
  obtain rfl | ⟨init, last, rfl⟩ := regions.eq_nil_or_concat'
  · exact ⟨List.forall_mem_singleton.mpr hregion, List.pairwise_singleton _ _⟩
  · simp only [pushRegion, List.getLast?_append, List.getLast?_singleton, Option.some_or,
      List.dropLast_concat]
    have hlast := h.usable last (List.mem_append_right _ (List.mem_singleton_self last))
    obtain ⟨hinit, -, hbefore⟩ := List.pairwise_append.mp h.apart
    have hbefore : ∀ a ∈ init, a.stop ≤ last.start :=
      fun a ha => hbefore a ha last (List.mem_singleton_self last)
    split
    · rename_i hoverlap
      refine ⟨fun a ha => ?_, List.pairwise_append.mpr ⟨hinit, List.pairwise_singleton _ _, ?_⟩⟩
      · obtain ha | ha := List.mem_append.mp ha
        · exact h.usable a (List.mem_append_left _ ha)
        · rw [List.mem_singleton.mp ha]
          have hlt := hlast.lt
          obtain hmax | hmax := Nat.le_total last.stop region.stop
          · rw [Nat.max_eq_right hmax]
            exact ⟨hlt.trans_le hmax, hregion.le, hlast.start, hregion.stop, hlast.kind⟩
          · rw [Nat.max_eq_left hmax]
            exact hlast
      · intro a ha b hb
        rw [List.mem_singleton.mp hb]
        exact hbefore a ha
    · refine ⟨fun a ha => ?_, List.pairwise_append.mpr ⟨h.apart, List.pairwise_singleton _ _, ?_⟩⟩
      · obtain ha | ha := List.mem_append.mp ha
        · exact h.usable a ha
        · rw [List.mem_singleton.mp ha]
          exact hregion
      · intro a ha b hb
        rw [List.mem_singleton.mp hb]
        have hlt := hlast.lt
        obtain ha | ha := List.mem_append.mp ha
        · have := hbefore a ha
          omega
        · rw [List.mem_singleton.mp ha]
          omega

/-- Findings with usable spans give usable regions. -/
theorem regionsFrom_tiled {findings : List InspectFinding} (h : Tiled units regions)
    (hfindings : ∀ finding ∈ findings, ∃ span, finding.span = some span ∧ span.Usable units) :
    ∃ found, regionsFrom units.length regions findings = .ok found ∧ Tiled units found := by
  induction findings generalizing regions with
  | nil => exact ⟨regions, rfl, h⟩
  | cons finding findings ih =>
    obtain ⟨⟨span, hspan, hlength, hle, hstart, hstop⟩, hrest⟩ :=
      List.forall_mem_cons.mp hfindings
    simp only [regionsFrom, hspan, if_pos hle]
    exact ih (pushRegion_tiled h ⟨by show span.start < span.start + span.length; omega, hle,
      hstart, hstop, finding.kind, rfl⟩) hrest

end Regions

section Mint

variable {normalizedInput text kind : List Char} {left n : Nat}

theorem normalize_length_le (cs : List Char) : (normalize cs).length ≤ cs.length := by
  rw [normalize, List.length_map]
  exact (List.length_filter_le _ _).trans (List.length_map _).le

theorem normalize_of_isDigit {digits : List Char} (h : ∀ d ∈ digits, d.isDigit = true) :
    (normalize digits).length = digits.length := by
  rw [normalize, List.length_map, List.filter_eq_self.mpr, List.length_map]
  intro c hc
  obtain ⟨d, hd, rfl⟩ := List.mem_map.mp hc
  rw [foldWidth_of_isDigit (h d hd), Char.isAlphanum, h d hd, Bool.or_true]

/-- A candidate keeps the digits of its index. -/
theorem digits_le_candidate (kind : List Char) (n : Nat) :
    (Nat.toDigits 10 n).length ≤ (normalize (candidate kind n)).length := by
  have hsplit : candidate kind n = ('[' :: kind ++ ['_']) ++ Nat.toDigits 10 n ++ [']'] := by
    simp [candidate]
  rw [hsplit, normalize_append, normalize_append, List.length_append, List.length_append,
    normalize_of_isDigit fun d hd => Nat.isDigit_of_mem_toDigits (by decide) (by decide) hd]
  omega

/-- An index with more digits than there are characters is free. -/
theorem taken_eq_false (h : 10 ^ (normalizedInput.length + text.length) ≤ n) :
    taken normalizedInput text kind n = false := by
  have hdigits : normalizedInput.length + text.length < (Nat.toDigits 10 n).length := by
    have hne : 0 < (Nat.toDigits 10 n).length := List.length_pos_iff.mpr Nat.toDigits_ne_nil
    by_contra hnot
    have hlt := (Nat.length_toDigits_le_iff (by decide) (by omega)).mp (not_lt.mp hnot)
    omega
  have hname := digits_le_candidate kind n
  have hcandidate := normalize_length_le (candidate kind n)
  rw [taken, Bool.or_eq_false_iff, decide_eq_false_iff_not, decide_eq_false_iff_not]
  refine ⟨fun hinside => ?_, fun hinside => ?_⟩
  · have := hinside.length_le
    omega
  · have := hinside.length_le
    omega

theorem exists_mintFrom (hpos : 0 < left)
    (h : 10 ^ (normalizedInput.length + text.length) < n + left) :
    ∃ k, mintFrom normalizedInput text kind left n = some (candidate kind k) ∧
      taken normalizedInput text kind k = false := by
  induction left generalizing n with
  | zero => omega
  | succ left ih =>
    rw [mintFrom]
    split
    · rename_i htaken
      have hlt : n < 10 ^ (normalizedInput.length + text.length) := by
        by_contra hnot
        rw [taken_eq_false (not_lt.mp hnot)] at htaken
        cases htaken
      exact ih (by omega) (by omega)
    · rename_i hfree
      exact ⟨n, rfl, Bool.eq_false_iff.mpr hfree⟩

/-- Minting ends with a free name. -/
theorem exists_mint (normalizedInput text kind : List Char) (n : Nat) :
    ∃ k, mint normalizedInput text kind n = some (candidate kind k) ∧
      taken normalizedInput text kind k = false :=
  exists_mintFrom (Nat.succ_pos _) (by omega)

end Mint

end Redact
