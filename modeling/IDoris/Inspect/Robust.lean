import IDoris.Inspect.Invisible
import IDoris.Inspect.Isolated

/-!
# What invisible characters can hide

The reading without ignorable characters shows what the text as it stands shows, less the
ids that the filter of the folded readings drops. A text whose other findings are backed by
these loses nothing, and with a character put in everywhere any other text does.
-/
namespace Inspect

open Scanner Utf16

section Exact

variable [Entropy]

/-- The text as it stands shows the hit, and the filter of the folded readings lets it pass. -/
def Lasts (units : List Nat) (hit : Hit) : Prop :=
  ∃ raw, scan units = some raw ∧ hit ∈ raw ∧ WellSpelled units hit

/-- A hit of the same kind lasts, and one that is as sensitive. -/
structure Backed (units : List Nat) (hit : Hit) : Prop where
  kind : ∃ other, Lasts units other ∧ other.kind = hit.kind
  sensitivity : ∃ other, Lasts units other ∧ hit.sensitivity.rank ≤ other.sensitivity.rank

/-- Nothing rests on the digits behind a short escape or on an id whose parentheses do not pair
where it stands. -/
structure Robust (units : List Nat) : Prop where
  escapes : ∀ k ∈ [1, 2, 3], ∀ view, skipShortEscapeDigits units k = some view →
    ∀ hits, scanView scan view = some hits → ∀ hit ∈ hits, WellSpelled units hit →
      Backed units hit
  parens : ∀ hits, scan units = some hits → ∀ hit ∈ hits, ¬WellSpelled units hit →
    Backed units hit

/-- The second text shows at least the kinds of finding of the first, and at least their
sensitivity. -/
def ShowsAsMuch (t t' : String) (ctx : InspectCtx) : Prop :=
  ∃ hits response response', scanAllViews scan (encode t) = some hits ∧
    inspect t ctx = some response ∧ inspect t' ctx = some response' ∧
    (∀ finding ∈ response.findings, ∃ finding' ∈ response'.findings,
      finding'.kind = finding.kind) ∧
    (maxSensitivity hits).rank ≤ response'.sensitivity.rank

section Views

variable {units original : List Nat} {view : View} {hits kept : List Hit}

/-- A reading that gives the units back, at ranges with the same parentheses, keeps what lasts. -/
theorem mem_kept_iff (hview : view.Of original) (hunits : view.units = units)
    (hcounts : Counts (fun q => ¬Quiet q) original 0 view)
    (hhits : scanView scan view = some hits)
    (hkept : dropFoldedMalformedHkid hits original = some kept) {moved : Hit} :
    moved ∈ kept ↔ ∃ hit, Lasts units hit ∧ moveBack view hit = some moved := by
  subst hunits
  obtain ⟨raw, hraw, hfits⟩ := scan_fitting view.units hview.paired
  have hback : raw.mapM (moveBack view) = some hits := by
    rw [scanView, hraw] at hhits
    exact hhits
  have hhitsFit : ∀ hit ∈ hits, hit.Fits original := by
    obtain ⟨hits', hhits', hfit⟩ := hview.scanView scan_fitting
    rw [hhits, Option.some.injEq] at hhits'
    exact hhits' ▸ hfit
  have hspelled : ∀ hit ∈ raw, ∀ moved, moveBack view hit = some moved →
      (WellSpelled original moved ↔ WellSpelled view.units hit) := by
    intro hit hhit moved hmoved
    rw [WellSpelled, WellSpelled, (moveBack_same hmoved).1,
      malformed_congr fun q hq => hcounts.span hview (hfits hit hhit) hmoved hq]
  rw [mem_dropFolded hkept hhitsFit, mem_mapM_iff hback]
  constructor
  · rintro ⟨⟨hit, hhit, hmoved⟩, hwell⟩
    exact ⟨hit, ⟨raw, hraw, hhit, (hspelled hit hhit moved hmoved).mp hwell⟩, hmoved⟩
  · rintro ⟨hit, ⟨raw', hraw', hhit, hwell⟩, hmoved⟩
    rw [hraw, Option.some.injEq] at hraw'
    subst hraw'
    exact ⟨⟨hit, hhit, hmoved⟩, (hspelled hit hhit moved hmoved).mpr hwell⟩

/-- What every reading shows of a text, before copies are merged. -/
theorem mem_hitsOfViews_iff (h : Paired units) (hhits : hitsOfViews scan units = some hits)
    {hit : Hit} : hit ∈ hits ↔ (∃ raw, scan units = some raw ∧ hit ∈ raw) ∨
      ∃ view ∈ foldedViews units, ∃ seen kept, scanView scan view = some seen ∧
        dropFoldedMalformedHkid seen units = some kept ∧ hit ∈ kept := by
  obtain ⟨raw, hraw, hfits⟩ := scan_fitting units h
  simp only [hitsOfViews, scanView_identity hraw hfits, bind, Option.bind_some,
    Option.bind_eq_some_iff, pure, Option.some.injEq] at hhits
  obtain ⟨folded, hfolded, rfl⟩ := hhits
  have hsame : (∃ raw', scan units = some raw' ∧ hit ∈ raw') ↔ hit ∈ raw := by
    rw [hraw]
    constructor
    · rintro ⟨_, heq, hmem⟩
      exact Option.some.inj heq ▸ hmem
    · exact fun hmem => ⟨raw, rfl, hmem⟩
  rw [List.mem_append, hsame, mem_flatMapM hfolded]
  refine or_congr_right (exists_congr fun view => and_congr_right fun _ => ?_)
  simp only [Option.bind_eq_some_iff]
  constructor
  · rintro ⟨kept, ⟨seen, hseen, hkept⟩, hmem⟩
    exact ⟨seen, kept, hseen, hkept, hmem⟩
  · rintro ⟨seen, kept, hseen, hkept, hmem⟩
    exact ⟨kept, ⟨seen, hseen, hkept⟩, hmem⟩

end Views

section Kept

variable {t t' : String} {units : List Nat}

/-- Every hit of an ASCII text that is robust is backed. -/
theorem Robust.backed (h : Robust units) (hpaired : Paired units) (hascii : IsAscii units)
    {found : List Hit} (hfound : hitsOfViews scan units = some found) :
    ∀ hit ∈ found, Backed units hit := by
  have hraw : ∀ raw, scan units = some raw → ∀ hit ∈ raw, Backed units hit := by
    intro raw hraw hit hhit
    by_cases hwell : WellSpelled units hit
    · have hlasts : Lasts units hit := ⟨raw, hraw, hhit, hwell⟩
      exact ⟨⟨hit, hlasts, rfl⟩, ⟨hit, hlasts, le_rfl⟩⟩
    · exact h.parens raw hraw hit hhit hwell
  intro hit hhit
  obtain ⟨raw, hraw', hmem⟩ | ⟨view, hview, seen, kept, hseen, hkept, hmem⟩ :=
    (mem_hitsOfViews_iff hpaired hfound).mp hhit
  · exact hraw raw hraw' hit hmem
  · obtain ⟨seen', hseen', hseenFits⟩ := (foldedViews_of hpaired view hview).scanView scan_fitting
    rw [hseen, Option.some.injEq] at hseen'
    subst hseen'
    obtain ⟨hin, hwell⟩ := (mem_dropFolded hkept hseenFits).mp hmem
    obtain rfl | ⟨k, hk, hskip⟩ := foldedViews_ascii hascii view hview
    · obtain ⟨raw, hraw', hrawFits⟩ := scan_fitting units hpaired
      rw [scanView_identity hraw' hrawFits, Option.some.injEq] at hseen
      subst hseen
      exact hraw raw hraw' hit hin
    · exact h.escapes k hk view hskip seen hseen hit hin hwell

/-- What lasts is found wherever ignorable characters are put in. -/
theorem Lasts.found (hascii : ∀ c ∈ t.toList, c.toNat < 128)
    (hinserted : Inserted t.toList t'.toList) {hits : List Hit}
    (hhits : scanAllViews scan (encode t') = some hits) {hit : Hit} (h : Lasts (encode t) hit) :
    ∃ other ∈ hits, other.kind = hit.kind ∧ hit.sensitivity.rank ≤ other.sensitivity.rank := by
  obtain ⟨hunits, hcounts⟩ := rewrite_inserted hinserted hascii false 0
  have hview : normalize (encode t') ∈ foldedViews (encode t') := by simp [foldedViews]
  have hof := foldedViews_of (paired_encode t') _ hview
  obtain ⟨seen, hseen, hseenFits⟩ := hof.scanView scan_fitting
  obtain ⟨kept, hkept, -⟩ := dropFoldedMalformedHkid_fitting hseenFits
  obtain ⟨found, hfound, -⟩ := hitsOfViews_fitting scan_fitting (paired_encode t')
  obtain ⟨raw, hraw, hhit, -⟩ := id h
  have hback : raw.mapM (moveBack (normalize (encode t'))) = some seen := by
    have hnormal : (normalize (encode t')).units = encode t := hunits
    rw [scanView, hnormal, hraw] at hseen
    exact hseen
  obtain ⟨moved, hmoved⟩ := mem_of_mapM hback hhit
  have hmem : moved ∈ kept := (mem_kept_iff hof hunits hcounts hseen hkept).mpr ⟨hit, h, hmoved⟩
  have hin : moved ∈ found := (mem_hitsOfViews_iff (paired_encode t') hfound).mpr
    (.inr ⟨_, hview, seen, kept, hseen, hkept, hmem⟩)
  obtain ⟨other, hother, hcopied⟩ := (sameHits_scanAllViews hhits hfound).1 moved hin
  obtain ⟨hkind, hsensitivity⟩ := moveBack_same hmoved
  exact ⟨other, hother, hcopied.1.symm.trans hkind, hsensitivity ▸ hcopied.2.2.2⟩

/-- A robust text loses nothing. -/
theorem Robust.showsAsMuch (h : Robust (encode t)) (hascii : ∀ c ∈ t.toList, c.toNat < 128)
    (hinserted : Inserted t.toList t'.toList) {ctx : InspectCtx}
    (hfits : exceedsLimit t ctx.maxInputUtf16 = false)
    (hfits' : exceedsLimit t' ctx.maxInputUtf16 = false) : ShowsAsMuch t t' ctx := by
  obtain ⟨hits, response, hhits, hinspect, hfindings, -⟩ := inspect_eq hfits
  obtain ⟨hits', response', hhits', hinspect', hfindings', hsensitivity', -⟩ := inspect_eq hfits'
  obtain ⟨found, hfound, -⟩ := hitsOfViews_fitting scan_fitting (paired_encode t)
  have hbacked : ∀ hit ∈ hits, Backed (encode t) hit := fun hit hhit =>
    h.backed (paired_encode t) (isAscii_encode hascii) hfound hit
      (mem_of_scanAllViews hhits hfound hit hhit)
  refine ⟨hits, response, response', hhits, hinspect, hinspect', ?_, ?_⟩
  · intro finding hfinding
    rw [hfindings, List.mem_map] at hfinding
    obtain ⟨hit, hhit, rfl⟩ := hfinding
    obtain ⟨other, hlasts, hkind⟩ := (hbacked hit hhit).kind
    obtain ⟨moved, hmoved, hmovedKind, -⟩ := hlasts.found hascii hinserted hhits'
    exact ⟨moved.finding, hfindings' ▸ List.mem_map_of_mem hmoved, hmovedKind.trans hkind⟩
  · rw [hsensitivity']
    split
    · exact rank_maxSensitivity_le.mpr fun hit _ => by cases hit.sensitivity <;> decide
    · refine rank_maxSensitivity_le.mpr fun hit hhit => ?_
      obtain ⟨other, hlasts, hrank⟩ := (hbacked hit hhit).sensitivity
      obtain ⟨moved, hmoved, -, hmovedRank⟩ := hlasts.found hascii hinserted hhits'
      exact (hrank.trans hmovedRank).trans (rank_maxSensitivity_le.mp le_rfl moved hmoved)

end Kept

section Spaced

/-- A zero-width space behind every character. -/
def spaced (t : String) : String := String.ofList (t.toList.flatMap fun c => [c, '\u200b'])

omit [Entropy] in
theorem inserted_spaced (t : String) : Inserted t.toList (spaced t).toList := by
  rw [spaced, String.toList_ofList]
  induction t.toList with
  | nil => exact .nil
  | cons c cs ih => exact .keep (.put (by decide) ih)

omit [Entropy] in
theorem apart_encode_spaced {t : String} (h : ∀ c ∈ t.toList, c.toNat < 128) :
    Apart (encode (spaced t)) := by
  rw [encode, spaced, String.toList_ofList]
  generalize t.toList = cs at h ⊢
  induction cs with
  | nil =>
    constructor
    · intro u hu
      cases hu
    · intro i u v hu
      cases hu
  | cons c cs ih =>
    have hc := h c List.mem_cons_self
    have hrest := ih fun d hd => h d (List.mem_cons_of_mem _ hd)
    have hunits : encodeChars ((c :: cs).flatMap fun c => [c, '\u200b']) =
        c.toNat :: zeroWidth :: encodeChars (cs.flatMap fun c => [c, '\u200b']) := by
      rw [List.flatMap_cons, List.cons_append, List.cons_append, List.nil_append, encodeChars_cons,
        encodeChars_cons, encodeChar, if_pos (by omega)]
      rfl
    rw [hunits]
    constructor
    · intro u hu
      simp only [List.mem_cons] at hu
      obtain rfl | rfl | hu := hu
      · exact .inl hc
      · exact .inr rfl
      · exact hrest.unit u hu
    · intro i u v hu hv
      obtain _ | _ | i := i
      · exact .inr (Option.some.inj hv).symm
      · exact .inl (Option.some.inj hu).symm
      · exact hrest.alone i u v hu hv

omit [Entropy] in
/-- No short escape is left. -/
theorem skipFrom_apart {k : Nat} {previous : Option Nat} {units : List Nat} (h : Apart units)
    (hprevious : ∀ p, previous = some p → Apart (p :: units)) (i : Nat) :
    (skipFrom k previous 0 units i).2 = false := by
  induction units generalizing previous i with
  | nil => rfl
  | cons u rest ih =>
    have hnot : ¬(u = 'u'.toNat ∧ previous = some '\\'.toNat) := by
      rintro ⟨rfl, hslash⟩
      obtain hspace | hspace := (hprevious _ hslash).alone 0 _ _ rfl rfl
      · exact absurd hspace (by decide)
      · exact absurd hspace (by decide)
    have hrest := @ih (some u) h.tail (fun p hp => Option.some.inj hp ▸ h) (i + 1)
    have htaken : (decide (u = 'u'.toNat) && decide (previous = some '\\'.toNat) &&
        decide (k < rest.length) && (rest.take (k + 1)).all isDigit) = false := by
      rw [Bool.and_eq_false_iff, Bool.and_eq_false_iff, ← Bool.decide_and]
      exact .inl (.inl (decide_eq_false hnot))
    simp only [skipFrom, htaken, Bool.false_eq_true, if_false, hrest, Bool.or_false]

omit [Entropy] in
theorem not_opaque_spaced (t : String) : containsBase64DataUrl (spaced t) = false := by
  have hnone : ∀ cs : List Char, ∀ rest ∈ (cs.flatMap fun c => [c, '\u200b']).tails,
      "data:".toList.isPrefixOf rest = false := by
    intro cs
    induction cs with
    | nil => decide
    | cons c cs ih =>
      intro rest hrest
      rw [List.flatMap_cons, List.cons_append, List.cons_append, List.nil_append, List.tails_cons,
        List.tails_cons, List.mem_cons, List.mem_cons] at hrest
      obtain rfl | rfl | hrest := hrest
      · simp [List.isPrefixOf]
      · simp [List.isPrefixOf]
      · exact ih rest hrest
  have hlower : ((t.toList.flatMap fun c => [c, '\u200b']).map Char.toLower) =
      (t.toList.map Char.toLower).flatMap fun c => [c, '\u200b'] := by
    rw [List.map_flatMap, List.flatMap_map]
    rfl
  rw [containsBase64DataUrl, spaced, String.toList_ofList, hlower, List.any_eq_false]
  intro rest hrest
  rw [hnone _ rest hrest, Bool.false_and]
  exact Bool.false_ne_true

variable {t : String}

/-- A finding of the spaced text is one of the text itself that lasts. -/
theorem lasts_of_spaced (hascii : ∀ c ∈ t.toList, c.toNat < 128) {hits : List Hit}
    (hhits : scanAllViews scan (encode (spaced t)) = some hits) :
    ∀ moved ∈ hits, ∃ hit, Lasts (encode t) hit ∧ hit.kind = moved.kind ∧
      hit.sensitivity = moved.sensitivity := by
  intro moved hmoved
  have hapart := apart_encode_spaced hascii
  have hpaired := paired_encode (spaced t)
  obtain ⟨found, hfound, -⟩ := hitsOfViews_fitting scan_fitting hpaired
  have hmem := mem_of_scanAllViews hhits hfound moved hmoved
  have hfolds : ∀ foldScripts seen kept,
      rewrite true foldScripts (encode (spaced t)) ∈ foldedViews (encode (spaced t)) →
      scanView scan (rewrite true foldScripts (encode (spaced t))) = some seen →
      dropFoldedMalformedHkid seen (encode (spaced t)) = some kept → moved ∈ kept →
      ∃ hit, Lasts (encode t) hit ∧ hit.kind = moved.kind ∧
        hit.sensitivity = moved.sensitivity := by
    intro foldScripts seen kept hview hseen hkept hin
    obtain ⟨hunits, hcounts⟩ := rewrite_inserted (inserted_spaced t) hascii foldScripts 0
    obtain ⟨hit, hlasts, hback⟩ := (mem_kept_iff (foldedViews_of hpaired _ hview) hunits hcounts
      hseen hkept).mp hin
    obtain ⟨hkind, hsensitivity⟩ := moveBack_same hback
    exact ⟨hit, hlasts, hkind.symm, hsensitivity.symm⟩
  obtain ⟨raw, hraw, hin⟩ | ⟨view, hview, seen, kept, hseen, hkept, hin⟩ :=
    (mem_hitsOfViews_iff hpaired hfound).mp hmem
  · rw [scan_apart hapart] at hraw
    cases hraw
    cases hin
  · have hviews := hview
    simp only [foldedViews, List.mem_append, List.mem_cons, List.not_mem_nil, or_false,
      List.mem_filterMap] at hviews
    obtain (hkeeping | hnormal | hfolded) | ⟨k, -, hskip⟩ := hviews
    · have hfixed : rewrite false false (encode (spaced t)) = identity (encode (spaced t)) := by
        refine rewriteFrom_fixed (fun u hu => ?_) 0
        obtain hascii | rfl := hapart.unit u hu
        · exact ⟨(isPlain_of_lt (by omega)).1, rewriteUnit_ascii hascii⟩
        · exact ⟨by decide, fun _ => rfl⟩
      rw [hkeeping, foldKeepingIgnorables, hfixed,
        scanView_identity (scan_apart hapart) (by simp), Option.some.injEq] at hseen
      subst hseen
      cases hkept
      cases hin
    · rw [hnormal] at hview hseen
      exact hfolds false seen kept hview hseen hkept hin
    · rw [hfolded] at hview hseen
      exact hfolds true seen kept hview hseen hkept hin
    · have hchanged : (skipFrom k none 0 (encode (spaced t)) 0).2 = false :=
        skipFrom_apart hapart (by intro p hp; cases hp) 0
      simp only [skipShortEscapeDigits] at hskip
      rw [hchanged] at hskip
      cases hskip

/-- A text that loses nothing is robust: the spaced text shows what lasts, and no more. -/
theorem robust_of_showsAsMuch (hascii : ∀ c ∈ t.toList, c.toNat < 128)
    (h : ∀ t' ctx, Inserted t.toList t'.toList → exceedsLimit t ctx.maxInputUtf16 = false →
      exceedsLimit t' ctx.maxInputUtf16 = false → ShowsAsMuch t t' ctx) : Robust (encode t) := by
  have hpaired := paired_encode t
  let ctx : InspectCtx :=
    ⟨.any, true, true, max (encode t).length (encode (spaced t)).length⟩
  have hfits : exceedsLimit t ctx.maxInputUtf16 = false :=
    decide_eq_false (Nat.not_lt.mpr (Nat.le_max_left _ _))
  have hfits' : exceedsLimit (spaced t) ctx.maxInputUtf16 = false :=
    decide_eq_false (Nat.not_lt.mpr (Nat.le_max_right _ _))
  obtain ⟨hits, response, response', hhits, hinspect, hinspect', hkinds, hrank⟩ :=
    h (spaced t) ctx (inserted_spaced t) hfits hfits'
  obtain ⟨shown, response₀, hshown, hinspect₀, hfindings, -⟩ := inspect_eq hfits
  rw [hhits, Option.some.injEq] at hshown
  rw [hinspect, Option.some.injEq] at hinspect₀
  subst hshown hinspect₀
  obtain ⟨hits', response₁, hhits', hinspect₁, hfindings', hsensitivity', -⟩ := inspect_eq hfits'
  rw [hinspect', Option.some.injEq] at hinspect₁
  subst hinspect₁
  rw [hsensitivity', not_opaque_spaced, if_neg Bool.false_ne_true] at hrank
  have hlasts := lasts_of_spaced hascii hhits'
  have hbacked : ∀ hit ∈ hits, Backed (encode t) hit := by
    intro hit hhit
    obtain ⟨finding, hfinding, hkind⟩ :=
      hkinds hit.finding (hfindings ▸ List.mem_map_of_mem hhit)
    rw [hfindings', List.mem_map] at hfinding
    obtain ⟨moved, hmoved, rfl⟩ := hfinding
    obtain ⟨other, hother, hsame, -⟩ := hlasts moved hmoved
    refine ⟨⟨other, hother, hsame.trans hkind⟩, ?_⟩
    by_contra hnone
    -- the strictest of what lasts is below the hit
    have hlow : (maxSensitivity hits').rank ≤ hit.sensitivity.rank - 1 := by
      refine rank_maxSensitivity_le.mpr fun moved hmoved => ?_
      obtain ⟨other, hother, -, hsensitivity⟩ := hlasts moved hmoved
      have hnot : ¬hit.sensitivity.rank ≤ other.sensitivity.rank :=
        fun hle => hnone ⟨other, hother, hle⟩
      rw [← hsensitivity]
      omega
    have hhigh := rank_maxSensitivity_le.mp le_rfl hit hhit
    have hpos : ¬hit.sensitivity.rank ≤ other.sensitivity.rank :=
      fun hle => hnone ⟨other, hother, hle⟩
    omega
  obtain ⟨found, hfound, -⟩ := hitsOfViews_fitting scan_fitting hpaired
  have hcopied : ∀ hit ∈ found, Backed (encode t) hit := by
    intro hit hhit
    obtain ⟨copy, hcopy, hkind, -, -, hle⟩ := (sameHits_scanAllViews hhits hfound).1 hit hhit
    obtain ⟨⟨other, hother, hsame⟩, another, hanother, hrank⟩ := hbacked copy hcopy
    exact ⟨⟨other, hother, hsame.trans hkind.symm⟩, another, hanother, hle.trans hrank⟩
  constructor
  · intro k hk view hskip seen hseen hit hhit hwell
    have hview : view ∈ foldedViews (encode t) :=
      List.mem_append_right _ (List.mem_filterMap.mpr ⟨k, hk, hskip⟩)
    obtain ⟨seen', hseen', hseenFits⟩ := (foldedViews_of hpaired view hview).scanView scan_fitting
    rw [hseen, Option.some.injEq] at hseen'
    subst hseen'
    obtain ⟨kept, hkept, -⟩ := dropFoldedMalformedHkid_fitting hseenFits
    exact hcopied hit ((mem_hitsOfViews_iff hpaired hfound).mpr (.inr ⟨view, hview, seen, kept,
      hseen, hkept, (mem_dropFolded hkept hseenFits).mpr ⟨hhit, hwell⟩⟩))
  · intro raw hraw hit hhit _
    exact hcopied hit ((mem_hitsOfViews_iff hpaired hfound).mpr (.inl ⟨raw, hraw, hhit⟩))

end Spaced

/-- Ignorable characters put into an ASCII text hide nothing, wherever they are put, exactly when
the text is robust. -/
theorem inspect_inserted (t : String) (hascii : ∀ c ∈ t.toList, c.toNat < 128) :
    (∀ t' ctx, Inserted t.toList t'.toList → exceedsLimit t ctx.maxInputUtf16 = false →
      exceedsLimit t' ctx.maxInputUtf16 = false → ShowsAsMuch t t' ctx) ↔ Robust (encode t) :=
  ⟨robust_of_showsAsMuch hascii,
    fun h _ _ hinserted hfits hfits' => h.showsAsMuch hascii hinserted hfits hfits'⟩

/-- A text without short escapes before digits that does not mix escaped and literal parentheses
is robust. -/
theorem robust_of_plain {units : List Nat} (hpaired : Paired units) (hascii : IsAscii units)
    (hescape : ∀ k ∈ [1, 2, 3], skipShortEscapeDigits units k = none)
    (hparen : NoEscapedParen units ∨ ∀ u ∈ units, ¬IsParen u) : Robust units where
  escapes k hk view hview := by
    rw [hescape k hk] at hview
    cases hview
  parens raw hraw hit hhit hill :=
    absurd (scan_wellSpelled hpaired hascii hparen hraw hit hhit) hill

theorem robust_of_silent {units : List Nat}
    (hescape : ∀ k ∈ [1, 2, 3], skipShortEscapeDigits units k = none)
    (hsilent : scan units = some []) : Robust units where
  escapes k hk view hview := by
    rw [hescape k hk] at hview
    cases hview
  parens raw hraw hit hhit := by
    rw [hsilent, Option.some.injEq] at hraw
    rw [← hraw] at hhit
    cases hhit

end Exact

section Runs

/-- The id with one escaped parenthesis is lost, and so is a telephone number behind a
short escape. -/
theorem not_inspect_inserted :
    (¬∀ (t t' : String) (ctx : InspectCtx), (∀ c ∈ t.toList, c.toNat < 128) →
      Inserted t.toList t'.toList → exceedsLimit t ctx.maxInputUtf16 = false →
      exceedsLimit t' ctx.maxInputUtf16 = false → ShowsAsMuch t t' ctx) ∧
    ¬ShowsAsMuch "\\u113800138000" "\\\u200bu113800138000"
      ⟨.any, true, true, defaultMaxInputUtf16⟩ := by
  constructor
  · intro h
    have hinserted : Inserted "A123456(3%29".toList "A123456(3%2\u200b9".toList :=
      inserted_of_filter (by decide)
    have hfirst : inspect "A123456(3%29" ⟨.any, true, true, defaultMaxInputUtf16⟩ =
        some ⟨.s3, [⟨.hkIdentityCard, some ⟨0, 12⟩⟩], .block⟩ := by decide +kernel
    have hsecond : inspect "A123456(3%2\u200b9" ⟨.any, true, true, defaultMaxInputUtf16⟩ =
        some ⟨.s0, [], .allow⟩ := by decide +kernel
    obtain ⟨-, response, response', -, hresponse, hresponse', hfindings, -⟩ :=
      h "A123456(3%29" "A123456(3%2\u200b9" ⟨.any, true, true, defaultMaxInputUtf16⟩
        (List.all_iff_forall_prop.mp (by decide)) hinserted (by decide) (by decide)
    cases hfirst.symm.trans hresponse
    cases hsecond.symm.trans hresponse'
    obtain ⟨finding, hmem, -⟩ := hfindings _ List.mem_cons_self
    cases hmem
  · have hfirst : inspect "\\u113800138000" ⟨.any, true, true, defaultMaxInputUtf16⟩ =
        some ⟨.s2, [⟨.cnMobile, some ⟨3, 11⟩⟩], .redact⟩ := by decide +kernel
    have hsecond : inspect "\\\u200bu113800138000" ⟨.any, true, true, defaultMaxInputUtf16⟩ =
        some ⟨.s0, [], .allow⟩ := by decide +kernel
    rintro ⟨-, response, response', -, hresponse, hresponse', hfindings, -⟩
    cases hfirst.symm.trans hresponse
    cases hsecond.symm.trans hresponse'
    obtain ⟨finding, hmem, -⟩ := hfindings _ List.mem_cons_self
    cases hmem

/-- A telephone number with an invisible character inside, and an escaped parenthesis that belongs
to no id. -/
theorem inspect_inserted_mobile :
    ShowsAsMuch "(tel) 13800138000" "(tel) 1380\u200b0138000"
      ⟨.any, true, true, defaultMaxInputUtf16⟩ ∧
    ShowsAsMuch "(a%29" "(a%2\u200b9" ⟨.any, true, true, defaultMaxInputUtf16⟩ := by
  have hmobile : Robust (encode "(tel) 13800138000") :=
    robust_of_plain (paired_encode _)
      (isAscii_encode (List.all_iff_forall_prop.mp (by decide))) (by decide)
      (.inl (by unfold NoEscapedParen IsParen; decide +kernel))
  have hescaped : Robust (encode "(a%29") := robust_of_silent (by decide) (by decide +kernel)
  exact ⟨(inspect_inserted "(tel) 13800138000" (List.all_iff_forall_prop.mp (by decide))).mpr
      hmobile "(tel) 1380\u200b0138000" _ (inserted_of_filter (by decide)) (by decide) (by decide),
    (inspect_inserted "(a%29" (List.all_iff_forall_prop.mp (by decide))).mpr
      hescaped "(a%2\u200b9" _ (inserted_of_filter (by decide)) (by decide) (by decide)⟩

end Runs

end Inspect
