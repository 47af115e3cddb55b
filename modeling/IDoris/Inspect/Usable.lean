import IDoris.Inspect.DecodeFit
import IDoris.Inspect.Verdict

/-!
# Findings are usable

A text within the limit always gets an answer. Its findings are ranges of whole characters,
in order and without copies, and its sensitivity is that of the worst hit of any rule in
any reading. Every hit of the text itself, or of a reading of it, becomes a finding.
-/
namespace Inspect

open Scanner Utf16

section Merging

/-- Every hit of the first list has a copy in the second. -/
def Below (xs ys : List Hit) : Prop := ∀ a ∈ xs, ∃ b ∈ ys, a.CopiedBy b

/-- The same hits, up to copies that are not the most sensitive ones. -/
def SameHits (xs ys : List Hit) : Prop := Below xs ys ∧ Below ys xs

variable {xs ys zs : List Hit}

theorem Below.refl (xs : List Hit) : Below xs xs := fun a ha => ⟨a, ha, a.copiedBy_refl⟩

theorem Below.trans (h : Below xs ys) (h' : Below ys zs) : Below xs zs := by
  intro a ha
  obtain ⟨b, hb, hab⟩ := h a ha
  obtain ⟨c, hc, hbc⟩ := h' b hb
  exact ⟨c, hc, hab.trans hbc⟩

theorem Below.append {xs' ys' : List Hit} (h : Below xs ys) (h' : Below xs' ys') :
    Below (xs ++ xs') (ys ++ ys') := by
  intro a ha
  obtain ha | ha := List.mem_append.mp ha
  · obtain ⟨b, hb, hab⟩ := h a ha
    exact ⟨b, List.mem_append_left _ hb, hab⟩
  · obtain ⟨b, hb, hab⟩ := h' a ha
    exact ⟨b, List.mem_append_right _ hb, hab⟩

theorem SameHits.refl (xs : List Hit) : SameHits xs xs := ⟨.refl xs, .refl xs⟩

theorem SameHits.trans (h : SameHits xs ys) (h' : SameHits ys zs) : SameHits xs zs :=
  ⟨h.1.trans h'.1, h'.2.trans h.2⟩

theorem SameHits.append {xs' ys' : List Hit} (h : SameHits xs ys) (h' : SameHits xs' ys') :
    SameHits (xs ++ xs') (ys ++ ys') := ⟨h.1.append h'.1, h.2.append h'.2⟩

theorem sameHits_sortDedup (hits : List Hit) : SameHits hits (sortDedup hits) := by
  refine ⟨fun a ha => Hit.exists_mem_sortDedup ha, fun b hb => ?_⟩
  obtain ⟨a, ha, ⟨hkind, hstart, hlength, -⟩, hsensitivity⟩ := Hit.exists_of_mem_sortDedup hb
  exact ⟨a, ha, hkind.symm, hstart.symm, hlength.symm, by rw [hsensitivity]⟩

/-- Strictly before, by start, length and kind. -/
def Hit.lt (a b : Hit) : Prop :=
  a.start < b.start ∨ a.start = b.start ∧ (a.length < b.length ∨
    a.length = b.length ∧ a.kind.index < b.kind.index)

instance : Std.Total Hit.strictestFirst := ⟨fun a b => by unfold Hit.strictestFirst; omega⟩

instance : IsTrans Hit Hit.strictestFirst := ⟨fun a b c h h' => by
  unfold Hit.strictestFirst at *
  omega⟩

theorem pairwise_strictestFirst (hits : List Hit) :
    (hits.insertionSort Hit.strictestFirst).Pairwise Hit.strictestFirst :=
  List.pairwise_insertionSort _ hits

/-- Keeping the first of a sorted list keeps the strictest copy. -/
theorem exists_mem_keepFirst {a : Hit} {hits : List Hit} (h : hits.Pairwise Hit.strictestFirst)
    (ha : a ∈ hits) :
    ∃ b ∈ Coalesce.coalesce Hit.sameSpot (fun kept _ => kept) hits, a.CopiedBy b := by
  have hinto : ∀ (kept : Hit) (rest : List Hit), (kept :: rest).Pairwise Hit.strictestFirst →
      ∀ a ∈ kept :: rest,
        ∃ b ∈ Coalesce.into Hit.sameSpot (fun kept _ => kept) kept rest, a.CopiedBy b := by
    intro kept rest
    induction rest generalizing kept with
    | nil =>
      intro _ a ha
      exact ⟨a, ha, a.copiedBy_refl⟩
    | cons x rest ih =>
      intro h a ha
      rw [List.pairwise_cons, List.pairwise_cons] at h
      obtain ⟨hkept, hx, hrest⟩ := h
      have hskip : (kept :: rest).Pairwise Hit.strictestFirst :=
        List.pairwise_cons.mpr ⟨fun y hy => hkept y (List.mem_cons_of_mem _ hy), hrest⟩
      simp only [Coalesce.into]
      split
      · next hsame =>
        rw [List.mem_cons, List.mem_cons] at ha
        obtain rfl | rfl | ha := ha
        · exact ih a hskip a List.mem_cons_self
        · obtain ⟨hkind, hstart, hlength⟩ := Hit.sameSpot_iff.mp hsame
          obtain ⟨b, hb, hcopied⟩ := ih kept hskip kept List.mem_cons_self
          have hrank := hkept a List.mem_cons_self
          simp only [Hit.strictestFirst, hkind, hstart, hlength] at hrank
          refine ⟨b, hb, Hit.CopiedBy.trans (b := kept) ?_ hcopied⟩
          exact ⟨hkind.symm, hstart.symm, hlength.symm, by omega⟩
        · exact ih kept hskip a (List.mem_cons_of_mem _ ha)
      · obtain rfl | ha := List.mem_cons.mp ha
        · exact ⟨a, List.mem_cons_self, a.copiedBy_refl⟩
        · obtain ⟨b, hb, hab⟩ := ih x (List.pairwise_cons.mpr ⟨hx, hrest⟩) a ha
          exact ⟨b, List.mem_cons_of_mem _ hb, hab⟩
  cases hits with
  | nil => cases ha
  | cons x rest => exact hinto x rest h a ha

variable {scan : List Nat → Option (List Hit)} {units : List Nat}

theorem sameHits_scanAllViews {hits found : List Hit} (h : scanAllViews scan units = some hits)
    (hfound : hitsOfViews scan units = some found) : SameHits found hits := by
  refine ⟨fun a ha => ?_, fun b hb => ⟨b, mem_of_scanAllViews h hfound b hb, b.copiedBy_refl⟩⟩
  obtain ⟨found', hfound', rfl⟩ := scanAllViews_eq_some h
  rw [hfound, Option.some.injEq] at hfound'
  subst hfound'
  exact exists_mem_keepFirst (pairwise_strictestFirst found) ((List.mem_insertionSort _).mpr ha)

/-- After the merge hits come in strict order. -/
theorem scanAllViews_pairwise {hits : List Hit} (h : scanAllViews scan units = some hits) :
    hits.Pairwise Hit.lt := by
  obtain ⟨found, -, rfl⟩ := scanAllViews_eq_some h
  refine Coalesce.pairwise_coalesce ?_ (fun _ h => h) ?_
    (fun _ h => h) (pairwise_strictestFirst found)
  · intro x y hle hsame
    have hkind : x.start = y.start → x.length = y.length → x.kind.index ≠ y.kind.index := by
      intro hstart hlength hindex
      rw [Hit.sameSpot_iff.mpr ⟨FindingKind.index_injective hindex, hstart, hlength⟩] at hsame
      cases hsame
    unfold Hit.strictestFirst at hle
    unfold Hit.lt
    omega
  · intro x y z hlt hle
    unfold Hit.strictestFirst at hle
    unfold Hit.lt at *
    omega

end Merging

section Monotone

variable {units : List Nat}

/-- Two scans that find the same hits in every text of whole characters. -/
def SameScan (f g : List Nat → Option (List Hit)) : Prop :=
  ∀ units, Paired units → ∃ xs ys, f units = some xs ∧ g units = some ys ∧ SameHits xs ys

/-- A function of hits that only looks at their kind and place. -/
theorem below_flatMapM {f : Hit → Option (List Hit)} {xs ys xs' ys' : List Hit}
    (hf : ∀ {a b us vs}, a.CopiedBy b → f a = some us → f b = some vs → Below us vs)
    (h : Below xs ys) (hxs : flatMapM f xs = some xs') (hys : flatMapM f ys = some ys') :
    Below xs' ys' := by
  intro a ha
  obtain ⟨x, hx, us, hus, hmem⟩ := (mem_flatMapM hxs).mp ha
  obtain ⟨y, hy, hxy⟩ := h x hx
  obtain ⟨vs, hvs⟩ : ∃ vs, f y = some vs := by
    rw [flatMapM, Option.map_eq_some_iff] at hys
    obtain ⟨lists, hlists, -⟩ := hys
    exact mem_of_mapM hlists hy
  obtain ⟨b, hb, hab⟩ := hf hxy hus hvs a hmem
  exact ⟨b, (mem_flatMapM hys).mpr ⟨y, hy, vs, hvs, hb⟩, hab⟩

/-- A hit with the range behind it. -/
def moveBack (view : View) (hit : Hit) : Option Hit := do
  let (start, length) ← view.originalSpan hit.start hit.length
  return { hit with start, length }

theorem moveBack_same {view : View} {hit moved : Hit} (h : moveBack view hit = some moved) :
    moved.kind = hit.kind ∧ moved.sensitivity = hit.sensitivity := by
  simp only [moveBack, bind, Option.bind_eq_some_iff, pure, Option.some.injEq] at h
  obtain ⟨span, -, rfl⟩ := h
  exact ⟨rfl, rfl⟩

theorem mem_mapM_iff {α β : Type} {f : α → Option β} {xs : List α} {ys : List β}
    (h : xs.mapM f = some ys) {y : β} : y ∈ ys ↔ ∃ x ∈ xs, f x = some y := by
  have hpairs := Loop.mapM_outcome .option h
  refine ⟨Loop.forall₂_right hpairs, fun ⟨x, hx, hy⟩ => ?_⟩
  obtain ⟨y', hy', hfound⟩ := Loop.forall₂_left hpairs hx
  exact Option.some.inj (hfound.symm.trans hy) ▸ hy'

theorem moveBack_copiedBy {view : View} {a b c d : Hit} (h : a.CopiedBy b)
    (ha : moveBack view a = some c) (hb : moveBack view b = some d) : c.CopiedBy d := by
  obtain ⟨hkind, hstart, hlength, hrank⟩ := h
  simp only [moveBack, bind, Option.bind_eq_some_iff, pure, Option.some.injEq] at ha hb
  obtain ⟨span, hspan, rfl⟩ := ha
  obtain ⟨span', hspan', rfl⟩ := hb
  rw [← hstart, ← hlength, hspan, Option.some.injEq] at hspan'
  subst hspan'
  exact ⟨hkind, rfl, rfl, hrank⟩

theorem below_mapBack {view : View} {xs ys xs' ys' : List Hit} (h : Below xs ys)
    (hxs : xs.mapM (moveBack view) = some xs') (hys : ys.mapM (moveBack view) = some ys') :
    Below xs' ys' := by
  intro a ha
  obtain ⟨x, hx, hax⟩ := (mem_mapM_iff hxs).mp ha
  obtain ⟨y, hy, hxy⟩ := h x hx
  obtain ⟨b, hb⟩ := mem_of_mapM hys hy
  exact ⟨b, (mem_mapM_iff hys).mpr ⟨y, hy, hb⟩, moveBack_copiedBy hxy hax hb⟩

variable {f g : List Nat → Option (List Hit)}

theorem sameHits_scanView {view : View} (hview : view.Of units) (hf : FittingScan f)
    (hg : FittingScan g) (h : SameScan f g) :
    ∃ xs ys, scanView f view = some xs ∧ scanView g view = some ys ∧ SameHits xs ys ∧
      (∀ hit ∈ xs, hit.Fits units) ∧ ∀ hit ∈ ys, hit.Fits units := by
  obtain ⟨xs', hxs', hxfits⟩ := hview.scanView hf
  obtain ⟨ys', hys', hyfits⟩ := hview.scanView hg
  obtain ⟨xs, ys, hxs, hys, hsame⟩ := h view.units hview.paired
  refine ⟨xs', ys', hxs', hys', ?_, hxfits, hyfits⟩
  have hx : xs.mapM (moveBack view) = some xs' := by
    rw [← hxs', scanView, hxs]
    rfl
  have hy : ys.mapM (moveBack view) = some ys' := by
    rw [← hys', scanView, hys]
    rfl
  exact ⟨below_mapBack hsame.1 hx hy, below_mapBack hsame.2 hy hx⟩

/-- The filter of the folded readings only looks at kind and place. -/
theorem below_dropFolded {xs ys xs' ys' : List Hit} (h : Below xs ys)
    (hxs : dropFoldedMalformedHkid xs units = some xs')
    (hys : dropFoldedMalformedHkid ys units = some ys') : Below xs' ys' := by
  refine below_flatMapM ?_ h hxs hys
  intro a b us vs hab hus hvs
  obtain ⟨hkind, hstart, hlength, -⟩ := id hab
  simp only [hkind, hstart, hlength] at hus
  have hsingle : Below [a] [b] := fun c hc => by
    rw [List.mem_singleton] at hc
    exact ⟨b, List.mem_singleton.mpr rfl, hc ▸ hab⟩
  split at hus
  · next hne =>
    rw [if_pos hne] at hvs
    simp only [pure, Option.some.injEq] at hus hvs
    exact hus ▸ hvs ▸ hsingle
  · next hne =>
    rw [if_neg hne] at hvs
    simp only [bind, Option.bind_eq_some_iff, pure, Option.some.injEq] at hus hvs
    obtain ⟨span, hspan, rfl⟩ := hus
    obtain ⟨span', hspan', rfl⟩ := hvs
    rw [hspan, Option.some.injEq] at hspan'
    subst hspan'
    split
    · exact .refl []
    · exact hsingle

theorem sameHits_hitsOfViews (hf : FittingScan f) (hg : FittingScan g) (h : SameScan f g)
    (hpaired : Paired units) :
    ∃ xs ys, hitsOfViews f units = some xs ∧ hitsOfViews g units = some ys ∧ SameHits xs ys := by
  obtain ⟨rawF, rawG, hrawF, hrawG, hraw, -⟩ := sameHits_scanView (identity_of hpaired) hf hg h
  have hfolded : ∀ views : List View, (∀ view ∈ views, view.Of units) →
      ∃ xs ys, flatMapM (fun view => do
          dropFoldedMalformedHkid (← scanView f view) units) views = some xs ∧
        flatMapM (fun view => do
          dropFoldedMalformedHkid (← scanView g view) units) views = some ys ∧
        SameHits xs ys := by
    intro views
    induction views with
    | nil => exact fun _ => ⟨[], [], rfl, rfl, .refl []⟩
    | cons view rest ih =>
      intro hviews
      obtain ⟨xs, ys, hxs, hys, hsame, hxfits, hyfits⟩ :=
        sameHits_scanView (hviews view List.mem_cons_self) hf hg h
      obtain ⟨xs', hxs', -⟩ := dropFoldedMalformedHkid_fitting hxfits
      obtain ⟨ys', hys', -⟩ := dropFoldedMalformedHkid_fitting hyfits
      obtain ⟨us, vs, hus, hvs, hrest⟩ := ih fun v hv => hviews v (List.mem_cons_of_mem _ hv)
      refine ⟨xs' ++ us, ys' ++ vs, ?_, ?_, ?_⟩
      · exact flatMapM_eq_some.mpr ⟨xs', us, by simp only [hxs, bind, Option.bind_some, hxs'],
          hus, rfl⟩
      · exact flatMapM_eq_some.mpr ⟨ys', vs, by simp only [hys, bind, Option.bind_some, hys'],
          hvs, rfl⟩
      · exact .append ⟨below_dropFolded hsame.1 hxs' hys', below_dropFolded hsame.2 hys' hxs'⟩
          hrest
  obtain ⟨foldedF, foldedG, hfoldedF, hfoldedG, hsame⟩ := hfolded _ (foldedViews_of hpaired)
  refine ⟨rawF ++ foldedF, rawG ++ foldedG, ?_, ?_, hraw.append hsame⟩
  · simp only [hitsOfViews, hrawF, hfoldedF]
    rfl
  · simp only [hitsOfViews, hrawG, hfoldedG]
    rfl

/-- Decoded text is reported alike by scans that find the same hits. -/
theorem sameHits_scanDecoded (hf : FittingScan f) (hg : FittingScan g) (h : SameScan f g)
    (hpaired : Paired units) : ∃ xs ys, scanDecoded f units = some xs ∧
      scanDecoded g units = some ys ∧ SameHits xs ys := by
  have hreport : ∀ start length decoded, ∃ xs ys, reportDecoded f start length decoded = some xs ∧
      reportDecoded g start length decoded = some ys ∧ SameHits xs ys := by
    intro start length decoded
    unfold reportDecoded
    split
    · exact ⟨[], [], rfl, rfl, .refl []⟩
    · next text _ =>
      obtain ⟨xs, ys, hxs, hys, hsame⟩ := h _ (paired_encode text)
      have hmap : ∀ {us vs : List Hit}, Below us vs →
          Below (us.map fun hit => { hit with start, length })
            (vs.map fun hit => { hit with start, length }) := by
        intro us vs hbelow a ha
        obtain ⟨u, hu, rfl⟩ := List.mem_map.mp ha
        obtain ⟨v, hv, huv⟩ := hbelow u hu
        exact ⟨_, List.mem_map.mpr ⟨v, hv, rfl⟩, huv.1, rfl, rfl, huv.2.2.2⟩
      rw [hxs, hys]
      exact ⟨_, _, rfl, rfl, hmap hsame.1, hmap hsame.2⟩
  have hflat : ∀ {α : Type} (F G : α → Option (List Hit)) (items : List α),
      (∀ item ∈ items, ∃ xs ys, F item = some xs ∧ G item = some ys ∧ SameHits xs ys) →
      ∃ xs ys, flatMapM F items = some xs ∧ flatMapM G items = some ys ∧ SameHits xs ys := by
    intro α F G items
    induction items with
    | nil => exact fun _ => ⟨[], [], rfl, rfl, .refl []⟩
    | cons item rest ih =>
      intro hitems
      obtain ⟨xs, ys, hxs, hys, hsame⟩ := hitems item List.mem_cons_self
      obtain ⟨us, vs, hus, hvs, hrest⟩ := ih fun i hi => hitems i (List.mem_cons_of_mem _ hi)
      exact ⟨xs ++ us, ys ++ vs, flatMapM_eq_some.mpr ⟨xs, us, hxs, hus, rfl⟩,
        flatMapM_eq_some.mpr ⟨ys, vs, hys, hvs, rfl⟩, hsame.append hrest⟩
  obtain ⟨tokensF, tokensG, htokensF, htokensG, htokens⟩ :=
    hflat (scanToken f units) (scanToken g units) (runs isTokenMember units) fun p hp => by
      obtain ⟨start, stop⟩ := p
      have hfits := padded_fits (isRun_of_mem_runs hp)
      simp only [scanToken, slice_of_le hfits.1.le hfits.2.1, bind, Option.bind_some]
      exact hflat _ _ _ fun decoded _ => hreport _ _ decoded
  obtain ⟨percentF, hpercentF, -⟩ := scanPercent_fitting hf hpaired
  obtain ⟨percentG, hpercentG, -⟩ := scanPercent_fitting hg hpaired
  have hpercent : SameHits percentF percentG := by
    unfold scanPercent at hpercentF hpercentG
    split at hpercentF
    · next hnone =>
      rw [hnone] at hpercentG
      cases hpercentF
      cases hpercentG
      exact .refl []
    · next view hview =>
      rw [hview] at hpercentG
      obtain ⟨xs, ys, hxs, hys, hsame⟩ := h _ (decodePercent_of hpaired hview).paired
      simp only [hxs] at hpercentF
      simp only [hys] at hpercentG
      exact ⟨below_mapBack hsame.1 hpercentF hpercentG, below_mapBack hsame.2 hpercentG hpercentF⟩
  refine ⟨tokensF ++ percentF, tokensG ++ percentG, ?_, ?_, htokens.append hpercent⟩
  · simp only [scanDecoded, htokensF, hpercentF]
    rfl
  · simp only [scanDecoded, htokensG, hpercentG]
    rfl

end Monotone

section Raw

variable [Entropy]

/-- Every hit of every rule in a text and in what it decodes to, nothing merged. -/
def rawScan (units : List Nat) : Option (List Hit) := do
  return (← plainHits units) ++ (← scanDecoded (hitsOfViews plainHits) units)

theorem sameScan_plain : SameScan plainHits scanPlain := by
  intro units hpaired
  obtain ⟨hits, hhits, -⟩ := plainHits_fitting units hpaired
  refine ⟨hits, sortDedup hits, hhits, ?_, sameHits_sortDedup hits⟩
  simp only [scanPlain, hhits]
  rfl

omit [Entropy] in
theorem sameScan_views {f g : List Nat → Option (List Hit)} (hf : FittingScan f)
    (hg : FittingScan g) (h : SameScan f g) : SameScan (hitsOfViews f) (scanAllViews g) := by
  intro units hpaired
  obtain ⟨xs, ys, hxs, hys, hsame⟩ := sameHits_hitsOfViews hf hg h hpaired
  obtain ⟨hits, hhits, -⟩ := scanAllViews_fitting hg hpaired
  exact ⟨xs, hits, hxs, hhits, hsame.trans (sameHits_scanAllViews hhits hys)⟩

theorem decodedViews_fitting :
    FittingScan (hitsOfViews plainHits) ∧ FittingScan (scanAllViews scanPlain) :=
  ⟨fun _ h => hitsOfViews_fitting plainHits_fitting h,
    fun _ h => scanAllViews_fitting scanPlain_fitting h⟩

theorem rawScan_fitting : FittingScan rawScan := fun units h =>
  .append (plainHits_fitting units h) (scanDecoded_fitting decodedViews_fitting.1 h)

theorem sameScan_scan : SameScan rawScan scan := by
  intro units hpaired
  obtain ⟨hits, plain, hhits, hplain, hsame⟩ := sameScan_plain units hpaired
  obtain ⟨xs, ys, hxs, hys, hdecoded⟩ := sameHits_scanDecoded decodedViews_fitting.1
    decodedViews_fitting.2 (sameScan_views plainHits_fitting scanPlain_fitting sameScan_plain)
    hpaired
  refine ⟨hits ++ xs, sortDedup (plain ++ ys), ?_, ?_,
    (hsame.append hdecoded).trans (sameHits_sortDedup _)⟩
  · simp only [rawScan, hhits, hxs]
    rfl
  · simp only [scan, hplain, hys]
    rfl

end Raw

section Response

theorem rank_maxSensitivity_le {hits : List Hit} {n : Nat} :
    (maxSensitivity hits).rank ≤ n ↔ ∀ hit ∈ hits, hit.sensitivity.rank ≤ n := by
  have hfold : ∀ start : Sensitivity,
      (hits.foldl (fun sensitivity hit => sensitivity.max hit.sensitivity) start).rank ≤ n ↔
        start.rank ≤ n ∧ ∀ hit ∈ hits, hit.sensitivity.rank ≤ n := by
    induction hits with
    | nil => simp
    | cons hit hits ih =>
      intro start
      rw [List.foldl_cons, ih, Sensitivity.rank_max, List.forall_mem_cons, Nat.max_le, and_assoc]
  rw [maxSensitivity, hfold]
  simp [Sensitivity.rank]

theorem Below.maxSensitivity {xs ys : List Hit} (h : Below xs ys) :
    (maxSensitivity xs).rank ≤ (maxSensitivity ys).rank := by
  rw [rank_maxSensitivity_le]
  intro a ha
  obtain ⟨b, hb, -, -, -, hrank⟩ := h a ha
  exact hrank.trans (rank_maxSensitivity_le.mp le_rfl b hb)

theorem SameHits.maxSensitivity {xs ys : List Hit} (h : SameHits xs ys) :
    maxSensitivity xs = Inspect.maxSensitivity ys :=
  Sensitivity.rank_injective (Nat.le_antisymm h.1.maxSensitivity h.2.maxSensitivity)

/-- A position between the two halves of a pair. -/
def InsidePair (units : List Nat) (i : Nat) : Prop :=
  0 < i ∧ (∃ u, units[i - 1]? = some u ∧ isHigh u = true) ∧
    ∃ u, units[i]? = some u ∧ isLow u = true

/-- At least one unit, inside the text, and no character cut in two. -/
def InspectSpan.Usable (units : List Nat) (span : InspectSpan) : Prop :=
  1 ≤ span.length ∧ span.start + span.length ≤ units.length ∧
    ¬InsidePair units span.start ∧ ¬InsidePair units (span.start + span.length)

theorem Hit.Fits.usable {units : List Nat} {hit : Hit} (h : hit.Fits units) :
    InspectSpan.Usable units ⟨hit.start, hit.length⟩ := by
  obtain ⟨hlt, hle, hlow, hhigh⟩ := h
  simp only [Hit.stop] at hlt hle hhigh
  refine ⟨by show 1 ≤ hit.length; omega, hle, ?_, ?_⟩
  · rintro ⟨-, -, u, hu, hlow'⟩
    rw [hlow u hu] at hlow'
    cases hlow'
  · rintro ⟨-, ⟨u, hu, hhigh'⟩, -⟩
    rw [hhigh u hu] at hhigh'
    cases hhigh'

def InspectFinding.Before (a b : InspectFinding) : Prop :=
  ∀ s ∈ a.span, ∀ t ∈ b.span, s.start ≤ t.start

variable [Entropy]

/-- Within the limit there is an answer, and it reports the hits of every reading. -/
theorem inspect_eq {input : String} {ctx : InspectCtx}
    (h : exceedsLimit input ctx.maxInputUtf16 = false) :
    ∃ hits response, scanAllViews scan (encode input) = some hits ∧
      inspect input ctx = some response ∧ response.findings = hits.map Hit.finding ∧
      response.sensitivity =
        (if containsBase64DataUrl input then .s3 else maxSensitivity hits) ∧
      response.action = (if containsBase64DataUrl input then .block
        else decideAction hits (maxSensitivity hits) ctx) := by
  obtain ⟨hits, hhits, -⟩ := scanAllViews_fitting scan_fitting (paired_encode input)
  simp only [inspect, h, hhits, bind, Option.bind_some, pure, Bool.false_eq_true, if_false]
  refine ⟨hits, _, rfl, rfl, rfl, rfl, ?_⟩
  cases containsBase64DataUrl input <;> rfl

/-- An answer is always there. -/
theorem exists_inspect (input : String) (ctx : InspectCtx) :
    ∃ response, inspect input ctx = some response := by
  cases h : exceedsLimit input ctx.maxInputUtf16 with
  | true => exact ⟨_, if_pos h⟩
  | false =>
    obtain ⟨_, response, -, hinspect, -⟩ := inspect_eq h
    exact ⟨response, hinspect⟩

theorem inspect_usable (input : String) (ctx : InspectCtx)
    (h : exceedsLimit input ctx.maxInputUtf16 = false) :
    ∃ response found, inspect input ctx = some response ∧
      hitsOfViews rawScan (encode input) = some found ∧
      (∀ finding ∈ response.findings, ∃ span, finding.span = some span ∧
        span.Usable (encode input)) ∧
      response.findings.Pairwise InspectFinding.Before ∧ response.findings.Nodup ∧
      response.sensitivity =
        if containsBase64DataUrl input then .s3 else maxSensitivity found := by
  obtain ⟨hits, response, hhits, hinspect, hfindings, hsensitivity, -⟩ := inspect_eq h
  obtain ⟨found, hits', hfound, hhits', hsame⟩ :=
    sameScan_views rawScan_fitting scan_fitting sameScan_scan _ (paired_encode input)
  rw [hhits, Option.some.injEq] at hhits'
  subst hhits'
  have hfits : ∀ hit ∈ hits, hit.Fits (encode input) := by
    obtain ⟨hits', hhits', hfits⟩ := scanAllViews_fitting scan_fitting (paired_encode input)
    rw [hhits, Option.some.injEq] at hhits'
    exact hhits' ▸ hfits
  have hordered := scanAllViews_pairwise hhits
  refine ⟨response, found, hinspect, hfound, ?_, ?_, ?_, ?_⟩
  · intro finding hfinding
    rw [hfindings, List.mem_map] at hfinding
    obtain ⟨hit, hhit, rfl⟩ := hfinding
    exact ⟨_, rfl, (hfits hit hhit).usable⟩
  · rw [hfindings, List.pairwise_map]
    refine hordered.imp fun {a b} hlt => ?_
    rintro s ⟨⟩ t ⟨⟩
    show a.start ≤ b.start
    unfold Hit.lt at hlt
    omega
  · rw [hfindings, List.Nodup, List.pairwise_map]
    refine hordered.imp fun {a b} hlt heq => ?_
    simp only [Hit.finding, InspectFinding.mk.injEq, Option.some.injEq,
      InspectSpan.mk.injEq] at heq
    obtain ⟨hkind, hstart, hlength⟩ := heq
    rw [Hit.lt, hkind] at hlt
    omega
  · rw [hsensitivity, hsame.maxSensitivity]

end Response

/-- A telephone number in a short text. -/
theorem inspect_usable_mobile :
    exceedsLimit "tel 13800138000" defaultMaxInputUtf16 = false ∧ ∃ response found,
      inspect "tel 13800138000" ⟨.any, true, true, defaultMaxInputUtf16⟩ = some response ∧
      hitsOfViews rawScan (encode "tel 13800138000") = some found ∧
      (∀ finding ∈ response.findings, ∃ span, finding.span = some span ∧
        span.Usable (encode "tel 13800138000")) ∧
      response.findings.Pairwise InspectFinding.Before ∧ response.findings.Nodup ∧
      response.sensitivity = if containsBase64DataUrl "tel 13800138000" then .s3
        else maxSensitivity found :=
  ⟨by decide, inspect_usable "tel 13800138000" ⟨.any, true, true, defaultMaxInputUtf16⟩ (by decide)⟩

section Identity

variable {units : List Nat}

theorem getElem?_identity (units : List Nat) (i : Nat) :
    (identity units)[i]? = (units[i]?).map fun u => ⟨u, i, i + 1⟩ := by
  simp only [identity, List.getElem?_map, List.getElem?_zipIdx, Nat.zero_add, Option.map_map]
  rfl

theorem moveBack_identity {hit : Hit} (h : hit.Fits units) :
    moveBack (identity units) hit = some hit := by
  obtain ⟨hlt, hle, -⟩ := h
  simp only [Hit.stop] at hlt hle
  have hfirst : hit.start < units.length := by omega
  have hlast : hit.start + hit.length - 1 < units.length := by omega
  simp only [moveBack, View.originalSpan, getElem?_identity, List.getElem?_eq_getElem hfirst,
    List.getElem?_eq_getElem hlast, Option.map_some, bind, Option.bind_some, pure]
  rw [show hit.start + hit.length - 1 + 1 - hit.start = hit.length by omega]

theorem scanView_identity {f : List Nat → Option (List Hit)} {hits : List Hit}
    (h : f units = some hits) (hfits : ∀ hit ∈ hits, hit.Fits units) :
    scanView f (identity units) = some hits := by
  have hback : ∀ {hits : List Hit}, (∀ hit ∈ hits, hit.Fits units) →
      hits.mapM (moveBack (identity units)) = some hits := by
    intro hits hfits
    induction hits with
    | nil => rfl
    | cons hit rest ih =>
      rw [List.mapM_cons, moveBack_identity (hfits hit List.mem_cons_self),
        ih fun x hx => hfits x (List.mem_cons_of_mem _ hx)]
      rfl
  rw [scanView, identity_units, h]
  exact hback hfits

end Identity

section Findings

variable [Entropy] {input : String} {ctx : InspectCtx} {hit : Hit} {hits : List Hit}

/-- The answer to a text lists this finding. -/
def Reports (input : String) (ctx : InspectCtx) (finding : InspectFinding) : Prop :=
  ∃ response, inspect input ctx = some response ∧ finding ∈ response.findings

omit [Entropy] in
theorem Hit.CopiedBy.finding_eq {a b : Hit} (h : a.CopiedBy b) : a.finding = b.finding := by
  rw [Hit.finding, Hit.finding, h.1, h.2.1, h.2.2.1]

/-- Every hit of every reading is reported. -/
theorem reports_of_views (h : exceedsLimit input ctx.maxInputUtf16 = false)
    (hhits : hitsOfViews scan (encode input) = some hits) (hhit : hit ∈ hits) :
    Reports input ctx hit.finding := by
  obtain ⟨found, response, hfound, hinspect, hfindings, -⟩ := inspect_eq h
  obtain ⟨kept, hkept, hcopied⟩ := (sameHits_scanAllViews hfound hhits).1 hit hhit
  refine ⟨response, hinspect, ?_⟩
  rw [hfindings, hcopied.finding_eq]
  exact List.mem_map_of_mem hkept

theorem reports_of_scan (h : exceedsLimit input ctx.maxInputUtf16 = false)
    (hhits : scan (encode input) = some hits) (hhit : hit ∈ hits) :
    Reports input ctx hit.finding := by
  obtain ⟨found, hfound, hfits⟩ := scan_fitting (encode input) (paired_encode input)
  rw [hhits, Option.some.injEq] at hfound
  subst hfound
  obtain ⟨all, hall, -⟩ := hitsOfViews_fitting scan_fitting (paired_encode input)
  refine reports_of_views h hall ?_
  simp only [hitsOfViews, scanView_identity hhits hfits, bind, Option.bind_some,
    Option.bind_eq_some_iff, pure, Option.some.injEq] at hall
  obtain ⟨folded, -, rfl⟩ := hall
  exact List.mem_append_left _ hhit

/-- What the rules find in the text as it stands is reported. -/
theorem reports_of_rawScan (h : exceedsLimit input ctx.maxInputUtf16 = false)
    (hhits : rawScan (encode input) = some hits) (hhit : hit ∈ hits) :
    Reports input ctx hit.finding := by
  obtain ⟨raw, found, hraw, hfound, hsame⟩ := sameScan_scan _ (paired_encode input)
  rw [hhits, Option.some.injEq] at hraw
  subst hraw
  obtain ⟨kept, hkept, hcopied⟩ := hsame.1 hit hhit
  rw [hcopied.finding_eq]
  exact reports_of_scan h hfound hkept

theorem reports_of_plainHits (h : exceedsLimit input ctx.maxInputUtf16 = false)
    (hhits : plainHits (encode input) = some hits) (hhit : hit ∈ hits) :
    Reports input ctx hit.finding := by
  obtain ⟨raw, hraw, -⟩ := rawScan_fitting (encode input) (paired_encode input)
  refine reports_of_rawScan h hraw ?_
  simp only [rawScan, hhits, bind, Option.bind_some, Option.bind_eq_some_iff, pure,
    Option.some.injEq] at hraw
  obtain ⟨decoded, -, rfl⟩ := hraw
  exact List.mem_append_left _ hhit

end Findings

end Inspect
