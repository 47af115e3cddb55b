import IDoris.Inspect.Fits

/-!
# Hits of the readings

Every reading keeps characters whole and knows where its units come from, so a hit that
fits a reading stands for a range that fits the text. Sorting and merging keep one copy of
each hit, the strictest.
-/
namespace Inspect

open Scanner Utf16

section Copies

/-- The same hit, at least as sensitive. -/
def Hit.CopiedBy (a b : Hit) : Prop :=
  a.kind = b.kind ∧ a.start = b.start ∧ a.length = b.length ∧
    a.sensitivity.rank ≤ b.sensitivity.rank

namespace Hit

variable {a b c : Hit} {hits : List Hit}

theorem copiedBy_refl (a : Hit) : a.CopiedBy a := ⟨rfl, rfl, rfl, le_rfl⟩

theorem CopiedBy.trans (h : a.CopiedBy b) (h' : b.CopiedBy c) : a.CopiedBy c :=
  ⟨h.1.trans h'.1, h.2.1.trans h'.2.1, h.2.2.1.trans h'.2.2.1, h.2.2.2.trans h'.2.2.2⟩

theorem sameSpot_iff : a.sameSpot b = true ↔
    a.kind = b.kind ∧ a.start = b.start ∧ a.length = b.length := by
  simp only [sameSpot, Bool.and_eq_true, decide_eq_true_eq, and_assoc]

/-- Every hit has its copy after the merge. -/
theorem exists_mem_sortDedup (h : a ∈ hits) : ∃ b ∈ sortDedup hits, a.CopiedBy b := by
  refine Coalesce.exists_mem_coalesce (P := CopiedBy) copiedBy_refl CopiedBy.trans ?_ ?_
    ((List.mem_insertionSort _).mpr h)
  · intro x y _
    exact ⟨rfl, rfl, rfl, by simp [raise]⟩
  · intro x y hsame
    obtain ⟨hkind, hstart, hlength⟩ := sameSpot_iff.mp hsame
    exact ⟨hkind.symm, hstart.symm, hlength.symm, by simp [raise]⟩

/-- What does not depend on the sensitivity holds of the merged hits. -/
theorem forall_sortDedup {P : Hit → Prop} (hraise : ∀ {x y}, P x → P (x.raise y))
    (h : ∀ hit ∈ hits, P hit) : ∀ hit ∈ sortDedup hits, P hit :=
  Coalesce.forall_coalesce (fun _ hx _ => hraise hx) fun hit hhit =>
    h hit ((List.mem_insertionSort _).mp hhit)

/-- A merged hit is as sensitive as one of its copies. -/
theorem exists_of_mem_sortDedup (h : b ∈ sortDedup hits) :
    ∃ a ∈ hits, a.CopiedBy b ∧ b.sensitivity = a.sensitivity := by
  refine Coalesce.forall_coalesce (P := fun b => ∃ a ∈ hits, a.CopiedBy b ∧
    b.sensitivity = a.sensitivity) ?_ (fun hit hhit => ?_) b h
  · rintro x y hsame ⟨a, ha, hax, hsa⟩ ⟨c, hc, hcy, hsc⟩
    obtain ⟨hkind, hstart, hlength⟩ := sameSpot_iff.mp hsame
    by_cases hle : x.sensitivity.rank ≤ y.sensitivity.rank
    · refine ⟨c, hc, ⟨hcy.1.trans hkind.symm, hcy.2.1.trans hstart.symm,
        hcy.2.2.1.trans hlength.symm, ?_⟩, ?_⟩
      · simp only [raise, Sensitivity.rank_max, hsc]
        exact Nat.le_max_right _ _
      · rw [← hsc]
        exact if_pos hle
    · refine ⟨a, ha, ⟨hax.1, hax.2.1, hax.2.2.1, ?_⟩, ?_⟩
      · simp only [raise, Sensitivity.rank_max, hsa]
        exact Nat.le_max_left _ _
      · rw [← hsa]
        exact if_neg hle
  · exact ⟨hit, (List.mem_insertionSort _).mp hhit, copiedBy_refl hit, rfl⟩

theorem fits_raise {units : List Nat} (h : a.Fits units) : (a.raise b).Fits units := h

end Hit

theorem Fitting.sortDedup {units : List Nat} {hits : List Hit}
    (h : ∀ hit ∈ hits, hit.Fits units) : ∀ hit ∈ sortDedup hits, hit.Fits units :=
  Hit.forall_sortDedup Hit.fits_raise h

end Copies

section Readings

variable {units : List Nat} {view : View}

/-- A reading of a text: whole characters, in order, each unit from a range whose ends it
shares. -/
structure View.Of (units : List Nat) (view : View) : Prop where
  paired : Paired view.units
  cell : ∀ c ∈ view, c.first < c.stop ∧ c.stop ≤ units.length
  order : view.Pairwise fun c d => c.first ≤ d.first
  low : ∀ c ∈ view, isLow c.unit = false → ∀ u, units[c.first]? = some u → isLow u = false
  high : ∀ c ∈ view, isHigh c.unit = false → ∀ u, units[c.stop - 1]? = some u → isHigh u = false

theorem View.getElem?_units (view : View) (i : Nat) :
    view.units[i]? = (view[i]?).map Cell.unit := by
  rw [View.units, List.getElem?_map]

theorem View.length_units (view : View) : view.units.length = view.length := List.length_map _

/-- A range that fits the reading comes from one that fits the text. -/
theorem View.Of.originalSpan (h : view.Of units) {start length : Nat}
    (hfits : RangeFits view.units start (start + length)) :
    ∃ s l, view.originalSpan start length = some (s, l) ∧ RangeFits units s (s + l) := by
  obtain ⟨hlt, hle, hlow, hhigh⟩ := hfits
  rw [View.length_units] at hle
  obtain ⟨c, hc⟩ : ∃ c, view[start]? = some c := ⟨_, List.getElem?_eq_getElem (by omega)⟩
  obtain ⟨d, hd⟩ : ∃ d, view[start + length - 1]? = some d :=
    ⟨_, List.getElem?_eq_getElem (by omega)⟩
  have hcmem := List.mem_of_getElem? hc
  have hdmem := List.mem_of_getElem? hd
  have horder : c.first ≤ d.first := by
    rcases Nat.eq_or_lt_of_le (show start ≤ start + length - 1 by omega) with heq | hlt'
    · rw [← heq, hc, Option.some.injEq] at hd
      rw [hd]
    · obtain ⟨hi, rfl⟩ := List.getElem?_eq_some_iff.mp hc
      obtain ⟨hj, rfl⟩ := List.getElem?_eq_some_iff.mp hd
      exact List.pairwise_iff_getElem.mp h.order _ _ hi hj hlt'
  have hcell := h.cell d hdmem
  refine ⟨c.first, d.stop - c.first, ?_, ?_⟩
  · simp only [View.originalSpan, hc, hd]
    rfl
  · rw [show c.first + (d.stop - c.first) = d.stop by omega]
    refine ⟨by omega, hcell.2, ?_, ?_⟩
    · exact h.low c hcmem (hlow c.unit (by rw [View.getElem?_units, hc]; rfl))
    · exact h.high d hdmem (hhigh d.unit (by rw [View.getElem?_units, hd]; rfl))

/-- A scan that fits every text of whole characters. -/
def FittingScan (scan : List Nat → Option (List Hit)) : Prop :=
  ∀ units, Paired units → Fitting units (scan units)

/-- Mapping hits back never fails, and what comes back fits. -/
theorem View.Of.mapBack (h : view.Of units) {hits : List Hit}
    (hhits : ∀ hit ∈ hits, hit.Fits view.units) :
    Fitting units (hits.mapM fun hit => do
      let (start, length) ← view.originalSpan hit.start hit.length
      return { hit with start, length }) := by
  induction hits with
  | nil => exact .nil
  | cons hit rest ih =>
    obtain ⟨s, l, hspan, hfits⟩ := h.originalSpan (hhits hit List.mem_cons_self)
    obtain ⟨mapped, hmapped, hrest⟩ := ih fun x hx => hhits x (List.mem_cons_of_mem _ hx)
    refine ⟨{ hit with start := s, length := l } :: mapped, ?_, fun x hx => ?_⟩
    · rw [List.mapM_cons, hmapped, hspan]
      rfl
    · obtain rfl | hx := List.mem_cons.mp hx
      · exact hfits
      · exact hrest x hx

theorem View.Of.scanView (h : view.Of units) {scan : List Nat → Option (List Hit)}
    (hscan : FittingScan scan) : Fitting units (scanView scan view) := by
  obtain ⟨hits, hhits, hfits⟩ := hscan view.units h.paired
  simp only [Inspect.scanView, hhits]
  exact h.mapBack hfits

/-- A unit that stands for one unit of the text, with which it shares being half a pair. -/
structure Cell.Literal (units : List Nat) (base : Nat) (c : Cell) : Prop where
  after : base ≤ c.first
  stop : c.stop = c.first + 1
  source : ∃ u, units[c.first - base]? = some u ∧ isLow u = isLow c.unit ∧ isHigh u = isHigh c.unit

theorem View.Of.of_literal (hpaired : Paired view.units)
    (hliteral : ∀ c ∈ view, c.Literal units 0)
    (horder : view.Pairwise fun c d => c.first < d.first) : view.Of units := by
  refine ⟨hpaired, fun c hc => ?_, horder.imp fun h => h.le, fun c hc hunit u hu => ?_,
    fun c hc hunit u hu => ?_⟩
  · obtain ⟨-, hstop, u, hu, -⟩ := hliteral c hc
    have := (List.getElem?_eq_some_iff.mp hu).1
    omega
  · obtain ⟨-, -, v, hv, hlow, -⟩ := hliteral c hc
    rw [Nat.sub_zero, hu, Option.some.injEq] at hv
    rw [hv, hlow, hunit]
  · obtain ⟨-, hstop, v, hv, -, hhigh⟩ := hliteral c hc
    rw [hstop, Nat.add_sub_cancel, ← Nat.sub_zero c.first, hv, Option.some.injEq] at hu
    rw [← hu, hhigh, hunit]

theorem Cell.Literal.cons {x : Nat} {base : Nat} {c : Cell}
    (h : c.Literal units (base + 1)) : c.Literal (x :: units) base := by
  obtain ⟨hbase, hstop, u, hu, hsame⟩ := h
  refine ⟨by omega, hstop, u, ?_, hsame⟩
  rw [← hu, show c.first - base = c.first - (base + 1) + 1 by omega, List.getElem?_cons_succ]

theorem Cell.Literal.head {x base unit : Nat} (hlow : isLow x = isLow unit)
    (hhigh : isHigh x = isHigh unit) : Cell.Literal (x :: units) base ⟨unit, base, base + 1⟩ :=
  ⟨le_rfl, rfl, x, by simp, hlow, hhigh⟩

section Identity

theorem identity_units (units : List Nat) : (identity units).units = units := by
  simp only [identity, View.units, List.map_map]
  exact List.zipIdx_map_fst 0 units

theorem mem_zipIdx_literal {base : Nat} (c : Cell)
    (h : c ∈ (units.zipIdx base).map fun (u, i) => (⟨u, i, i + 1⟩ : Cell)) :
    c.Literal units base := by
  induction units generalizing base with
  | nil => cases h
  | cons x xs ih =>
    rw [List.zipIdx_cons, List.map_cons] at h
    obtain rfl | h := List.mem_cons.mp h
    · exact .head rfl rfl
    · exact (ih h).cons

theorem identity_of (h : Paired units) : (identity units).Of units := by
  refine .of_literal (by rwa [identity_units]) (fun c hc => mem_zipIdx_literal c hc) ?_
  simp only [identity, List.pairwise_map]
  refine List.pairwise_iff_getElem.mpr fun i j hi hj hij => ?_
  simpa using hij

end Identity

section Rewrite

variable {dropIgnorables foldScripts : Bool}

theorem isPlain_foldWidth {u : Nat} (h : IsPlain u) : IsPlain (foldWidth u) := by
  unfold foldWidth
  split
  · exact isPlain_of_lt (by omega)
  · split
    · exact ⟨by decide, by decide⟩
    · split
      · exact ⟨by decide, by decide⟩
      · exact h

theorem latinConfusables_plain : ∀ p ∈ latinConfusables, p.2.toNat < 0xD800 := by decide

/-- Folding never makes half a pair. -/
theorem isPlain_foldBmp {u : Nat} (h : IsPlain u) : IsPlain (foldBmp u foldScripts) := by
  unfold foldBmp
  split
  · split
    · next first _ hzero =>
      have := List.find?_some hzero
      simp only [Bool.and_eq_true, decide_eq_true_eq] at this
      refine isPlain_of_lt ?_
      simp only [Char.reduceToNat]
      omega
    · next latin _ hlatin =>
      simp only [latinConfusable, Option.map_eq_some_iff] at hlatin
      obtain ⟨p, hp, rfl⟩ := hlatin
      exact isPlain_of_lt (latinConfusables_plain p (List.mem_of_find?_eq_some hp))
    · exact isPlain_foldWidth h
  · exact isPlain_foldWidth h

theorem rewriteFrom_single {u : Nat} (h : isHigh u = false) (rest : List Nat) (i : Nat) :
    rewriteFrom dropIgnorables foldScripts (u :: rest) i =
      rewriteUnit dropIgnorables foldScripts u i ++
        rewriteFrom dropIgnorables foldScripts rest (i + 1) := by
  cases rest with
  | nil => simp [rewriteFrom]
  | cons v rest => simp [rewriteFrom, h]

theorem rewriteFrom_pair {u v : Nat} (hu : isHigh u = true) (hv : isLow v = true)
    (rest : List Nat) (i : Nat) :
    rewriteFrom dropIgnorables foldScripts (u :: v :: rest) i =
      (if dropIgnorables && isDefaultIgnorable (pairValue u v) then []
        else [⟨u, i, i + 1⟩, ⟨v, i + 1, i + 2⟩]) ++
        rewriteFrom dropIgnorables foldScripts rest (i + 2) := by
  simp [rewriteFrom, hu, hv]

theorem rewriteUnit_cases (u i : Nat) :
    rewriteUnit dropIgnorables foldScripts u i = [] ∨
      rewriteUnit dropIgnorables foldScripts u i = [⟨foldBmp u foldScripts, i, i + 1⟩] := by
  unfold rewriteUnit
  split
  · exact .inl rfl
  · exact .inr rfl

/-- What holds of the cells of a rewritten text. -/
structure Rewritten (units : List Nat) (base : Nat) (view : View) : Prop where
  paired : Paired view.units
  literal : ∀ c ∈ view, c.Literal units base
  order : view.Pairwise fun c d => c.first < d.first

theorem rewriteFrom_rewritten (h : Paired units) (base : Nat) :
    Rewritten units base (rewriteFrom dropIgnorables foldScripts units base) := by
  induction h generalizing base with
  | nil => exact ⟨.nil, by simp [rewriteFrom], .nil⟩
  | @single u rest hhigh hlow hrest ih =>
    obtain ⟨hpaired, hliteral, horder⟩ := ih (base + 1)
    have hplain : IsPlain (foldBmp u foldScripts) := isPlain_foldBmp ⟨hhigh, hlow⟩
    rw [rewriteFrom_single hhigh]
    obtain hcell | hcell : rewriteUnit dropIgnorables foldScripts u base = [] ∨
        rewriteUnit dropIgnorables foldScripts u base = [⟨foldBmp u foldScripts, base, base + 1⟩] :=
      rewriteUnit_cases u base
    · rw [hcell, List.nil_append]
      exact ⟨hpaired, fun c hc => (hliteral c hc).cons, horder⟩
    · rw [hcell, List.singleton_append]
      refine ⟨.single hplain.1 hplain.2 hpaired, fun c hc => ?_,
        List.pairwise_cons.mpr ⟨fun c hc => ?_, horder⟩⟩
      · obtain rfl | hc := List.mem_cons.mp hc
        · exact .head (hlow.trans hplain.2.symm) (hhigh.trans hplain.1.symm)
        · exact (hliteral c hc).cons
      · have := (hliteral c hc).after
        simp only
        omega
  | @pair u v rest hhigh hlow hrest ih =>
    obtain ⟨hpaired, hliteral, horder⟩ := ih (base + 2)
    rw [rewriteFrom_pair hhigh hlow]
    split
    · rw [List.nil_append]
      exact ⟨hpaired, fun c hc => (hliteral c hc).cons.cons, horder⟩
    · refine ⟨.pair hhigh hlow hpaired, fun c hc => ?_, ?_⟩
      · simp only [List.cons_append, List.nil_append, List.mem_cons] at hc
        obtain rfl | rfl | hc := hc
        · exact .head rfl rfl
        · exact (Cell.Literal.head rfl rfl).cons
        · exact (hliteral c hc).cons.cons
      · simp only [List.cons_append, List.nil_append, List.pairwise_cons, List.mem_cons]
        refine ⟨fun c hc => ?_, fun c hc => ?_, horder⟩
        · obtain rfl | hc := hc
          · exact Nat.lt_succ_self base
          · have := (hliteral c hc).after
            omega
        · have := (hliteral c hc).after
          omega

theorem rewrite_of (h : Paired units) : (rewrite dropIgnorables foldScripts units).Of units := by
  obtain ⟨hpaired, hliteral, horder⟩ :
      Rewritten units 0 (rewrite dropIgnorables foldScripts units) := rewriteFrom_rewritten h 0
  exact .of_literal hpaired hliteral horder

end Rewrite

section Skip

variable {k : Nat}

theorem skipFrom_cons_skip (previous : Option Nat) (skip u : Nat) (rest : List Nat) (i : Nat) :
    skipFrom k previous (skip + 1) (u :: rest) i = skipFrom k (some u) skip rest (i + 1) := by
  rw [skipFrom]

/-- The cells a pass keeps, when what it is about to leave out are digits. -/
theorem skipFrom_rewritten (h : Paired units) (previous : Option Nat) {skip : Nat}
    (hskip : ∀ u ∈ units.take skip, isDigit u = true) (base : Nat) :
    Rewritten units base (skipFrom k previous skip units base).1 := by
  have hsurrogate : ∀ {u : Nat}, isHigh u = true ∨ isLow u = true → isDigit u ≠ true := by
    intro u hu hdigit
    obtain ⟨hhigh, hlow⟩ := isPlain_of_isDigit hdigit
    rcases hu with hu | hu
    · rw [hhigh] at hu
      cases hu
    · rw [hlow] at hu
      cases hu
  have hkeep : ∀ (u : Nat) (rest : List Nat) (previous : Option Nat) (base : Nat),
      ∃ skip', (∀ v ∈ rest.take skip', isDigit v = true) ∧
        (skipFrom k previous 0 (u :: rest) base).1 =
          ⟨u, base, base + 1⟩ :: (skipFrom k (some u) skip' rest (base + 1)).1 := by
    intro u rest previous base
    by_cases htaken : (u = 'u'.toNat && previous = some '\\'.toNat && k < rest.length &&
        (rest.take (k + 1)).all isDigit) = true
    · refine ⟨k, fun v hv => ?_, by simp only [skipFrom, htaken, if_true]⟩
      rw [Bool.and_eq_true, List.all_eq_true] at htaken
      exact htaken.2 v (List.take_subset_take_left rest (Nat.le_succ k) hv)
    · rw [Bool.not_eq_true] at htaken
      exact ⟨0, by simp, by simp only [skipFrom, htaken, Bool.false_eq_true, if_false]⟩
  induction h generalizing previous skip base with
  | nil =>
    simp only [skipFrom]
    exact ⟨.nil, by simp, .nil⟩
  | @single u rest hhigh hlow hrest ih =>
    cases skip with
    | succ skip =>
      rw [skipFrom_cons_skip]
      obtain ⟨hpaired, hliteral, horder⟩ := ih (some u)
        (fun v hv => hskip v (by rw [List.take_succ_cons]; exact List.mem_cons_of_mem _ hv))
        (base + 1)
      exact ⟨hpaired, fun c hc => (hliteral c hc).cons, horder⟩
    | zero =>
      obtain ⟨skip', hdigits, hcells⟩ := hkeep u rest previous base
      obtain ⟨hpaired, hliteral, horder⟩ := ih (some u) hdigits (base + 1)
      rw [hcells]
      refine ⟨.single hhigh hlow hpaired, fun c hc => ?_,
        List.pairwise_cons.mpr ⟨fun c hc => ?_, horder⟩⟩
      · obtain rfl | hc := List.mem_cons.mp hc
        · exact .head rfl rfl
        · exact (hliteral c hc).cons
      · have := (hliteral c hc).after
        simp only
        omega
  | @pair u v rest hhigh hlow hrest ih =>
    cases skip with
    | succ skip =>
      exact absurd (hskip u (by rw [List.take_succ_cons]; exact List.mem_cons_self))
        (hsurrogate (.inl hhigh))
    | zero =>
      obtain ⟨skip', hdigits, hcells⟩ := hkeep u (v :: rest) previous base
      have hzero : skip' = 0 := by
        by_contra hne
        obtain ⟨n, rfl⟩ := Nat.exists_eq_succ_of_ne_zero hne
        exact hsurrogate (.inr hlow) (hdigits v (by
          rw [List.take_succ_cons]
          exact List.mem_cons_self))
      subst hzero
      obtain ⟨skip'', hdigits', hcells'⟩ := hkeep v rest (some u) (base + 1)
      obtain ⟨hpaired, hliteral, horder⟩ := ih (some v) hdigits' (base + 2)
      rw [hcells, hcells']
      refine ⟨.pair hhigh hlow hpaired, fun c hc => ?_, ?_⟩
      · simp only [List.mem_cons] at hc
        obtain rfl | rfl | hc := hc
        · exact .head rfl rfl
        · exact (Cell.Literal.head rfl rfl).cons
        · exact (hliteral c hc).cons.cons
      · simp only [List.pairwise_cons, List.mem_cons]
        refine ⟨fun c hc => ?_, fun c hc => ?_, horder⟩
        · obtain rfl | hc := hc
          · exact Nat.lt_succ_self base
          · have := (hliteral c hc).after
            omega
        · have := (hliteral c hc).after
          omega

theorem skipShortEscapeDigits_of (h : Paired units) (hview : skipShortEscapeDigits units k =
    some view) : view.Of units := by
  simp only [skipShortEscapeDigits, Option.ite_none_right_eq_some, Option.some.injEq] at hview
  obtain ⟨-, rfl⟩ := hview
  obtain ⟨hpaired, hliteral, horder⟩ : Rewritten units 0 (skipFrom k none 0 units 0).1 :=
    skipFrom_rewritten h none (by simp) 0
  exact .of_literal hpaired hliteral horder

end Skip

theorem foldedViews_of (h : Paired units) : ∀ view ∈ foldedViews units, view.Of units := by
  intro view hview
  simp only [foldedViews, List.mem_append, List.mem_cons, List.not_mem_nil, or_false,
    List.mem_filterMap] at hview
  obtain (rfl | rfl | rfl) | ⟨k, -, hk⟩ := hview
  · exact rewrite_of h
  · exact rewrite_of h
  · exact rewrite_of h
  · exact skipShortEscapeDigits_of h hk

end Readings

section AllViews

variable {units : List Nat} {scan : List Nat → Option (List Hit)}

/-- The filter never fails on hits that fit, and keeps some of them. -/
theorem dropFoldedMalformedHkid_fitting {hits : List Hit} (h : ∀ hit ∈ hits, hit.Fits units) :
    Fitting units (dropFoldedMalformedHkid hits units) := by
  refine .flatMap fun hit hhit => ?_
  have hfits := h hit hhit
  split
  · exact ⟨[hit], rfl, by simpa using hfits⟩
  · simp only [slice_of_le (Nat.le_add_right hit.start hit.length) hfits.2.1, bind,
      Option.bind_some]
    split
    · exact .nil
    · exact ⟨[hit], rfl, by simpa using hfits⟩

theorem hitsOfViews_fitting (hscan : FittingScan scan) (h : Paired units) :
    Fitting units (hitsOfViews scan units) := by
  refine .append ((identity_of h).scanView hscan) (.flatMap fun view hview => ?_)
  obtain ⟨hits, hhits, hfits⟩ := (foldedViews_of h view hview).scanView hscan
  simp only [hhits, bind, Option.bind_some]
  exact dropFoldedMalformedHkid_fitting hfits

theorem scanAllViews_eq_some {hits : List Hit} (h : scanAllViews scan units = some hits) :
    ∃ found, hitsOfViews scan units = some found ∧
      hits = Coalesce.coalesce Hit.sameSpot (fun kept _ => kept)
        (found.insertionSort Hit.strictestFirst) := by
  simp only [scanAllViews, bind, Option.bind_eq_some_iff, pure, Option.some.injEq] at h
  obtain ⟨found, hfound, rfl⟩ := h
  exact ⟨found, hfound, rfl⟩

/-- The hits of all readings after the merge are some of those before it. -/
theorem mem_of_scanAllViews {hits found : List Hit} (h : scanAllViews scan units = some hits)
    (hfound : hitsOfViews scan units = some found) : ∀ hit ∈ hits, hit ∈ found := by
  obtain ⟨found', hfound', rfl⟩ := scanAllViews_eq_some h
  rw [hfound, Option.some.injEq] at hfound'
  subst hfound'
  exact Coalesce.forall_coalesce (P := fun hit => hit ∈ found) (fun _ hx _ => hx)
    fun hit hhit => (List.mem_insertionSort _).mp hhit

theorem scanAllViews_fitting (hscan : FittingScan scan) (h : Paired units) :
    Fitting units (scanAllViews scan units) := by
  obtain ⟨found, hfound, hfits⟩ := hitsOfViews_fitting hscan h
  have hall : scanAllViews scan units = some (Coalesce.coalesce Hit.sameSpot (fun kept _ => kept)
      (found.insertionSort Hit.strictestFirst)) := by
    simp only [scanAllViews, hfound]
    rfl
  exact ⟨_, hall, fun hit hhit => hfits hit (mem_of_scanAllViews hall hfound hit hhit)⟩

end AllViews

end Inspect
