import IDoris.Inspect.Usable

/-!
# Digit runs

A maximal run of digits that is a number by itself is reported at its own place, whatever
group of digits it is part of and whatever else stands in the text.
-/
namespace Inspect

open Scanner Utf16

/-- What a run of digits is by itself, given the unit behind it: the kind of number, and how
many units behind the run belong to it. -/
inductive IsNumber (d : List Nat) (next : Option Nat) : FindingKind → Nat → Prop
  | mobile : isMobile d = true → IsNumber d next .cnMobile 0
  | countryMobile : d.take 2 = [8, 6] → isMobile (d.drop 2) = true → IsNumber d next .cnMobile 0
  | legacyId : d.length = 15 → legacyIdStructure d = some true → IsNumber d next .cnResidentId 0
  | modernId : d.length = 18 → idStructure (d.take 17) = some true →
      IsNumber d next .cnResidentId 0
  | suffixedId : d.length = 17 → idStructure d = some true → next.any isCheckX = true →
      IsNumber d next .cnResidentId 1
  | card : 16 ≤ d.length → d.length ≤ 19 → d.head? ≠ some 0 → luhnValid d = true →
      IsNumber d next .bankCard 0

section Classify

variable {c : Candidate} {next : Option Nat} {kind : FindingKind} {extra : Nat}

theorem isMobileRun_of_isMobile {d : List Nat} (h : isMobile d = true) :
    isMobileRun d = some true := by
  have hlen : d.length = 11 := by
    cases d with
    | nil => cases h
    | cons first rest =>
      cases rest with
      | nil => cases h
      | cons second rest =>
        simp only [isMobile, Bool.and_eq_true, decide_eq_true_eq] at h
        exact h.1.1.1
  rw [isMobileRun, if_pos hlen, h]

theorem isMobileRun_of_country {d : List Nat} (hcountry : d.take 2 = [8, 6])
    (h : isMobile (d.drop 2) = true) : isMobileRun d = some true := by
  have hlen : d.length = 13 := by
    have hrest := isMobileRun_of_isMobile h
    have htwo := congrArg List.length hcountry
    simp only [List.length_take, List.length_cons, List.length_nil] at htwo
    rw [isMobileRun, List.length_drop] at hrest
    split at hrest
    · omega
    · split at hrest
      · next hne hlen =>
        cases hd : d.drop 2 with
        | nil => simp [isMobile, hd] at h
        | cons first rest =>
          cases rest with
          | nil => simp [isMobile, hd] at h
          | cons second rest =>
            rw [hd] at h
            simp only [isMobile, Bool.and_eq_true, decide_eq_true_eq] at h
            rw [← hd, List.length_drop] at h
            omega
      · simp at hrest
  rw [isMobileRun, if_neg (by omega), if_pos hlen, slice_of_le (by omega) (by omega),
    slice_of_le (by omega) (by omega)]
  simp only [bind, Option.bind_some, pure, List.drop_zero, hcountry, ← hlen, List.take_length, h]
  rfl

/-- A candidate with the digits of a number has the hit for it. -/
theorem classify_isNumber (h : IsNumber c.digits next kind extra)
    (hx : next.any isCheckX = c.xSuffix) : ∃ hits sensitivity, classify c = some hits ∧
      (⟨kind, c.start, c.stop + extra - c.start, sensitivity⟩ : Hit) ∈ hits := by
  obtain ⟨suffixed, hsuffixed, -⟩ := classifySuffixed_covering (c := c)
  obtain ⟨modern, hmodern, -⟩ := classifyModern_covering (c := c)
  obtain ⟨legacy, hlegacy, -⟩ := classifyLegacy_covering (c := c)
  obtain ⟨mobile, hmobile⟩ := isMobileRun_isSome c.digits
  obtain ⟨card, hcard⟩ := isCardRun_isSome c.digits
  have hall : classify c = some (suffixed ++ modern ++ legacy ++
      report mobile (c.hit .cnMobile c.stop .s2) ++ report card (c.hit .bankCard c.stop .s3)) := by
    simp only [classify, hsuffixed, hmodern, hlegacy, hmobile, hcard]
    rfl
  have hid : ∀ {first17 : List Nat} {check stop : Nat} {hits : List Hit},
      classifyId c first17 check stop = some hits → idStructure first17 = some true →
      ∃ sensitivity, (⟨.cnResidentId, c.start, stop - c.start, sensitivity⟩ : Hit) ∈ hits := by
    intro first17 check stop hits hhits hstructure
    obtain ⟨sensitivity, hsensitivity⟩ := idSensitivity_isSome first17 check
    simp only [classifyId, hstructure, hsensitivity, bind, Option.bind_some, if_true, pure,
      Option.some.injEq] at hhits
    exact ⟨sensitivity, hhits ▸ List.mem_singleton.mpr rfl⟩
  suffices hmem : ∃ sensitivity,
      (⟨kind, c.start, c.stop + extra - c.start, sensitivity⟩ : Hit) ∈ suffixed ++ modern ++ legacy ++
        report mobile (c.hit .cnMobile c.stop .s2) ++ report card (c.hit .bankCard c.stop .s3) by
    obtain ⟨sensitivity, hmem⟩ := hmem
    exact ⟨_, sensitivity, hall, hmem⟩
  simp only [List.mem_append, mem_report]
  cases h with
  | mobile h =>
    rw [isMobileRun_of_isMobile h, Option.some.injEq] at hmobile
    exact ⟨.s2, .inl (.inr ⟨hmobile.symm, rfl⟩)⟩
  | countryMobile hcountry h =>
    rw [isMobileRun_of_country hcountry h, Option.some.injEq] at hmobile
    exact ⟨.s2, .inl (.inr ⟨hmobile.symm, rfl⟩)⟩
  | legacyId hlen h =>
    simp only [classifyLegacy, if_pos hlen, h, bind, Option.bind_some, pure, Option.some.injEq]
      at hlegacy
    exact ⟨.s2, .inl (.inl (.inr (by rw [← hlegacy]; exact List.mem_singleton.mpr rfl)))⟩
  | modernId hlen h =>
    rw [classifyModern, if_pos hlen, slice_of_le (by omega) (by omega),
      List.getElem?_eq_getElem (by omega)] at hmodern
    obtain ⟨sensitivity, hmem⟩ := hid hmodern h
    exact ⟨sensitivity, .inl (.inl (.inl (.inr hmem)))⟩
  | suffixedId hlen h hnext =>
    rw [classifySuffixed, if_pos ⟨hlen, hx ▸ hnext⟩] at hsuffixed
    obtain ⟨sensitivity, hmem⟩ := hid hsuffixed h
    exact ⟨sensitivity, .inl (.inl (.inl (.inl hmem)))⟩
  | card hmin hmax hfirst h =>
    have hhead : c.digits[0]? ≠ some 0 := by rwa [← List.head?_eq_getElem?]
    have hget : c.digits[0]? = some c.digits[0] := List.getElem?_eq_getElem (by omega)
    rw [hget, ne_eq, Option.some.injEq] at hhead
    rw [isCardRun, if_pos ⟨hmin, hmax⟩, hget] at hcard
    simp only [bind, Option.bind_some, pure, Option.some.injEq, ne_eq, hhead, not_false_eq_true,
      decide_true, h, Bool.and_self] at hcard
    exact ⟨.s3, .inr ⟨hcard.symm, rfl⟩⟩

end Classify

section Groups

variable {separator : Nat → Bool} {units : List Nat} {a b p q i : Nat} {kind : FindingKind}
  {extra : Nat}

/-- Between the ends of a group there are only digits and separators. -/
theorem joinedLength_member (h : i < joinedLength separator units) :
    ∃ u, units[i]? = some u ∧ (isDigit u = true ∨ separator u = true) := by
  induction units generalizing i with
  | nil => simp [joinedLength] at h
  | cons u rest ih =>
    simp only [joinedLength] at h
    split at h
    · next hjoin =>
      cases i with
      | zero =>
        rw [Bool.or_eq_true, Bool.and_eq_true] at hjoin
        exact ⟨u, rfl, hjoin.imp_right And.left⟩
      | succ i => exact ih (by omega)
    · omega

theorem group_member (h : (p, q) ∈ stretches (groupLength separator) units) (hp : p ≤ i)
    (hq : i < q) : ∃ u, units[i]? = some u ∧ (isDigit u = true ∨ separator u = true) := by
  obtain ⟨hlt, hle, hlen⟩ := stretches_bounds (groupLength_le separator) h
  have hdrop := List.drop_eq_getElem_cons (show p < units.length by omega)
  have hjoined : joinedLength separator (units.drop p) = q - p := by
    rw [hdrop, groupLength] at hlen
    split at hlen
    · rw [hdrop, hlen]
    · omega
  have hinside : i - p < joinedLength separator (units.drop p) := by omega
  obtain ⟨u, hu, hmember⟩ := joinedLength_member hinside
  rw [List.getElem?_drop, show p + (i - p) = i by omega] at hu
  exact ⟨u, hu, hmember⟩

/-- A run of digits lies in a group, which takes it whole. -/
theorem exists_group_of_run (hrun : IsRun isDigit units a b) :
    ∃ p q, (p, q) ∈ stretches (groupLength separator) units ∧ p ≤ a ∧ b ≤ q := by
  have hlt := hrun.lt
  obtain ⟨u, hu, hdigit⟩ := hrun.inside a le_rfl hlt
  have hpos : 0 < groupLength separator (units.drop a) := by
    obtain ⟨ha, rfl⟩ := List.getElem?_eq_some_iff.mp hu
    rw [List.drop_eq_getElem_cons ha, groupLength, if_pos hdigit, joinedLength, hdigit]
    simp
  obtain ⟨p, q, hmem, hpa, haq⟩ := stretches_cover (groupLength_le separator)
    (List.getElem?_eq_some_iff.mp hu).1 hpos
  refine ⟨p, q, hmem, hpa, ?_⟩
  by_contra hqb
  obtain ⟨v, hv, hdigit'⟩ := hrun.inside q (by omega) (by omega)
  rw [(isGroup_of_mem hmem).after v hv] at hdigit'
  cases hdigit'

theorem drop_take_slice (xs : List Nat) (hpa : p ≤ a) (hbq : b ≤ q) (hab : a ≤ b) :
    (((xs.take q).drop p).take (b - p)).drop (a - p) = (xs.take b).drop a := by
  rw [List.take_drop, List.drop_drop, List.take_take, show p + (a - p) = a by omega,
    show min (p + (b - p)) q = b by omega]

theorem run_of_slice {group : List Nat} (hslice : slice units p q = some group) (hpa : p ≤ a)
    (hbq : b ≤ q) (hrun : IsRun isDigit units a b) : IsRun isDigit group (a - p) (b - p) := by
  have hlt := hrun.lt
  have hlen := length_of_slice hslice
  refine ⟨by omega, by omega, fun i hi hi' => ?_, fun x hx hget => ?_, fun x hget => ?_⟩
  · obtain ⟨u, hu, hdigit⟩ := hrun.inside (p + i) (by omega) (by omega)
    exact ⟨u, by rw [getElem?_of_slice hslice (by omega), hu], hdigit⟩
  · rw [getElem?_of_slice hslice (by omega), show p + (a - p - 1) = a - 1 by omega] at hget
    exact hrun.before x (by omega) hget
  · have hin := (List.getElem?_eq_some_iff.mp hget).1
    rw [getElem?_of_slice hslice (by omega), show p + (b - p) = b by omega] at hget
    exact hrun.after x hget

/-- The rules for groups find a number in its own run. -/
theorem scanGroup_run (hmem : (p, q) ∈ stretches (groupLength isSeparator) units) (hpa : p ≤ a)
    (hbq : b ≤ q) (hrun : IsRun isDigit units a b)
    (hnumber : IsNumber (digitsOf units (a, b)) units[b]? kind extra) :
    ∃ hits sensitivity, scanGroup units (p, q) = some hits ∧
      (⟨kind, a, b + extra - a, sensitivity⟩ : Hit) ∈ hits := by
  have hgroup := isGroup_of_mem hmem
  have hlt := hgroup.lt
  have hab := hrun.lt
  have hslice := slice_of_le hlt.le hgroup.le
  have hrun' := run_of_slice hslice hpa hbq hrun
  have hlen := length_of_slice hslice
  obtain ⟨found, hfound, -⟩ := scanGroup_fitting hgroup
  have hscan := hfound
  simp only [scanGroup, hslice, bind, Option.bind_some] at hscan
  generalize hg : (units.take q).drop p = group at *
  obtain ⟨whole, hwhole, -⟩ := classify_covering
    ⟨(group.filter isDigit).map digitValue, p, q, units[q]?.any isCheckX⟩
  simp only [hwhole, Option.bind_some] at hscan
  split at hscan
  · next hall =>
    have hdigits : ∀ u ∈ group, isDigit u = true := by
      rw [List.length_map, ← hlen] at hall
      exact List.length_filter_eq_length_iff.mp hall
    have hinside : ∀ i u, p ≤ i → i < q → units[i]? = some u → isDigit u = true := by
      intro i u hpi hiq hu
      rw [show i = p + (i - p) by omega, ← getElem?_of_slice hslice (by omega)] at hu
      exact hdigits u (List.mem_of_getElem? hu)
    have hstart : a = p := by
      by_contra hne
      have hin : a - 1 < units.length := by have := hrun.le; omega
      have hdigit := hinside (a - 1) _ (by omega) (by omega) (List.getElem?_eq_getElem hin)
      rw [hrun.before _ (by omega) (List.getElem?_eq_getElem hin)] at hdigit
      cases hdigit
    have hstop : b = q := by
      by_contra hne
      have hin : b < units.length := by have := hgroup.le; omega
      have hdigit := hinside b _ (by omega) (by omega) (List.getElem?_eq_getElem hin)
      rw [hrun.after _ (List.getElem?_eq_getElem hin)] at hdigit
      cases hdigit
    subst hstart hstop
    have hself : (group.filter isDigit).map digitValue = digitsOf units (a, b) := by
      rw [List.filter_eq_self.mpr hdigits, digitsOf, hg]
    obtain ⟨hits, sensitivity, hhits, hhit⟩ := classify_isNumber
      (c := ⟨digitsOf units (a, b), a, b, units[b]?.any isCheckX⟩) hnumber rfl
    rw [hself, hhits, Option.some.injEq] at hwhole
    simp only [pure, Option.some.injEq] at hscan
    exact ⟨found, sensitivity, hfound, hscan ▸ hwhole ▸ hhit⟩
  · next hne =>
    rw [classifySegments_group] at hscan
    have hself : digitsOf group (a - p, b - p) = digitsOf units (a, b) := by
      rw [digitsOf, digitsOf, ← hg, drop_take_slice units hpa hbq hab.le]
    have hsuffix : units[b]?.any isCheckX =
        (decide (p + (b - p) = q) && units[q]?.any isCheckX) := by
      rw [show p + (b - p) = b by omega]
      by_cases hbq' : b = q
      · simp [hbq']
      · obtain ⟨u, hu, hmember⟩ := group_member hmem (i := b) (by omega) (by omega)
        rw [hrun.after u hu] at hmember
        rw [decide_eq_false hbq', Bool.false_and, hu]
        cases hx : isCheckX u with
        | false => simpa using hx
        | true =>
          simp [isCheckX] at hx
          simp [isSeparator] at hmember
          omega
    have hcandidate : IsNumber (segmentCandidate group p q (units[q]?.any isCheckX)
        (a - p, b - p)).digits units[b]? kind extra := by
      rwa [segmentCandidate, hself]
    obtain ⟨hits, sensitivity, hhits, hhit⟩ := classify_isNumber hcandidate hsuffix
    simp only [segmentCandidate, show p + (a - p) = a by omega,
      show p + (b - p) = b by omega] at hhit
    obtain ⟨parts, hparts⟩ : ∃ parts, flatMapM (fun segment => classify
        (segmentCandidate group p q (units[q]?.any isCheckX) segment)) (runs isDigit group) =
        some parts := flatMapM_isSome fun segment _ => (classify_covering _).imp fun _ h => h.1
    have hpart : (⟨kind, a, b + extra - a, sensitivity⟩ : Hit) ∈ whole ++ parts :=
      List.mem_append_right _ ((mem_flatMapM hparts).mpr
        ⟨_, mem_runs_of_isRun hrun', hits, hhits, hhit⟩)
    obtain ⟨near, hnear⟩ := phoneContext_isSome hlt hgroup.le
    simp only [hparts, Option.bind_some, hnear] at hscan
    refine ⟨found, sensitivity, hfound, ?_⟩
    split at hscan
    · simp only [pure, Option.some.injEq] at hscan
      rw [← hscan, List.mem_filter]
      refine ⟨hpart, ?_⟩
      -- a run that is the whole group would not have been split
      simp only [Bool.or_eq_true, decide_eq_true_eq]
      by_contra hremoved
      simp only [not_or, not_not, ne_eq] at hremoved
      obtain ⟨⟨rfl, rfl⟩, hspan⟩ := hremoved
      have hextra : extra = 0 := by
        cases hnumber <;> rfl
      refine hne ?_
      have hdigits : ∀ u ∈ group, isDigit u = true := by
        intro u hu
        obtain ⟨i, hi, rfl⟩ := List.getElem_of_mem hu
        obtain ⟨v, hv, hdigit⟩ := hrun'.inside i (by omega) (by omega)
        rw [List.getElem?_eq_getElem hi, Option.some.injEq] at hv
        exact hv ▸ hdigit
      rw [List.length_map, List.filter_eq_self.mpr hdigits, hlen]
    · simp only [pure, Option.some.injEq] at hscan
      exact hscan ▸ hpart

end Groups

section Reported

variable [Entropy]

/-- A number that is a maximal run of digits is reported at exactly that run. -/
theorem inspect_digitRun (input : String) (ctx : InspectCtx) (a b : Nat) (kind : FindingKind)
    (extra : Nat) (h : exceedsLimit input ctx.maxInputUtf16 = false)
    (hrun : IsRun isDigit (encode input) a b)
    (hnumber : IsNumber (digitsOf (encode input) (a, b)) (encode input)[b]? kind extra) :
    Reports input ctx ⟨kind, some ⟨a, b + extra - a⟩⟩ := by
  obtain ⟨p, q, hmem, hpa, hbq⟩ : ∃ p q,
      (p, q) ∈ stretches (groupLength isSeparator) (encode input) ∧ p ≤ a ∧ b ≤ q :=
    exists_group_of_run hrun
  obtain ⟨hits, sensitivity, hhits, hhit⟩ := scanGroup_run hmem hpa hbq hrun hnumber
  obtain ⟨plain, hplain, -⟩ := plainHits_fitting (encode input) (paired_encode input)
  have hfound := hplain
  simp only [plainHits, bind, Option.bind_eq_some_iff, pure, Option.some.injEq] at hfound
  obtain ⟨groups, hgroups, formatted, -, country, -, tokens, -, secrets, -, crossline, -, rfl⟩ :=
    hfound
  have hin : (⟨kind, a, b + extra - a, sensitivity⟩ : Hit) ∈ groups :=
    (mem_flatMapM hgroups).mpr ⟨_, hmem, hits, hhits, hhit⟩
  exact reports_of_plainHits h hplain (by simp only [List.mem_append]; tauto)

end Reported

/-- A telephone number that two rows of a table enclose. -/
theorem inspect_digitRun_mobile : Reports "12 13800138000-7"
    ⟨.any, true, true, defaultMaxInputUtf16⟩ ⟨.cnMobile, some ⟨3, 11⟩⟩ :=
  inspect_digitRun "12 13800138000-7" ⟨.any, true, true, defaultMaxInputUtf16⟩ 3 14 .cnMobile 0
    (by decide) (isRun_of_mem_runs (by decide)) (.mobile (by decide))

end Inspect
