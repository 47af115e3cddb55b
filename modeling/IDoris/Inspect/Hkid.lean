import IDoris.Inspect.Usable

/-!
# Hong Kong ids

Only the rule for tokens finds them, and the parentheses of what it finds pair. A reading
that folds is filtered by the same test, so every hit of the plain rules passes it.
-/
namespace Inspect

open Scanner Utf16

section Elsewhere

/-- A rule that finds no Hong Kong id. -/
def NoHkid (result : Option (List Hit)) : Prop :=
  ∀ hits, result = some hits → ∀ hit ∈ hits, hit.kind ≠ .hkIdentityCard

variable {a b : Option (List Hit)}

theorem NoHkid.nil : NoHkid (some []) := by
  rintro hits ⟨⟩ hit ⟨⟩

theorem NoHkid.flatMap {α : Type} {f : α → Option (List Hit)} {xs : List α}
    (h : ∀ x ∈ xs, NoHkid (f x)) : NoHkid (flatMapM f xs) := by
  intro hits hhits hit hhit
  obtain ⟨x, hx, ys, hys, hmem⟩ := (mem_flatMapM hhits).mp hhit
  exact h x hx ys hys hit hmem

theorem noHkid_classifyId (c : Candidate) (first17 : List Nat) (check stop : Nat) :
    NoHkid (classifyId c first17 check stop) := by
  intro hits hhits hit hhit
  simp only [classifyId, bind, Option.bind_eq_some_iff] at hhits
  obtain ⟨found, -, hhits⟩ := hhits
  split at hhits
  · simp only [Option.bind_eq_some_iff, pure, Option.some.injEq] at hhits
    obtain ⟨sensitivity, -, rfl⟩ := hhits
    rw [List.mem_singleton.mp hhit]
    simp [Candidate.hit]
  · cases hhits
    cases hhit

theorem noHkid_classify (c : Candidate) : NoHkid (classify c) := by
  intro hits hhits hit hhit
  simp only [classify, bind, Option.bind_eq_some_iff, pure, Option.some.injEq] at hhits
  obtain ⟨suffixed, hsuffixed, modern, hmodern, legacy, hlegacy, mobile, -, card, -, rfl⟩ := hhits
  simp only [List.mem_append, mem_report] at hhit
  rcases hhit with (((hhit | hhit) | hhit) | ⟨-, rfl⟩) | ⟨-, rfl⟩
  · unfold classifySuffixed at hsuffixed
    split at hsuffixed
    · exact noHkid_classifyId _ _ _ _ _ hsuffixed hit hhit
    · exact NoHkid.nil _ hsuffixed hit hhit
  · unfold classifyModern at hmodern
    split at hmodern
    · simp only [bind, Option.bind_eq_some_iff] at hmodern
      obtain ⟨first17, -, check, -, hmodern⟩ := hmodern
      exact noHkid_classifyId _ _ _ _ _ hmodern hit hhit
    · exact NoHkid.nil _ hmodern hit hhit
  · unfold classifyLegacy at hlegacy
    split at hlegacy
    · simp only [bind, Option.bind_eq_some_iff, pure, Option.some.injEq] at hlegacy
      obtain ⟨found, -, rfl⟩ := hlegacy
      rw [(mem_report.mp hhit).2]
      simp [Candidate.hit]
    · exact NoHkid.nil _ hlegacy hit hhit
  · simp [Candidate.hit]
  · simp [Candidate.hit]

theorem noHkid_classifySegments (joined : List Nat) (base stop : Nat) (xSuffix : Bool)
    (segments : List (Nat × Nat)) (offset : Nat) :
    NoHkid (classifySegments joined base stop xSuffix segments offset) := by
  induction segments generalizing offset with
  | nil => exact .nil
  | cons p rest ih =>
    intro hits hhits hit hhit
    simp only [classifySegments, bind, Option.bind_eq_some_iff, pure, Option.some.injEq] at hhits
    obtain ⟨digits, -, found, hfound, more, hmore, rfl⟩ := hhits
    exact (List.mem_append.mp hhit).elim (noHkid_classify _ found hfound hit)
      (ih _ more hmore hit)

theorem noHkid_scanGroups (units : List Nat) : NoHkid (scanGroups units) := by
  refine .flatMap fun p _ hits hhits hit hhit => ?_
  simp only [scanGroup, bind, Option.bind_eq_some_iff] at hhits
  obtain ⟨group, -, whole, hwhole, hhits⟩ := hhits
  have hin := noHkid_classify _ whole hwhole hit
  split at hhits
  · cases hhits
    exact hin hhit
  · simp only [Option.bind_eq_some_iff] at hhits
    obtain ⟨parts, hparts, near, -, hhits⟩ := hhits
    have hparts := noHkid_classifySegments _ _ _ _ _ _ parts hparts hit
    split at hhits
    · cases hhits
      exact (List.mem_append.mp (List.mem_filter.mp hhit).1).elim hin hparts
    · cases hhits
      exact (List.mem_append.mp hhit).elim hin hparts

theorem noHkid_formattedWindow (units : List Nat) (segments : List (Nat × Nat)) :
    NoHkid (formattedWindow units segments) := by
  intro hits hhits hit hhit
  unfold formattedWindow at hhits
  simp only at hhits
  split at hhits
  · exact NoHkid.nil _ hhits hit hhit
  · simp only [bind, Option.bind_eq_some_iff] at hhits
    obtain ⟨first, -, last, -, hhits⟩ := hhits
    split at hhits
    · exact NoHkid.nil _ hhits hit hhit
    · simp only [Option.bind_eq_some_iff] at hhits
      obtain ⟨digits, -, found, hfound, hhits⟩ := hhits
      split at hhits
      · cases hhits
        exact noHkid_classify _ found hfound hit (List.mem_filter.mp hhit).1
      · cases hhits
        exact noHkid_classify _ hits hfound hit hhit

theorem noHkid_shortestWindow {units : List Nat} {segments : List (Nat × Nat)} {left taken n : Nat}
    {found : List Hit} (h : shortestWindow units segments left taken = some (some (n, found))) :
    ∀ hit ∈ found, hit.kind ≠ .hkIdentityCard := by
  induction left generalizing taken with
  | zero => simp [shortestWindow] at h
  | succ left ih =>
    unfold shortestWindow at h
    split at h
    · simp at h
    · simp only at h
      split at h
      · simp at h
      · simp only [bind, Option.bind_eq_some_iff] at h
        obtain ⟨hits, hhits, h⟩ := h
        split at h
        · simp only [pure, Option.some.injEq, Prod.mk.injEq] at h
          obtain ⟨-, rfl⟩ := h
          exact noHkid_formattedWindow _ _ _ hhits
        · exact ih h

theorem noHkid_scanWindows (units : List Nat) (segments : List (Nat × Nat))
    (start coveredUntil : Nat) : NoHkid (scanWindows units segments start coveredUntil) := by
  induction segments generalizing start coveredUntil with
  | nil => exact .nil
  | cons segment rest ih =>
    intro hits hhits hit hhit
    simp only [scanWindows, bind, Option.bind_eq_some_iff] at hhits
    obtain ⟨best, hbest, hhits⟩ := hhits
    split at hhits
    · split at hhits
      · simp only [Option.bind_eq_some_iff, pure, Option.some.injEq] at hhits
        obtain ⟨more, hmore, rfl⟩ := hhits
        exact (List.mem_append.mp hhit).elim (noHkid_shortestWindow hbest hit)
          (ih _ _ more hmore hit)
      · exact ih _ _ hits hhits hit hhit
    · exact ih _ _ hits hhits hit hhit

theorem noHkid_scanFormatted (units : List Nat) : NoHkid (scanFormatted units) := by
  refine .flatMap fun p _ hits hhits hit hhit => ?_
  simp only [scanChain, bind, Option.bind_eq_some_iff] at hhits
  obtain ⟨chain, -, hhits⟩ := hhits
  exact noHkid_scanWindows _ _ _ _ _ hhits hit hhit

theorem noHkid_scanCountryMobile (units : List Nat) : NoHkid (scanCountryMobile units) := by
  refine .flatMap fun p _ hits hhits hit hhit => ?_
  simp only at hhits
  split at hhits
  · exact NoHkid.nil _ hhits hit hhit
  · simp only [bind, Option.bind_eq_some_iff] at hhits
    obtain ⟨run, -, hhits⟩ := hhits
    split at hhits
    · cases hhits
      rw [List.mem_singleton.mp hhit]
      simp
    · exact NoHkid.nil _ hhits hit hhit

theorem noHkid_crosslineId (units : List Nat) (start left : Nat) (digits : List Nat) (stop : Nat)
    (crossed : Bool) : NoHkid (crosslineId units start left digits stop crossed) := by
  induction left generalizing digits stop crossed with
  | zero => exact .nil
  | succ left ih =>
    intro hits hhits hit hhit
    unfold crosslineId at hhits
    simp only at hhits
    split at hhits
    · simp only [bind, Option.bind_eq_some_iff, pure, Option.some.injEq] at hhits
      obtain ⟨check, -, first17, -, h, -, s, -, rfl⟩ := hhits
      rw [(mem_report.mp hhit).2]
      simp
    · split at hhits
      · exact NoHkid.nil _ hhits hit hhit
      · split at hhits
        · exact NoHkid.nil _ hhits hit hhit
        · exact ih _ _ _ hits hhits hit hhit

theorem noHkid_scanCrosslineModernId (units : List Nat) : NoHkid (scanCrosslineModernId units) := by
  refine .flatMap fun p _ hits hhits hit hhit => ?_
  simp only at hhits
  split at hhits
  · exact NoHkid.nil _ hhits hit hhit
  · simp only [bind, Option.bind_eq_some_iff] at hhits
    obtain ⟨run, -, hhits⟩ := hhits
    exact noHkid_crosslineId _ _ _ _ _ _ _ hhits hit hhit

theorem noHkid_privateKeysFrom (units : List Nat) (left start : Nat) :
    NoHkid (privateKeysFrom units left start) := by
  induction left generalizing start with
  | zero => exact .nil
  | succ left ih =>
    intro hits hhits hit hhit
    cases hbegin : find units start beginMark with
    | none =>
      rw [privateKeysFrom_none hbegin] at hhits
      exact NoHkid.nil _ hhits hit hhit
    | some begin =>
      rw [privateKeysFrom_mark hbegin] at hhits
      split at hhits
      · exact ih _ hits hhits hit hhit
      · obtain ⟨more, hmore, rfl⟩ := Option.map_eq_some_iff.mp hhits
        obtain rfl | hhit := List.mem_cons.mp hhit
        · simp
        · exact ih _ more hmore hit hhit

variable [Entropy]

theorem noHkid_acceptRandom (token : List Nat) (start : Nat)
    (candidates accepted : List (Nat × Nat)) :
    NoHkid (acceptRandom token start candidates accepted) := by
  induction candidates generalizing accepted with
  | nil => exact .nil
  | cons p rest ih =>
    intro hits hhits hit hhit
    simp only [acceptRandom, bind, Option.bind_eq_some_iff] at hhits
    obtain ⟨part, -, hhits⟩ := hhits
    split at hhits
    · simp only [Option.bind_eq_some_iff, pure, Option.some.injEq] at hhits
      obtain ⟨more, hmore, rfl⟩ := hhits
      obtain rfl | hhit := List.mem_cons.mp hhit
      · simp
      · exact ih _ more hmore hit hhit
    · exact ih _ hits hhits hit hhit

omit [Entropy] in
theorem noHkid_scanKeyPrefixes (units : List Nat) : NoHkid (scanKeyPrefixes units) := by
  refine .flatMap fun p _ hits hhits hit hhit => ?_
  simp only [bind, Option.bind_eq_some_iff, pure, Option.some.injEq] at hhits
  obtain ⟨token, -, rfl⟩ := hhits
  rw [(mem_report.mp hhit).2]
  simp

theorem noHkid_scanEntropy (units : List Nat) : NoHkid (scanEntropy units) := by
  refine .flatMap fun p _ hits hhits hit hhit => ?_
  simp only [bind, Option.bind_eq_some_iff] at hhits
  obtain ⟨token, -, hhits⟩ := hhits
  exact noHkid_acceptRandom _ _ _ _ _ hhits hit hhit

omit [Entropy] in
theorem noHkid_scanPaths (units : List Nat) : NoHkid (scanPaths units) := by
  refine .flatMap fun p _ hits hhits hit hhit => ?_
  simp only [scanPath, bind, Option.bind_eq_some_iff] at hhits
  obtain ⟨run, -, hhits⟩ := hhits
  split at hhits
  · cases hhits
    rw [List.mem_singleton.mp hhit]
    simp
  · refine NoHkid.flatMap (fun q _ => ?_) hits hhits hit hhit
    intro hits hhits hit hhit
    simp only [Option.bind_eq_some_iff, pure, Option.some.injEq] at hhits
    obtain ⟨part, -, rfl⟩ := hhits
    rw [(mem_report.mp hhit).2]
    simp

theorem noHkid_scanSecrets (units : List Nat) : NoHkid (scanSecrets units) := by
  intro hits hhits hit hhit
  simp only [scanSecrets, bind, Option.bind_eq_some_iff, pure, Option.some.injEq] at hhits
  obtain ⟨keys, hkeys, prefixes, hprefixes, random, hrandom, paths, hpaths, rfl⟩ := hhits
  simp only [List.mem_append] at hhit
  rcases hhit with ((hhit | hhit) | hhit) | hhit
  · exact noHkid_privateKeysFrom _ _ _ _ hkeys hit hhit
  · exact noHkid_scanKeyPrefixes _ _ hprefixes hit hhit
  · exact noHkid_scanEntropy _ _ hrandom hit hhit
  · exact noHkid_scanPaths _ _ hpaths hit hhit

end Elsewhere

section Spelling

variable {units : List Nat}

/-- A unit the spelling test does not look at. -/
def Quiet (u : Nat) : Prop :=
  u ≠ 0x3000 ∧ u ≠ 0xFF08 ∧ u ≠ 0xFF09 ∧ u ≠ '('.toNat ∧ u ≠ ')'.toNat

theorem quiet_of_isAlnum {u : Nat} (h : isAlnum u = true) : Quiet u := by
  simp [isAlnum, isAlphabetic, isLowercase, isUppercase, isDigit] at h
  simp [Quiet]
  omega

/-- What stands in front without a parenthesis does not matter. -/
theorem malformed_append {front back : List Nat} (h : ∀ u ∈ front, Quiet u) :
    malformedHkidSpelling (front ++ back) = malformedHkidSpelling back := by
  have hcount : ∀ p, (∀ u, Quiet u → u ≠ p) → (front ++ back).count p = back.count p := by
    intro p hp
    rw [List.count_append, List.count_eq_zero_of_not_mem, Nat.zero_add]
    exact fun hmem => hp p (h p hmem) rfl
  have hspace : (front ++ back).contains 0x3000 = back.contains 0x3000 := by
    rw [List.contains_append, Bool.or_eq_right_iff_imp]
    intro hmem
    exact absurd rfl (h 0x3000 (by simpa using hmem)).1
  rw [malformedHkidSpelling, malformedHkidSpelling, hspace, hcount 0xFF08 fun u hu => hu.2.1,
    hcount 0xFF09 fun u hu => hu.2.2.1, hcount '('.toNat fun u hu => hu.2.2.2.1,
    hcount ')'.toNat fun u hu => hu.2.2.2.2]

theorem malformed_quiet {span : List Nat} (h : ∀ u ∈ span, Quiet u) :
    malformedHkidSpelling span = false := by
  rw [← List.append_nil span, malformed_append h]
  rfl

/-- The text a hit covers. -/
def Hit.span (units : List Nat) (hit : Hit) : List Nat :=
  (units.take (hit.start + hit.length)).drop hit.start

/-- A hit that the filter of the folded readings lets pass. -/
def WellSpelled (units : List Nat) (hit : Hit) : Prop :=
  hit.kind = .hkIdentityCard → malformedHkidSpelling (hit.span units) = false

theorem check_of_hkidValid {body : List Nat} {check : Nat} (h : hkidValid body check = true) :
    check = 'A'.toNat ∨ ∃ n < 11, check = '0'.toNat + n := by
  unfold hkidValid at h
  simp only at h
  split at h
  · cases h
  · -- the first split is on the number of letters
    split at h <;> split at h
    · exact .inl (of_decide_eq_true h)
    · exact .inr ⟨_, Nat.mod_lt _ (by omega), of_decide_eq_true h⟩
    · exact .inl (of_decide_eq_true h)
    · exact .inr ⟨_, Nat.mod_lt _ (by omega), of_decide_eq_true h⟩

/-- The window behind a body is an optional space and a check unit in paired parentheses. -/
theorem window_wellSpelled {rest : List Nat} {check extra : Nat}
    (h : hkidParenWindow rest = some (check, extra))
    (hcheck : check = 'A'.toNat ∨ ∃ n < 11, check = '0'.toNat + n) :
    malformedHkidSpelling (rest.take extra) = false := by
  unfold hkidParenWindow at h
  simp only at h
  split at h
  · next opener u closer more hdrop =>
    split at h
    · cases h
    · next hpair =>
      simp only [Option.some.injEq, Prod.mk.injEq] at h
      obtain ⟨rfl, rfl⟩ := h
      have hquiet : Quiet u := by
        have hu : ¬isLowercase u = true → u = toUppercase u := fun h => by simp [toUppercase, h]
        by_cases hlower : isLowercase u = true
        · exact quiet_of_isAlnum (by simp [isAlnum, isAlphabetic, hlower])
        · rw [← hu hlower] at hcheck
          simp only [Quiet, Char.reduceToNat] at hcheck ⊢
          obtain rfl | ⟨n, hn, rfl⟩ := hcheck
          · omega
          · omega
      have hbracket : malformedHkidSpelling [opener, u, closer] = false := by
        rw [Bool.not_eq_true, Bool.or_eq_false_iff, Bool.not_eq_false', Bool.or_eq_true,
          Bool.and_eq_true, Bool.and_eq_true] at hpair
        simp only [decide_eq_true_eq] at hpair
        obtain ⟨h3000, hopen, hclose, hascii, hascii'⟩ := hquiet
        have hspace := Ne.symm h3000
        obtain ⟨⟨rfl, rfl⟩ | ⟨rfl, rfl⟩, -⟩ := hpair
        · simp_all [malformedHkidSpelling]
        · simp_all [malformedHkidSpelling, hkidFullwidthOpen, hkidFullwidthClose]
      have hsplit : ∀ {base : Nat}, rest.drop base = opener :: u :: closer :: more →
          rest.take (base + 3) = rest.take base ++ [opener, u, closer] := by
        intro base hdrop
        rw [List.take_add, hdrop]
        rfl
      rw [hsplit hdrop, malformed_append, hbracket]
      intro v hv
      split at hv
      · next hspace =>
        cases rest with
        | nil => cases hspace
        | cons w rest =>
          rw [List.head?_cons, Option.some.injEq] at hspace
          rw [List.take_succ_cons, List.take_zero, List.mem_singleton] at hv
          subst hv hspace
          simp [Quiet]
      · simp at hv
  · cases h

theorem span_extended {start stop extra : Nat} (hlt : start ≤ stop) (hle : stop ≤ units.length) :
    (units.take (start + (stop - start + extra))).drop start =
      (units.take stop).drop start ++ (units.drop stop).take extra := by
  rw [show start + (stop - start + extra) = stop + extra by omega, List.take_add,
    List.drop_append_of_le_length (by rw [List.length_take]; omega)]

theorem quiet_of_run {start stop : Nat} (hrun : IsRun isAlnum units start stop) :
    ∀ u ∈ (units.take stop).drop start, Quiet u := by
  intro u hu
  obtain ⟨i, hi, rfl⟩ := List.getElem_of_mem hu
  simp only [List.length_drop, List.length_take] at hi
  obtain ⟨v, hv, hmember⟩ := hrun.inside (start + i) (by omega) (by omega)
  rw [List.getElem_drop, List.getElem_take]
  rw [List.getElem?_eq_getElem (by omega), Option.some.injEq] at hv
  exact quiet_of_isAlnum (hv ▸ hmember)

theorem classifyToken_wellSpelled {start stop : Nat} {hits : List Hit}
    (hrun : IsRun isAlnum units start stop)
    (h : classifyToken (((units.take stop).drop start).map toUppercase) start (units.drop stop) =
      some hits) : ∀ hit ∈ hits, WellSpelled units hit := by
  have hlt := hrun.lt
  have hle := hrun.le
  have hlen : (((units.take stop).drop start).map toUppercase).length = stop - start := by
    rw [List.length_map, List.length_drop, List.length_take]
    omega
  have hparen : ∀ letters, ∀ hit ∈ parenthesizedHkid
      (((units.take stop).drop start).map toUppercase) letters start (units.drop stop),
      WellSpelled units hit := by
    intro letters hit hhit _
    unfold parenthesizedHkid at hhit
    split at hhit
    · cases hhit
    · split at hhit
      · cases hhit
      · next check extra hwindow =>
        obtain ⟨hvalid, rfl⟩ := mem_report.mp hhit
        rw [Hit.span, hlen, span_extended hlt.le hle, malformed_append (quiet_of_run hrun)]
        exact window_wellSpelled hwindow (check_of_hkidValid hvalid)
  have hplain : ∀ hit ∈ plainHkid (((units.take stop).drop start).map toUppercase) start,
      WellSpelled units hit := by
    intro hit hhit _
    unfold plainHkid at hhit
    split at hhit
    · cases hhit
    · obtain ⟨-, rfl⟩ := mem_report.mp hhit
      rw [Hit.span, hlen, show start + (stop - start) = stop by omega]
      exact malformed_quiet (quiet_of_run hrun)
  intro hit hhit
  simp only [classifyToken, bind, Option.bind_eq_some_iff, pure, Option.some.injEq] at h
  obtain ⟨code, -, passport, -, permit, -, rfl⟩ := h
  simp only [List.mem_append, mem_report] at hhit
  rcases hhit with ((((⟨-, rfl⟩ | ⟨-, rfl⟩) | ⟨-, rfl⟩) | hhit) | hhit) | hhit
  · rintro ⟨⟩
  · rintro ⟨⟩
  · rintro ⟨⟩
  · exact hparen 1 hit hhit
  · exact hparen 2 hit hhit
  · exact hplain hit hhit

theorem scanTokens_wellSpelled {hits : List Hit} (h : scanTokens units = some hits) :
    ∀ hit ∈ hits, WellSpelled units hit := by
  intro hit hhit
  simp only [scanTokens, bind, Option.bind_eq_some_iff, pure, Option.some.injEq] at h
  obtain ⟨classified, hclassified, rfl⟩ := h
  simp only [List.mem_append] at hhit
  rcases hhit with (hhit | hhit) | hhit
  · obtain ⟨p, hp, found, hfound, hmem⟩ := (mem_flatMapM hclassified).mp hhit
    have hrun := isRun_of_mem_runs (a := p.1) (b := p.2) hp
    simp only [slice_of_le hrun.lt.le hrun.le, slice_of_le hrun.le le_rfl, Option.bind_some,
      List.take_length] at hfound
    exact classifyToken_wellSpelled hrun hfound hit hmem
  · obtain ⟨i, -, hplate⟩ := List.mem_filterMap.mp hhit
    obtain ⟨length, -, rfl⟩ := Option.map_eq_some_iff.mp hplate
    rintro ⟨⟩
  · obtain ⟨place, -, hemail⟩ := List.mem_filterMap.mp hhit
    unfold emailAt at hemail
    split at hemail
    · cases hemail
    · simp only [Option.ite_none_right_eq_some, Option.some.injEq] at hemail
      obtain ⟨-, rfl⟩ := hemail
      rintro ⟨⟩

variable [Entropy]

/-- What the plain rules find, the filter lets pass. -/
theorem plainHits_wellSpelled {hits : List Hit} (h : plainHits units = some hits) :
    ∀ hit ∈ hits, WellSpelled units hit := by
  intro hit hhit
  simp only [plainHits, bind, Option.bind_eq_some_iff, pure, Option.some.injEq] at h
  obtain ⟨groups, hgroups, formatted, hformatted, country, hcountry, tokens, htokens, secrets,
    hsecrets, crossline, hcrossline, rfl⟩ := h
  simp only [List.mem_append] at hhit
  rcases hhit with ((((hhit | hhit) | hhit) | hhit) | hhit) | hhit
  · exact fun hkind => absurd hkind (noHkid_scanGroups _ _ hgroups hit hhit)
  · exact fun hkind => absurd hkind (noHkid_scanFormatted _ _ hformatted hit hhit)
  · exact fun hkind => absurd hkind (noHkid_scanCountryMobile _ _ hcountry hit hhit)
  · exact scanTokens_wellSpelled htokens hit hhit
  · exact fun hkind => absurd hkind (noHkid_scanSecrets _ _ hsecrets hit hhit)
  · exact fun hkind => absurd hkind (noHkid_scanCrosslineModernId _ _ hcrossline hit hhit)

omit [Entropy] in
theorem Hit.CopiedBy.wellSpelled {a b : Hit} (h : a.CopiedBy b) (ha : WellSpelled units a) :
    WellSpelled units b := by
  intro hkind
  rw [Hit.span, ← h.2.1, ← h.2.2.1]
  exact ha (h.1.trans hkind)

omit [Entropy] in
theorem sortDedup_wellSpelled {hits : List Hit} (h : ∀ hit ∈ hits, WellSpelled units hit) :
    ∀ hit ∈ sortDedup hits, WellSpelled units hit := by
  intro hit hhit
  obtain ⟨a, ha, hcopied, -⟩ := Hit.exists_of_mem_sortDedup hhit
  exact hcopied.wellSpelled (h a ha)

theorem scanPlain_wellSpelled {hits : List Hit} (h : scanPlain units = some hits) :
    ∀ hit ∈ hits, WellSpelled units hit := by
  simp only [scanPlain, bind, Option.bind_eq_some_iff, pure, Option.some.injEq] at h
  obtain ⟨plain, hplain, rfl⟩ := h
  exact sortDedup_wellSpelled (plainHits_wellSpelled hplain)

omit [Entropy] in
/-- The filter lets pass exactly what is spelled well. -/
theorem mem_dropFolded {hits kept : List Hit} (h : dropFoldedMalformedHkid hits units = some kept)
    (hfits : ∀ hit ∈ hits, hit.Fits units) {hit : Hit} :
    hit ∈ kept ↔ hit ∈ hits ∧ WellSpelled units hit := by
  have hone : ∀ x ∈ hits, ∀ xs, (do
      if x.kind ≠ .hkIdentityCard then return [x]
      let span ← slice units x.start (x.start + x.length)
      return if malformedHkidSpelling span then [] else [x]) = some xs →
      (hit ∈ xs ↔ hit = x ∧ WellSpelled units hit) := by
    intro x hx xs hxs
    split at hxs
    · next hne =>
      cases hxs
      rw [List.mem_singleton]
      exact ⟨fun heq => ⟨heq, fun hkind => absurd (heq ▸ hkind) hne⟩, fun h => h.1⟩
    · next hkind =>
      rw [ne_eq, not_not] at hkind
      obtain ⟨hlt, hle, -⟩ := hfits x hx
      rw [Hit.stop] at hle
      rw [slice_of_le (by omega) hle] at hxs
      simp only [bind, Option.bind_some, pure, Option.some.injEq] at hxs
      subst hxs
      split
      · next hmalformed =>
        simp only [List.not_mem_nil, false_iff, not_and]
        rintro rfl hwell
        have hspan := hwell hkind
        rw [Hit.span, hmalformed] at hspan
        cases hspan
      · next hgood =>
        rw [List.mem_singleton]
        refine ⟨fun heq => ⟨heq, fun _ => ?_⟩, fun h => h.1⟩
        rw [heq, Hit.span]
        simpa using hgood
  constructor
  · intro hmem
    obtain ⟨x, hx, xs, hxs, hin⟩ := (mem_flatMapM h).mp hmem
    obtain ⟨rfl, hwell⟩ := (hone x hx xs hxs).mp hin
    exact ⟨hx, hwell⟩
  · rintro ⟨hmem, hwell⟩
    obtain ⟨kept', hkept'⟩ : ∃ xs, (do
        if hit.kind ≠ .hkIdentityCard then return [hit]
        let span ← slice units hit.start (hit.start + hit.length)
        return if malformedHkidSpelling span then [] else [hit]) = some xs := by
      rw [dropFoldedMalformedHkid, flatMapM, Option.map_eq_some_iff] at h
      obtain ⟨lists, hlists, -⟩ := h
      exact mem_of_mapM hlists hmem
    exact (mem_flatMapM h).mpr ⟨hit, hmem, kept', hkept', (hone hit hmem kept' hkept').mpr
      ⟨rfl, hwell⟩⟩

omit [Entropy] in
theorem scanAllViews_wellSpelled {scan : List Nat → Option (List Hit)} (hscan : FittingScan scan)
    (hwell : ∀ {units hits}, scan units = some hits → ∀ hit ∈ hits, WellSpelled units hit)
    (hpaired : Paired units) {hits : List Hit} (h : scanAllViews scan units = some hits) :
    ∀ hit ∈ hits, WellSpelled units hit := by
  obtain ⟨found, hfound, -⟩ := scanAllViews_eq_some h
  intro hit hhit
  have hmem := mem_of_scanAllViews h hfound hit hhit
  obtain ⟨raw, hraw, hfits⟩ := hscan units hpaired
  simp only [hitsOfViews, scanView_identity hraw hfits, bind, Option.bind_some,
    Option.bind_eq_some_iff, pure, Option.some.injEq] at hfound
  obtain ⟨folded, hfolded, rfl⟩ := hfound
  obtain hmem | hmem := List.mem_append.mp hmem
  · exact hwell hraw hit hmem
  · obtain ⟨view, hview, kept, hkept, hin⟩ := (mem_flatMapM hfolded).mp hmem
    obtain ⟨seen, hseen, hseenFits⟩ := (foldedViews_of hpaired view hview).scanView hscan
    simp only [hseen, Option.bind_some] at hkept
    exact ((mem_dropFolded hkept hseenFits).mp hin).2

end Spelling

end Inspect
