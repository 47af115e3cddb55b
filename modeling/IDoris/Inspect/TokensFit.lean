import IDoris.Inspect.Fits

/-!
# The token and secret rules fit

Most of their hits are parts of runs of ASCII units; a private key without an end runs to
the end of the text, which is the end of a character.
-/
namespace Inspect

open Scanner Utf16

section Tokens

variable {units t : List Nat} {start stop : Nat}

theorem isPassport_isSome (h : t.length = 9) : ∃ found, isPassport t = some found := by
  have hfirst : t[0]? = some t[0] := List.getElem?_eq_getElem (by omega)
  have hsecond : t[1]? = some t[1] := List.getElem?_eq_getElem (by omega)
  simp only [isPassport, afterFirst, hfirst, hsecond, slice_of_le (show 1 ≤ t.length by omega) le_rfl,
    slice_of_le (show 2 ≤ t.length by omega) le_rfl, bind, Option.bind_some, pure]
  split
  · exact ⟨_, rfl⟩
  · split
    · exact ⟨_, rfl⟩
    · exact ⟨_, rfl⟩

theorem isTravelPermit_isSome (h : t.length = 9) : ∃ found, isTravelPermit t = some found := by
  have hfirst : t[0]? = some t[0] := List.getElem?_eq_getElem (by omega)
  simp only [isTravelPermit, afterFirst, hfirst, slice_of_le (show 1 ≤ t.length by omega) le_rfl]
  exact ⟨_, rfl⟩

theorem length_of_mapM {α β : Type} {f : α → Option β} {xs : List α} {ys : List β}
    (h : xs.mapM f = some ys) : ys.length = xs.length :=
  (Loop.mapM_outcome .option h).length_eq.symm

theorem usccValid_isSome (h : t.length = 18) : ∃ found, usccValid t = some found := by
  unfold usccValid
  split
  · exact ⟨_, rfl⟩
  · next values hvalues =>
    have hlen := length_of_mapM hvalues
    simp only [slice_of_le (show 2 ≤ 8 by omega) (show 8 ≤ t.length by omega),
      List.getElem?_eq_getElem (show 17 < values.length by omega)]
    exact ⟨_, rfl⟩

/-- What a token rule reports: the token, or the token and a window behind it. -/
theorem classifyToken_spec (t : List Nat) (start : Nat) (rest : List Nat) :
    ∃ hits, classifyToken t start rest = some hits ∧ ∀ hit ∈ hits, hit.start = start ∧
      (0 < t.length ∧ hit.length = t.length ∨
        ∃ check extra, hkidParenWindow rest = some (check, extra) ∧
          hit.length = t.length + extra) := by
  obtain ⟨code, hcode⟩ : ∃ found, (if t.length = 18 then usccValid t else some false) =
      some found := by
    split
    · next h => exact usccValid_isSome h
    · exact ⟨_, rfl⟩
  obtain ⟨passport, hpassport⟩ : ∃ found, (if t.length = 9 then isPassport t else some false) =
      some found := by
    split
    · next h => exact isPassport_isSome h
    · exact ⟨_, rfl⟩
  obtain ⟨permit, hpermit⟩ : ∃ found, (if t.length = 9 then isTravelPermit t else some false) =
      some found := by
    split
    · next h => exact isTravelPermit_isSome h
    · exact ⟨_, rfl⟩
  have hnine : ∀ {b : Bool} {g : List Nat → Option Bool},
      (if t.length = 9 then g t else some false) = some b → b = true → t.length = 9 := by
    intro b g hb htrue
    by_contra hne
    rw [if_neg hne, htrue, Option.some.injEq] at hb
    cases hb
  have hparen : ∀ letters, ∀ hit ∈ parenthesizedHkid t letters start rest, hit.start = start ∧
      (0 < t.length ∧ hit.length = t.length ∨
        ∃ check extra, hkidParenWindow rest = some (check, extra) ∧
          hit.length = t.length + extra) := by
    intro letters hit hhit
    unfold parenthesizedHkid at hhit
    split at hhit
    · cases hhit
    · split at hhit
      · cases hhit
      · next check extra hwindow =>
        obtain ⟨-, rfl⟩ := mem_report.mp hhit
        exact ⟨rfl, .inr ⟨check, extra, hwindow, rfl⟩⟩
  simp only [classifyToken, hcode, hpassport, hpermit]
  refine ⟨_, rfl, fun hit hhit => ?_⟩
  simp only [List.mem_append, mem_report] at hhit
  obtain ((((⟨htrue, rfl⟩ | ⟨htrue, rfl⟩) | ⟨htrue, rfl⟩) | hhit) | hhit) | hhit := hhit
  · have hlen : t.length = 18 := by
      by_contra hne
      rw [if_neg hne, htrue, Option.some.injEq] at hcode
      cases hcode
    exact ⟨rfl, .inl ⟨by omega, hlen.symm⟩⟩
  · have hlen := hnine hpassport htrue
    exact ⟨rfl, .inl ⟨by omega, hlen.symm⟩⟩
  · have hlen := hnine hpermit htrue
    exact ⟨rfl, .inl ⟨by omega, hlen.symm⟩⟩
  · exact hparen 1 hit hhit
  · exact hparen 2 hit hhit
  · unfold plainHkid at hhit
    split at hhit
    · cases hhit
    · next check hlast =>
      obtain ⟨-, rfl⟩ := mem_report.mp hhit
      have hne : t ≠ [] := by
        rintro rfl
        cases hlast
      exact ⟨rfl, .inl ⟨List.length_pos_iff.mpr hne, rfl⟩⟩

/-- The window behind a body ends with a closing parenthesis. -/
theorem hkidParenWindow_some {rest : List Nat} {check extra : Nat}
    (h : hkidParenWindow rest = some (check, extra)) :
    0 < extra ∧ ∃ u, rest[extra - 1]? = some u ∧ IsPlain u := by
  unfold hkidParenWindow at h
  simp only at h
  split at h
  · next opener inner closer tail hdrop =>
    split at h
    · cases h
    · next hpairs =>
      simp only [Option.some.injEq, Prod.mk.injEq] at h
      obtain ⟨-, rfl⟩ := h
      refine ⟨by omega, closer, ?_, ?_⟩
      · have hget := congrArg (fun xs => xs[2]?) hdrop
        simp only [List.getElem?_drop, List.getElem?_cons_succ, List.getElem?_cons_zero] at hget
        rw [← hget]
        congr 1
      · simp only [Bool.or_eq_true, Bool.not_eq_true', not_or, Bool.not_eq_false,
          Bool.and_eq_true, decide_eq_true_eq] at hpairs
        obtain ⟨-, hclose⟩ | ⟨-, hclose⟩ := hpairs.1
        · rw [hclose]
          exact ⟨by decide, by decide⟩
        · rw [hclose]
          exact ⟨by decide, by decide⟩
  · cases h

theorem scanAlnum_fitting {p : Nat × Nat} (hp : p ∈ runs isAlnum units) :
    Fitting units (do
      let token := (← slice units p.1 p.2).map toUppercase
      classifyToken token p.1 (← slice units p.2 units.length)) := by
  have hrun := isRun_of_mem_runs hp
  have hlt := hrun.lt
  have hle := hrun.le
  rw [slice_of_le hlt.le hle, slice_of_le hle le_rfl]
  simp only [bind, Option.bind_some]
  obtain ⟨hits, hhits, hspec⟩ := classifyToken_spec
    (((units.take p.2).drop p.1).map toUppercase) p.1 ((units.take units.length).drop p.2)
  refine ⟨hits, hhits, fun hit hhit => ?_⟩
  have hlen : (((units.take p.2).drop p.1).map toUppercase).length = p.2 - p.1 := by
    simp
    omega
  obtain ⟨hstart, ⟨-, hlength⟩ | ⟨check, extra, hwindow, hlength⟩⟩ := hspec hit hhit
  · rw [hlen] at hlength
    refine .of_run (fun _ => isPlain_of_isAlnum) hrun hstart.ge ?_ ?_
    · simp only [Hit.stop]
      omega
    · simp only [Hit.stop]
      omega
  · obtain ⟨hpos, v, hv, hplain⟩ := hkidParenWindow_some hwindow
    obtain ⟨u, hu, halnum⟩ := hrun.inside p.1 le_rfl hlt
    rw [hlen] at hlength
    rw [List.take_length, List.getElem?_drop] at hv
    refine .of_plain ?_ ⟨u, by rw [hstart, hu], isPlain_of_isAlnum halnum⟩ ⟨v, ?_, hplain⟩
    · simp only [Hit.stop]
      omega
    · rw [← hv]
      simp only [Hit.stop]
      congr 1
      omega

theorem isPlain_of_isPlateChar {u : Nat} (h : isPlateChar u = true) : IsPlain u := by
  simp only [isPlateChar, Bool.and_eq_true] at h
  exact isPlain_of_isAlnum h.1.1.1

theorem plateLength_some {length : Nat} (h : plateLength t = some length) :
    0 < length ∧ (∃ u, t[0]? = some u ∧ IsPlain u) ∧ ∃ u, t[length - 1]? = some u ∧ IsPlain u := by
  unfold plateLength at h
  split at h
  · next province office rest =>
    split at h
    · cases h
    · next hprovince =>
      simp only [Bool.or_eq_true, Bool.not_eq_true', not_or, Bool.not_eq_false] at hprovince
      simp only [Option.ite_none_right_eq_some, Bool.and_eq_true, decide_eq_true_eq,
        Option.some.injEq] at h
      obtain ⟨⟨⟨⟨hmin, -⟩, -⟩, -⟩, rfl⟩ := h
      refine ⟨by omega, ⟨province, rfl, ?_⟩, ?_⟩
      · exact isPlain_of_oneOf (by decide) hprovince.1.1
      · generalize hgap : (if (rest.head?.any fun s => decide (s = 0xB7) || decide (s = ' '.toNat))
          = true then 1 else 0) = gap at hmin ⊢
        have hinside : ((rest.drop gap).takeWhile isPlateChar).length - 1 <
            runLength isPlateChar (rest.drop gap) := by
          rw [runLength]
          omega
        obtain ⟨u, hu, hmember⟩ := member_of_lt_runLength hinside
        refine ⟨u, ?_, isPlain_of_isPlateChar hmember⟩
        rw [← hu, List.getElem?_drop]
        rw [show 2 + gap + ((rest.drop gap).takeWhile isPlateChar).length - 1 =
          gap + (((rest.drop gap).takeWhile isPlateChar).length - 1) + 1 + 1 by omega,
          List.getElem?_cons_succ, List.getElem?_cons_succ]
  · cases h

theorem scanPlates_fits : ∀ hit ∈ scanPlates units, hit.Fits units := by
  intro hit hhit
  simp only [scanPlates, List.mem_filterMap, Option.map_eq_some_iff] at hhit
  obtain ⟨i, -, length, hlength, rfl⟩ := hhit
  obtain ⟨hpos, ⟨u, hu, hfirst⟩, v, hv, hlast⟩ := plateLength_some hlength
  rw [List.getElem?_drop] at hu hv
  refine .of_plain (by simp only [Hit.stop]; omega) ⟨u, hu, hfirst⟩ ⟨v, ?_, hlast⟩
  rw [← hv]
  simp only [Hit.stop]
  congr 1
  omega

theorem isPlain_of_isLocalChar {u : Nat} (h : isLocalChar u = true) : IsPlain u := by
  rw [isLocalChar, Bool.or_eq_true] at h
  exact h.elim isPlain_of_isAlnum (isPlain_of_oneOf (by decide))

theorem isPlain_of_isDomainChar {u : Nat} (h : isDomainChar u = true) : IsPlain u := by
  simp only [isDomainChar, Bool.or_eq_true, decide_eq_true_eq] at h
  obtain (h | rfl) | rfl := h
  · exact isPlain_of_isAlnum h
  · exact ⟨by decide, by decide⟩
  · exact ⟨by decide, by decide⟩

/-- The units right before a place that belong together. -/
theorem member_before {member : Nat → Bool} {place i : Nat} (hplace : place ≤ units.length)
    (hi : place - ((units.take place).reverse.takeWhile member).length ≤ i) (hlt : i < place) :
    ∃ u, units[i]? = some u ∧ member u = true := by
  have hinside : place - 1 - i < runLength member (units.take place).reverse := by
    rw [runLength]
    omega
  obtain ⟨u, hu, hmember⟩ := member_of_lt_runLength hinside
  have hlen : (units.take place).length = place := by simp [hplace]
  rw [List.getElem?_reverse (by omega), List.getElem?_take, hlen] at hu
  rw [if_pos (by omega)] at hu
  exact ⟨u, by rw [← hu]; congr 1; omega, hmember⟩

theorem emailAt_fits {place : Nat} {hit : Hit} (h : emailAt units place = some hit) :
    hit.Fits units := by
  unfold emailAt at h
  split at h
  · cases h
  · next hsign =>
    simp only [ne_eq, not_not] at hsign
    have hplace := (List.getElem?_eq_some_iff.mp hsign).1
    simp only [Option.ite_none_right_eq_some, Bool.and_eq_true, decide_eq_true_eq,
      Option.some.injEq] at h
    obtain ⟨⟨hstart, htld⟩, rfl⟩ := h
    generalize hdomain : ((((units.drop (place + 1)).takeWhile isDomainChar).reverse.dropWhile
      (· = '.'.toNat)).reverse) = domain at htld ⊢
    have hne : domain ≠ [] := by
      rintro rfl
      simp [tldOk] at htld
    have hpre : domain <+: units.drop (place + 1) := by
      refine List.IsPrefix.trans ?_ (List.takeWhile_prefix isDomainChar)
      rw [← hdomain, ← List.reverse_suffix, List.reverse_reverse]
      exact List.dropWhile_suffix _
    have hmem : ∀ u ∈ domain, isDomainChar u = true := by
      intro u hu
      rw [← hdomain, List.mem_reverse] at hu
      have := (List.dropWhile_suffix _).subset hu
      rw [List.mem_reverse] at this
      exact List.all_eq_true.mp List.all_takeWhile u this
    have hpos := List.length_pos_iff.mpr hne
    obtain ⟨u, hu, hlocal⟩ := member_before hplace.le le_rfl hstart
    refine .of_plain ?_ ⟨u, hu, isPlain_of_isLocalChar hlocal⟩ ⟨domain.getLast hne, ?_,
      isPlain_of_isDomainChar (hmem _ (List.getLast_mem hne))⟩
    · simp only [Hit.stop]
      omega
    · obtain ⟨tail, htail⟩ := hpre
      have hget : units[place + 1 + (domain.length - 1)]? = domain[domain.length - 1]? := by
        rw [← List.getElem?_drop, ← htail, List.getElem?_append_left (by omega)]
      rw [← List.getLast?_eq_some_getLast hne, List.getLast?_eq_getElem?, ← hget]
      simp only [Hit.stop]
      congr 1
      omega

theorem scanTokens_fitting (units : List Nat) : Fitting units (scanTokens units) := by
  obtain ⟨classified, hclassified, hfits⟩ : Fitting units _ :=
    .flatMap fun p hp => scanAlnum_fitting hp
  refine ⟨classified ++ scanPlates units ++ scanEmails units, ?_, fun hit hhit => ?_⟩
  · simp only [scanTokens, hclassified]
    rfl
  · simp only [List.mem_append] at hhit
    obtain (hhit | hhit) | hhit := hhit
    · exact hfits hit hhit
    · exact scanPlates_fits hit hhit
    · simp only [scanEmails, List.mem_filterMap] at hhit
      obtain ⟨place, -, hplace⟩ := hhit
      exact emailAt_fits hplace

end Tokens

section Secrets

variable {units : List Nat}

theorem length_beginMark : beginMark.length = 11 := by decide
theorem length_endMark : endMark.length = 9 := by decide
theorem length_dashes : dashes.length = 5 := by decide

theorem headerEnd_bounds {begin : Nat} (h : begin + 11 ≤ units.length) :
    begin + 11 ≤ headerEnd units begin ∧ headerEnd units begin ≤ units.length := by
  unfold headerEnd
  cases hfind : find units (begin + 11) dashes with
  | none => exact ⟨h, le_rfl⟩
  | some i =>
    have := find_bounds hfind
    rw [length_dashes] at this
    simp only [Option.map_some, Option.getD_some]
    omega

/-- A block ends with a dash or with the text. -/
theorem blockEnd_spec {header : Nat} (h : header ≤ units.length) :
    header ≤ blockEnd units header ∧ blockEnd units header ≤ units.length ∧
      (blockEnd units header = units.length ∨
        units[blockEnd units header - 1]? = some '-'.toNat) := by
  unfold blockEnd
  cases hend : find units header endMark with
  | none => exact ⟨h, le_rfl, .inl rfl⟩
  | some stop =>
    cases hclose : find units (stop + 9) dashes with
    | none =>
      simp only [Option.bind_some, hclose, Option.map_none, Option.getD_none]
      exact ⟨h, le_rfl, .inl trivial⟩
    | some i =>
      have hend := find_bounds hend
      have hclose' := find_bounds hclose
      rw [length_endMark] at hend
      rw [length_dashes] at hclose'
      simp only [Option.bind_some, hclose, Option.map_some, Option.getD_some]
      refine ⟨by omega, by omega, .inr ?_⟩
      rw [show i + 5 - 1 = i + 4 by omega,
        prefix_getElem? (find_some hclose).2.2 (by rw [length_dashes]; omega)]
      decide

/-- The header of the next line lies behind its mark. -/
theorem mark_bounds {begin start : Nat} (h : find units start beginMark = some begin) :
    start ≤ begin ∧ begin + 11 ≤ headerEnd units begin ∧
      headerEnd units begin ≤ units.length := by
  obtain ⟨hle, hbounds⟩ := find_bounds h
  rw [length_beginMark] at hbounds
  exact ⟨hle, headerEnd_bounds hbounds⟩

/-- A round of the loop passes a line that names no private key, or reports its block. -/
theorem privateKeysFrom_mark {begin start : Nat} (h : find units start beginMark = some begin)
    (left : Nat) : privateKeysFrom units (left + 1) start =
      if find ((units.take (headerEnd units begin)).drop begin) 0 keyLabel = none then
        privateKeysFrom units left (headerEnd units begin)
      else (privateKeysFrom units left (blockEnd units (headerEnd units begin))).map
        (⟨.privateKey, begin, blockEnd units (headerEnd units begin) - begin, .s3⟩ :: ·) := by
  obtain ⟨-, hheader, hheader'⟩ := mark_bounds h
  simp only [privateKeysFrom, h, slice_of_le (show begin ≤ headerEnd units begin by omega) hheader',
    bind, Option.bind_some, Option.isNone_iff_eq_none]
  split
  · rfl
  · cases privateKeysFrom units left (blockEnd units (headerEnd units begin)) <;> rfl

theorem privateKeysFrom_none {start : Nat} (h : find units start beginMark = none) (left : Nat) :
    privateKeysFrom units left start = some [] := by
  cases left with
  | zero => rfl
  | succ left => simp only [privateKeysFrom, h]

theorem privateKeysFrom_fitting (hpaired : Paired units) (left start : Nat) :
    Fitting units (privateKeysFrom units left start) := by
  induction left generalizing start with
  | zero => exact .nil
  | succ left ih =>
    cases hbegin : find units start beginMark with
    | none =>
      rw [privateKeysFrom_none hbegin]
      exact .nil
    | some begin =>
      obtain ⟨-, hheader, hheader'⟩ := mark_bounds hbegin
      obtain ⟨hblock, hblock', hlast⟩ := blockEnd_spec hheader'
      rw [privateKeysFrom_mark hbegin]
      split
      · exact ih _
      · obtain ⟨more, hmore, hfits⟩ := ih (blockEnd units (headerEnd units begin))
        rw [hmore]
        refine ⟨_, rfl, fun hit hhit => ?_⟩
        obtain rfl | hhit := List.mem_cons.mp hhit
        · simp only [Hit.Fits, Hit.stop,
            Nat.add_sub_cancel' (show begin ≤ blockEnd units (headerEnd units begin) by omega)]
          refine ⟨by omega, hblock', fun u hu => ?_, fun u hu => ?_⟩
          · have hdash := prefix_getElem? (find_some hbegin).2.2 (j := 0)
              (by rw [length_beginMark]; omega)
            rw [Nat.add_zero, hu] at hdash
            have hvalue : beginMark[0]? = some '-'.toNat := by decide
            rw [hvalue, Option.some.injEq] at hdash
            rw [hdash]
            decide
          · rcases hlast with hlast | hlast
            · rw [hlast] at hu
              exact hpaired.last hu
            · rw [hlast, Option.some.injEq] at hu
              rw [← hu]
              decide
        · exact hfits hit hhit

theorem scanPrivateKeys_fitting (hpaired : Paired units) : Fitting units (scanPrivateKeys units) :=
  privateKeysFrom_fitting hpaired _ _

theorem isPlain_of_isKeyMember {u : Nat} (h : isKeyMember u = true) : IsPlain u := by
  simp only [isKeyMember, Bool.or_eq_true, decide_eq_true_eq] at h
  obtain (h | rfl) | rfl := h
  · exact isPlain_of_isAlnum h
  · exact ⟨by decide, by decide⟩
  · exact ⟨by decide, by decide⟩

theorem scanKeyPrefixes_fitting (units : List Nat) : Fitting units (scanKeyPrefixes units) := by
  refine .flatMap fun p hp => ?_
  have hrun := isRun_of_mem_runs (a := p.1) (b := p.2) hp
  have hlt := hrun.lt
  simp only [slice_of_le hlt.le hrun.le, bind, Option.bind_some]
  refine ⟨_, rfl, fun hit hhit => ?_⟩
  obtain ⟨-, rfl⟩ := mem_report.mp hhit
  refine .of_run (fun _ => isPlain_of_isKeyMember) hrun le_rfl ?_ ?_
  · simp only [Hit.stop]
    omega
  · simp only [Hit.stop]
    omega

section Entropy

variable [Entropy]

/-- A token of which every candidate is a range. -/
theorem acceptRandom_fitting {start stop : Nat} {token : List Nat} {member : Nat → Bool}
    (hplain : ∀ u, member u = true → IsPlain u) (hrun : IsRun member units start stop)
    (htoken : token.length = stop - start) {candidates : List (Nat × Nat)}
    (hcandidates : ∀ p ∈ candidates, p.1 ≤ p.2 ∧ p.2 ≤ token.length)
    (accepted : List (Nat × Nat)) :
    Fitting units (acceptRandom token start candidates accepted) := by
  induction candidates generalizing accepted with
  | nil => exact .nil
  | cons p rest ih =>
    obtain ⟨a, b⟩ := p
    obtain ⟨hab, hb⟩ := hcandidates (a, b) List.mem_cons_self
    have ih := ih fun q hq => hcandidates q (List.mem_cons_of_mem _ hq)
    simp only at hab hb
    simp only [acceptRandom, slice_of_le hab hb, bind, Option.bind_some]
    split
    · next hrandom =>
      rw [Bool.and_eq_true] at hrandom
      have hlong : 32 ≤ b - a := by
        by_contra hshort
        have : looksRandom ((token.take b).drop a) = false := by
          rw [looksRandom, if_pos]
          simp
          omega
        rw [this] at hrandom
        cases hrandom.1
      obtain ⟨more, hmore, hfits⟩ := ih (accepted ++ [(a, b)])
      rw [hmore]
      refine ⟨_, rfl, fun hit hhit => ?_⟩
      obtain rfl | hhit := List.mem_cons.mp hhit
      · have := hrun.lt
        refine .of_run hplain hrun (Nat.le_add_right _ _) ?_ ?_
        · simp only [Hit.stop]
          omega
        · simp only [Hit.stop]
          omega
      · exact hfits hit hhit
    · exact ih accepted

omit [Entropy] in
theorem entropyCandidates_bounds {token : List Nat} :
    ∀ p ∈ entropyCandidates token, p.1 ≤ p.2 ∧ p.2 ≤ token.length := by
  intro p hp
  simp only [entropyCandidates, List.mem_append, List.mem_map, Option.mem_toList,
    Option.map_eq_some_iff, List.mem_singleton] at hp
  obtain (⟨q, hq, rfl⟩ | ⟨place, hplace, rfl⟩) | rfl := hp
  · have hrun := isRun_of_mem_runs (a := q.1) (b := q.2) hq
    have hlt := hrun.lt
    have hle := hrun.le
    have hpadding : (((token.drop q.2).take 2).takeWhile (· = '='.toNat)).length ≤
        token.length - q.2 := by
      refine (List.takeWhile_prefix _).length_le.trans ?_
      simp
    simp only [paddedPart]
    split
    · exact ⟨by simp only; omega, by simp only; omega⟩
    · exact ⟨hlt.le, hle⟩
  · have hlt : place < token.length := by
      rw [List.idxOf?, List.findIdx?_eq_some_iff_getElem] at hplace
      exact hplace.1
    exact ⟨hlt, le_rfl⟩
  · exact ⟨Nat.zero_le _, le_rfl⟩

omit [Entropy] in
theorem isPlain_of_entropyMember {u : Nat} (h : entropyMember u = true) : IsPlain u := by
  rw [entropyMember, Bool.or_eq_true] at h
  exact h.elim isPlain_of_isAlnum (isPlain_of_oneOf (by decide))

theorem scanEntropy_fitting (units : List Nat) : Fitting units (scanEntropy units) := by
  refine .flatMap fun p hp => ?_
  have hrun := isRun_of_mem_runs (a := p.1) (b := p.2) hp
  have hlt := hrun.lt
  have hle := hrun.le
  simp only [slice_of_le hlt.le hle, bind, Option.bind_some]
  refine acceptRandom_fitting ?_ hrun (by simp; omega) entropyCandidates_bounds []
  intro u hu
  rw [Bool.or_eq_true, decide_eq_true_eq] at hu
  obtain hu | rfl := hu
  · exact isPlain_of_entropyMember hu
  · exact ⟨by decide, by decide⟩

end Entropy

theorem isPlain_of_isPathMember {u : Nat} (h : isPathMember u = true) : IsPlain u := by
  rw [isPathMember, Bool.or_eq_true] at h
  exact h.elim isPlain_of_isAlnum (isPlain_of_oneOf (by decide))

theorem credentialPath_nil : credentialPath [] = false := by decide

theorem scanPath_fitting {p : Nat × Nat} (hp : p ∈ runs isPathMember units) :
    Fitting units (scanPath units p) := by
  obtain ⟨start, stop⟩ := p
  have hrun := isRun_of_mem_runs hp
  have hlt := hrun.lt
  have hle := hrun.le
  simp only [scanPath, slice_of_le hlt.le hle, bind, Option.bind_some]
  generalize htrimmed : ((((units.take stop).drop start).reverse.dropWhile
    (· = '\\'.toNat)).reverse) = trimmed
  have hlength : trimmed.length ≤ stop - start := by
    rw [← htrimmed, List.length_reverse]
    refine (List.dropWhile_suffix _).length_le.trans ?_
    simp only [List.length_reverse, List.length_drop, List.length_take]
    omega
  split
  · next hpath =>
    have hpos : 0 < trimmed.length := by
      rw [List.length_pos_iff]
      rintro rfl
      rw [show foldPath [] = [] from rfl, credentialPath_nil] at hpath
      cases hpath
    refine ⟨_, rfl, fun hit hhit => ?_⟩
    rw [List.mem_singleton] at hhit
    subst hhit
    refine .of_run (fun _ => isPlain_of_isPathMember) hrun le_rfl ?_ ?_
    · simp only [Hit.stop]
      omega
    · simp only [Hit.stop]
      omega
  · refine .flatMap fun q hq => ?_
    have hpart := isRun_of_mem_runs (a := q.1) (b := q.2) hq
    have hlt' := hpart.lt
    have hle' := hpart.le
    simp only [slice_of_le hlt'.le hle', Option.bind_some]
    refine ⟨_, rfl, fun hit hhit => ?_⟩
    obtain ⟨-, rfl⟩ := mem_report.mp hhit
    refine .of_run (fun _ => isPlain_of_isPathMember) hrun (Nat.le_add_right _ _) ?_ ?_
    · simp only [Hit.stop]
      omega
    · simp only [Hit.stop]
      omega

theorem scanSecrets_fitting [Entropy] (hpaired : Paired units) :
    Fitting units (scanSecrets units) := by
  obtain ⟨keys, hkeys, hkeysFit⟩ := scanPrivateKeys_fitting hpaired
  obtain ⟨prefixes, hprefixes, hprefixesFit⟩ := scanKeyPrefixes_fitting units
  obtain ⟨random, hrandom, hrandomFit⟩ := scanEntropy_fitting units
  obtain ⟨paths, hpaths, hpathsFit⟩ : Fitting units (scanPaths units) :=
    .flatMap fun _ hp => scanPath_fitting hp
  simp only [scanSecrets, hkeys, hprefixes, hrandom, hpaths]
  refine ⟨_, rfl, fun hit hhit => ?_⟩
  simp only [List.mem_append] at hhit
  obtain ((hhit | hhit) | hhit) | hhit := hhit
  · exact hkeysFit hit hhit
  · exact hprefixesFit hit hhit
  · exact hrandomFit hit hhit
  · exact hpathsFit hit hhit

end Secrets

end Inspect
