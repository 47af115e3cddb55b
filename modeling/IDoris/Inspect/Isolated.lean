import IDoris.Inspect.DigitRuns
import IDoris.Inspect.Hkid

/-!
# Characters that stand alone

With an invisible character behind each of its characters an ASCII text shows no rule a
run of two, so the text as it stands has no finding at all.
-/
namespace Inspect

open Scanner Utf16

/-- The zero-width space. -/
def zeroWidth : Nat := 0x200B

/-- ASCII units that zero-width spaces keep apart. -/
structure Apart (units : List Nat) : Prop where
  unit : ∀ u ∈ units, u < 128 ∨ u = zeroWidth
  alone : ∀ i u v, units[i]? = some u → units[i + 1]? = some v → u = zeroWidth ∨ v = zeroWidth

section Runs

variable {units : List Nat} {member : Nat → Bool} {a b i u v : Nat}

theorem Apart.next (h : Apart units) (hspace : member zeroWidth = false) (hu : units[i]? = some u)
    (hmember : member u = true) (hv : units[i + 1]? = some v) : v = zeroWidth := by
  refine (h.alone i u v hu hv).resolve_left ?_
  rintro rfl
  rw [hspace] at hmember
  cases hmember

/-- Members next to each other are one. -/
theorem Apart.stop_eq (h : Apart units) (hspace : member zeroWidth = false) (hlt : a < b)
    (hinside : ∀ i, a ≤ i → i < b → ∃ u, units[i]? = some u ∧ member u = true) : b = a + 1 := by
  by_contra hne
  obtain ⟨u, hu, hfirst⟩ := hinside a le_rfl hlt
  obtain ⟨v, hv, hsecond⟩ := hinside (a + 1) (by omega) (by omega)
  rw [h.next hspace hu hfirst hv, hspace] at hsecond
  cases hsecond

theorem Apart.run (h : Apart units) (hspace : member zeroWidth = false)
    (hrun : (a, b) ∈ runs member units) : b = a + 1 ∧ ∃ u, slice units a b = some [u] ∧
      member u = true ∧ ∀ v, units[a + 1]? = some v → v = zeroWidth := by
  have hisRun := isRun_of_mem_runs hrun
  obtain rfl := h.stop_eq hspace hisRun.lt hisRun.inside
  obtain ⟨u, hu, hmember⟩ := hisRun.inside a le_rfl (by omega)
  refine ⟨rfl, u, ?_, hmember, fun v hv => h.next hspace hu hmember hv⟩
  rw [slice_of_le (by omega) hisRun.le, List.drop_take, List.drop_eq_getElem_cons hisRun.le,
    show a + 1 - a = 1 by omega, List.take_succ_cons, List.take_zero]
  rw [List.getElem?_eq_getElem hisRun.le] at hu
  rw [Option.some.inj hu]

/-- No member comes where at most a zero-width space comes. -/
theorem takeWhile_drop_apart (hspace : member zeroWidth = false)
    (hnext : ∀ v, units[i]? = some v → v = zeroWidth) (n : Nat) :
    ((units.drop i).take n).takeWhile member = [] := by
  cases hdrop : units.drop i with
  | nil => rw [List.take_nil, List.takeWhile_nil]
  | cons v rest =>
    have hv : units[i]? = some v := by rw [← List.head?_drop, hdrop, List.head?_cons]
    obtain rfl := hnext v hv
    cases n with
    | zero => rfl
    | succ n => rw [List.take_succ_cons, List.takeWhile_cons_of_neg (by simp [hspace])]

theorem flatMapM_silent {α : Type} {f : α → Option (List Hit)} {xs : List α}
    (h : ∀ x ∈ xs, f x = some []) : flatMapM f xs = some [] := by
  induction xs with
  | nil => rfl
  | cons x xs ih =>
    rw [flatMapM_cons, h x List.mem_cons_self, ih fun y hy => h y (List.mem_cons_of_mem _ hy)]
    rfl

end Runs

section Numbers

variable {units : List Nat} {a b : Nat}

theorem classify_short {c : Candidate} (h : c.digits.length < 11) : classify c = some [] := by
  have hsuffixed : classifySuffixed c = some [] := if_neg (by omega)
  have hmodern : classifyModern c = some [] := if_neg (by omega)
  have hlegacy : classifyLegacy c = some [] := if_neg (by omega)
  have hmobile : isMobileRun c.digits = some false := by
    rw [isMobileRun, if_neg (by omega), if_neg (by omega)]
  have hcard : isCardRun c.digits = some false := if_neg (by omega)
  rw [classify, hsuffixed, hmodern, hlegacy, hmobile, hcard]
  rfl

variable {separator : Nat → Bool}

theorem Apart.group (h : Apart units) (hspace : separator zeroWidth = false)
    (hgroup : (a, b) ∈ stretches (groupLength separator) units) :
    b = a + 1 ∧ ∃ u, slice units a b = some [u] ∧ isDigit u = true := by
  have hisGroup := isGroup_of_mem hgroup
  let member := fun u => isDigit u || separator u
  have hmember : member zeroWidth = false := by
    simp only [member, hspace, Bool.or_false]
    decide
  have hinside : ∀ i, a ≤ i → i < b → ∃ u, units[i]? = some u ∧ member u = true := by
    intro i hi hi'
    obtain ⟨u, hu, hin⟩ := group_member hgroup hi hi'
    exact ⟨u, hu, (Bool.or_eq_true _ _).mpr hin⟩
  obtain rfl := h.stop_eq hmember hisGroup.lt hinside
  obtain ⟨u, hu, hdigit⟩ := hisGroup.first
  refine ⟨rfl, u, ?_, hdigit⟩
  rw [slice_of_le (by omega) hisGroup.le, List.drop_take, List.drop_eq_getElem_cons hisGroup.le,
    show a + 1 - a = 1 by omega, List.take_succ_cons, List.take_zero]
  rw [List.getElem?_eq_getElem hisGroup.le] at hu
  rw [Option.some.inj hu]

theorem scanGroups_apart (h : Apart units) : scanGroups units = some [] := by
  refine flatMapM_silent fun p hp => ?_
  obtain ⟨a, b⟩ := p
  obtain ⟨rfl, u, hslice, hdigit⟩ := h.group (by decide) hp
  simp only [scanGroup, hslice, bind, Option.bind_some, List.filter_cons, hdigit, if_true,
    List.filter_nil, List.map_cons, List.map_nil]
  rw [classify_short (by simp)]
  simp

theorem runs_digit {u : Nat} (h : isDigit u = true) : runs isDigit [u] = [(0, 1)] := by
  simp [runs, stretches, stretchesFrom, runLength, h]

theorem scanFormatted_apart (h : Apart units) : scanFormatted units = some [] := by
  refine flatMapM_silent fun p hp => ?_
  obtain ⟨a, b⟩ := p
  obtain ⟨rfl, u, hslice, hdigit⟩ := h.group (by decide) hp
  have hwindow : formattedWindow units [(a, a + 1)] = some [] := by
    simp [formattedWindow, flatMapM_cons, flatMapM_nil, hslice, classify_short]
  have hshortest : shortestWindow units [(a, a + 1)] 5 0 = some none := by
    simp [shortestWindow, hwindow]
  simp [scanChain, hslice, runs_digit hdigit, scanWindows, hshortest]

theorem not_any_apart {member : Nat → Bool} {i : Nat} (hspace : member zeroWidth = false)
    (hnext : ∀ v, units[i]? = some v → v = zeroWidth) : units[i]?.any member = false := by
  cases hget : units[i]? with
  | none => rfl
  | some v => rw [hnext v hget, Option.any_some, hspace]

theorem scanCountryMobile_apart (h : Apart units) : scanCountryMobile units = some [] := by
  refine flatMapM_silent fun p hp => ?_
  obtain ⟨a, b⟩ := p
  obtain ⟨rfl, u, hslice, -, hnext⟩ := h.run (by decide) hp
  have hseparator : units[a + 1]?.any isFormattedSeparator = false :=
    not_any_apart (by decide) hnext
  simp [hslice, countryMobile, hseparator]

theorem scanCrosslineModernId_apart (h : Apart units) : scanCrosslineModernId units = some [] := by
  refine flatMapM_silent fun p hp => ?_
  obtain ⟨a, b⟩ := p
  obtain ⟨rfl, u, hslice, -, hnext⟩ := h.run (by decide) hp
  have hgap : crosslineGap units (a + 1) = none := by
    rw [crosslineGap, takeWhile_drop_apart (by decide) hnext]
    simp
  simp only [Nat.add_sub_cancel_left, hslice, bind, Option.bind_some]
  split
  · rfl
  · simp [crosslineId, hgap]

end Numbers

section Tokens

variable {units : List Nat}

theorem classifyToken_short {t rest : List Nat} {start : Nat} (h : t.length < 7) :
    classifyToken t start rest = some [] := by
  have hparen : ∀ letters, 1 ≤ letters → parenthesizedHkid t letters start rest = [] :=
    fun letters hletters => if_pos (by omega)
  have hplain : plainHkid t start = [] := by
    unfold plainHkid
    split
    · rfl
    · have hvalid : ∀ check, hkidValid t.dropLast check = false := by
        intro check
        have hletters : t.dropLast.length - 6 = 0 := by
          rw [List.length_dropLast]
          omega
        simp only [hkidValid, hletters]
        simp
      rw [hvalid]
      rfl
  rw [classifyToken, if_neg (by omega), if_neg (by omega), if_neg (by omega)]
  simp [report, hparen, hplain]

theorem not_plateProvince {u : Nat} (h : u < 128 ∨ u = zeroWidth) :
    oneOf plateProvinces u = false := by
  have hall : ∀ v ∈ encode plateProvinces, zeroWidth < v := by decide +kernel
  rw [oneOf, ← Bool.not_eq_true, List.contains_iff_mem]
  intro hmem
  have hlt := hall u hmem
  simp only [zeroWidth] at hlt h
  omega

theorem scanPlates_apart (h : Apart units) : scanPlates units = [] := by
  rw [scanPlates, List.filterMap_eq_nil_iff]
  intro i _
  rw [Option.map_eq_none_iff]
  cases hdrop : units.drop i with
  | nil => rfl
  | cons province rest =>
    have hmem : province ∈ units := List.mem_of_mem_drop (hdrop ▸ List.mem_cons_self)
    cases rest with
    | nil => rfl
    | cons office rest => simp [plateLength, not_plateProvince (h.unit province hmem)]

theorem scanEmails_apart (h : Apart units) : scanEmails units = [] := by
  rw [scanEmails, List.filterMap_eq_nil_iff]
  intro place hplace
  unfold emailAt
  split
  · rfl
  · next hat =>
    rw [ne_eq, not_not] at hat
    have hlocal : (units.take place).reverse.takeWhile isLocalChar = [] := by
      cases place with
      | zero => rfl
      | succ place =>
        have hlt : place < units.length := by
          have := (List.getElem?_eq_some_iff.mp hat).1
          omega
        obtain hbefore | hsign := h.alone place _ _ (List.getElem?_eq_getElem hlt) hat
        · rw [List.take_succ_eq_append_getElem hlt, List.reverse_append, List.reverse_singleton,
            List.singleton_append, List.takeWhile_cons_of_neg]
          rw [hbefore]
          decide
        · exact absurd hsign (by decide)
    simp [hlocal]

theorem scanTokens_apart (h : Apart units) : scanTokens units = some [] := by
  unfold scanTokens
  rw [flatMapM_silent, scanPlates_apart h, scanEmails_apart h]
  · rfl
  · intro p hp
    obtain ⟨a, b⟩ := p
    have hle := (isRun_of_mem_runs hp).le
    obtain ⟨rfl, u, hslice, -⟩ := h.run (by decide) hp
    simp [hslice, slice_of_le hle le_rfl, classifyToken_short]

end Tokens

section Secrets

variable {units : List Nat}

theorem scanPrivateKeys_apart (h : Apart units) : scanPrivateKeys units = some [] := by
  have hnone : find units 0 beginMark = none := by
    cases hfind : find units 0 beginMark with
    | none => rfl
    | some i =>
      obtain ⟨-, -, hmark⟩ := find_some hfind
      have hfirst := prefix_getElem? hmark (show 0 < beginMark.length by decide)
      have hsecond := prefix_getElem? hmark (show 1 < beginMark.length by decide)
      obtain hdash | hdash := h.alone i '-'.toNat '-'.toNat hfirst hsecond
      · cases hdash
      · cases hdash
  rw [scanPrivateKeys, privateKeysFrom_none hnone]

theorem hasKeyPrefix_short {token : List Nat} (h : token.length < 13) :
    hasKeyPrefix token = false := by
  have hlong : ∀ p ∈ keyPrefixes, 13 ≤ (encode p.1).length + p.2 := by decide
  rw [hasKeyPrefix, List.any_eq_false]
  intro p hp
  have := hlong p hp
  simp
  omega

theorem scanKeyPrefixes_apart (h : Apart units) : scanKeyPrefixes units = some [] := by
  refine flatMapM_silent fun p hp => ?_
  obtain ⟨a, b⟩ := p
  obtain ⟨rfl, u, hslice, -⟩ := h.run (by decide) hp
  simp [hslice, hasKeyPrefix_short, report]

variable [Entropy]

theorem acceptRandom_short {token : List Nat} (h : token.length < 32) {start : Nat}
    {candidates accepted : List (Nat × Nat)}
    (hbounds : ∀ p ∈ candidates, p.1 ≤ p.2 ∧ p.2 ≤ token.length) :
    acceptRandom token start candidates accepted = some [] := by
  induction candidates with
  | nil => rfl
  | cons p rest ih =>
    obtain ⟨a, b⟩ := p
    obtain ⟨hab, hb⟩ := hbounds (a, b) List.mem_cons_self
    have hplain : looksRandom ((token.take b).drop a) = false := by
      rw [looksRandom, if_pos]
      rw [List.length_drop, List.length_take]
      omega
    rw [acceptRandom, slice_of_le hab hb]
    simp only [bind, Option.bind_some, hplain, Bool.false_and, Bool.false_eq_true, if_false]
    exact ih fun q hq => hbounds q (List.mem_cons_of_mem _ hq)

theorem scanEntropy_apart (h : Apart units) : scanEntropy units = some [] := by
  refine flatMapM_silent fun p hp => ?_
  obtain ⟨a, b⟩ := p
  obtain ⟨rfl, u, hslice, -⟩ := h.run (by decide) hp
  simp only [hslice, bind, Option.bind_some]
  exact acceptRandom_short (by simp) entropyCandidates_bounds

omit [Entropy] in
theorem credentialPath_short {token : List Nat} (h : token.length < 4) :
    credentialPath token = false := by
  have hlong : ∀ path ∈ credentialPaths, 4 ≤ (encode path).length := by decide
  have hpath : ∀ path ∈ credentialPaths, find token 0 (encode path) = none := by
    intro path hmem
    cases hfind : find token 0 (encode path) with
    | none => rfl
    | some i =>
      have hbounds := find_bounds hfind
      have := hlong path hmem
      omega
  have henv : ∀ place, (encode ".env").isPrefixOf (token.drop place) = false := by
    intro place
    rw [← Bool.not_eq_true, List.isPrefixOf_iff_prefix]
    intro hprefix
    have hlength := hprefix.length_le
    rw [show (encode ".env").length = 4 by decide, List.length_drop] at hlength
    omega
  rw [credentialPath, Bool.or_eq_false_iff]
  constructor
  · rw [List.any_eq_false]
    intro path hmem
    simp [hpath path hmem]
  · rw [isEnvFile, List.any_eq_false]
    intro place _
    simp [henv place]

omit [Entropy] in
theorem length_foldPath_le (token : List Nat) : (foldPath token).length ≤ token.length := by
  have hfold : ∀ (units folded : List Nat), (units.foldl (fun folded u =>
      let u := if u = '\\'.toNat then '/'.toNat else u
      if u ≠ '/'.toNat || folded.getLast? ≠ some u then folded ++ [u] else folded) folded).length ≤
        folded.length + units.length := by
    intro units
    induction units with
    | nil => exact fun _ => le_rfl
    | cons u rest ih =>
      intro folded
      rw [List.foldl_cons]
      refine (ih _).trans ?_
      simp only [List.length_cons]
      generalize (if u = '\\'.toNat then '/'.toNat else u) = v
      split
      · rw [List.length_append, List.length_singleton]
        omega
      · omega
  simpa [foldPath] using hfold token []

omit [Entropy] in
theorem scanPaths_apart (h : Apart units) : scanPaths units = some [] := by
  refine flatMapM_silent fun p hp => ?_
  obtain ⟨a, b⟩ := p
  obtain ⟨rfl, u, hslice, -⟩ := h.run (by decide) hp
  simp only [scanPath, hslice, bind, Option.bind_some]
  generalize htrimmed : ([u].reverse.dropWhile (· = '\\'.toNat)).reverse = trimmed
  have hlength : trimmed.length ≤ 1 := by
    rw [← htrimmed, List.length_reverse]
    exact (List.dropWhile_suffix _).length_le
  have hfolded := length_foldPath_le trimmed
  rw [if_neg (by rw [credentialPath_short (by omega)]; exact Bool.false_ne_true)]
  refine flatMapM_silent fun q hq => ?_
  have hpart := isRun_of_mem_runs (a := q.1) (b := q.2) hq
  have hle := hpart.le
  rw [slice_of_le hpart.lt.le hle, Option.bind_some, credentialPath_short]
  · rfl
  · rw [List.length_drop, List.length_take]
    omega

theorem scanSecrets_apart (h : Apart units) : scanSecrets units = some [] := by
  rw [scanSecrets, scanPrivateKeys_apart h, scanKeyPrefixes_apart h, scanEntropy_apart h,
    scanPaths_apart h]
  rfl

end Secrets

section Decoded

variable {units : List Nat} {inner : List Nat → Option (List Hit)}

theorem Apart.tail {u : Nat} {rest : List Nat} (h : Apart (u :: rest)) : Apart rest :=
  ⟨fun v hv => h.unit v (List.mem_cons_of_mem _ hv), fun i v w hv hw => h.alone (i + 1) v w hv hw⟩

theorem percentChar_apart (h : Apart units) : percentChar units = none := by
  have hbyte : byteAt units = none := by
    cases hbyte : byteAt units with
    | none => rfl
    | some byte =>
      obtain ⟨high, low, rest, a, b, rfl, ha, -⟩ := byteAt_some hbyte
      obtain hpercent | hhigh := h.alone 0 _ _ rfl rfl
      · exact absurd hpercent (by decide)
      · rw [hhigh] at ha
        cases ha
  rw [percentChar, hbyte]
  rfl

theorem decodePercent_apart (h : Apart units) : decodePercent units = none := by
  have hnone : ∀ base, (decodePercentFrom 0 units base).2 = 0 := by
    induction units with
    | nil => exact fun _ => rfl
    | cons u rest ih =>
      intro base
      rw [decodePercentFrom_literal (percentChar_apart h)]
      exact ih h.tail _
  simp [decodePercent, hnone, minPercentEscapes]

theorem scanDecoded_apart (h : Apart units) : scanDecoded inner units = some [] := by
  have htokens : flatMapM (scanToken inner units) (runs isTokenMember units) = some [] := by
    refine flatMapM_silent fun p hp => ?_
    obtain ⟨a, b⟩ := p
    obtain ⟨rfl, u, hslice, -, hnext⟩ := h.run (by decide) hp
    have hpadding : ((units.drop (a + 1)).take 2).takeWhile (· = '='.toNat) = [] :=
      takeWhile_drop_apart (by decide) hnext 2
    have hhex : decodeHex [u] = none := rfl
    have hbase : decodeBase64 [u] = none := by
      have hbody : (base64Body [u]).length ≤ 1 := by
        unfold base64Body
        split
        · simp
        · split <;> simp
      refine if_pos ?_
      rw [Bool.or_eq_true, decide_eq_true_eq, minBase64]
      exact .inl (by omega)
    simp only [scanToken, hpadding, List.length_nil, Nat.add_zero, hslice, bind, Option.bind_some,
      hhex, hbase]
    rfl
  simp only [scanDecoded, htokens, scanPercent, decodePercent_apart h]
  rfl

variable [Entropy]

/-- Nothing is found where no two characters stand together. -/
theorem scan_apart (h : Apart units) : scan units = some [] := by
  have hplain : plainHits units = some [] := by
    rw [plainHits, scanGroups_apart h, scanFormatted_apart h, scanCountryMobile_apart h,
      scanTokens_apart h, scanSecrets_apart h, scanCrosslineModernId_apart h]
    rfl
  simp only [scan, scanPlain, hplain, scanDecoded_apart h]
  rfl

end Decoded

end Inspect
