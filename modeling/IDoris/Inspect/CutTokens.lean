import IDoris.Inspect.Cuts

/-!
# Tokens and secrets between NULs

The rules for tokens, mail addresses, plates, keys and paths find in a part of a text what they
find in it alone. The scan for private keys finds a line of the part that it reaches.
-/
namespace Inspect

open Scanner Utf16

section Tokens

variable (cut : Cut) {n a b : Nat}

theorem hkidParenWindow_append {rest : List Nat} {window : Nat × Nat}
    (h : hkidParenWindow rest = some window) (more : List Nat) :
    hkidParenWindow (rest ++ more) = some window := by
  have hhead : rest ≠ [] → (rest ++ more).head? = rest.head? := by
    intro hne
    cases rest with
    | nil => exact absurd rfl hne
    | cons u rest => rfl
  have hne : rest ≠ [] := by
    rintro rfl
    cases h
  have hpos := List.length_pos_iff.mpr hne
  simp only [hkidParenWindow, hhead hne] at h ⊢
  have hle : (if rest.head? = some ' '.toNat then 1 else 0) ≤ rest.length := by
    split <;> omega
  generalize (if rest.head? = some ' '.toNat then 1 else 0) = base at h hle ⊢
  rw [List.drop_append_of_le_length hle]
  split at h
  · next hdrop =>
    rw [hdrop]
    exact h
  · cases h

theorem mem_parenthesizedHkid {t rest : List Nat} {letters start : Nat} {hit : Hit}
    (h : hit ∈ parenthesizedHkid t letters start rest) (more : List Nat) :
    hit.move n ∈ parenthesizedHkid t letters (n + start) (rest ++ more) := by
  unfold parenthesizedHkid at h ⊢
  split at h
  · cases h
  · next hlen =>
    rw [if_neg hlen]
    split at h
    · cases h
    · next check extra hwindow =>
      rw [hkidParenWindow_append hwindow]
      obtain ⟨hvalid, rfl⟩ := mem_report.mp h
      exact mem_report.mpr ⟨hvalid, rfl⟩

theorem classifyToken_move (t rest more : List Nat) (start : Nat) :
    Carried n (classifyToken t start rest) (classifyToken t (n + start) (rest ++ more)) := by
  have hplain : plainHkid t (n + start) = (plainHkid t start).map (Hit.move n) := by
    unfold plainHkid
    split
    · rfl
    · rw [← report_move]
      rfl
  intro hits hits' hhits hhits' hit hhit
  simp only [classifyToken, bind, Option.bind_eq_some_iff, pure, Option.some.injEq] at hhits hhits'
  obtain ⟨code, hcode, passport, hpassport, permit, hpermit, rfl⟩ := hhits
  simp only [hcode, hpassport, hpermit, Option.some.injEq] at hhits'
  obtain ⟨_, rfl, _, rfl, _, rfl, rfl⟩ := hhits'
  refine .of_mem ?_
  simp only [List.mem_append] at hhit ⊢
  obtain ((((h | h) | h) | h) | h) | h := hhit
  · obtain ⟨hfound, rfl⟩ := mem_report.mp h
    exact .inl (.inl (.inl (.inl (.inl (mem_report.mpr ⟨hfound, rfl⟩)))))
  · obtain ⟨hfound, rfl⟩ := mem_report.mp h
    exact .inl (.inl (.inl (.inl (.inr (mem_report.mpr ⟨hfound, rfl⟩)))))
  · obtain ⟨hfound, rfl⟩ := mem_report.mp h
    exact .inl (.inl (.inl (.inr (mem_report.mpr ⟨hfound, rfl⟩))))
  · exact .inl (.inl (.inr (mem_parenthesizedHkid h more)))
  · exact .inl (.inr (mem_parenthesizedHkid h more))
  · exact .inr (hplain ▸ List.mem_map_of_mem h)

theorem plateLength_append {t more : List Nat} {length : Nat}
    (hmore : ∀ u, more.head? = some u → u = 0) (h : plateLength t = some length) :
    plateLength (t ++ more) = some length := by
  unfold plateLength at h
  split at h
  · next province office rest =>
    let tail : Cut := ⟨[], rest, more, by simp, hmore⟩
    have hhead : (rest ++ more).head?.any (fun s => decide (s = 0xB7) || decide (s = ' '.toNat)) =
        rest.head?.any (fun s => decide (s = 0xB7) || decide (s = ' '.toNat)) := by
      have := @Cut.any_text tail (fun s => decide (s = 0xB7) || decide (s = ' '.toNat)) 0
        (by decide) (Nat.zero_le _)
      simpa [tail, Cut.text, Cut.start, ← List.head?_eq_getElem?] using this
    have hgap : (if (rest.head?.any fun s => decide (s = 0xB7) || decide (s = ' '.toNat)) = true
        then 1 else 0) ≤ rest.length := by
      cases rest with
      | nil => simp
      | cons u rest => split <;> simp
    simp only [List.cons_append, plateLength, hhead]
    split at h
    · cases h
    · next hprovince =>
      rw [if_neg hprovince]
      generalize (if (rest.head?.any fun s => decide (s = 0xB7) || decide (s = ' '.toNat)) = true
        then 1 else 0) = gap at h hgap ⊢
      have htail := tail.takeWhile_drop (show isPlateChar 0 = false by decide) hgap
      have hdrop : tail.text.drop (tail.start + gap) = (rest ++ more).drop gap := by
        simp [tail, Cut.text, Cut.start]
      rw [hdrop] at htail
      have hrun : ((rest.drop gap).takeWhile isPlateChar).length ≤ rest.length - gap := by
        rw [← List.length_drop]
        exact (List.takeWhile_prefix _).length_le
      have hboundary := @Cut.all_text tail (fun next => !isAlnum next) _ (by decide)
        (show gap + ((rest.drop gap).takeWhile isPlateChar).length ≤ rest.length by omega)
      simp only [tail, Cut.text, Cut.start, List.length_nil, Nat.zero_add,
        List.nil_append] at hboundary htail
      rw [htail, hboundary]
      exact h
  · cases h

theorem Cut.scanPlates {hit : Hit} (h : hit ∈ scanPlates cut.units) :
    hit.move cut.start ∈ scanPlates cut.text := by
  simp only [Inspect.scanPlates, List.mem_filterMap, List.mem_range, Option.map_eq_some_iff] at h ⊢
  obtain ⟨i, hi, length, hlength, rfl⟩ := h
  refine ⟨cut.start + i, ?_, length, ?_, rfl⟩
  · rw [cut.length_text]
    omega
  · rw [cut.drop_text hi.le]
    exact plateLength_append cut.closes hlength

theorem Cut.emailAt {place : Nat} (h : place < cut.units.length) :
    emailAt cut.text (cut.start + place) =
      (emailAt cut.units place).map (Hit.move cut.start) := by
  have hlocal : ((cut.units.take place).reverse.takeWhile isLocalChar).length ≤ place := by
    refine (List.takeWhile_prefix _).length_le.trans ?_
    rw [List.length_reverse, List.length_take]
    omega
  simp only [Inspect.emailAt, cut.getElem?_text h,
    cut.takeWhile_reverse (show isLocalChar 0 = false by decide) h.le, Nat.add_assoc cut.start,
    cut.takeWhile_drop (show isDomainChar 0 = false by decide) h]
  generalize ((cut.units.take place).reverse.takeWhile isLocalChar).length = length at hlocal ⊢
  rw [Nat.add_sub_assoc hlocal]
  split
  · rfl
  · simp only [Nat.add_lt_add_iff_left]
    split
    · simp only [Option.map_some, Hit.move, Nat.add_assoc, Nat.add_sub_add_left]
    · rfl

theorem Cut.scanEmails {hit : Hit} (h : hit ∈ scanEmails cut.units) :
    hit.move cut.start ∈ scanEmails cut.text := by
  simp only [Inspect.scanEmails, List.mem_filterMap, List.mem_range] at h ⊢
  obtain ⟨place, hplace, hemail⟩ := h
  refine ⟨cut.start + place, ?_, ?_⟩
  · rw [cut.length_text]
    omega
  · rw [cut.emailAt hplace, hemail]
    rfl

theorem Cut.scanTokens : Carried cut.start (scanTokens cut.units) (scanTokens cut.text) := by
  have hclassified : Carried cut.start
      (flatMapM (fun p => do
        let token := (← slice cut.units p.1 p.2).map toUppercase
        classifyToken token p.1 (← slice cut.units p.2 cut.units.length))
          (runs isAlnum cut.units))
      (flatMapM (fun p => do
        let token := (← slice cut.text p.1 p.2).map toUppercase
        classifyToken token p.1 (← slice cut.text p.2 cut.text.length))
          (runs isAlnum cut.text)) := by
    refine .flatMap fun p hp => ?_
    obtain ⟨a, b⟩ := p
    have hrun := isRun_of_mem_runs hp
    refine ⟨_, cut.mem_runs (by decide) hp, ?_⟩
    have hlen := cut.length_text
    have hle := hrun.le
    simp only [cut.slice_text hrun.le, slice_of_le hrun.lt.le hrun.le, slice_of_le hrun.le le_rfl,
      slice_of_le (show cut.start + b ≤ cut.text.length by omega) le_rfl, List.take_length,
      cut.drop_text hrun.le, bind, Option.bind_some]
    exact classifyToken_move _ _ _ _
  intro hits hits' hhits hhits' hit hhit
  simp only [Inspect.scanTokens, bind, Option.bind_eq_some_iff, pure, Option.some.injEq]
    at hhits hhits'
  obtain ⟨classified, hfound, rfl⟩ := hhits
  obtain ⟨classified', hfound', rfl⟩ := hhits'
  simp only [List.mem_append] at hhit
  obtain (h | h) | h := hhit
  · refine (hclassified _ _ hfound hfound' hit h).mono ?_
    rw [List.append_assoc]
    exact List.subset_append_left _ _
  · exact .of_mem (by simp [cut.scanPlates h])
  · exact .of_mem (by simp [cut.scanEmails h])

end Tokens

section Secrets

variable (cut : Cut) {n : Nat}

theorem Cut.scanKeyPrefixes :
    Carried cut.start (scanKeyPrefixes cut.units) (scanKeyPrefixes cut.text) := by
  refine .flatMap fun p hp => ?_
  obtain ⟨a, b⟩ := p
  have hrun := isRun_of_mem_runs hp
  refine ⟨_, cut.mem_runs (by decide) hp, .of_eq ?_⟩
  simp only [cut.slice_text hrun.le, slice_of_le hrun.lt.le hrun.le, Nat.add_sub_add_left, bind,
    Option.bind_some, pure, moved, Option.map_some, ← report_move]
  rfl

variable [Entropy]

theorem acceptRandom_move (token : List Nat) (start : Nat)
    (candidates accepted : List (Nat × Nat)) :
    acceptRandom token (n + start) candidates accepted =
      moved n (acceptRandom token start candidates accepted) := by
  induction candidates generalizing accepted with
  | nil => rfl
  | cons p rest ih =>
    obtain ⟨a, b⟩ := p
    simp only [acceptRandom, ih]
    cases slice token a b with
    | none => rfl
    | some part =>
      simp only [bind, Option.bind_some]
      split
      · cases acceptRandom token start rest (accepted ++ [(a, b)]) with
        | none => rfl
        | some found => simp [moved, Hit.move, Nat.add_assoc]
      · rfl

theorem Cut.scanEntropy : Carried cut.start (scanEntropy cut.units) (scanEntropy cut.text) := by
  refine .flatMap fun p hp => ?_
  obtain ⟨a, b⟩ := p
  have hrun := isRun_of_mem_runs hp
  refine ⟨_, cut.mem_runs (by decide) hp, .of_eq ?_⟩
  simp only [cut.slice_text hrun.le, slice_of_le hrun.lt.le hrun.le, bind, Option.bind_some]
  exact acceptRandom_move _ _ _ _

omit [Entropy] in
theorem Cut.scanPaths : Carried cut.start (scanPaths cut.units) (scanPaths cut.text) := by
  refine .flatMap fun p hp => ?_
  obtain ⟨a, b⟩ := p
  have hrun := isRun_of_mem_runs hp
  refine ⟨_, cut.mem_runs (by decide) hp, .of_eq ?_⟩
  simp only [scanPath, cut.slice_text hrun.le, slice_of_le hrun.lt.le hrun.le, bind,
    Option.bind_some]
  generalize ((((cut.units.take b).drop a).reverse.dropWhile (· = '\\'.toNat)).reverse) = trimmed
  split
  · rfl
  · refine flatMapM_move fun q _ => ?_
    cases slice trimmed q.1 q.2 with
    | none => rfl
    | some part =>
      simp only [Option.bind_some, pure, moved, Option.map_some, ← report_move, Nat.add_assoc]
      rfl

end Secrets

section Keys

variable {units : List Nat} {p q : Nat}

/-- A line that begins at the place and names a private key. -/
structure KeyLine (units : List Nat) (p : Nat) : Prop where
  mark : beginMark <+: units.drop p
  key : find ((units.take (headerEnd units p)).drop p) 0 keyLabel ≠ none

instance : DecidablePred (KeyLine units) := fun p =>
  decidable_of_iff (beginMark <+: units.drop p ∧
      find ((units.take (headerEnd units p)).drop p) 0 keyLabel ≠ none)
    ⟨fun h => ⟨h.1, h.2⟩, fun h => ⟨h.mark, h.key⟩⟩

/-- Where the scan goes on before the first key: behind each line that names none. -/
def passedFrom (units : List Nat) : (left start : Nat) → List Nat
  | 0, _ => []
  | left + 1, start =>
    start :: match find units start beginMark with
      | none => []
      | some begin =>
        if find ((units.take (headerEnd units begin)).drop begin) 0 keyLabel = none then
          passedFrom units left (headerEnd units begin)
        else []

/-- The scan does not go on from inside the five opening dashes at the place. -/
def Reached (units : List Nat) (p : Nat) : Prop :=
  ∀ q ∈ passedFrom units (units.length + 1) 0, q ≤ p ∨ p + 5 < q

instance : DecidablePred (Reached units) := fun _ => inferInstanceAs (Decidable (∀ _ ∈ _, _))

theorem KeyLine.bounds (h : KeyLine units p) : p + 11 ≤ units.length := by
  have hlen := h.mark.length_le
  rw [length_beginMark, List.length_drop] at hlen
  omega

/-- A line that is reached shows a key, or one before it does. -/
theorem privateKeysFrom_reached (h : KeyLine units p) {left : Nat}
    (hreached : ∀ r ∈ passedFrom units left q, r ≤ p ∨ p + 5 < r) (hle : q ≤ p)
    (hleft : units.length < q + left) {hits : List Hit}
    (hhits : privateKeysFrom units left q = some hits) : ∃ hit ∈ hits, hit.kind = .privateKey := by
  have hlen := h.bounds
  induction left generalizing q hits with
  | zero => omega
  | succ left ih =>
    obtain ⟨begin, hbegin⟩ := find_isSome hle h.mark (by omega)
    have hbeginLe := find_le hbegin hle h.mark (by omega)
    obtain ⟨hqle, hheader, hheader'⟩ := mark_bounds hbegin
    rw [privateKeysFrom_mark hbegin] at hhits
    split at hhits
    · next hlabel =>
      simp only [passedFrom, hbegin, if_pos hlabel] at hreached
      obtain hlt | rfl := Nat.lt_or_eq_of_le hbeginLe
      · have hnext := mark_disjoint (find_some hbegin).2.2 h.mark (n := 10) (by decide) (by decide)
          le_rfl hlt
        have hopening : dashes <+: units.drop p := List.IsPrefix.trans (by decide) h.mark
        have hheaderLe := headerEnd_le hopening (by omega) hnext
        have hrest : ∀ r ∈ passedFrom units left (headerEnd units begin), r ≤ p ∨ p + 5 < r :=
          fun r hr => hreached r (List.mem_cons_of_mem _ hr)
        cases left with
        | zero => omega
        | succ left =>
          have hfree := hrest _ List.mem_cons_self
          exact ih hrest (by omega) (by omega) hhits
      · exact absurd hlabel h.key
    · obtain ⟨more, -, rfl⟩ := Option.map_eq_some_iff.mp hhits
      exact ⟨_, List.mem_cons_self, rfl⟩

theorem resumes_of_passed {left r : Nat} (hq : Resumes units q) (h : r ∈ passedFrom units left q) :
    Resumes units r := by
  induction left generalizing q with
  | zero => cases h
  | succ left ih =>
    obtain rfl | h := List.mem_cons.mp h
    · exact hq
    · split at h
      · cases h
      · next begin hbegin =>
        split at h
        · next hlabel => exact ih (hq.line hbegin hlabel) h
        · cases h

/-- No hit covers the mark of a line that is not reached. -/
theorem not_covers_of_not_reached (h : ¬Reached units p) {hits : List Hit}
    (hhits : scanPrivateKeys units = some hits) : ∀ hit ∈ hits, ¬hit.Covers p (p + 11) := by
  simp only [Reached, not_forall, not_or, not_le, not_lt] at h
  obtain ⟨q, hq, hlt, hle⟩ := h
  obtain ⟨hend, left, before, after, -, rfl, hafter, hbefore⟩ :=
    scanPrivateKeys_split (resumes_of_passed .start hq) hhits
  rintro hit hhit ⟨-, hstart, hstop⟩
  obtain hhit | hhit := List.mem_append.mp hhit
  · have := hbefore hit hhit
    omega
  · have := privateKeysFrom_le hend hafter hit hhit
    omega

/-- A key is shown at a line that names one. -/
theorem exists_keyLine {left : Nat} {hits : List Hit} {hit : Hit}
    (hhits : privateKeysFrom units left q = some hits) (hhit : hit ∈ hits) :
    ∃ p, KeyLine units p := by
  induction left generalizing q hits with
  | zero =>
    cases hhits
    cases hhit
  | succ left ih =>
    cases hbegin : find units q beginMark with
    | none =>
      rw [privateKeysFrom_none hbegin] at hhits
      cases hhits
      cases hhit
    | some begin =>
      rw [privateKeysFrom_mark hbegin] at hhits
      split at hhits
      · exact ih hhits hhit
      · next hlabel =>
        exact ⟨begin, (find_some hbegin).2.2, hlabel⟩

variable (cut : Cut)

theorem Cut.prefix_text {pattern : List Nat} {i : Nat} (hi : i ≤ cut.units.length)
    (h : pattern <+: cut.units.drop i) : pattern <+: cut.text.drop (cut.start + i) := by
  rw [cut.drop_text hi]
  exact h.trans (List.prefix_append _ _)

theorem Cut.prefix_units {pattern : List Nat} {i : Nat}
    (h : pattern <+: cut.text.drop (cut.start + i)) (hlen : i + pattern.length ≤ cut.units.length) :
    pattern <+: cut.units.drop i := by
  rw [cut.drop_text (by omega)] at h
  refine List.prefix_of_prefix_length_le h (List.prefix_append _ _) ?_
  rw [List.length_drop]
  omega

/-- A header of the part is as long in the text, or longer. -/
theorem Cut.headerEnd_le (h : p + 11 ≤ cut.units.length) :
    cut.start + headerEnd cut.units p ≤ headerEnd cut.text (cut.start + p) := by
  have hlen := cut.length_text
  have hbounds := headerEnd_bounds h
  unfold headerEnd
  cases hfind : find cut.text (cut.start + p + 11) dashes with
  | none =>
    have := hbounds.2
    unfold headerEnd at this
    simp only [Option.map_none, Option.getD_none]
    omega
  | some j =>
    obtain ⟨hj, -, hdashes⟩ := find_some hfind
    obtain ⟨i, rfl⟩ := Nat.exists_eq_add_of_le (show cut.start ≤ j by omega)
    simp only [Option.map_some, Option.getD_some]
    by_cases hin : i + 5 ≤ cut.units.length
    · have hunits := cut.prefix_units hdashes (by rw [length_dashes]; exact hin)
      obtain ⟨k, hk⟩ := find_isSome (show p + 11 ≤ i by omega) hunits (by omega)
      have := find_le hk (by omega) hunits (by omega)
      simp only [hk, Option.map_some, Option.getD_some]
      omega
    · have := hbounds.2
      unfold headerEnd at this
      omega

theorem KeyLine.text {cut : Cut} (h : KeyLine cut.units p) :
    KeyLine cut.text (cut.start + p) := by
  have hlen := h.bounds
  have hend := cut.headerEnd_le hlen
  refine ⟨cut.prefix_text (by omega) h.mark, ?_⟩
  obtain ⟨k, hk⟩ := Option.ne_none_iff_exists'.mp h.key
  obtain ⟨-, -, hlabel⟩ := find_some hk
  rw [List.drop_drop, List.drop_take, List.prefix_take_iff] at hlabel
  have hlabelLength : keyLabel.length = 11 := by decide
  have hlabel' : keyLabel <+: ((cut.text.take (headerEnd cut.text (cut.start + p))).drop
      (cut.start + p)).drop k := by
    rw [List.drop_drop, List.drop_take, List.prefix_take_iff, Nat.add_assoc]
    exact ⟨cut.prefix_text (by have := (headerEnd_bounds hlen).2; omega) hlabel.1, by omega⟩
  obtain ⟨i, hi⟩ := find_isSome (Nat.zero_le _) hlabel' (by
    have hfits := hlabel'.length_le
    rw [List.length_drop] at hfits
    omega)
  rw [hi]
  exact Option.some_ne_none i

/-- If the part has lines that name a private key, the scan of the text reaches one of them. -/
def Cut.KeysReached (cut : Cut) : Prop :=
  (∃ p < cut.units.length, KeyLine cut.units p) →
    ∃ p < cut.units.length, KeyLine cut.units p ∧ Reached cut.text (cut.start + p)

instance : DecidablePred Cut.KeysReached := fun _ => inferInstanceAs (Decidable (_ → _))

/-- The part has lines that name a private key, and no hit in the text covers the mark of one. -/
def Cut.KeysMissed (cut : Cut) : Prop :=
  (∃ p, KeyLine cut.units p) ∧ ∀ p, KeyLine cut.units p → ∀ hits,
    Inspect.scanPrivateKeys cut.text = some hits →
      ∀ hit ∈ hits, ¬hit.Covers (cut.start + p) (cut.start + p + 11)

theorem Cut.missed_of_not_reached (h : ¬cut.KeysReached) : cut.KeysMissed := by
  simp only [Cut.KeysReached, Classical.not_imp, not_exists, not_and] at h
  obtain ⟨⟨p, -, hline⟩, hnone⟩ := h
  refine ⟨⟨p, hline⟩, fun q hq hits hhits => ?_⟩
  have hlen := hq.bounds
  exact not_covers_of_not_reached (hnone q (by omega) hq) hhits

theorem Cut.scanPrivateKeys (h : cut.KeysReached) {hits hits' : List Hit} {hit : Hit}
    (hhits : scanPrivateKeys cut.units = some hits)
    (hhits' : scanPrivateKeys cut.text = some hits') (hhit : hit ∈ hits) :
    ∃ hit' ∈ hits', hit'.kind = .privateKey := by
  obtain ⟨p, hline⟩ := exists_keyLine hhits hhit
  have hlen := hline.bounds
  obtain ⟨q, -, hkey, hreached⟩ := h ⟨p, by omega, hline⟩
  exact privateKeysFrom_reached hkey.text hreached (Nat.zero_le _) (by omega) hhits'

end Keys

section Plain

variable {n : Nat}

variable [Entropy] (cut : Cut)

theorem Cut.scanSecrets (h : cut.KeysReached) :
    Carried cut.start (scanSecrets cut.units) (scanSecrets cut.text) := by
  have hkeys : Carried cut.start (Inspect.scanPrivateKeys cut.units)
      (Inspect.scanPrivateKeys cut.text) := by
    intro hits hits' hhits hhits' hit hhit
    obtain ⟨hit', hmem, hkind⟩ := cut.scanPrivateKeys h hhits hhits' hhit
    exact ⟨hit', hmem, .inl hkind⟩
  have hall := ((hkeys.append cut.scanKeyPrefixes).append cut.scanEntropy).append
    cut.scanPaths
  simpa only [Inspect.scanSecrets, bind_assoc, pure_bind, List.append_assoc] using hall

theorem Cut.plainHits (h : cut.KeysReached) :
    Carried cut.start (plainHits cut.units) (plainHits cut.text) := by
  have hall := ((((cut.scanGroups.append cut.scanFormatted).append
    cut.scanCountryMobile).append cut.scanTokens).append
    (cut.scanSecrets h)).append cut.scanCrosslineModernId
  simpa only [Inspect.plainHits, bind_assoc, pure_bind, List.append_assoc] using hall

end Plain

end Inspect
