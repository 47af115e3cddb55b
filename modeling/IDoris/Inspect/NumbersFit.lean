import IDoris.Inspect.Fits

/-!
# The digit rules fit

Groups and chains begin and end with digits, their segments are the digit runs inside, and
so every digit rule stays inside its text.
-/
namespace Inspect

open Scanner Utf16

section Groups

variable {separator : Nat → Bool} {units : List Nat} {a b : Nat}

theorem joinedLength_le (separator : Nat → Bool) (units : List Nat) :
    joinedLength separator units ≤ units.length := by
  induction units with
  | nil => exact le_rfl
  | cons u rest ih =>
    simp only [joinedLength, List.length_cons]
    split <;> omega

theorem groupLength_le (separator : Nat → Bool) (units : List Nat) :
    groupLength separator units ≤ units.length := by
  cases units with
  | nil => exact le_rfl
  | cons u rest =>
    simp only [groupLength]
    split
    · exact joinedLength_le separator (u :: rest)
    · exact Nat.zero_le _

theorem joinedLength_pos (h : units.head?.any isDigit = true) :
    0 < joinedLength separator units := by
  cases units with
  | nil => simp at h
  | cons u rest =>
    have hu : isDigit u = true := by simpa using h
    simp [joinedLength, hu]

theorem joinedLength_last (h : 0 < joinedLength separator units) :
    ∃ u, units[joinedLength separator units - 1]? = some u ∧ isDigit u = true := by
  induction units with
  | nil => simp [joinedLength] at h
  | cons u rest ih =>
    simp only [joinedLength] at h ⊢
    split at h
    · next hjoin =>
      rw [if_pos hjoin, Nat.add_sub_cancel]
      rcases Nat.eq_zero_or_pos (joinedLength separator rest) with hzero | hpos
      · rw [Bool.or_eq_true, Bool.and_eq_true] at hjoin
        obtain hu | ⟨-, hnext⟩ := hjoin
        · exact ⟨u, by rw [hzero]; rfl, hu⟩
        · have : 0 < joinedLength separator rest := joinedLength_pos hnext
          omega
      · obtain ⟨v, hv, hdigit⟩ := ih hpos
        refine ⟨v, ?_, hdigit⟩
        rw [← hv, show joinedLength separator rest = joinedLength separator rest - 1 + 1 by omega,
          List.getElem?_cons_succ, Nat.add_sub_cancel]
    · omega

theorem joinedLength_end {u : Nat}
    (h : units[joinedLength separator units]? = some u) : isDigit u = false := by
  induction units with
  | nil => simp at h
  | cons v rest ih =>
    simp only [joinedLength] at h
    split at h
    · rw [List.getElem?_cons_succ] at h
      exact ih h
    · next hjoin =>
      simp only [List.getElem?_cons_zero, Option.some.injEq] at h
      subst h
      rw [Bool.not_eq_true, Bool.or_eq_false_iff] at hjoin
      exact hjoin.1

/-- A group of digits: it starts and ends with one, and none follows. -/
structure IsGroup (units : List Nat) (a b : Nat) : Prop where
  lt : a < b
  le : b ≤ units.length
  first : ∃ u, units[a]? = some u ∧ isDigit u = true
  last : ∃ u, units[b - 1]? = some u ∧ isDigit u = true
  after : ∀ u, units[b]? = some u → isDigit u = false

theorem isGroup_of_mem (h : (a, b) ∈ stretches (groupLength separator) units) :
    IsGroup units a b := by
  obtain ⟨hab, hb, hlen⟩ := stretches_bounds (groupLength_le separator) h
  have hlt : a < units.length := by omega
  have hdrop := List.drop_eq_getElem_cons hlt
  rw [hdrop, groupLength] at hlen
  split at hlen
  · next hdigit =>
    rw [← hdrop] at hlen
    refine ⟨hab, hb, ⟨units[a], List.getElem?_eq_getElem hlt, hdigit⟩, ?_, fun u hu => ?_⟩
    · have hpos : 0 < joinedLength separator (units.drop a) := by omega
      obtain ⟨u, hu, hlast⟩ := joinedLength_last hpos
      refine ⟨u, ?_, hlast⟩
      rw [← hu, hlen, List.getElem?_drop]
      congr 1
      omega
    · have hend : (units.drop a)[joinedLength separator (units.drop a)]? = some u := by
        rw [hlen, List.getElem?_drop, ← hu]
        congr 1
        omega
      exact joinedLength_end hend
  · omega

variable {group : List Nat}

theorem isDigit_of_run {p : Nat × Nat} (hp : p ∈ runs isDigit group) :
    p.1 < p.2 ∧ p.2 ≤ group.length ∧ (∃ u, group[p.1]? = some u ∧ isDigit u = true) ∧
      ∃ u, group[p.2 - 1]? = some u ∧ isDigit u = true := by
  have h := isRun_of_mem_runs hp
  have hlt := h.lt
  exact ⟨hlt, h.le, h.inside _ le_rfl hlt, h.inside _ (by omega) (by omega)⟩

end Groups

section Segments

variable {units group : List Nat} {base stop : Nat} {xSuffix : Bool}

/-- The digits of a range. -/
def digitsOf (group : List Nat) (p : Nat × Nat) : List Nat :=
  ((group.take p.2).drop p.1).map digitValue

theorem length_digitsOf {p : Nat × Nat} (h : p.2 ≤ group.length) :
    (digitsOf group p).length = p.2 - p.1 := by
  simp [digitsOf]
  omega

/-- The candidate of one segment. -/
def segmentCandidate (group : List Nat) (base stop : Nat) (xSuffix : Bool) (p : Nat × Nat) :
    Candidate := ⟨digitsOf group p, base + p.1, base + p.2, base + p.2 = stop && xSuffix⟩

/-- With the digits of all segments joined, each segment is judged on its own digits. -/
theorem classifySegments_eq {joined : List Nat} {segments : List (Nat × Nat)} {offset : Nat}
    (hjoined : joined.drop offset = segments.flatMap (digitsOf group))
    (hoffset : offset ≤ joined.length)
    (hsegments : ∀ p ∈ segments, p.2 ≤ group.length) :
    classifySegments joined base stop xSuffix segments offset =
      flatMapM (fun p => classify (segmentCandidate group base stop xSuffix p)) segments := by
  induction segments generalizing offset with
  | nil => rfl
  | cons p rest ih =>
    have hlen := length_digitsOf (hsegments p List.mem_cons_self)
    rw [List.flatMap_cons] at hjoined
    have htotal : offset + (p.2 - p.1) ≤ joined.length := by
      have h := congrArg List.length hjoined
      simp only [List.length_drop, List.length_append, hlen] at h
      omega
    have hslice : slice joined offset (offset + (p.2 - p.1)) = some (digitsOf group p) := by
      rw [slice_of_le (by omega) htotal, ← List.take_drop, hjoined, ← hlen, List.take_left]
    have hrest : joined.drop (offset + (p.2 - p.1)) = rest.flatMap (digitsOf group) := by
      rw [← List.drop_drop, hjoined, ← hlen, List.drop_left]
    obtain ⟨a, b⟩ := p
    simp only at hslice hrest htotal
    rw [classifySegments, flatMapM_cons, hslice,
      ih hrest htotal fun q hq => hsegments q (List.mem_cons_of_mem _ hq)]
    simp only [bind, Option.bind_some, pure, segmentCandidate]
    cases classify ⟨digitsOf group (a, b), base + a, base + b, base + b = stop && xSuffix⟩ with
    | none => rfl
    | some found => exact Option.map_eq_bind.symm

/-- The segments of a group are judged one by one. -/
theorem classifySegments_group (group : List Nat) (base stop : Nat) (xSuffix : Bool) :
    classifySegments ((group.filter isDigit).map digitValue) base stop xSuffix
        (runs isDigit group) 0 =
      flatMapM (fun p => classify (segmentCandidate group base stop xSuffix p))
        (runs isDigit group) := by
  refine classifySegments_eq ?_ (Nat.zero_le _) fun p hp => (isDigit_of_run hp).2.1
  rw [List.drop_zero, ← flatMap_runs, List.map_flatMap]
  rfl

variable {a b : Nat}

theorem segment_inText (hslice : slice units a b = some group)
    (hx : xSuffix = true → ∃ u, units[b]? = some u ∧ isCheckX u = true) {p : Nat × Nat}
    (hp : p ∈ runs isDigit group) : (segmentCandidate group a b xSuffix p).InText units := by
  obtain ⟨hlt, hle, ⟨u, hu, hfirst⟩, ⟨v, hv, hlast⟩⟩ := isDigit_of_run hp
  have hlen := length_of_slice hslice
  refine ⟨?_, ⟨u, ?_, hfirst⟩, ⟨v, ?_, hlast⟩, ?_⟩
  · simp only [segmentCandidate]
    omega
  · rw [← hu, getElem?_of_slice hslice (by omega)]
    rfl
  · rw [← hv, getElem?_of_slice hslice (by omega)]
    simp only [segmentCandidate]
    congr 1
    omega
  · intro h
    simp only [segmentCandidate, Bool.and_eq_true, decide_eq_true_eq] at h ⊢
    rw [h.1]
    exact hx h.2

theorem phoneContext_isSome {units : List Nat} {a b : Nat} (hab : a < b) (hb : b ≤ units.length) :
    ∃ near, phoneContext units a b = some near := by
  simp only [phoneContext,
    slice_of_le (show a - 64 ≤ min (b + 64) units.length by omega) (Nat.min_le_right _ _)]
  exact ⟨_, rfl⟩

theorem any_isCheckX {i : Nat} (h : units[i]?.any isCheckX = true) :
    ∃ u, units[i]? = some u ∧ isCheckX u = true := by
  cases hi : units[i]? with
  | none => simp [hi] at h
  | some u => exact ⟨u, rfl, by simpa [hi] using h⟩

theorem scanGroup_fitting (hgroup : IsGroup units a b) : Fitting units (scanGroup units (a, b)) := by
  have hlt := hgroup.lt
  have hslice := slice_of_le hlt.le hgroup.le
  have hsuffix : units[b]?.any isCheckX = true → ∃ u, units[b]? = some u ∧ isCheckX u = true :=
    any_isCheckX
  have hwhole : ∀ joined, Fitting units
      (classify ⟨joined, a, b, units[b]?.any isCheckX⟩) := fun joined =>
    classify_fitting ⟨hlt, hgroup.first, hgroup.last, hsuffix⟩
  simp only [scanGroup, hslice]
  obtain ⟨whole, hw, hwfits⟩ :=
    hwhole ((((units.take b).drop a).filter isDigit).map digitValue)
  simp only [bind, Option.bind_some, hw]
  split
  · exact ⟨whole, rfl, hwfits⟩
  · rw [classifySegments_group]
    obtain ⟨parts, hp, hpfits⟩ : Fitting units _ :=
      .flatMap fun p hp => classify_fitting (segment_inText hslice hsuffix hp)
    have hgrouped : ∀ hit ∈ whole ++ parts, hit.Fits units := fun hit hhit =>
      (List.mem_append.mp hhit).elim (hwfits hit) (hpfits hit)
    obtain ⟨near, hnear⟩ := phoneContext_isSome hlt hgroup.le
    simp only [hp, Option.bind_some, hnear]
    split
    · exact Fitting.filter _ hgrouped
    · exact ⟨_, rfl, hgrouped⟩

theorem scanGroups_fitting (units : List Nat) : Fitting units (scanGroups units) :=
  .flatMap fun _ hp => scanGroup_fitting (isGroup_of_mem hp)

end Segments

section Windows

variable {units : List Nat}

/-- Segments of a text: digit runs in order. -/
structure AreSegments (units : List Nat) (segments : List (Nat × Nat)) : Prop where
  lt : ∀ p ∈ segments, p.1 < p.2
  le : ∀ p ∈ segments, p.2 ≤ units.length
  first : ∀ p ∈ segments, ∃ u, units[p.1]? = some u ∧ isDigit u = true
  last : ∀ p ∈ segments, ∃ u, units[p.2 - 1]? = some u ∧ isDigit u = true
  order : segments.Pairwise fun p q => p.2 ≤ q.1

theorem AreSegments.sublist {segments part : List (Nat × Nat)} (h : AreSegments units segments)
    (hpart : part.Sublist segments) : AreSegments units part :=
  ⟨fun p hp => h.lt p (hpart.subset hp), fun p hp => h.le p (hpart.subset hp),
    fun p hp => h.first p (hpart.subset hp), fun p hp => h.last p (hpart.subset hp),
    h.order.sublist hpart⟩

/-- The first segment starts before the last one ends. -/
theorem AreSegments.head_lt_last {segments : List (Nat × Nat)} {p q : Nat × Nat}
    (h : AreSegments units segments) (hp : segments.head? = some p)
    (hq : segments.getLast? = some q) : p.1 < q.2 := by
  have hpmem := List.mem_of_head? hp
  have hqmem := List.mem_of_getLast? hq
  have hplt := h.lt p hpmem
  have hqlt := h.lt q hqmem
  cases segments with
  | nil => cases hp
  | cons s rest =>
    simp only [List.head?_cons, Option.some.injEq] at hp
    subst hp
    obtain rfl | hrest := List.mem_cons.mp hqmem
    · exact hqlt
    · have := (List.pairwise_cons.mp h.order).1 q hrest
      omega

theorem formattedWindow_fitting {segments : List (Nat × Nat)} (h : AreSegments units segments) :
    Fitting units (formattedWindow units segments) := by
  unfold formattedWindow
  simp only
  split
  · exact .nil
  · next hcount =>
    have hne : segments ≠ [] := by
      rintro rfl
      exact hcount (.inl rfl)
    obtain ⟨p, hp⟩ : ∃ p, segments.head? = some p := ⟨_, List.head?_eq_some_head hne⟩
    obtain ⟨q, hq⟩ : ∃ q, segments.getLast? = some q := ⟨_, List.getLast?_eq_some_getLast hne⟩
    obtain ⟨digits, hdigits⟩ := flatMapM_isSome (f := fun p => slice units p.1 p.2)
      fun p hp => ⟨_, slice_of_le (h.lt p hp).le (h.le p hp)⟩
    have hinside : ∀ id17 : Bool, Fitting units
        (classify ⟨digits.map digitValue, p.1, q.2, id17 && units[q.2]?.any isCheckX⟩) :=
      fun id17 => classify_fitting
        ⟨h.head_lt_last hp hq, h.first p (List.mem_of_head? hp),
          h.last q (List.mem_of_getLast? hq), fun hx => any_isCheckX (Bool.and_eq_true_iff.mp hx).2⟩
    simp only [hp, hq, bind, Option.bind_some]
    split
    · exact .nil
    · rw [hdigits]
      simp only [Option.bind_some]
      refine Fitting.bind (hinside _) fun hits hfits => ?_
      split
      · exact Fitting.filter _ hfits
      · exact ⟨_, rfl, hfits⟩

theorem shortestWindow_fitting {segments : List (Nat × Nat)} (h : AreSegments units segments)
    (left taken : Nat) : ∃ best, shortestWindow units segments left taken = some best ∧
      ∀ window, best = some window → ∀ hit ∈ window.2, hit.Fits units := by
  induction left generalizing taken with
  | zero => exact ⟨none, rfl, by simp⟩
  | succ left ih =>
    unfold shortestWindow
    split
    · exact ⟨none, rfl, by simp⟩
    · simp only
      split
      · exact ⟨none, rfl, by simp⟩
      · obtain ⟨found, hfound, hfits⟩ :=
          formattedWindow_fitting (h.sublist (List.take_sublist (taken + 1) segments))
        simp only [hfound, bind, Option.bind_some]
        split
        · refine ⟨some (taken + 1, found), rfl, fun window hwindow => ?_⟩
          rw [Option.some.injEq] at hwindow
          exact hwindow ▸ hfits
        · exact ih (taken + 1)

theorem scanWindows_fitting {segments : List (Nat × Nat)} (h : AreSegments units segments)
    (start coveredUntil : Nat) : Fitting units (scanWindows units segments start coveredUntil) := by
  induction segments generalizing start coveredUntil with
  | nil => exact .nil
  | cons segment rest ih =>
    have hrest := h.sublist (List.sublist_cons_self segment rest)
    obtain ⟨best, hbest, hfits⟩ := shortestWindow_fitting h 5 0
    simp only [scanWindows, hbest, bind, Option.bind_some]
    cases best with
    | none => exact ih hrest (start + 1) coveredUntil
    | some window =>
      obtain ⟨taken, found⟩ := window
      simp only
      split
      · exact .append ⟨found, rfl, hfits _ rfl⟩ (ih hrest (start + 1) (start + taken))
      · exact ih hrest (start + 1) coveredUntil

theorem chain_areSegments {a b : Nat} {chain : List Nat} (hslice : slice units a b = some chain) :
    AreSegments units ((runs isDigit chain).map fun p => (a + p.1, a + p.2)) := by
  have hlen := length_of_slice hslice
  obtain ⟨hab, hb, -⟩ := slice_eq_some.mp hslice
  refine ⟨?_, ?_, ?_, ?_, ?_⟩
  · intro q hq
    obtain ⟨p, hp, rfl⟩ := List.mem_map.mp hq
    have := isDigit_of_run hp
    simp only
    omega
  · intro q hq
    obtain ⟨p, hp, rfl⟩ := List.mem_map.mp hq
    have := isDigit_of_run hp
    simp only
    omega
  · intro q hq
    obtain ⟨p, hp, rfl⟩ := List.mem_map.mp hq
    obtain ⟨hlt, hle, ⟨u, hu, hdigit⟩, -⟩ := isDigit_of_run hp
    exact ⟨u, by rw [← hu, getElem?_of_slice hslice (by omega)], hdigit⟩
  · intro q hq
    obtain ⟨p, hp, rfl⟩ := List.mem_map.mp hq
    obtain ⟨hlt, hle, -, u, hu, hdigit⟩ := isDigit_of_run hp
    refine ⟨u, ?_, hdigit⟩
    rw [← hu, getElem?_of_slice hslice (by omega)]
    simp only
    congr 1
    omega
  · rw [List.pairwise_map]
    exact (runs_pairwise isDigit chain).imp fun h => by simp only; omega

theorem scanFormatted_fitting (units : List Nat) : Fitting units (scanFormatted units) := by
  refine .flatMap fun p hp => ?_
  have hgroup := isGroup_of_mem hp
  have hslice := slice_of_le hgroup.lt.le hgroup.le
  simp only [scanChain, hslice, bind, Option.bind_some]
  exact scanWindows_fitting (chain_areSegments hslice) 0 0

end Windows

section Layouts

variable {units : List Nat} {start stop : Nat}

/-- A range that starts with a digit of the text and ends with one. -/
structure DigitEnds (units : List Nat) (start stop : Nat) : Prop where
  lt : start < stop
  first : ∃ u, units[start]? = some u ∧ isDigit u = true
  last : ∃ u, units[stop - 1]? = some u ∧ isDigit u = true

theorem DigitEnds.le (h : DigitEnds units start stop) : stop ≤ units.length := by
  obtain ⟨u, hu, -⟩ := h.last
  have := (List.getElem?_eq_some_iff.mp hu).1
  have := h.lt
  omega

theorem digitEnds_of_mem (h : (start, stop) ∈ runs isDigit units) :
    DigitEnds units start stop := by
  obtain ⟨hlt, -, hfirst, hlast⟩ := isDigit_of_run h
  exact ⟨hlt, hfirst, hlast⟩

theorem DigitEnds.fits (h : DigitEnds units start stop) : RangeFits units start stop :=
  .of_plain h.lt (h.first.imp fun _ hu => ⟨hu.1, isPlain_of_isDigit hu.2⟩)
    (h.last.imp fun _ hu => ⟨hu.1, isPlain_of_isDigit hu.2⟩)

/-- A digit behind the range, and all that follow it, extend the range. -/
theorem DigitEnds.extend (h : DigitEnds units start stop) {next : Nat} (hnext : stop ≤ next)
    (hdigit : units[next]?.any isDigit = true) :
    DigitEnds units start (next + ((units.drop next).takeWhile isDigit).length) := by
  have hpos : 0 < ((units.drop next).takeWhile isDigit).length := by
    cases hu : units[next]? with
    | none => simp [hu] at hdigit
    | some u =>
      obtain ⟨hlt, rfl⟩ := List.getElem?_eq_some_iff.mp hu
      rw [hu] at hdigit
      rw [List.drop_eq_getElem_cons hlt, List.takeWhile_cons_of_pos (by simpa using hdigit)]
      simp
  have hlt := h.lt
  refine ⟨by omega, h.first, ?_⟩
  have hinside : ((units.drop next).takeWhile isDigit).length - 1 <
      runLength isDigit (units.drop next) := by
    rw [runLength]
    omega
  obtain ⟨u, hu, hmember⟩ := member_of_lt_runLength hinside
  refine ⟨u, ?_, hmember⟩
  rw [← hu, List.getElem?_drop]
  congr 1
  omega

theorem countryMobile_digitEnds {left found : Nat} {lengths digits : List Nat}
    (h : countryMobile units left lengths digits stop = some found)
    (hends : DigitEnds units start stop) : DigitEnds units start found := by
  induction left generalizing lengths digits stop with
  | zero => cases h
  | succ left ih =>
    simp only [countryMobile] at h
    split at h
    · rw [Option.some.injEq] at h
      exact h ▸ hends
    · split at h
      · cases h
      · next hjoin =>
        split at h
        · cases h
        · next hall =>
          simp only [Bool.or_eq_true, Bool.not_eq_true', not_or, Bool.not_eq_false] at hjoin
          have hlen : (((units.drop (stop + 1)).takeWhile isDigit).take
              (15 - digits.length)).length =
              ((units.drop (stop + 1)).takeWhile isDigit).length := by
            have := List.length_take_le (15 - digits.length)
              ((units.drop (stop + 1)).takeWhile isDigit)
            have := List.length_take_le' (15 - digits.length)
              ((units.drop (stop + 1)).takeWhile isDigit)
            omega
          refine ih h ?_
          rw [hlen]
          exact hends.extend (Nat.le_succ _) hjoin.2

theorem scanCountryMobile_fitting (units : List Nat) :
    Fitting units (scanCountryMobile units) := by
  refine .flatMap fun p hp => ?_
  have hends := digitEnds_of_mem hp
  simp only [slice_of_le hends.lt.le hends.le, bind, Option.bind_some]
  split
  · exact .nil
  · split
    · next found hfound =>
      have hfits := (countryMobile_digitEnds hfound hends)
      refine ⟨_, rfl, fun hit hhit => ?_⟩
      rw [List.mem_singleton] at hhit
      subst hhit
      have := hfits.lt
      simp only [Hit.Fits, Hit.stop, Nat.add_sub_cancel' hfits.lt.le]
      exact hfits.fits
    · exact .nil

theorem crosslineGap_some {next : Nat} {lineBreak : Bool}
    (h : crosslineGap units stop = some (next, lineBreak)) :
    stop < next ∧ units[next]?.any isDigit = true := by
  simp only [crosslineGap, Option.ite_none_right_eq_some, Bool.and_eq_true, decide_eq_true_eq,
    Option.some.injEq, Prod.mk.injEq] at h
  obtain ⟨⟨hlt, hdigit⟩, rfl, -⟩ := h
  exact ⟨hlt, hdigit⟩

theorem crosslineId_fitting (hends : DigitEnds units start stop) (left : Nat)
    {digits : List Nat} (hdigits : digits.length ≤ 18) (crossed : Bool) :
    Fitting units (crosslineId units start left digits stop crossed) := by
  induction left generalizing digits stop crossed with
  | zero => exact .nil
  | succ left ih =>
    unfold crosslineId
    simp only
    split
    · next hfull =>
      simp only [Bool.or_eq_true, Bool.and_eq_true, decide_eq_true_eq] at hfull
      have hsuffix : ∀ b : Bool, DigitEnds units start stop →
          (b = true → units[stop]?.any isCheckX = true) →
          RangeFits units start (if b then stop + 1 else stop) := by
        intro b hends hb
        cases b with
        | false => exact hends.fits
        | true =>
          obtain ⟨u, hu, hx⟩ := any_isCheckX (hb rfl)
          obtain ⟨v, hv, hdigit⟩ := hends.first
          have hlt := hends.lt
          exact .of_plain (by simp; omega) ⟨v, hv, isPlain_of_isDigit hdigit⟩
            ⟨u, by simpa using hu, isPlain_of_isCheckX hx⟩
      have hfits := hsuffix (decide (digits.length = 17) && units[stop]?.any isCheckX) hends
        fun h => (Bool.and_eq_true_iff.mp h).2
      obtain ⟨check, hcheck⟩ : ∃ check, (if (decide (digits.length = 17) &&
          units[stop]?.any isCheckX) = true then some 'X'.toNat
          else (digits[17]?).map (· + '0'.toNat)) = some check := by
        split
        · exact ⟨_, rfl⟩
        · next hx =>
          simp only [Bool.and_eq_true, decide_eq_true_eq] at hx
          have hlt : 17 < digits.length := by
            rcases hfull with hfull | hfull
            · omega
            · exact absurd hfull hx
          exact ⟨_, by rw [List.getElem?_eq_getElem hlt]; rfl⟩
      have hlen : 17 ≤ digits.length := by omega
      obtain ⟨valid, hvalid⟩ := idStructure_isSome (d := (digits.take 17).drop 0)
        (by simp; omega)
      obtain ⟨sensitivity, hsensitivity⟩ := idSensitivity_isSome ((digits.take 17).drop 0) check
      simp only [hcheck, slice_of_le (Nat.zero_le 17) hlen, bind, Option.bind_some, hvalid,
        hsensitivity]
      refine ⟨_, rfl, fun hit hhit => ?_⟩
      obtain ⟨-, rfl⟩ := mem_report.mp hhit
      have := hfits.1
      simp only [Hit.Fits, Hit.stop]
      rwa [Nat.add_sub_cancel' this.le]
    · next hfull =>
      split
      · exact .nil
      · next next lineBreak hgap =>
        obtain ⟨hlt, hdigit⟩ := crosslineGap_some hgap
        split
        · exact .nil
        · next hall =>
          have hlen : (((units.drop next).takeWhile isDigit).take (18 - digits.length)).length =
              ((units.drop next).takeWhile isDigit).length := by
            have := List.length_take_le (18 - digits.length)
              ((units.drop next).takeWhile isDigit)
            have := List.length_take_le' (18 - digits.length)
              ((units.drop next).takeWhile isDigit)
            omega
          refine ih ?_ ?_ _
          · rw [hlen]
            exact hends.extend hlt.le hdigit
          · simp only [List.length_append, List.length_map, List.length_take]
            omega

theorem scanCrosslineModernId_fitting (units : List Nat) :
    Fitting units (scanCrosslineModernId units) := by
  refine .flatMap fun p hp => ?_
  have hends := digitEnds_of_mem hp
  simp only [slice_of_le hends.lt.le hends.le, bind, Option.bind_some]
  split
  · exact .nil
  · next hlen =>
    simp only [Bool.or_eq_true, decide_eq_true_eq, not_or] at hlen
    refine crosslineId_fitting hends 19 ?_ false
    simp only [List.length_map, List.length_drop, List.length_take]
    omega

end Layouts

end Inspect
