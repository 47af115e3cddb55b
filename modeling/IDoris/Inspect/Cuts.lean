import IDoris.Inspect.Headers
import IDoris.Inspect.Isolated

/-!
# A part of a text between NULs

No rule for numbers, tokens or secrets looks beyond a NUL, so it finds in a part between two of
them what it finds in the part alone. The scan for private keys does look beyond one.
-/
namespace Inspect

open Scanner Utf16

/-- A text in three parts, cut where it has a NUL. -/
structure Cut where
  before : List Nat
  units : List Nat
  after : List Nat
  opens : ∀ u, before.getLast? = some u → u = 0
  closes : ∀ u, after.head? = some u → u = 0

namespace Cut

variable (cut : Cut) {member : Nat → Bool} {a b i : Nat}

def text : List Nat := cut.before ++ cut.units ++ cut.after

/-- Where the middle part starts. -/
def start : Nat := cut.before.length

theorem length_text : cut.text.length = cut.start + cut.units.length + cut.after.length := by
  simp [text, start, Nat.add_assoc]

theorem drop_text (hi : i ≤ cut.units.length) :
    cut.text.drop (cut.start + i) = cut.units.drop i ++ cut.after := by
  rw [text, List.append_assoc, ← List.drop_drop, start, List.drop_left,
    List.drop_append_of_le_length hi]

theorem take_text (hi : i ≤ cut.units.length) :
    cut.text.take (cut.start + i) = cut.before ++ cut.units.take i := by
  rw [text, List.append_assoc, start, List.take_length_add_append,
    List.take_append_of_le_length hi]

theorem getElem?_text (hi : i < cut.units.length) : cut.text[cut.start + i]? = cut.units[i]? := by
  rw [← List.head?_drop, ← List.head?_drop, cut.drop_text hi.le, List.drop_eq_getElem_cons hi]
  rfl

/-- Right behind the part comes nothing or a NUL. -/
theorem getElem?_end : cut.text[cut.start + cut.units.length]? = cut.after.head? := by
  rw [← List.head?_drop, cut.drop_text le_rfl, List.drop_length, List.nil_append]

theorem any_text (hnul : member 0 = false) (hi : i ≤ cut.units.length) :
    cut.text[cut.start + i]?.any member = cut.units[i]?.any member := by
  obtain hlt | rfl := Nat.lt_or_eq_of_le hi
  · rw [cut.getElem?_text hlt]
  · rw [cut.getElem?_end, List.getElem?_eq_none le_rfl]
    cases hhead : cut.after.head? with
    | none => rfl
    | some u => rw [cut.closes u hhead, Option.any_some, hnul, Option.any_none]

theorem all_text (hnul : member 0 = true) (hi : i ≤ cut.units.length) :
    cut.text[cut.start + i]?.all member = cut.units[i]?.all member := by
  obtain hlt | rfl := Nat.lt_or_eq_of_le hi
  · rw [cut.getElem?_text hlt]
  · rw [cut.getElem?_end, List.getElem?_eq_none le_rfl]
    cases hhead : cut.after.head? with
    | none => rfl
    | some u => rw [cut.closes u hhead, Option.all_some, hnul, Option.all_none]

theorem slice_text (hb : b ≤ cut.units.length) :
    slice cut.text (cut.start + a) (cut.start + b) = slice cut.units a b := by
  have hlen := cut.length_text
  by_cases hab : a ≤ b
  · rw [slice_of_le (by omega) (by omega), slice_of_le hab hb, cut.take_text hb,
      start, List.drop_length_add_append]
  · rw [slice, slice, if_neg (by omega), if_neg (by omega)]

theorem takeWhile_drop (hnul : member 0 = false) (hi : i ≤ cut.units.length) :
    (cut.text.drop (cut.start + i)).takeWhile member = (cut.units.drop i).takeWhile member := by
  rw [cut.drop_text hi, takeWhile_append_stop]
  intro u hu
  rw [cut.closes u hu, hnul]

theorem takeWhile_take_drop (hnul : member 0 = false) (hi : i ≤ cut.units.length) (n : Nat) :
    ((cut.text.drop (cut.start + i)).take n).takeWhile member =
      ((cut.units.drop i).take n).takeWhile member := by
  rw [cut.drop_text hi, List.take_append, takeWhile_append_stop]
  intro u hu
  rw [List.head?_take] at hu
  split at hu
  · cases hu
  · rw [cut.closes u hu, hnul]

/-- Backwards no member is found before the part. -/
theorem takeWhile_take_reverse (hnul : member 0 = false) (hi : i ≤ cut.units.length) (n : Nat) :
    ((cut.text.take (cut.start + i)).reverse.take n).takeWhile member =
      ((cut.units.take i).reverse.take n).takeWhile member := by
  rw [cut.take_text hi, List.reverse_append, List.take_append, takeWhile_append_stop]
  intro u hu
  rw [List.head?_take, List.head?_reverse] at hu
  split at hu
  · cases hu
  · rw [cut.opens u hu, hnul]

theorem takeWhile_reverse (hnul : member 0 = false) (hi : i ≤ cut.units.length) :
    (cut.text.take (cut.start + i)).reverse.takeWhile member =
      (cut.units.take i).reverse.takeWhile member := by
  rw [cut.take_text hi, List.reverse_append, takeWhile_append_stop]
  intro u hu
  rw [List.head?_reverse] at hu
  rw [cut.opens u hu, hnul]

/-- The stretches of the part are among those of the text. -/
theorem mem_stretches {len : List Nat → Nat} (hlen : ∀ ys, len ys ≤ ys.length) (h : Halts len 0)
    (hmem : (a, b) ∈ stretches len cut.units) :
    (cut.start + a, cut.start + b) ∈ stretches len cut.text := by
  have hfront : (a, b) ∈ stretchesFrom len (cut.units ++ cut.after) 0 0 := by
    cases hafter : cut.after with
    | nil => rwa [List.append_nil]
    | cons u rest =>
      rw [cut.closes u (by rw [hafter]; rfl), stretchesFrom_append hlen h]
      exact List.mem_append_left _ hmem
  have hmoved : (cut.start + a, cut.start + b) ∈
      stretchesFrom len (cut.units ++ cut.after) (cut.start + 0) 0 := by
    rw [stretchesFrom_shift]
    exact List.mem_map.mpr ⟨(a, b), hfront, rfl⟩
  rw [stretches, text, List.append_assoc]
  obtain hnil | ⟨rest, u, hlast⟩ := List.eq_nil_or_concat' cut.before
  · have hstart : cut.start = 0 := by rw [start, hnil, List.length_nil]
    rw [hnil, List.nil_append]
    rwa [hstart] at hmoved ⊢
  · have hnul : u = 0 := cut.opens u (by rw [hlast, List.getLast?_concat])
    have hstart : cut.start = 0 + rest.length + 1 := by
      rw [start, hlast, List.length_append, List.length_singleton, Nat.zero_add]
    rw [hlast, hnul, List.append_assoc, List.singleton_append, stretchesFrom_append hlen h]
    refine List.mem_append_right _ ?_
    rwa [Nat.add_zero, hstart] at hmoved ⊢

theorem mem_runs (hnul : member 0 = false) (hmem : (a, b) ∈ runs member cut.units) :
    (cut.start + a, cut.start + b) ∈ runs member cut.text :=
  cut.mem_stretches (runLength_le member) (halts_runLength hnul) hmem

end Cut

section Moves

variable {n : Nat}

/-- The hit in a text that goes on in front. -/
def Hit.move (n : Nat) (hit : Hit) : Hit := { hit with start := n + hit.start }

/-- The same result in a text that goes on in front. -/
def moved (n : Nat) (found : Option (List Hit)) : Option (List Hit) :=
  found.map (List.map (Hit.move n))

/-- The hits have a private key or a copy of this one. -/
def Hit.KeptIn (n : Nat) (hit : Hit) (hits : List Hit) : Prop :=
  ∃ hit' ∈ hits, hit'.kind = .privateKey ∨ (hit.move n).CopiedBy hit'

/-- What the first scan finds the second keeps. -/
def Carried (n : Nat) (found found' : Option (List Hit)) : Prop :=
  ∀ hits hits', found = some hits → found' = some hits' → ∀ hit ∈ hits, hit.KeptIn n hits'

theorem Hit.KeptIn.of_mem {hit : Hit} {hits : List Hit} (h : hit.move n ∈ hits) :
    hit.KeptIn n hits := ⟨_, h, .inr (copiedBy_refl _)⟩

theorem Hit.KeptIn.mono {hit : Hit} {hits hits' : List Hit} (h : hit.KeptIn n hits)
    (hsub : hits ⊆ hits') : hit.KeptIn n hits' := by
  obtain ⟨hit', hmem, hsame⟩ := h
  exact ⟨hit', hsub hmem, hsame⟩

theorem report_move (found : Bool) (hit : Hit) :
    report found (hit.move n) = (report found hit).map (Hit.move n) := by
  cases found <;> rfl

theorem Carried.of_eq {found found' : Option (List Hit)} (h : found' = moved n found) :
    Carried n found found' := by
  intro hits hits' hfound hfound' hit hhit
  rw [h, moved, hfound, Option.map_some, Option.some.injEq] at hfound'
  exact .of_mem (hfound' ▸ List.mem_map_of_mem hhit)

theorem Carried.append {a b a' b' : Option (List Hit)} (ha : Carried n a a')
    (hb : Carried n b b') :
    Carried n (do return (← a) ++ (← b)) (do return (← a') ++ (← b')) := by
  intro hits hits' hhits hhits' hit hhit
  simp only [bind, Option.bind_eq_some_iff, pure, Option.some.injEq] at hhits hhits'
  obtain ⟨xs, hxs, ys, hys, rfl⟩ := hhits
  obtain ⟨xs', hxs', ys', hys', rfl⟩ := hhits'
  obtain hhit | hhit := List.mem_append.mp hhit
  · exact (ha xs xs' hxs hxs' hit hhit).mono (List.subset_append_left _ _)
  · exact (hb ys ys' hys hys' hit hhit).mono (List.subset_append_right _ _)

theorem Carried.flatMap {α β : Type} {f : α → Option (List Hit)} {g : β → Option (List Hit)}
    {xs : List α} {ys : List β} (h : ∀ x ∈ xs, ∃ y ∈ ys, Carried n (f x) (g y)) :
    Carried n (flatMapM f xs) (flatMapM g ys) := by
  intro hits hits' hhits hhits' hit hhit
  obtain ⟨x, hx, found, hfound, hmem⟩ := (mem_flatMapM hhits).mp hhit
  obtain ⟨y, hy, hcarried⟩ := h x hx
  obtain ⟨found', hfound'⟩ : ∃ found', g y = some found' := by
    rw [flatMapM, Option.map_eq_some_iff] at hhits'
    obtain ⟨lists, hlists, -⟩ := hhits'
    exact mem_of_mapM hlists hy
  refine (hcarried _ _ hfound hfound' hit hmem).mono fun hit' hhit' => ?_
  exact (mem_flatMapM hhits').mpr ⟨y, hy, found', hfound', hhit'⟩

theorem flatMapM_move {α : Type} {f g : α → Option (List Hit)} {xs : List α}
    (h : ∀ x ∈ xs, g x = moved n (f x)) : flatMapM g xs = moved n (flatMapM f xs) := by
  induction xs with
  | nil => rfl
  | cons x xs ih =>
    rw [flatMapM_cons, flatMapM_cons, h x List.mem_cons_self,
      ih fun y hy => h y (List.mem_cons_of_mem _ hy)]
    cases f x with
    | none => rfl
    | some found => cases flatMapM f xs <;> simp [moved]

end Moves

section Numbers

variable {n : Nat}

def Candidate.move (n : Nat) (c : Candidate) : Candidate :=
  { c with start := n + c.start, stop := n + c.stop }

theorem Candidate.hit_move (c : Candidate) (kind : FindingKind) (stop : Nat)
    (sensitivity : Sensitivity) :
    (c.move n).hit kind (n + stop) sensitivity = (c.hit kind stop sensitivity).move n := by
  simp only [Candidate.hit, Candidate.move, Hit.move, Nat.add_sub_add_left]

theorem classifyId_move (c : Candidate) (first17 : List Nat) (check stop : Nat) :
    classifyId (c.move n) first17 check (n + stop) = moved n (classifyId c first17 check stop) := by
  simp only [classifyId, Candidate.hit_move]
  cases idStructure first17 with
  | none => rfl
  | some found =>
    cases found with
    | false => rfl
    | true => cases idSensitivity first17 check <;> rfl

theorem classifySuffixed_move (c : Candidate) :
    classifySuffixed (c.move n) = moved n (classifySuffixed c) := by
  simp only [classifySuffixed, show (c.move n).digits = c.digits from rfl,
    show (c.move n).xSuffix = c.xSuffix from rfl, show (c.move n).stop = n + c.stop from rfl,
    Nat.add_assoc]
  by_cases hlen : c.digits.length = 17 ∧ c.xSuffix = true
  · rw [if_pos hlen, if_pos hlen]
    exact classifyId_move c _ _ _
  · rw [if_neg hlen, if_neg hlen]
    rfl

theorem classifyModern_move (c : Candidate) :
    classifyModern (c.move n) = moved n (classifyModern c) := by
  simp only [classifyModern, show (c.move n).digits = c.digits from rfl,
    show (c.move n).stop = n + c.stop from rfl]
  by_cases hlen : c.digits.length = 18
  · rw [if_pos hlen, if_pos hlen]
    cases slice c.digits 0 17 with
    | none => rfl
    | some first17 =>
      cases c.digits[17]? with
      | none => rfl
      | some check => exact classifyId_move c _ _ _
  · rw [if_neg hlen, if_neg hlen]
    rfl

theorem classifyLegacy_move (c : Candidate) :
    classifyLegacy (c.move n) = moved n (classifyLegacy c) := by
  simp only [classifyLegacy, show (c.move n).stop = n + c.stop from rfl, Candidate.hit_move,
    report_move, show (c.move n).digits = c.digits from rfl]
  by_cases hlen : c.digits.length = 15
  · rw [if_pos hlen, if_pos hlen]
    cases legacyIdStructure c.digits <;> rfl
  · rw [if_neg hlen, if_neg hlen]
    rfl

theorem classify_move (c : Candidate) : classify (c.move n) = moved n (classify c) := by
  have hreport : ∀ found kind sensitivity,
      report found ((c.move n).hit kind (c.move n).stop sensitivity) =
        (report found (c.hit kind c.stop sensitivity)).map (Hit.move n) := by
    intro found kind sensitivity
    rw [← report_move, ← Candidate.hit_move]
    rfl
  simp only [classify, classifySuffixed_move, classifyModern_move, classifyLegacy_move, hreport,
    show (c.move n).digits = c.digits from rfl]
  cases classifySuffixed c with
  | none => rfl
  | some suffixed =>
    cases classifyModern c with
    | none => rfl
    | some modern =>
      cases classifyLegacy c with
      | none => rfl
      | some legacy =>
        cases isMobileRun c.digits with
        | none => rfl
        | some mobile => cases isCardRun c.digits <;> simp [moved]

variable (cut : Cut) {a b : Nat} {separator : Nat → Bool}

theorem halts_groupLength (h : separator 0 = false) : Halts (groupLength separator) 0 := by
  have hjoined : Halts (joinedLength separator) 0 := by
    intro xs ys
    induction xs with
    | nil => simp [joinedLength, h, show isDigit 0 = false by decide]
    | cons u xs ih =>
      have hhead : (xs ++ 0 :: ys).head?.any isDigit = xs.head?.any isDigit := by
        cases xs <;> rfl
      simp only [List.cons_append, joinedLength, hhead, ih]
  intro xs ys
  cases xs with
  | nil => rfl
  | cons u xs =>
    simp only [List.cons_append, groupLength]
    rw [← List.cons_append, hjoined]

theorem startsWith_append {fold : Nat → Nat} {pattern units more : List Nat}
    (h : startsWith fold pattern units = true) :
    startsWith fold pattern (units ++ more) = true := by
  induction pattern generalizing units with
  | nil => rfl
  | cons p pattern ih =>
    cases units with
    | nil => cases h
    | cons u units =>
      simp only [startsWith, Bool.and_eq_true] at h
      simp only [List.cons_append, startsWith, Bool.and_eq_true]
      exact ⟨h.1, ih h.2⟩

theorem any_startsWith_append {fold : Nat → Nat} {pattern window : List Nat}
    (h : window.tails.any (startsWith fold pattern) = true) (front back : List Nat) :
    (front ++ window ++ back).tails.any (startsWith fold pattern) = true := by
  rw [List.any_eq_true] at h ⊢
  obtain ⟨rest, hrest, hstarts⟩ := h
  rw [List.mem_tails] at hrest
  refine ⟨rest ++ back, ?_, startsWith_append hstarts⟩
  obtain ⟨pre, rfl⟩ := hrest
  exact (List.mem_tails ..).mpr ⟨front ++ pre, by simp⟩

/-- A slice holds every slice inside it. -/
theorem exists_window {lo lo' hi' hi : Nat} (units : List Nat) (hlo : lo ≤ lo') (hmid : lo' ≤ hi')
    (hhi : hi' ≤ hi) : ∃ front back,
      (units.take hi).drop lo = front ++ (units.take hi').drop lo' ++ back := by
  refine ⟨(((units.take hi).drop lo).take (hi' - lo)).take (lo' - lo),
    ((units.take hi).drop lo).drop (hi' - lo), ?_⟩
  rw [← drop_take_slice units hlo hhi hmid, List.take_append_drop, List.take_append_drop]

/-- A word for a telephone near a range of the part is near it in the text. -/
theorem Cut.phoneContext (hab : a < b) (hb : b ≤ cut.units.length)
    (h : phoneContext cut.units a b = some true) :
    phoneContext cut.text (cut.start + a) (cut.start + b) = some true := by
  have hlen := cut.length_text
  have hfar : min (b + 64) cut.units.length ≤ cut.units.length := Nat.min_le_right _ _
  have hnear := cut.slice_text (a := a - 64) hfar
  have hstart : a - 64 ≤ min (b + 64) cut.units.length := by omega
  simp only [Inspect.phoneContext, slice_of_le hstart hfar, bind, Option.bind_some, pure,
    Option.some.injEq] at h hnear
  generalize hwindow : (cut.units.take (min (b + 64) cut.units.length)).drop (a - 64) = window
    at h hnear
  rw [slice_of_le (by omega) (by omega), Option.some.injEq] at hnear
  have hwide : ∃ front back, (cut.text.take (min (cut.start + b + 64) cut.text.length)).drop
      (cut.start + a - 64) = front ++ window ++ back := by
    rw [← hnear]
    exact exists_window _ (by omega) (by omega) (by omega)
  obtain ⟨front, back, hwide⟩ := hwide
  simp only [Inspect.phoneContext, slice_of_le
    (show cut.start + a - 64 ≤ min (cut.start + b + 64) cut.text.length by omega)
    (Nat.min_le_right _ _), bind, Option.bind_some, pure, Option.some.injEq, hwide]
  rw [List.any_eq_true] at h ⊢
  obtain ⟨cue, hcue, hfound⟩ := h
  refine ⟨cue, hcue, ?_⟩
  split at hfound
  · next hascii =>
    rw [if_pos hascii]
    exact any_startsWith_append hfound front back
  · next hascii =>
    rw [if_neg hascii]
    exact any_startsWith_append hfound front back

theorem segmentCandidate_move (group : List Nat) (base stop : Nat) (xSuffix : Bool)
    (p : Nat × Nat) : segmentCandidate group (n + base) (n + stop) xSuffix p =
      (segmentCandidate group base stop xSuffix p).move n := by
  simp only [segmentCandidate, Candidate.move, Nat.add_assoc, Nat.add_left_cancel_iff]

theorem Cut.scanGroup (hab : a < b) (hb : b ≤ cut.units.length) :
    Carried cut.start (scanGroup cut.units (a, b))
      (scanGroup cut.text (cut.start + a, cut.start + b)) := by
  intro hits hits' hhits hhits' hit hhit
  simp only [Inspect.scanGroup, cut.slice_text hb, slice_of_le hab.le hb,
    cut.any_text (show isCheckX 0 = false by decide) hb, bind, Option.bind_some,
    Nat.add_sub_add_left, classifySegments_group] at hhits hhits'
  generalize (cut.units.take b).drop a = group at hhits hhits'
  have hwhole := classify_move (n := cut.start)
    ⟨(group.filter isDigit).map digitValue, a, b, cut.units[b]?.any isCheckX⟩
  obtain ⟨whole, hfound, -⟩ := classify_covering
    ⟨(group.filter isDigit).map digitValue, a, b, cut.units[b]?.any isCheckX⟩
  rw [hfound] at hhits hwhole
  simp only [Candidate.move] at hwhole
  simp only [hwhole, moved, Option.map_some, Option.bind_some] at hhits hhits'
  split at hhits
  · next hall =>
    rw [if_pos hall] at hhits'
    simp only [pure, Option.some.injEq] at hhits hhits'
    rw [← hhits']
    exact .of_mem (List.mem_map_of_mem (hhits ▸ hhit))
  · next hne =>
    rw [if_neg hne] at hhits'
    have hsegments : flatMapM (fun p => classify (segmentCandidate group (cut.start + a)
        (cut.start + b) (cut.units[b]?.any isCheckX) p)) (runs isDigit group) =
        moved cut.start (flatMapM (fun p => classify (segmentCandidate group a b
          (cut.units[b]?.any isCheckX) p)) (runs isDigit group)) := by
      refine flatMapM_move fun p _ => ?_
      rw [segmentCandidate_move, classify_move]
    simp only [Option.bind_eq_some_iff] at hhits
    obtain ⟨parts, hparts, near, hnear, hhits⟩ := hhits
    simp only [hsegments, hparts, moved, Option.map_some, Option.bind_some,
      Option.bind_eq_some_iff] at hhits'
    obtain ⟨near', hnear', hhits'⟩ := hhits'
    have hmoved : hit ∈ whole ++ parts →
        hit.move cut.start ∈ whole.map (Hit.move cut.start) ++ parts.map (Hit.move cut.start) := by
      intro hmem
      rw [← List.map_append]
      exact List.mem_map_of_mem hmem
    cases near with
    | true =>
      have hwide := cut.phoneContext hab hb hnear
      rw [hnear', Option.some.injEq] at hwide
      simp only [hwide, Bool.not_true, Bool.and_false, Bool.false_eq_true, if_false, pure,
        Option.some.injEq] at hhits hhits'
      rw [← hhits']
      exact .of_mem (hmoved (hhits ▸ hhit))
    | false =>
      simp only [Bool.not_false, Bool.and_true] at hhits
      split at hhits
      · next htable =>
        simp only [pure, Option.some.injEq] at hhits
        rw [← hhits, List.mem_filter] at hhit
        obtain ⟨hmem, hkept⟩ := hhit
        split at hhits'
        · simp only [pure, Option.some.injEq] at hhits'
          refine .of_mem (hhits' ▸ List.mem_filter.mpr ⟨hmoved hmem, ?_⟩)
          simp only [Bool.or_eq_true, decide_eq_true_eq] at hkept ⊢
          simpa only [Hit.move, ne_eq, Nat.add_left_cancel_iff] using hkept
        · simp only [pure, Option.some.injEq] at hhits'
          exact .of_mem (hhits' ▸ hmoved hmem)
      · next htable =>
        simp only [pure, Option.some.injEq] at hhits
        rw [if_neg (by simp [htable])] at hhits'
        simp only [pure, Option.some.injEq] at hhits'
        exact .of_mem (hhits' ▸ hmoved (hhits ▸ hhit))

theorem Cut.scanGroups : Carried cut.start (scanGroups cut.units) (scanGroups cut.text) := by
  refine .flatMap fun p hp => ?_
  obtain ⟨a, b⟩ := p
  have hgroup := isGroup_of_mem hp
  exact ⟨_, cut.mem_stretches (groupLength_le _) (halts_groupLength (by decide)) hp,
    cut.scanGroup hgroup.lt hgroup.le⟩

section Formatted

def moveSegment (n : Nat) (p : Nat × Nat) : Nat × Nat := (n + p.1, n + p.2)

variable {segments : List (Nat × Nat)}

theorem lengths_move (segments : List (Nat × Nat)) :
    ((segments.map (moveSegment n)).map fun (a, b) => b - a) =
      segments.map fun (a, b) => b - a := by
  simp only [List.map_map]
  exact List.map_congr_left fun p _ => Nat.add_sub_add_left n p.2 p.1

theorem Cut.slices (hle : ∀ p ∈ segments, p.2 ≤ cut.units.length) :
    flatMapM (fun (a, b) => slice cut.text a b) (segments.map (moveSegment cut.start)) =
      flatMapM (fun (a, b) => slice cut.units a b) segments := by
  induction segments with
  | nil => rfl
  | cons p rest ih =>
    rw [List.map_cons, flatMapM_cons, flatMapM_cons,
      ih fun q hq => hle q (List.mem_cons_of_mem _ hq)]
    simp only [moveSegment, cut.slice_text (hle p List.mem_cons_self)]

theorem Cut.formattedWindow (hle : ∀ p ∈ segments, p.2 ≤ cut.units.length) :
    formattedWindow cut.text (segments.map (moveSegment cut.start)) =
      moved cut.start (formattedWindow cut.units segments) := by
  simp only [Inspect.formattedWindow, lengths_move, List.length_map, cut.slices hle,
    List.head?_map, List.getLast?_map]
  split
  · rfl
  · cases hhead : segments.head? with
    | none => rfl
    | some p =>
      cases hlast : segments.getLast? with
      | none => rfl
      | some q =>
        have hx := cut.any_text (show isCheckX 0 = false by decide)
          (hle q (List.mem_of_getLast? hlast))
        simp only [Option.map_some, bind, Option.bind_some, moveSegment, hx]
        generalize flatMapM (fun (a, b) => slice cut.units a b) segments = digits
        cases digits with
        | none =>
          split <;> rfl
        | some digits =>
          have hclassify := fun x => classify_move (n := cut.start)
            ⟨digits.map digitValue, p.1, q.2, x⟩
          simp only [Candidate.move] at hclassify
          simp only [Option.bind_some, hclassify]
          split
          · rfl
          · cases classify _ with
            | none => rfl
            | some hits =>
              simp only [moved, Option.map_some, Option.bind_some]
              split
              · simp only [pure, Option.map_some, List.filter_map]
                rfl
              · rfl

theorem Cut.shortestWindow (hle : ∀ p ∈ segments, p.2 ≤ cut.units.length) (left taken : Nat) :
    shortestWindow cut.text (segments.map (moveSegment cut.start)) left taken =
      (shortestWindow cut.units segments left taken).map
        (Option.map fun window => (window.1, window.2.map (Hit.move cut.start))) := by
  induction left generalizing taken with
  | zero => rfl
  | succ left ih =>
    have hwindow := cut.formattedWindow fun p (hp : p ∈ segments.take (taken + 1)) =>
      hle p (List.mem_of_mem_take hp)
    simp only [Inspect.shortestWindow, List.length_map, ← List.map_take, lengths_move, hwindow, ih]
    split
    · rfl
    · split
      · rfl
      · cases Inspect.formattedWindow cut.units (segments.take (taken + 1)) with
        | none => rfl
        | some found =>
          simp only [moved, Option.map_some, bind, Option.bind_some, ne_eq, List.map_eq_nil_iff]
          split <;> rfl

theorem Cut.scanWindows (hle : ∀ p ∈ segments, p.2 ≤ cut.units.length) (start coveredUntil : Nat) :
    scanWindows cut.text (segments.map (moveSegment cut.start)) start coveredUntil =
      moved cut.start (scanWindows cut.units segments start coveredUntil) := by
  induction segments generalizing start coveredUntil with
  | nil => rfl
  | cons p rest ih =>
    have hrest := ih fun q hq => hle q (List.mem_cons_of_mem _ hq)
    have hwindow := cut.shortestWindow hle 5 0
    rw [List.map_cons] at hwindow
    simp only [List.map_cons, Inspect.scanWindows, hwindow, hrest]
    cases Inspect.shortestWindow cut.units (p :: rest) 5 0 with
    | none => rfl
    | some best =>
      cases best with
      | none => rfl
      | some window =>
        simp only [Option.map_some, bind, Option.bind_some]
        split
        · cases Inspect.scanWindows cut.units rest (start + 1) (start + window.1) with
          | none => rfl
          | some found => simp [moved]
        · rfl

theorem Cut.scanFormatted :
    Carried cut.start (scanFormatted cut.units) (scanFormatted cut.text) := by
  refine .flatMap fun p hp => ?_
  obtain ⟨a, b⟩ := p
  have hgroup := isGroup_of_mem hp
  refine ⟨_, cut.mem_stretches (groupLength_le _) (halts_groupLength (by decide)) hp, .of_eq ?_⟩
  simp only [scanChain, cut.slice_text hgroup.le, slice_of_le hgroup.lt.le hgroup.le, bind,
    Option.bind_some]
  have hsegments := chain_areSegments (slice_of_le hgroup.lt.le hgroup.le)
  rw [← cut.scanWindows hsegments.le, List.map_map]
  simp only [Nat.add_assoc]
  rfl

end Formatted

section CountryMobile

theorem Cut.countryMobile (left : Nat) (lengths digits : List Nat) {stop : Nat}
    (hstop : stop ≤ cut.units.length) :
    countryMobile cut.text left lengths digits (cut.start + stop) =
      (countryMobile cut.units left lengths digits stop).map (cut.start + ·) := by
  induction left generalizing lengths digits stop with
  | zero => rfl
  | succ left ih =>
    have hseparator := cut.any_text (show isFormattedSeparator 0 = false by decide) hstop
    simp only [Inspect.countryMobile, hseparator, Nat.add_assoc cut.start]
    split
    · rfl
    · by_cases hend : stop < cut.units.length
      · rw [cut.any_text (show isDigit 0 = false by decide) hend,
          cut.takeWhile_drop (show isDigit 0 = false by decide) hend]
        have hnext : ((cut.units.drop (stop + 1)).takeWhile isDigit).length ≤
            cut.units.length - (stop + 1) := by
          rw [← List.length_drop]
          exact (List.takeWhile_prefix _).length_le
        generalize (cut.units.drop (stop + 1)).takeWhile isDigit = next at hnext ⊢
        have htaken : stop + 1 + (next.take (15 - digits.length)).length ≤ cut.units.length := by
          rw [List.length_take]
          omega
        split
        · rfl
        · split
          · rfl
          · exact ih _ _ htaken
      · have hnone : cut.units[stop]? = none := List.getElem?_eq_none (by omega)
        simp [hnone]

theorem Cut.scanCountryMobile :
    Carried cut.start (scanCountryMobile cut.units) (scanCountryMobile cut.text) := by
  refine .flatMap fun p hp => ?_
  obtain ⟨a, b⟩ := p
  have hrun := isRun_of_mem_runs hp
  refine ⟨_, cut.mem_runs (by decide) hp, .of_eq ?_⟩
  simp only [Nat.add_sub_add_left, cut.slice_text hrun.le, cut.countryMobile _ _ _ hrun.le]
  split
  · rfl
  · rw [slice_of_le hrun.lt.le hrun.le]
    simp only [bind, Option.bind_some]
    cases Inspect.countryMobile cut.units 4 [b - a] _ b with
    | none => rfl
    | some found =>
      simp only [Option.map_some, Nat.add_sub_add_left]
      rfl

end CountryMobile

section Crossline

theorem Cut.crosslineGap {start : Nat} (hstart : start ≤ cut.units.length) :
    crosslineGap cut.text (cut.start + start) =
      (crosslineGap cut.units start).map fun gap => (cut.start + gap.1, gap.2) := by
  simp only [Inspect.crosslineGap,
    cut.takeWhile_take_drop (show crosslineSeparator 0 = false by decide) hstart]
  have hgap : (((cut.units.drop start).take 3).takeWhile crosslineSeparator).length ≤
      cut.units.length - start := by
    rw [← List.length_drop]
    exact (List.takeWhile_prefix _).length_le.trans (List.length_take_le' _ _)
  generalize ((cut.units.drop start).take 3).takeWhile crosslineSeparator = gap at hgap ⊢
  rw [Nat.add_assoc, cut.any_text (show isDigit 0 = false by decide) (by omega)]
  simp only [Nat.add_lt_add_iff_left]
  split <;> rfl

/-- Right before the part comes nothing or a NUL. -/
theorem Cut.getElem?_front (h : 0 < cut.start) : cut.text[cut.start - 1]? = some 0 := by
  have hlt : cut.start - 1 < cut.before.length := by
    rw [start] at *
    omega
  have hlast : cut.before.getLast? = some (cut.before[cut.start - 1]) := by
    rw [List.getLast?_eq_getElem?, ← List.getElem?_eq_getElem hlt]
    rfl
  rw [text, List.append_assoc, List.getElem?_append_left hlt, List.getElem?_eq_getElem hlt,
    cut.opens _ hlast]

theorem Cut.crosslineLeftNeighbor {start : Nat} (hstart : start ≤ cut.units.length) :
    crosslineLeftNeighbor cut.text (cut.start + start) =
      crosslineLeftNeighbor cut.units start := by
  simp only [Inspect.crosslineLeftNeighbor,
    cut.takeWhile_take_reverse (show crosslineSeparator 0 = false by decide) hstart]
  have hgap : (((cut.units.take start).reverse.take 3).takeWhile crosslineSeparator).length ≤
      start := by
    refine (List.takeWhile_prefix _).length_le.trans ((List.length_take_le' _ _).trans ?_)
    rw [List.length_reverse, List.length_take]
    omega
  generalize ((cut.units.take start).reverse.take 3).takeWhile crosslineSeparator = gap at hgap ⊢
  rw [Nat.add_sub_assoc hgap]
  have hcursor : start - gap.length ≤ start := Nat.sub_le _ _
  generalize start - gap.length = cursor at hcursor ⊢
  simp only [Nat.add_lt_add_iff_left]
  cases cursor with
  | zero =>
    have hnone : (decide (0 < cut.start) && cut.text[cut.start - 1]?.any isDigit) = false := by
      by_cases hpos : 0 < cut.start
      · rw [cut.getElem?_front hpos]
        simp [show isDigit 0 = false by decide]
      · simp [hpos]
    simp only [Nat.add_zero, Nat.lt_irrefl, decide_false, Bool.and_false, Bool.false_and]
    rw [Bool.and_assoc, Bool.and_assoc, Bool.and_left_comm (decide (0 < cut.start)), hnone]
    simp
  | succ cursor =>
    rw [← Nat.add_assoc, Nat.add_sub_cancel, Nat.add_sub_cancel,
      cut.any_text (show isDigit 0 = false by decide) (by omega)]
    simp

theorem Cut.crosslineRightNeighbor {stop : Nat} (hstop : stop ≤ cut.units.length) :
    crosslineRightNeighbor cut.text (cut.start + stop) =
      crosslineRightNeighbor cut.units stop := by
  simp only [Inspect.crosslineRightNeighbor,
    cut.any_text (show isDigit 0 = false by decide) hstop, cut.crosslineGap hstop, Option.any_map]

theorem Cut.crosslineId {start : Nat} (left : Nat) (digits : List Nat) {stop : Nat}
    (crossed : Bool) (hstop : stop ≤ cut.units.length) :
    crosslineId cut.text (cut.start + start) left digits (cut.start + stop) crossed =
      moved cut.start (crosslineId cut.units start left digits stop crossed) := by
  induction left generalizing digits stop crossed with
  | zero => rfl
  | succ left ih =>
    have hx := cut.any_text (show isCheckX 0 = false by decide) hstop
    simp only [Inspect.crosslineId, hx]
    by_cases hdone : (decide (digits.length = 18) ||
        decide (digits.length = 17) && cut.units[stop]?.any isCheckX) = true
    · rw [if_pos hdone, if_pos hdone]
      have hcheck : ∃ checkStop ≤ cut.units.length, checkStop =
          if (decide (digits.length = 17) && cut.units[stop]?.any isCheckX) = true then stop + 1
          else stop := by
        refine ⟨_, ?_, rfl⟩
        split
        · next hsuffix =>
          obtain ⟨u, hu, -⟩ := any_isCheckX (Bool.and_eq_true_iff.mp hsuffix).2
          exact (List.getElem?_eq_some_iff.mp hu).1
        · exact hstop
      obtain ⟨checkStop, hle, hcheckStop⟩ := hcheck
      have hmoved : (if (decide (digits.length = 17) && cut.units[stop]?.any isCheckX) = true then
          cut.start + stop + 1 else cut.start + stop) = cut.start + checkStop := by
        rw [hcheckStop]
        split <;> rfl
      rw [hmoved, ← hcheckStop, cut.crosslineRightNeighbor hle, Nat.add_sub_add_left]
      have hreport : ∀ found,
          report found ⟨.cnResidentId, cut.start + start, checkStop - start, .s3⟩ =
            (report found ⟨.cnResidentId, start, checkStop - start, .s3⟩).map
              (Hit.move cut.start) :=
        fun found => report_move found ⟨.cnResidentId, start, checkStop - start, .s3⟩
      simp only [hreport, moved, bind, pure, Option.map_bind, Function.comp_def, Option.map_some]
    · rw [if_neg hdone, if_neg hdone, cut.crosslineGap hstop]
      cases hgap : Inspect.crosslineGap cut.units stop with
      | none => rfl
      | some gap =>
        obtain ⟨next, lineBreak⟩ := gap
        have hnext : next ≤ cut.units.length := by
          have hdigit := (crosslineGap_some hgap).2
          by_contra hlt
          rw [List.getElem?_eq_none (by omega)] at hdigit
          cases hdigit
        simp only [Option.map_some]
        rw [cut.takeWhile_drop (show isDigit 0 = false by decide) hnext]
        have hrun : ((cut.units.drop next).takeWhile isDigit).length ≤ cut.units.length - next := by
          rw [← List.length_drop]
          exact (List.takeWhile_prefix _).length_le
        generalize (cut.units.drop next).takeWhile isDigit = run at hrun ⊢
        have htaken : next + (run.take (18 - digits.length)).length ≤ cut.units.length := by
          rw [List.length_take]
          omega
        split
        · rfl
        · rw [Nat.add_assoc]
          exact ih _ _ htaken

theorem Cut.scanCrosslineModernId :
    Carried cut.start (scanCrosslineModernId cut.units) (scanCrosslineModernId cut.text) := by
  refine .flatMap fun p hp => ?_
  obtain ⟨a, b⟩ := p
  have hrun := isRun_of_mem_runs hp
  refine ⟨_, cut.mem_runs (by decide) hp, .of_eq ?_⟩
  simp only [Nat.add_sub_add_left, cut.slice_text hrun.le,
    cut.crosslineLeftNeighbor (hrun.lt.le.trans hrun.le)]
  split
  · rfl
  · rw [slice_of_le hrun.lt.le hrun.le]
    exact cut.crosslineId 19 _ false hrun.le

end Crossline

end Numbers

end Inspect
