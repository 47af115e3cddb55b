import IDoris.Inspect.CutTokens

/-!
# Readings of a text between NULs

Every reading of a text, and its percent decoding, is cut where the text is. So a part of the text
is read as it is alone, and what the scan finds in the part it finds in the text.
-/
namespace Inspect

open Scanner Utf16

section Readings

variable {n i k : Nat}

def Cell.move (n : Nat) (c : Cell) : Cell := { c with first := n + c.first, stop := n + c.stop }

def View.move (n : Nat) (view : View) : View := view.map (Cell.move n)

theorem View.units_move (view : View) : (view.move n).units = view.units := by
  simp only [View.units, View.move, List.map_map]
  rfl

theorem View.move_append (front back : View) :
    View.move n (front ++ back) = front.move n ++ back.move n := List.map_append

/-- The cell of a NUL. -/
def Cell.nul (i : Nat) : Cell := ⟨0, i, i + 1⟩

/-- How a text can be read, and how its percent encoding is undone. -/
inductive Reading where
  | literal
  | folded (dropIgnorables foldScripts : Bool)
  | skipping (k : Nat)
  | unescaped

def Reading.readFrom : Reading → List Nat → Nat → View
  | .literal, units, i => (units.zipIdx i).map fun (u, i) => ⟨u, i, i + 1⟩
  | .folded dropIgnorables foldScripts, units, i => rewriteFrom dropIgnorables foldScripts units i
  | .skipping k, units, i => (skipFrom k none 0 units i).1
  | .unescaped, units, i => (decodePercentFrom 0 units i).1

section Rewrite

variable {dropIgnorables foldScripts : Bool}

theorem rewriteUnit_nul (i : Nat) : rewriteUnit dropIgnorables foldScripts 0 i = [.nul i] := by
  have hkept : isDefaultIgnorable 0 = false := by decide
  have hfold : ∀ foldScripts, foldBmp 0 foldScripts = 0 := by decide
  simp only [rewriteUnit, hkept, hfold, Bool.and_false]
  rfl

theorem rewriteUnit_move (u i : Nat) : rewriteUnit dropIgnorables foldScripts u (n + i) =
    View.move n (rewriteUnit dropIgnorables foldScripts u i) := by
  unfold rewriteUnit
  split <;> rfl

theorem rewriteFrom_nul (xs ys : List Nat) (i : Nat) :
    rewriteFrom dropIgnorables foldScripts (xs ++ 0 :: ys) i =
      rewriteFrom dropIgnorables foldScripts xs i ++ .nul (i + xs.length) ::
        rewriteFrom dropIgnorables foldScripts ys (i + xs.length + 1) := by
  have hnul : ∀ i, rewriteFrom dropIgnorables foldScripts (0 :: ys) i =
      .nul i :: rewriteFrom dropIgnorables foldScripts ys (i + 1) := by
    intro i
    rw [rewriteFrom_single (by decide), rewriteUnit_nul]
    rfl
  induction hn : xs.length using Nat.strong_induction_on generalizing xs i with
  | h n ih =>
    subst hn
    match xs with
    | [] => exact hnul i
    | [u] =>
      have hpass : rewriteFrom dropIgnorables foldScripts (u :: 0 :: ys) i =
          rewriteUnit dropIgnorables foldScripts u i ++
            rewriteFrom dropIgnorables foldScripts (0 :: ys) (i + 1) :=
        if_neg (by rw [show isLow 0 = false by decide, Bool.and_false]; exact Bool.false_ne_true)
      rw [List.singleton_append, hpass, hnul]
      rfl
    | u :: v :: rest =>
      have htwo : i + 2 + rest.length = i + (u :: v :: rest).length := by
        simp only [List.length_cons]
        omega
      have hone : i + 1 + (v :: rest).length = i + (u :: v :: rest).length := by
        simp only [List.length_cons]
        omega
      simp only [List.cons_append, rewriteFrom]
      split
      · rw [ih rest.length (by simp only [List.length_cons]; omega) rest (i + 2) rfl,
          List.append_assoc, htwo]
      · rw [← List.cons_append, ih (v :: rest).length (by simp) (v :: rest) (i + 1) rfl,
          List.append_assoc, hone]

theorem rewriteFrom_move (units : List Nat) (i : Nat) :
    rewriteFrom dropIgnorables foldScripts units (n + i) =
      View.move n (rewriteFrom dropIgnorables foldScripts units i) := by
  induction hn : units.length using Nat.strong_induction_on generalizing units i with
  | h m ih =>
    subst hn
    match units with
    | [] => rfl
    | [u] => exact rewriteUnit_move u i
    | u :: v :: rest =>
      simp only [rewriteFrom, Nat.add_assoc n]
      split
      · rw [ih rest.length (by simp only [List.length_cons]; omega) rest (i + 2) rfl,
          View.move_append]
        congr 1
        split <;> rfl
      · rw [ih (v :: rest).length (by simp) (v :: rest) (i + 1) rfl, View.move_append,
          rewriteUnit_move]

end Rewrite

section Skip

theorem digits_nul (k : Nat) (xs ys : List Nat) :
    (decide (k < (xs ++ 0 :: ys).length) && ((xs ++ 0 :: ys).take (k + 1)).all isDigit) =
      (decide (k < xs.length) && (xs.take (k + 1)).all isDigit) := by
  by_cases hk : k < xs.length
  · have hlong : k < (xs ++ 0 :: ys).length := by
      rw [List.length_append]
      omega
    rw [List.take_append_of_le_length hk, decide_eq_true hk, decide_eq_true hlong]
  · have hnul : ((xs ++ 0 :: ys).take (k + 1)).all isDigit = false := by
      obtain ⟨m, rfl⟩ := Nat.exists_eq_add_of_le (Nat.le_of_not_lt hk)
      rw [List.all_eq_false]
      refine ⟨0, ?_, by decide⟩
      rw [Nat.add_assoc, List.take_length_add_append]
      exact List.mem_append_right _ List.mem_cons_self
    rw [hnul, Bool.and_false, decide_eq_false hk, Bool.false_and]

/-- Behind a NUL the pass starts anew, and it leaves nothing of it out. -/
theorem skipFrom_nul (previous : Option Nat) (skip : Nat) (xs ys : List Nat) (i : Nat)
    (hskip : skip ≤ xs.length) : skipFrom k previous skip (xs ++ 0 :: ys) i =
      ((skipFrom k previous skip xs i).1 ++ .nul (i + xs.length) ::
          (skipFrom k none 0 ys (i + xs.length + 1)).1,
        (skipFrom k previous skip xs i).2 || (skipFrom k none 0 ys (i + xs.length + 1)).2) := by
  have hprevious : ∀ ys i, skipFrom k (some 0) 0 ys i = skipFrom k none 0 ys i := by
    intro ys i
    cases ys with
    | nil => rfl
    | cons u rest =>
      simp only [skipFrom]
      congr 1
  have htaken : ∀ (u : Nat) (rest : List Nat) (previous : Option Nat),
      (if (decide (u = 'u'.toNat) && (decide (previous = some '\\'.toNat) &&
        (decide (k < rest.length) && (rest.take (k + 1)).all isDigit))) = true then k else 0) ≤
          rest.length := by
    intro u rest previous
    split
    · next h =>
      simp only [Bool.and_eq_true, decide_eq_true_eq] at h
      omega
    · exact Nat.zero_le _
  induction xs generalizing previous skip i with
  | nil =>
    obtain rfl : skip = 0 := Nat.le_zero.mp hskip
    simp only [List.nil_append, skipFrom, show decide (0 = 'u'.toNat) = false by decide,
      Bool.false_and, Bool.false_eq_true, if_false, hprevious]
    rfl
  | cons u rest ih =>
    cases skip with
    | succ skip =>
      have hlen : i + 1 + rest.length = i + (u :: rest).length := by
        simp only [List.length_cons]
        omega
      rw [List.cons_append, skipFrom_cons_skip, skipFrom_cons_skip,
        ih (some u) skip (i + 1) (Nat.le_of_succ_le_succ hskip), hlen]
    | zero =>
      have hlen : i + 1 + rest.length = i + (u :: rest).length := by
        simp only [List.length_cons]
        omega
      simp only [List.cons_append, skipFrom, Bool.and_assoc, digits_nul]
      have hskip := htaken u rest previous
      generalize (decide (u = 'u'.toNat) && (decide (previous = some '\\'.toNat) &&
        (decide (k < rest.length) && (rest.take (k + 1)).all isDigit))) = taken at hskip ⊢
      rw [ih (some u) (if taken = true then k else 0) (i + 1) hskip, hlen, Bool.or_assoc]

theorem skipFrom_move (previous : Option Nat) (skip : Nat) (units : List Nat) (i : Nat) :
    skipFrom k previous skip units (n + i) =
      (View.move n (skipFrom k previous skip units i).1, (skipFrom k previous skip units i).2) := by
  induction units generalizing previous skip i with
  | nil => 
    cases skip <;> rfl
  | cons u rest ih =>
    cases skip with
    | succ skip => exact ih (some u) skip (i + 1)
    | zero =>
      simp only [skipFrom, Nat.add_assoc n, ih]
      rfl

end Skip

section Percent

theorem byteAt_congr {us vs : List Nat} {byte : Nat} (h : byteAt us = some byte)
    (htake : vs.take 3 = us.take 3) : byteAt vs = some byte := by
  obtain ⟨high, low, rest, a, b, rfl, ha, hb, rfl⟩ := byteAt_some h
  match vs, htake with
  | percent :: first :: second :: more, htake =>
    simp only [List.take_succ_cons, List.take_zero, List.cons.injEq, and_true] at htake
    obtain ⟨rfl, rfl, rfl⟩ := htake
    simp [byteAt, ha, hb]

/-- An escaped character is what its own units spell. -/
theorem percentChar_congr {us vs : List Nat} {c : Char} {m : Nat}
    (h : percentChar us = some (c, m)) (htake : vs.take m = us.take m) :
    percentChar vs = some (c, m) := by
  simp only [percentChar, bind, Option.bind_eq_some_iff, pure, Option.some.injEq,
    Prod.mk.injEq] at h
  obtain ⟨first, hfirst, width, hwidth, bytes, hbytes, text, htext, d, hd, rfl, rfl⟩ := h
  have hbyte : ∀ n ∈ List.range width, byteAt (vs.drop (n * 3)) = byteAt (us.drop (n * 3)) := by
    intro n hn
    rw [List.mem_range] at hn
    obtain ⟨byte, hbyte⟩ := mem_of_mapM hbytes (List.mem_range.mpr hn)
    rw [hbyte]
    refine byteAt_congr hbyte ?_
    have hpart := congrArg (fun xs => (xs.drop (n * 3)).take 3) htake
    simp only [List.drop_take, List.take_take] at hpart
    rwa [show min 3 (width * 3 - n * 3) = 3 by omega] at hpart
  have hpos : 0 < width := by
    have hchar : percentChar us = some (d, width * 3) := by
      simp only [percentChar, hfirst, hwidth, hbytes, htext, hd, bind, Option.bind_some]
      rfl
    have := (percentChar_units hchar).1
    omega
  have hzero := hbyte 0 (List.mem_range.mpr hpos)
  simp only [Nat.zero_mul, List.drop_zero] at hzero
  have hall : (List.range width).mapM (fun n => byteAt (vs.drop (n * 3))) = some bytes := by
    rw [← hbytes]
    clear hbytes hpos hzero
    generalize List.range width = places at hbyte
    induction places with
    | nil => rfl
    | cons n places ih =>
      rw [List.mapM_cons, List.mapM_cons, hbyte n List.mem_cons_self,
        ih fun m hm => hbyte m (List.mem_cons_of_mem _ hm)]
  simp only [percentChar, hzero, hfirst, hwidth, hall, htext, hd, bind, Option.bind_some]
  rfl

theorem percentChar_nul (xs ys : List Nat) : percentChar (xs ++ 0 :: ys) = percentChar xs := by
  have hinside : ∀ {us : List Nat} {c : Char} {m : Nat}, percentChar us = some (c, m) →
      us[xs.length]? = none ∨ us[xs.length]? = some 0 → m ≤ xs.length := by
    intro us c m h hend
    obtain ⟨-, hunits⟩ := percentChar_units h
    by_contra hlt
    obtain ⟨u, hu, hescape⟩ := hunits xs.length (by omega)
    obtain hnone | hnul := hend
    · rw [hnone] at hu
      cases hu
    · rw [hnul, Option.some.injEq] at hu
      subst hu
      obtain hpercent | ⟨value, hvalue⟩ := hescape
      · exact absurd hpercent (by decide)
      · exact absurd hvalue (by simp [hexValue, isDigit])
  cases h : percentChar (xs ++ 0 :: ys) with
  | some found =>
    obtain ⟨c, m⟩ := found
    have hle := hinside h (.inr (by simp))
    exact (percentChar_congr h (by rw [List.take_append_of_le_length hle])).symm
  | none =>
    cases h' : percentChar xs with
    | none => rfl
    | some found =>
      obtain ⟨c, m⟩ := found
      have hle := hinside h' (.inl (List.getElem?_eq_none le_rfl))
      have hsame : (xs ++ 0 :: ys).take m = xs.take m := List.take_append_of_le_length hle
      rw [percentChar_congr h' hsame] at h
      cases h

theorem decodePercentFrom_nul (xs ys : List Nat) (i : Nat) :
    decodePercentFrom 0 (xs ++ 0 :: ys) i =
      ((decodePercentFrom 0 xs i).1 ++ .nul (i + xs.length) ::
          (decodePercentFrom 0 ys (i + xs.length + 1)).1,
        (decodePercentFrom 0 xs i).2 + (decodePercentFrom 0 ys (i + xs.length + 1)).2) := by
  induction hn : xs.length using Nat.strong_induction_on generalizing xs i with
  | h m ih =>
    subst hn
    have hsame := percentChar_nul xs ys
    cases hchar : percentChar xs with
    | some found =>
      obtain ⟨c, consumed⟩ := found
      obtain ⟨hpos, hunits⟩ := percentChar_units hchar
      have hle : consumed ≤ xs.length := by
        obtain ⟨u, hu, -⟩ := hunits (consumed - 1) (by omega)
        have := (List.getElem?_eq_some_iff.mp hu).1
        omega
      have hlen : i + consumed + (xs.drop consumed).length = i + xs.length := by
        rw [List.length_drop]
        omega
      rw [decodePercentFrom_escape (hsame.trans hchar), decodePercentFrom_escape hchar,
        List.drop_append_of_le_length hle, ih _ (by rw [List.length_drop]; omega) _ _ rfl, hlen]
      simp only [List.append_assoc, Nat.add_right_comm]
    | none =>
      cases xs with
      | nil =>
        rw [List.nil_append, decodePercentFrom_literal (hsame.trans hchar)]
        simp [decodePercentFrom, Cell.nul]
      | cons u rest =>
        have hlen : i + 1 + rest.length = i + (u :: rest).length := by
          simp only [List.length_cons]
          omega
        rw [List.cons_append] at hsame ⊢
        rw [decodePercentFrom_literal (hsame.trans hchar), decodePercentFrom_literal hchar,
          ih rest.length (by simp) rest (i + 1) rfl, hlen]
        rfl

theorem decodePercentFrom_move (skip : Nat) (units : List Nat) (i : Nat) :
    decodePercentFrom skip units (n + i) =
      (View.move n (decodePercentFrom skip units i).1, (decodePercentFrom skip units i).2) := by
  induction units generalizing skip i with
  | nil => cases skip <;> rfl
  | cons u rest ih =>
    cases skip with
    | succ skip => exact ih skip (i + 1)
    | zero =>
      simp only [decodePercentFrom, Nat.add_assoc n, ih]
      split
      · simp only [View.move_append]
        simp [View.move, Cell.move]
      · rfl

end Percent

namespace Reading

theorem readFrom_nil (reading : Reading) (i : Nat) : reading.readFrom [] i = [] := by
  cases reading <;> rfl

theorem readFrom_nul (reading : Reading) (xs ys : List Nat) (i : Nat) :
    reading.readFrom (xs ++ 0 :: ys) i =
      reading.readFrom xs i ++ .nul (i + xs.length) :: reading.readFrom ys (i + xs.length + 1) := by
  cases reading with
  | literal =>
    simp only [readFrom, List.zipIdx_append, List.map_append, List.zipIdx_cons, List.map_cons]
    rfl
  | folded dropIgnorables foldScripts => exact rewriteFrom_nul xs ys i
  | skipping k => exact congrArg Prod.fst (skipFrom_nul none 0 xs ys i (Nat.zero_le _))
  | unescaped => exact congrArg Prod.fst (decodePercentFrom_nul xs ys i)

theorem readFrom_move (reading : Reading) (units : List Nat) (i : Nat) :
    reading.readFrom units (n + i) = View.move n (reading.readFrom units i) := by
  cases reading with
  | literal =>
    induction units generalizing i with
    | nil => rfl
    | cons u rest ih => exact congrArg (_ :: ·) (ih (i + 1))
  | folded dropIgnorables foldScripts => exact rewriteFrom_move units i
  | skipping k => exact congrArg Prod.fst (skipFrom_move none 0 units i)
  | unescaped => exact congrArg Prod.fst (decodePercentFrom_move 0 units i)

theorem readFrom_append_of_last (reading : Reading) {xs : List Nat}
    (h : ∀ u, xs.getLast? = some u → u = 0) (ys : List Nat) (i : Nat) :
    reading.readFrom (xs ++ ys) i =
      reading.readFrom xs i ++ reading.readFrom ys (i + xs.length) := by
  obtain rfl | ⟨rest, u, rfl⟩ := List.eq_nil_or_concat' xs
  · rw [readFrom_nil]
    rfl
  · obtain rfl : u = 0 := h u List.getLast?_concat
    rw [List.append_assoc, List.singleton_append, readFrom_nul, readFrom_nul, readFrom_nil,
      List.append_assoc, List.singleton_append, List.length_append, List.length_singleton,
      Nat.add_assoc]

theorem readFrom_append_of_head (reading : Reading) {ys : List Nat}
    (h : ∀ u, ys.head? = some u → u = 0) (xs : List Nat) (i : Nat) :
    reading.readFrom (xs ++ ys) i =
      reading.readFrom xs i ++ reading.readFrom ys (i + xs.length) := by
  cases ys with
  | nil => rw [readFrom_nil, List.append_nil, List.append_nil]
  | cons u rest =>
    obtain rfl : u = 0 := h u rfl
    have hfirst := readFrom_nul reading [] rest (i + xs.length)
    rw [List.nil_append, readFrom_nil] at hfirst
    rw [readFrom_nul, hfirst]
    rfl

end Reading

namespace Cut

variable (cut : Cut) (reading : Reading)

/-- The cut of a reading of the text. -/
def as : Cut where
  before := View.units (reading.readFrom cut.before 0)
  units := View.units (reading.readFrom cut.units 0)
  after := View.units (reading.readFrom cut.after 0)
  opens := by
    intro u hu
    obtain hnil | ⟨rest, v, hlast⟩ := List.eq_nil_or_concat' cut.before
    · rw [hnil, Reading.readFrom_nil] at hu
      cases hu
    · obtain rfl : v = 0 := cut.opens v (by rw [hlast, List.getLast?_concat])
      rw [hlast, Reading.readFrom_nul, Reading.readFrom_nil, View.units, List.map_append,
        List.map_singleton, List.getLast?_concat, Option.some.injEq] at hu
      exact hu.symm
  closes := by
    intro u hu
    cases hafter : cut.after with
    | nil =>
      rw [hafter, Reading.readFrom_nil] at hu
      cases hu
    | cons v rest =>
      obtain rfl : v = 0 := cut.closes v (by rw [hafter]; rfl)
      have hfirst := Reading.readFrom_nul reading [] rest 0
      rw [List.nil_append, Reading.readFrom_nil] at hfirst
      rw [hafter, hfirst] at hu
      exact (Option.some.inj hu).symm

/-- The text is read part by part. -/
theorem readFrom_text : reading.readFrom cut.text 0 =
    reading.readFrom cut.before 0 ++ View.move cut.start (reading.readFrom cut.units 0) ++
      View.move (cut.start + cut.units.length) (reading.readFrom cut.after 0) := by
  rw [text, List.append_assoc, reading.readFrom_append_of_last cut.opens,
    reading.readFrom_append_of_head cut.closes, ← Reading.readFrom_move, ← Reading.readFrom_move,
    Nat.zero_add, List.append_assoc]
  rfl

theorem as_text : (cut.as reading).text = View.units (reading.readFrom cut.text 0) := by
  rw [readFrom_text, View.units, List.map_append, List.map_append]
  show _ = View.units _ ++ View.units _ ++ View.units _
  rw [View.units_move, View.units_move]
  rfl

/-- What holds of the part holds of the text, if it holds of all that goes on with a NUL. -/
theorem text_of_units {P : List Nat → Prop} (hback : ∀ xs ys, P xs → P (xs ++ 0 :: ys))
    (hfront : ∀ xs ys, P ys → P (xs ++ 0 :: ys)) (h : P cut.units) : P cut.text := by
  have htail : P (cut.units ++ cut.after) := by
    cases hafter : cut.after with
    | nil => rwa [List.append_nil]
    | cons u rest =>
      obtain rfl : u = 0 := cut.closes u (by rw [hafter]; rfl)
      exact hback _ _ h
  rw [text, List.append_assoc]
  obtain hnil | ⟨rest, u, hlast⟩ := List.eq_nil_or_concat' cut.before
  · rwa [hnil]
  · obtain rfl : u = 0 := cut.opens u (by rw [hlast, List.getLast?_concat])
    rw [hlast, List.append_assoc]
    exact hfront _ _ htail

theorem skipped_text (h : (skipFrom k none 0 cut.units 0).2 = true) :
    (skipFrom k none 0 cut.text 0).2 = true := by
  refine cut.text_of_units (P := fun units => (skipFrom k none 0 units 0).2 = true) ?_ ?_ h
  · intro xs ys hxs
    rw [skipFrom_nul none 0 xs ys 0 (Nat.zero_le _)]
    exact (Bool.or_eq_true _ _).mpr (.inl hxs)
  · intro xs ys hys
    rw [skipFrom_nul none 0 xs ys 0 (Nat.zero_le _)]
    have hmoved := congrArg Prod.snd (skipFrom_move (n := 0 + xs.length + 1) (k := k) none 0 ys 0)
    exact (Bool.or_eq_true _ _).mpr (.inr (hmoved.trans hys))

theorem decoded_text (h : 0 < (decodePercentFrom 0 cut.units 0).2) :
    0 < (decodePercentFrom 0 cut.text 0).2 := by
  refine cut.text_of_units (P := fun units => 0 < (decodePercentFrom 0 units 0).2) ?_ ?_ h
  · intro xs ys hxs
    rw [decodePercentFrom_nul]
    exact Nat.add_pos_left hxs _
  · intro xs ys hys
    rw [decodePercentFrom_nul]
    have hmoved := congrArg Prod.snd (decodePercentFrom_move (n := 0 + xs.length + 1) 0 ys 0)
    exact Nat.add_pos_right _ (hmoved ▸ hys)

/-- A range of the part's reading stands for the same units of the part and of the text. -/
theorem moveBack_text {hit moved : Hit} (hpos : 0 < hit.length)
    (h : moveBack (reading.readFrom cut.units 0) hit = some moved) :
    moveBack (reading.readFrom cut.text 0) (hit.move (cut.as reading).start) =
      some (moved.move cut.start) := by
  have hcell : ∀ {i : Nat} {c : Cell}, (reading.readFrom cut.units 0)[i]? = some c →
      (reading.readFrom cut.text 0)[(cut.as reading).start + i]? = some (c.move cut.start) := by
    intro i c hc
    have hlt := (List.getElem?_eq_some_iff.mp hc).1
    have hstart : (cut.as reading).start = (reading.readFrom cut.before 0).length :=
      View.length_units _
    rw [readFrom_text, List.append_assoc, hstart, List.getElem?_append_right (by omega),
      Nat.add_sub_cancel_left,
      List.getElem?_append_left (by rw [View.move, List.length_map]; exact hlt),
      View.move, List.getElem?_map, hc]
    rfl
  simp only [moveBack, View.originalSpan, bind, Option.bind_eq_some_iff, pure,
    Option.some.injEq] at h
  obtain ⟨span, ⟨first, hfirst, last, hlast, rfl⟩, rfl⟩ := h
  have hlast' := hcell hlast
  rw [← Nat.add_sub_assoc (show 1 ≤ hit.start + hit.length by omega), ← Nat.add_assoc] at hlast'
  simp only [moveBack, View.originalSpan, Hit.move, hcell hfirst, hlast', bind, Option.bind_some,
    pure, Cell.move, Nat.add_sub_add_left]

end Cut

end Readings

section Scans

variable {units : List Nat} {n : Nat}

theorem Reading.of (reading : Reading) (h : Paired units) :
    View.Of units (reading.readFrom units 0) := by
  cases reading with
  | literal => exact identity_of h
  | folded dropIgnorables foldScripts => exact rewrite_of h
  | skipping k =>
    obtain ⟨hpaired, hliteral, horder⟩ : Rewritten units 0 (skipFrom k none 0 units 0).1 :=
      skipFrom_rewritten h none (by simp) 0
    exact .of_literal hpaired hliteral horder
  | unescaped =>
    have hdecoded := decodePercentFrom_decoded h 0
    refine ⟨hdecoded.paired, fun c hc => ?_, hdecoded.order, hdecoded.low, hdecoded.high⟩
    have := hdecoded.cell c hc
    omega

/-- The readings in which a scan goes over a text. -/
def readings (units : List Nat) : List Reading :=
  [.literal, .folded false false, .folded true false, .folded true true] ++
    ([1, 2, 3].filter fun k => (skipShortEscapeDigits units k).isSome).map .skipping

namespace Cut

variable (cut : Cut) {f : List Nat → Option (List Hit)}

/-- The part and the text have whole characters. -/
structure Whole : Prop where
  units : Paired cut.units
  text : Paired cut.text

variable {cut}

theorem Whole.as (h : cut.Whole) (reading : Reading) : (cut.as reading).Whole :=
  ⟨(reading.of h.units).paired, by rw [as_text]; exact (reading.of h.text).paired⟩

/-- What a reading of the part shows, the reading of the text shows at its place. -/
theorem scanView (hf : FittingScan f) (h : cut.Whole) (reading : Reading)
    (hcarried : Carried (cut.as reading).start (f (cut.as reading).units)
      (f (cut.as reading).text)) :
    Carried cut.start (scanView f (reading.readFrom cut.units 0))
      (scanView f (reading.readFrom cut.text 0)) := by
  intro hits hits' hhits hhits' hit hhit
  obtain ⟨seen, hseen, hfits⟩ := hf _ (h.as reading).units
  obtain ⟨seen', hseen', -⟩ := hf _ (h.as reading).text
  have hback : seen.mapM (moveBack (reading.readFrom cut.units 0)) = some hits := by
    rw [← hhits, Inspect.scanView, show View.units (reading.readFrom cut.units 0) =
      (cut.as reading).units from rfl, hseen]
    rfl
  have hback' : seen'.mapM (moveBack (reading.readFrom cut.text 0)) = some hits' := by
    rw [← hhits', Inspect.scanView, ← as_text, hseen']
    rfl
  obtain ⟨x, hx, hmoved⟩ := (mem_mapM_iff hback).mp hhit
  obtain ⟨x', hx', hsame⟩ := hcarried _ _ hseen hseen' x hx
  obtain ⟨hit', hhit'⟩ := mem_of_mapM hback' hx'
  refine ⟨hit', (mem_mapM_iff hback').mpr ⟨x', hx', hhit'⟩, ?_⟩
  obtain hkey | hcopied := hsame
  · exact .inl ((moveBack_same hhit').1.trans hkey)
  · have hpos : 0 < x.length := by
      have := (hfits x hx).1
      simp only [Hit.stop] at this
      omega
    exact .inr (moveBack_copiedBy hcopied (moveBack_text cut reading hpos hmoved) hhit')

/-- The filter judges a hit by units of the part. -/
theorem wellSpelled {hit : Hit} (hfits : hit.Fits cut.units) (h : WellSpelled cut.units hit) :
    WellSpelled cut.text (hit.move cut.start) := by
  obtain ⟨hlt, hle, -⟩ := hfits
  have hslice := cut.slice_text (a := hit.start) hle
  have hlen := cut.length_text
  simp only [Hit.stop] at hlt hle hslice
  rw [slice_of_le (by omega) (by omega), slice_of_le (by omega) hle, Option.some.injEq] at hslice
  intro hkind
  rw [Hit.span, show (hit.move cut.start).start = cut.start + hit.start from rfl,
    show (hit.move cut.start).length = hit.length from rfl, Nat.add_assoc, hslice]
  exact h hkind

theorem dropFolded {hits hits' kept kept' : List Hit}
    (h : ∀ hit ∈ hits, hit.KeptIn cut.start hits') (hfits : ∀ hit ∈ hits, hit.Fits cut.units)
    (hfits' : ∀ hit ∈ hits', hit.Fits cut.text)
    (hkept : dropFoldedMalformedHkid hits cut.units = some kept)
    (hkept' : dropFoldedMalformedHkid hits' cut.text = some kept') :
    ∀ hit ∈ kept, hit.KeptIn cut.start kept' := by
  intro hit hhit
  obtain ⟨hmem, hwell⟩ := (mem_dropFolded hkept hfits).mp hhit
  obtain ⟨hit', hmem', hsame⟩ := h hit hmem
  refine ⟨hit', (mem_dropFolded hkept' hfits').mpr ⟨hmem', ?_⟩, hsame⟩
  obtain hkey | hcopied := hsame
  · intro hkind
    rw [hkey] at hkind
    cases hkind
  · exact hcopied.wellSpelled (wellSpelled (hfits hit hmem) hwell)

/-- Each filtered view of the part is a reading of it, and that reading of the text is one of the
filtered views of the text. -/
theorem exists_reading {view : View} (hview : view ∈ foldedViews cut.units) :
    ∃ reading ∈ readings cut.units, view = reading.readFrom cut.units 0 ∧
      reading.readFrom cut.text 0 ∈ foldedViews cut.text := by
  simp only [foldedViews, List.mem_append, List.mem_cons, List.not_mem_nil, or_false,
    List.mem_filterMap] at hview
  obtain (rfl | rfl | rfl) | ⟨k, hk, hskip⟩ := hview
  · exact ⟨.folded false false, by simp [readings], rfl, by
      simp [foldedViews, Reading.readFrom, foldKeepingIgnorables, rewrite]⟩
  · exact ⟨.folded true false, by simp [readings], rfl, by
      simp [foldedViews, Reading.readFrom, normalize, rewrite]⟩
  · exact ⟨.folded true true, by simp [readings], rfl, by
      simp [foldedViews, Reading.readFrom, foldDigitsAndHomoglyphs, rewrite]⟩
  · simp only [skipShortEscapeDigits, Option.ite_none_right_eq_some, Option.some.injEq] at hskip
    obtain ⟨hchanged, rfl⟩ := hskip
    refine ⟨.skipping k, ?_, rfl, ?_⟩
    · refine List.mem_append_right _ (List.mem_map_of_mem (List.mem_filter.mpr ⟨?_, ?_⟩))
      · simpa using hk
      · simp [skipShortEscapeDigits, hchanged]
    · refine List.mem_append_right _ (List.mem_filterMap.mpr ⟨k, by simpa using hk, ?_⟩)
      exact if_pos (cut.skipped_text hchanged)

theorem scanView_fits {units : List Nat} {view : View} {hits : List Hit} (hf : FittingScan f)
    (hview : view.Of units) (h : Inspect.scanView f view = some hits) :
    ∀ hit ∈ hits, hit.Fits units := by
  obtain ⟨found, hfound, hfits⟩ := hview.scanView hf
  rw [h, Option.some.injEq] at hfound
  exact hfound ▸ hfits

theorem hitsOfViews (hf : FittingScan f) (h : cut.Whole)
    (hcarried : ∀ reading ∈ readings cut.units, Carried (cut.as reading).start
      (f (cut.as reading).units) (f (cut.as reading).text)) :
    Carried cut.start (hitsOfViews f cut.units) (hitsOfViews f cut.text) := by
  refine .append (scanView hf h .literal (hcarried _ (by simp [readings]))) ?_
  refine .flatMap fun view hview => ?_
  obtain ⟨reading, hreading, rfl, hview'⟩ := exists_reading hview
  refine ⟨_, hview', ?_⟩
  intro kept kept' hkept hkept' hit hhit
  simp only [bind, Option.bind_eq_some_iff] at hkept hkept'
  obtain ⟨seen, hseen, hkept⟩ := hkept
  obtain ⟨seen', hseen', hkept'⟩ := hkept'
  have hsame := scanView hf h reading (hcarried reading hreading) _ _ hseen hseen'
  exact dropFolded hsame (scanView_fits hf (reading.of h.units) hseen)
    (scanView_fits hf (reading.of h.text) hseen') hkept hkept' hit hhit

theorem scanToken {inner : List Nat → Option (List Hit)} {a b : Nat}
    (hrun : IsRun isTokenMember cut.units a b) :
    scanToken inner cut.text (cut.start + a, cut.start + b) =
      moved cut.start (scanToken inner cut.units (a, b)) := by
  have hpadding := @Cut.takeWhile_take_drop cut (· = '='.toNat) _ (by decide) hrun.le 2
  obtain ⟨hlt, hle, -⟩ := padded_fits hrun
  simp only [Inspect.scanToken, hpadding]
  generalize ((cut.units.drop b).take 2).takeWhile (· = '='.toNat) = padding at hlt hle ⊢
  rw [Nat.add_assoc, cut.slice_text hle, slice_of_le hlt.le hle, Nat.add_sub_add_left]
  simp only [bind, Option.bind_some]
  refine flatMapM_move fun decoded _ => ?_
  unfold reportDecoded
  split
  · rfl
  · next text _ =>
    cases inner (encode text) with
    | none => rfl
    | some found => simp [moved, Hit.move]

theorem scanDecoded {inner : List Nat → Option (List Hit)} (hinner : FittingScan inner)
    (h : cut.Whole) (hcarried : decodePercent cut.units ≠ none →
      Carried (cut.as .unescaped).start (inner (cut.as .unescaped).units)
        (inner (cut.as .unescaped).text)) :
    Carried cut.start (scanDecoded inner cut.units) (scanDecoded inner cut.text) := by
  refine .append (.flatMap fun p hp => ?_) ?_
  · obtain ⟨a, b⟩ := p
    exact ⟨_, cut.mem_runs (by decide) hp, .of_eq (scanToken (isRun_of_mem_runs hp))⟩
  · intro hits hits' hhits hhits' hit hhit
    unfold scanPercent at hhits hhits'
    split at hhits
    · cases hhits
      cases hhit
    · next view hview =>
      have hescaped := hview
      simp only [decodePercent, Option.ite_none_right_eq_some, Option.some.injEq] at hescaped
      obtain ⟨hescapes, rfl⟩ := hescaped
      have htext : decodePercent cut.text = some (Reading.unescaped.readFrom cut.text 0) :=
        if_pos (cut.decoded_text hescapes)
      rw [htext] at hhits'
      exact scanView hinner h .unescaped (hcarried (by simp [hview])) _ _ hhits hhits'
        hit hhit

/-- The readings of the part in which a scan looks for keys: its own ones, and those of what
their percent encoding spells. -/
def reads (cut : Cut) : List Cut :=
  (readings cut.units).flatMap fun reading =>
    let read := cut.as reading
    let spelled := read.as .unescaped
    read :: if decodePercent read.units = none then [] else (readings spelled.units).map spelled.as

/-- In every reading of the part that has lines which name a private key, the scan of the text
reaches one of them. -/
def KeysShown (cut : Cut) : Prop := ∀ read ∈ cut.reads, read.KeysReached

instance : DecidablePred KeysShown := fun _ => inferInstanceAs (Decidable (∀ _ ∈ _, _))

/-- Where the keys are not shown, the scan misses all of them in some reading. -/
theorem missed_of_not_shown (h : ¬cut.KeysShown) : ∃ read ∈ cut.reads, read.KeysMissed := by
  simp only [KeysShown, not_forall] at h
  obtain ⟨read, hread, hkeys⟩ := h
  exact ⟨read, hread, read.missed_of_not_reached hkeys⟩

theorem KeysShown.reading (h : cut.KeysShown) {reading : Reading}
    (hreading : reading ∈ readings cut.units) : (cut.as reading).KeysReached :=
  h _ (List.mem_flatMap.mpr ⟨reading, hreading, List.mem_cons_self⟩)

theorem KeysShown.spelled (h : cut.KeysShown) {reading inner : Reading}
    (hreading : reading ∈ readings cut.units)
    (hescapes : decodePercent (cut.as reading).units ≠ none)
    (hinner : inner ∈ readings ((cut.as reading).as .unescaped).units) :
    (((cut.as reading).as .unescaped).as inner).KeysReached := by
  refine h _ (List.mem_flatMap.mpr ⟨reading, hreading, List.mem_cons_of_mem _ ?_⟩)
  rw [if_neg hescapes]
  exact List.mem_map_of_mem hinner

variable [Entropy]

/-- What the scanner finds in the part it finds in the text, or a private key. -/
theorem hitsOfViews_rawScan (h : cut.Whole) (hkeys : cut.KeysShown) :
    Carried cut.start (Inspect.hitsOfViews Inspect.rawScan cut.units)
      (Inspect.hitsOfViews Inspect.rawScan cut.text) := by
  refine hitsOfViews rawScan_fitting h fun reading hreading => ?_
  have hread := h.as reading
  refine .append ((cut.as reading).plainHits (hkeys.reading hreading)) ?_
  refine scanDecoded decodedViews_fitting.1 hread fun hescapes => ?_
  refine hitsOfViews plainHits_fitting (hread.as .unescaped) fun inner hinner => ?_
  exact Cut.plainHits _ (hkeys.spelled hreading hescapes hinner)

end Cut

end Scans

end Inspect
