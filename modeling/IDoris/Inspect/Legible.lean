import IDoris.Inspect.Recognized
import Mathlib.Data.List.DropRight
import Mathlib.Data.Bool.AllAny

/-!
# Credentials in one layer of encoding

The bytes of a credential are compared with its normal form. They are found in hexadecimal
digits and in base64 when the credential is its own normal form or the decoded bytes are a
text, and when the digits to the end of their run are as many as base64 can have.
-/
namespace Inspect

open Scanner Utf16 ByteText

section Secrets

/-- A text that is its own normal form. -/
def SelfNormal (c : String) : Prop := normalUnits c = encode c

instance (c : String) : Decidable (SelfNormal c) := inferInstanceAs (Decidable (_ = _))

theorem encodeChar_unit {u : Nat} (h : isHigh u = false) (h' : isLow u = false)
    (hlt : u < 0x10000) : encodeChar (Char.ofNat u) = [u] := by
  have hvalid : u.isValidChar := by
    simp only [isHigh, isLow, decide_eq_false_iff_not] at h h'
    simp only [Nat.isValidChar]
    omega
  have htoNat : (Char.ofNat u).toNat = u := by
    rw [Char.ofNat, dif_pos hvalid]
    rfl
  rw [encodeChar, htoNat, if_pos hlt]

theorem foldWidth_scalar {u : Nat} (h : isHigh u = false) (h' : isLow u = false)
    (hlt : u < 0x10000) :
    isHigh (foldWidth u) = false ∧ isLow (foldWidth u) = false ∧ foldWidth u < 0x10000 := by
  simp only [isHigh, isLow, decide_eq_false_iff_not] at h h' ⊢
  unfold foldWidth
  simp only [Char.reduceToNat]
  split
  · omega
  · split
    · omega
    · split <;> omega

/-- The normal form of a text is a text. -/
theorem rewriteFrom_chars (cs : List Char) (i : Nat) :
    ∃ ds, View.units (rewriteFrom true false (encodeChars cs) i) = encodeChars ds := by
  induction cs generalizing i with
  | nil => exact ⟨[], rfl⟩
  | cons c cs ih =>
    rw [encodeChars_cons]
    obtain ⟨hlt, hhigh, hlow, hone⟩ | ⟨high, low, -, hhigh, hlow, hvalue, htwo⟩ :=
      encodeChar_cases c
    · obtain ⟨ds, hds⟩ := ih (i + 1)
      rw [hone, List.singleton_append, rewriteFrom_single hhigh, units_append, hds]
      simp only [rewriteUnit]
      split
      · exact ⟨ds, rfl⟩
      · obtain ⟨hhigh', hlow', hlt'⟩ := foldWidth_scalar hhigh hlow hlt
        refine ⟨Char.ofNat (foldWidth c.toNat) :: ds, ?_⟩
        rw [encodeChars_cons, encodeChar_unit hhigh' hlow' hlt']
        rfl
    · obtain ⟨ds, hds⟩ := ih (i + 2)
      rw [htwo, List.cons_append, List.singleton_append, rewriteFrom_pair hhigh hlow, units_append,
        hds]
      split
      · exact ⟨ds, rfl⟩
      · refine ⟨c :: ds, ?_⟩
        rw [encodeChars_cons, htwo]
        rfl

theorem decode_normalUnits (c : String) : ∃ secret, decode (normalUnits c) = some secret ∧
    (SelfNormal c → secret = c) := by
  obtain ⟨ds, hds⟩ := rewriteFrom_chars c.toList 0
  have hunits : normalUnits c = encodeChars ds := hds
  refine ⟨String.ofList ds, by rw [hunits, decode, decodeChars_encodeChars]; rfl, fun hself => ?_⟩
  have hsame := encodeChars_injective (hunits.symm.trans hself)
  rw [hsame, String.ofList_toList]

end Secrets

section Bytes

theorem byteCodes_append (s t : String) : byteCodes (s ++ t) = byteCodes s ++ byteCodes t := by
  rw [byteCodes, utf8_append, List.map_append]
  rfl

theorem byteCodes_ascii {cs : List Char} (h : ∀ c ∈ cs, c.toNat < 128) :
    byteCodes (String.ofList cs) = codes cs := by
  rw [byteCodes, utf8, String.toList_ofList]
  induction cs with
  | nil => rfl
  | cons c cs ih =>
    rw [List.flatMap_cons, List.map_append, utf8EncodeChar_ascii (h c List.mem_cons_self),
      ih fun d hd => h d (List.mem_cons_of_mem _ hd)]
    rfl

theorem ne_nil_of_ne_empty {c : String} (hne : c ≠ "") : utf8 c ≠ [] := by
  intro hnil
  have hdecode := decode_utf8 c
  have hempty : Text.decode [] = some "" := decode_chars []
  rw [hnil, hempty, Option.some.injEq] at hdecode
  exact hne hdecode.symm

theorem utf8Text_byteCodes (t : String) : utf8Text (byteCodes t) = some t := by
  rw [byteCodes, utf8Text_map, decode_utf8]

/-- What the bytes of a text contain, the text does. -/
theorem exists_of_byteCodes_infix {c t : String} (h : byteCodes c <:+: byteCodes t) :
    ∃ x y, t = x ++ c ++ y := by
  have hbytes : utf8 c <:+: utf8 t := by
    obtain ⟨xs, ys, h⟩ := h
    obtain ⟨front, back, hsplit, hfront, -⟩ := List.map_eq_append_iff.mp h.symm
    obtain ⟨us, vs, rfl, -, hvs⟩ := List.map_eq_append_iff.mp hfront
    have hinj : Function.Injective UInt8.toNat := fun a b hab => UInt8.toNat_inj.mp hab
    rw [List.map_injective_iff.mpr hinj hvs] at hsplit
    exact ⟨us, back, hsplit.symm⟩
  obtain ⟨x, y, h⟩ := infix_of_utf8_infix hbytes
  refine ⟨String.ofList x, String.ofList y, ?_⟩
  rw [← String.ofList_toList (s := t), ← h, String.ofList_append, String.ofList_append,
    String.ofList_toList]

/-- Bytes in which a credential can be told: it is its own normal form, or they are a text. -/
def Legible (c : String) (decoded : List Nat) : Prop :=
  SelfNormal c ∨ ∃ t, decoded = byteCodes t

theorem decodedContains_legible {c secret : String} {decoded : List Nat} (h : Legible c decoded)
    (hsecret : SelfNormal c → secret = c) (hinside : byteCodes c <:+: decoded) :
    decodedContains (byteCodes secret) (normalUnits c) decoded = true := by
  obtain hself | ⟨t, rfl⟩ := h
  · rw [hsecret hself, decodedContains, (Matching.contains_iff _ _).mpr hinside, Bool.true_or]
  · obtain ⟨x, y, rfl⟩ := exists_of_byteCodes_infix hinside
    simp only [decodedContains, utf8Text_byteCodes, normalizedContains_append, Bool.or_true]

end Bytes

section Hex

theorem toLowercase_of_isHexDigit {value : Nat} {c : Char} (h : IsHexDigit value c) :
    toLowercase c.toNat = hexDigit value := by
  have hlower : ∀ p ∈ "0123456789abcdef".toList.zipIdx,
      toLowercase p.1.toNat = hexDigit p.2 := by decide
  have hupper : ∀ p ∈ "0123456789ABCDEF".toList.zipIdx,
      toLowercase p.1.toNat = hexDigit p.2 := by decide
  obtain h | h := h
  · exact hlower (c, value) (List.mk_mem_zipIdx_iff_getElem?.mpr h)
  · exact hupper (c, value) (List.mk_mem_zipIdx_iff_getElem?.mpr h)

theorem lower_isHex {bytes : List UInt8} {cs : List Char} (h : IsHex bytes cs) :
    (codes cs).map toLowercase = hexText (bytes.map UInt8.toNat) := by
  induction h with
  | nil => rfl
  | cons hhigh hlow _ ih =>
    simp only [codes, List.map_cons, hexText, List.flatMap_cons] at ih ⊢
    rw [ih, toLowercase_of_isHexDigit hhigh, toLowercase_of_isHexDigit hlow]
    rfl

theorem length_hexText (bytes : List Nat) : (hexText bytes).length = bytes.length * 2 := by
  induction bytes with
  | nil => rfl
  | cons b bytes ih =>
    rw [hexText, List.flatMap_cons, List.length_append, ← hexText, ih]
    simp only [List.length_cons, List.length_nil]
    omega

theorem hexDigit_code {value : Nat} {c : Char} (h : IsHexDigit value c) :
    c.toNat < 128 ∧ isEncodedMember c.toNat = true ∧ c.toNat ≠ 'x'.toNat ∧ c.toNat ≠ 'X'.toNat := by
  have hlower : ∀ c ∈ "0123456789abcdef".toList, c.toNat < 128 ∧
      isEncodedMember c.toNat = true ∧ c.toNat ≠ 'x'.toNat ∧ c.toNat ≠ 'X'.toNat :=
    List.all_iff_forall_prop.mp (by decide)
  have hupper : ∀ c ∈ "0123456789ABCDEF".toList, c.toNat < 128 ∧
      isEncodedMember c.toNat = true ∧ c.toNat ≠ 'x'.toNat ∧ c.toNat ≠ 'X'.toNat :=
    List.all_iff_forall_prop.mp (by decide)
  obtain h | h := h
  · exact hlower c (List.mem_of_getElem? h)
  · exact hupper c (List.mem_of_getElem? h)

variable {c secret : String} {digits : List Char}

/-- The digits of a credential that is its own normal form are found among any others. -/
theorem hexContains_selfNormal (hself : SelfNormal c) (hne : c ≠ "")
    (hdigits : IsHex (utf8 c) digits) (pre post : String) :
    encodedContains (byteCodes (pre ++ String.ofList digits ++ post)) (normalUnits c) = true := by
  obtain ⟨secret, hsecret, hsame⟩ := decode_normalUnits c
  obtain rfl := hsame hself
  have hascii : ∀ d ∈ digits, d.toNat < 128 := hdigits.forall fun h => (hexDigit_code h).1
  have hinput : byteCodes (pre ++ String.ofList digits ++ post) =
      byteCodes pre ++ codes digits ++ byteCodes post := by
    rw [byteCodes_append, byteCodes_append, byteCodes_ascii hascii]
  have hinside : hexText (byteCodes secret) <:+:
      (byteCodes (pre ++ String.ofList digits ++ post)).map toLowercase := by
    rw [hinput, List.map_append, List.map_append, lower_isHex hdigits]
    exact List.infix_append _ _ _
  have hpos : 0 < (byteCodes secret).length := by
    rw [byteCodes, List.length_map, List.length_pos_iff]
    exact ne_nil_of_ne_empty hne
  have hlen := hinside.length_le
  rw [length_hexText, List.length_map] at hlen
  simp only [encodedContains, hsecret, (Matching.contains_iff _ _).mpr hinside, Bool.and_true,
    Bool.or_eq_true, Bool.and_eq_true, decide_eq_true_eq]
  exact .inl (.inl ⟨by omega, hlen⟩)

end Hex

section Tokens

variable {input credential bytes : List Nat} {start runEnd : Nat}

theorem mem_runs_around {member : Nat → Bool} (left : List Nat) {middle : List Nat}
    (right : List Nat)
    (hmiddle : ∀ u ∈ middle, member u = true) (hne : middle ≠ []) :
    ((left.rdropWhile member).length, (left.rdropWhile member).length +
      (left.rtakeWhile member ++ middle ++ right.takeWhile member).length) ∈
        runs member (left ++ middle ++ right) := by
  have hsplit : left ++ middle ++ right = left.rdropWhile member ++
      (left.rtakeWhile member ++ middle ++ right.takeWhile member) ++ right.dropWhile member := by
    conv_lhs =>
      rw [← List.rdropWhile_append_rtakeWhile (p := member) (l := left),
        ← List.takeWhile_append_dropWhile (p := member) (l := right)]
    simp only [List.append_assoc]
  rw [hsplit]
  refine mem_runs_of_isRun (isRun_middle ?_ ?_ ?_ ?_)
  · intro u hu
    have hkept : left.rdropWhile member ≠ [] := by
      rintro h
      simp [h] at hu
    rw [List.getLast?_eq_some_getLast hkept, Option.some.injEq] at hu
    exact hu ▸ Bool.eq_false_of_not_eq_true (List.rdropWhile_last_not member left hkept)
  · intro u hu
    rw [List.mem_append, List.mem_append] at hu
    obtain (hu | hu) | hu := hu
    · exact List.mem_rtakeWhile_imp hu
    · exact hmiddle u hu
    · exact List.mem_takeWhile_imp hu
  · simp [hne]
  · intro u hu
    have hstop := List.head?_dropWhile_not member right
    rw [hu] at hstop
    exact hstop

/-- Up to two equals signs behind a run belong to its token. -/
theorem token_eq (left run right : List Nat) : ∃ n ≤ 2,
    ((left ++ run ++ right).take (left.length + run.length +
      ((((left ++ run ++ right).drop (left.length + run.length)).take 2).takeWhile
        (· = '='.toNat)).length)).drop left.length = run ++ List.replicate n '='.toNat ∧
    (right.head? ≠ some '='.toNat → n = 0) := by
  rw [← List.length_append, List.drop_left]
  have hprefix : (right.take 2).takeWhile (· = '='.toNat) <+: right :=
    (List.takeWhile_prefix _).trans (List.take_prefix 2 right)
  have hequals : (right.take 2).takeWhile (· = '='.toNat) =
      List.replicate ((right.take 2).takeWhile (· = '='.toNat)).length '='.toNat :=
    List.eq_replicate_length.mpr fun u hu => by simpa using List.mem_takeWhile_imp hu
  refine ⟨((right.take 2).takeWhile (· = '='.toNat)).length, ?_, ?_, ?_⟩
  · exact (List.takeWhile_prefix _).length_le.trans (by simp)
  · obtain ⟨rest, hrest⟩ := hprefix
    have hall : left ++ run ++ right = left ++ (run ++
        (right.take 2).takeWhile (· = '='.toNat)) ++ rest := by
      conv_lhs => rw [← hrest]
      simp only [List.append_assoc]
    rw [hall, ← hequals, List.length_append, Nat.add_assoc, ← List.length_append,
      ← List.length_append, List.take_left, List.drop_left]
  · intro hhead
    cases right with
    | nil => rfl
    | cons u right =>
      have hu : u ≠ '='.toNat := by simpa using hhead
      rw [List.take_succ_cons, List.takeWhile_cons_of_neg (by simpa using hu)]
      rfl

/-- The members of tokens right before a text, and right after it. -/
def membersBefore (t : String) : List Nat := (byteCodes t).rtakeWhile isEncodedMember

def membersAfter (t : String) : List Nat := (byteCodes t).takeWhile isEncodedMember

/-- A run with some equals signs behind it is read as hexadecimal digits and as base64. -/
def TokenHolds (credential bytes run : List Nat) (n : Nat) : Prop :=
  (decodeHexToken (run ++ List.replicate n '='.toNat)).any
      (decodedContains bytes credential) = true ∨
    ∃ shift < min 4 run.length, (decodeBase64Token ((run ++ List.replicate n '='.toNat).drop
      shift)).any (decodedContains bytes credential) = true

/-- What stands in the token around some digits is looked at. -/
theorem encodedContains_token {left middle right : List Nat} {secret : String}
    (hsecret : decode credential = some secret)
    (hmiddle : ∀ u ∈ middle, isEncodedMember u = true) (hne : middle ≠ [])
    (h : ∀ n ≤ 2, ((right.dropWhile isEncodedMember).head? ≠ some '='.toNat → n = 0) →
      TokenHolds credential (byteCodes secret) (left.rtakeWhile isEncodedMember ++ middle ++
        right.takeWhile isEncodedMember) n) :
    encodedContains (left ++ middle ++ right) credential = true := by
  have hrun := mem_runs_around left right hmiddle hne
  have hsplit : left ++ middle ++ right = left.rdropWhile isEncodedMember ++
      (left.rtakeWhile isEncodedMember ++ middle ++ right.takeWhile isEncodedMember) ++
        right.dropWhile isEncodedMember := by
    conv_lhs =>
      rw [← List.rdropWhile_append_rtakeWhile (p := isEncodedMember) (l := left),
        ← List.takeWhile_append_dropWhile (p := isEncodedMember) (l := right)]
    simp only [List.append_assoc]
  obtain ⟨n, hn, htoken, hzero⟩ := token_eq (left.rdropWhile isEncodedMember)
    (left.rtakeWhile isEncodedMember ++ middle ++ right.takeWhile isEncodedMember)
    (right.dropWhile isEncodedMember)
  rw [← hsplit] at htoken
  have hcontains : tokenContains (left ++ middle ++ right) (byteCodes secret) credential
      ((left.rdropWhile isEncodedMember).length, (left.rdropWhile isEncodedMember).length +
        (left.rtakeWhile isEncodedMember ++ middle ++
          right.takeWhile isEncodedMember).length) = true := by
    simp only [tokenContains, htoken, Bool.or_eq_true, List.any_eq_true, List.mem_range]
    obtain hhex | ⟨shift, hshift, hbase⟩ := h n hn hzero
    · exact .inl hhex
    · refine .inr ⟨shift, ?_, hbase⟩
      simp only [List.length_append] at hshift ⊢
      omega
  simp only [encodedContains, hsecret, Bool.or_eq_true]
  exact .inl (.inr (List.any_eq_true.mpr ⟨_, hrun, hcontains⟩))

end Tokens

section Base64

theorem base64Value_isSome {u : Nat} (h : isEncodedMember u = true) : (base64Value u).isSome := by
  unfold base64Value
  split
  · rfl
  · split
    · rfl
    · split
      · rfl
      · split
        · rfl
        · split
          · rfl
          · next hupper hlower hdigit hplus hslash =>
            have hsigns : encode "+/_-" = ['+'.toNat, '/'.toNat, '_'.toNat, '-'.toNat] := by decide
            simp only [Bool.or_eq_true, decide_eq_true_eq] at hplus hslash
            simp only [isEncodedMember, isAlnum, isAlphabetic, hupper, hlower, hdigit, oneOf, hsigns,
              Bool.or_false, Bool.false_or, List.contains_eq_mem, decide_eq_true_eq, List.mem_cons,
              List.not_mem_nil, or_false] at h
            omega

/-- What stands before a multiple of four digits does not matter to what follows. -/
theorem base64Bytes_aligned {xs : List Nat} (hlen : xs.length % 4 = 0)
    (hxs : ∀ u ∈ xs, (base64Value u).isSome) (ys : List Nat) :
    ∃ front, base64Bytes (xs ++ ys) 0 0 = (base64Bytes ys 0 0).map (front ++ ·) := by
  match xs, hlen with
  | [], _ => exact ⟨[], by simp⟩
  | [_], hlen => simp at hlen
  | [_, _], hlen => simp at hlen
  | [_, _, _], hlen => simp at hlen
  | a :: b :: c :: d :: xs, hlen =>
    simp only [List.mem_cons, forall_eq_or_imp, Option.isSome_iff_exists] at hxs
    obtain ⟨⟨va, ha⟩, ⟨vb, hb⟩, ⟨vc, hc⟩, ⟨vd, hd⟩, hxs⟩ := hxs
    simp only [List.length_cons] at hlen
    obtain ⟨front, hfront⟩ := base64Bytes_aligned (show xs.length % 4 = 0 by omega)
      (fun u hu => Option.isSome_iff_exists.mpr (hxs u hu)) ys
    simp only [List.cons_append]
    rw [base64Bytes_wait ha (by omega), base64Bytes_emit hb (by omega),
      base64Bytes_emit hc (by omega), base64Bytes_emit hd (by omega)]
    simp only [Nat.reduceAdd, Nat.reduceSub, Nat.pow_zero, Nat.mod_one, hfront, Option.map_map]
    exact ⟨_ :: _ :: _ :: front, rfl⟩

/-- Digits from the next multiple of four before an encoding to the end of the run. -/
def alignedRun (before body after : List Nat) : List Nat :=
  before.drop (before.length % 4) ++ body ++ after

variable {before body after : List Nat} {n : Nat}

theorem decodeBase64Token_aligned (hbefore : ∀ u ∈ before, isEncodedMember u = true)
    (hbody : ∀ u ∈ body, isEncodedMember u = true) (hne : body ≠ [])
    (hafter : ∀ u ∈ after, isEncodedMember u = true) (hn : n ≤ 2)
    (hlen : (body.length + after.length) % 4 ≠ 1) :
    decodeBase64Token ((before ++ body ++ after ++ List.replicate n '='.toNat).drop
      (before.length % 4)) = base64Bytes (alignedRun before body after) 0 0 := by
  have hdrop : (before ++ body ++ after ++ List.replicate n '='.toNat).drop (before.length % 4) =
      alignedRun before body after ++ List.replicate n '='.toNat := by
    have hle : before.length % 4 ≤ before.length := Nat.mod_le _ _
    simp only [alignedRun, List.append_assoc]
    rw [List.drop_append_of_le_length hle]
  have hplain : ∀ u ∈ alignedRun before body after, u ≠ '='.toNat := by
    intro u hu
    have hmember : isEncodedMember u = true := by
      rw [alignedRun, List.mem_append, List.mem_append] at hu
      obtain (hu | hu) | hu := hu
      · exact hbefore u (List.mem_of_mem_drop hu)
      · exact hbody u hu
      · exact hafter u hu
    rintro rfl
    exact absurd hmember (by decide)
  have hlength : (alignedRun before body after).length =
      before.length - before.length % 4 + body.length + after.length := by
    simp [alignedRun, Nat.add_assoc]
  have hpos := List.length_pos_iff.mpr hne
  rw [hdrop]
  simp only [decodeBase64Token, base64Body_padded hplain hn]
  rw [if_neg]
  simp only [Bool.or_eq_true, List.isEmpty_iff, decide_eq_true_eq, hlength,
    ← List.length_eq_zero_iff]
  omega

/-- The bytes of an encoding are among those of the run around it. -/
theorem base64Bytes_alignedRun (hbefore : ∀ u ∈ before, isEncodedMember u = true)
    (hafter : ∀ u ∈ after, isEncodedMember u = true) (url : Bool) (bytes : List UInt8) :
    ∃ decoded, base64Bytes (alignedRun before (codes (base64 url bytes)) after) 0 0 = some decoded ∧
      bytes.map UInt8.toNat <:+: decoded := by
  have hfront : (before.drop (before.length % 4)).length % 4 = 0 := by
    rw [List.length_drop]
    omega
  obtain ⟨front, hfront⟩ := base64Bytes_aligned hfront
    (fun u hu => base64Value_isSome (hbefore u (List.mem_of_mem_drop hu)))
    (codes (base64 url bytes) ++ after)
  obtain ⟨rest, hrest, -⟩ := base64Bytes_sextets (digits_base64Digit url) (bytes_lt bytes)
    fun u hu => base64Value_isSome (hafter u hu)
  have hcodes : codes (base64 url bytes) =
      (sextets (bytes.map UInt8.toNat)).map fun n => (base64Digit url n).toNat := by
    rw [codes, base64, List.map_map]
    rfl
  refine ⟨front ++ (bytes.map UInt8.toNat ++ rest), ?_, front, rest, by simp⟩
  rw [alignedRun, List.append_assoc, hfront, hcodes, hrest]
  rfl

end Base64

section Recognized

theorem mem_membersBefore {t : String} {u : Nat} (h : u ∈ membersBefore t) :
    isEncodedMember u = true :=
  List.mem_rtakeWhile_imp h

/-- When the hexadecimal digits of a credential are recognized where they stand: it is its own
normal form, or the token around them spells a text. -/
def HexLegible (c pre post : String) (digits : List Char) : Prop :=
  SelfNormal c ∨ (membersBefore pre).length % 2 = 0 ∧
    ((byteCodes post).dropWhile isEncodedMember).head? ≠ some '='.toNat ∧
    ∃ t, hexPairs (hexTokenBody (membersBefore pre ++ codes digits ++ membersAfter post)) =
      some (byteCodes t)

/-- When an encoding of bytes around a credential is recognized where it stands: with the digits
that follow it there are not one more than a multiple of four, and the credential is its own
normal form or the run around spells a text. -/
def Base64Legible (c pre post : String) (body pad : List Char) : Prop :=
  let after := if pad = [] then membersAfter post else []
  (body.length + after.length) % 4 ≠ 1 ∧ ∀ decoded,
    base64Bytes (alignedRun (membersBefore pre) (codes body) after) 0 0 = some decoded →
      Legible c decoded

variable {c pre post : String} {digits body pad : List Char} {bytes : List UInt8}

/-- The pairs of an even number of digits and of more digits. -/
theorem hexPairs_append {xs ys : List Nat} (hlen : xs.length % 2 = 0) {out : List Nat}
    (h : hexPairs (xs ++ ys) = some out) : ∃ front back, out = front ++ back ∧
      hexPairs ys = some back := by
  match xs, hlen with
  | [], _ => exact ⟨[], out, rfl, h⟩
  | [_], hlen => simp at hlen
  | a :: b :: xs, hlen =>
    simp only [List.cons_append, hexPairs, bind, Option.bind_eq_some_iff, pure,
      Option.some.injEq] at h
    obtain ⟨va, -, vb, -, rest, hrest, rfl⟩ := h
    simp only [List.length_cons] at hlen
    obtain ⟨front, back, rfl, hback⟩ := hexPairs_append (show xs.length % 2 = 0 by omega) hrest
    exact ⟨_ :: front, back, rfl, hback⟩

theorem hexPairs_isHex_append {bytes : List UInt8} {cs : List Char} (h : IsHex bytes cs)
    {ys out : List Nat} (hout : hexPairs (codes cs ++ ys) = some out) :
    ∃ rest, out = bytes.map UInt8.toNat ++ rest := by
  induction h generalizing out with
  | nil => exact ⟨out, rfl⟩
  | @cons b high low bytes cs hhigh hlow _ ih =>
    simp only [codes, List.map_cons, List.cons_append, hexPairs, hexValue_of_isHexDigit hhigh,
      hexValue_of_isHexDigit hlow, bind, Option.bind_some, Option.bind_eq_some_iff, pure,
      Option.some.injEq] at hout
    obtain ⟨more, hmore, rfl⟩ := hout
    obtain ⟨rest, rfl⟩ := ih hmore
    exact ⟨rest, by simp [Nat.div_add_mod']⟩

theorem even_of_hexPairs {xs : List Nat} {out : List Nat} (h : hexPairs xs = some out) :
    xs.length % 2 = 0 := by
  match xs with
  | [] => rfl
  | [_] => cases h
  | a :: b :: xs =>
    simp only [hexPairs, bind, Option.bind_eq_some_iff, pure, Option.some.injEq] at h
    obtain ⟨va, -, vb, -, rest, hrest, -⟩ := h
    have := even_of_hexPairs hrest
    simp only [List.length_cons]
    omega

theorem decodeHexToken_of_pairs {token out : List Nat} (hne : hexTokenBody token ≠ [])
    (h : hexPairs (hexTokenBody token) = some out) : decodeHexToken token = some out := by
  have heven := even_of_hexPairs h
  simp only [decodeHexToken]
  rw [if_neg, h]
  simp [hne, heven]

/-- The prefix of a token never reaches into digits that begin at an even place. -/
theorem hexTokenBody_run (hdigits : IsHex bytes digits) (hne : bytes ≠ []) {before : List Nat}
    (hbefore : before.length % 2 = 0) (after : List Nat) : ∃ before', before'.length % 2 = 0 ∧
      hexTokenBody (before ++ codes digits ++ after) = before' ++ codes digits ++ after := by
  match before, hbefore with
  | [], _ =>
    refine ⟨[], rfl, ?_⟩
    cases hdigits with
    | nil => exact absurd rfl hne
    | cons hhigh hlow hrest =>
      obtain ⟨-, -, hx, hX⟩ := hexDigit_code hlow
      simp only [codes, List.map_cons, List.nil_append, List.cons_append, hexTokenBody, hx, hX,
        decide_false, Bool.or_self, Bool.and_false, Bool.false_eq_true, if_false]
  | [_], hbefore => simp at hbefore
  | a :: b :: before, hbefore =>
    simp only [List.length_cons] at hbefore
    simp only [List.cons_append, hexTokenBody]
    split
    · exact ⟨before, by omega, rfl⟩
    · exact ⟨a :: b :: before, by simp only [List.length_cons]; omega, rfl⟩

theorem byteCodes_token (hascii : ∀ d ∈ body, d.toNat < 128) (pre post : String) :
    byteCodes (pre ++ String.ofList body ++ post) = byteCodes pre ++ codes body ++ byteCodes post := by
  rw [byteCodes_append, byteCodes_append, byteCodes_ascii hascii]

/-- The hexadecimal digits of a credential are recognized where they are legible. -/
theorem encodedContains_hex (hne : c ≠ "") (hdigits : IsHex (utf8 c) digits)
    (h : HexLegible c pre post digits) :
    encodedContains (byteCodes (pre ++ String.ofList digits ++ post)) (normalUnits c) = true := by
  obtain hself | ⟨heven, hclosed, t, ht⟩ := h
  · exact hexContains_selfNormal hself hne hdigits pre post
  · obtain ⟨secret, hsecret, hsame⟩ := decode_normalUnits c
    have hbytes := ne_nil_of_ne_empty hne
    have hlen := hdigits.length
    have hpos := List.length_pos_iff.mpr hbytes
    have hmember : ∀ u ∈ codes digits, isEncodedMember u = true := by
      intro u hu
      obtain ⟨d, hd, rfl⟩ := List.mem_map.mp hu
      exact hdigits.forall (fun h => (hexDigit_code h).2.1) d hd
    have hnonempty : codes digits ≠ [] := by
      rw [codes, ne_eq, List.map_eq_nil_iff, ← List.length_eq_zero_iff]
      omega
    rw [byteCodes_token (hdigits.forall fun h => (hexDigit_code h).1)]
    refine encodedContains_token hsecret hmember hnonempty fun n _ hzero => ?_
    obtain rfl := hzero hclosed
    obtain ⟨before, hbefore, hbody⟩ :=
      hexTokenBody_run hdigits hbytes heven (membersAfter post)
    have hpairs := ht
    rw [hbody, List.append_assoc] at hpairs
    obtain ⟨front, back, htext, hback⟩ := hexPairs_append hbefore hpairs
    obtain ⟨rest, rfl⟩ := hexPairs_isHex_append hdigits hback
    have hdecoded : decodeHexToken (membersBefore pre ++ codes digits ++ membersAfter post) =
        some (byteCodes t) :=
      decodeHexToken_of_pairs (by rw [hbody]; simp [hnonempty]) ht
    left
    rw [List.replicate_zero, List.append_nil]
    rw [membersBefore, membersAfter] at hdecoded
    rw [hdecoded, Option.any_some]
    exact decodedContains_legible (.inr ⟨t, rfl⟩) hsame ⟨front, rest, by rw [htext]; simp [byteCodes]⟩

/-- An encoding of bytes around a credential is recognized where it is legible. -/
theorem encodedContains_base64 (hne : c ≠ "") {url : Bool} (hbytes : utf8 c <:+: bytes)
    (hpad : pad = [] ∨ pad = padding bytes) (h : Base64Legible c pre post (base64 url bytes) pad) :
    encodedContains (byteCodes (pre ++ String.ofList (base64 url bytes ++ pad) ++ post))
      (normalUnits c) = true := by
  obtain ⟨secret, hsecret, hsame⟩ := decode_normalUnits c
  obtain ⟨hwhole, hlegible⟩ := h
  have hpadAscii : ∀ d ∈ pad, d = '=' := by
    obtain rfl | rfl := hpad
    · simp
    · exact fun d hd => List.eq_of_mem_replicate hd
  have hcodesPad : ∀ u ∈ codes pad, u = '='.toNat := by
    intro u hu
    obtain ⟨d, hd, rfl⟩ := List.mem_map.mp hu
    rw [hpadAscii d hd]
  have hascii : ∀ d ∈ base64 url bytes ++ pad, d.toNat < 128 := by
    intro d hd
    obtain hd | hd := List.mem_append.mp hd
    · exact (base64_member url bytes d hd).1
    · rw [hpadAscii d hd]
      decide
  have hmember : ∀ u ∈ codes (base64 url bytes), isEncodedMember u = true := by
    intro u hu
    obtain ⟨d, hd, rfl⟩ := List.mem_map.mp hu
    exact (base64_member url bytes d hd).2
  have hpos : 0 < bytes.length := by
    have hlen := hbytes.length_le
    have := List.length_pos_iff.mpr (ne_nil_of_ne_empty hne)
    omega
  have hnonempty : codes (base64 url bytes) ≠ [] := by
    have hlen := (length_sextets (bytes.map UInt8.toNat)).1
    rw [List.length_map] at hlen
    rw [codes, base64, List.map_map, ne_eq, List.map_eq_nil_iff, ← List.length_eq_zero_iff]
    omega
  have hafter : (codes pad ++ byteCodes post).takeWhile isEncodedMember =
      if pad = [] then membersAfter post else [] := by
    cases pad with
    | nil => rfl
    | cons d pad =>
      rw [codes, List.map_cons, List.cons_append, hpadAscii d List.mem_cons_self,
        List.takeWhile_cons_of_neg (by decide)]
      rfl
  have hafterMember : ∀ u ∈ (codes pad ++ byteCodes post).takeWhile isEncodedMember,
      isEncodedMember u = true := fun u hu => List.mem_takeWhile_imp hu
  obtain ⟨decoded, hdecoded, hinside⟩ :=
    base64Bytes_alignedRun (fun u => mem_membersBefore (t := pre)) hafterMember url bytes
  have hcontained : byteCodes c <:+: decoded := (hbytes.map UInt8.toNat).trans hinside
  rw [byteCodes_token hascii, codes, List.map_append, ← codes, ← codes, ← List.append_assoc,
    List.append_assoc (_ ++ _)]
  refine encodedContains_token hsecret hmember hnonempty fun n hn _ => .inr
    ⟨(membersBefore pre).length % 4, ?_, ?_⟩
  · have hcodes := List.length_pos_iff.mpr hnonempty
    simp only [membersBefore, List.length_append]
    omega
  · rw [← membersBefore, decodeBase64Token_aligned (fun u => mem_membersBefore) hmember hnonempty
      hafterMember hn (by rw [hafter]; simpa [codes] using hwhole), hdecoded, Option.any_some]
    rw [hafter] at hdecoded
    exact decodedContains_legible (hlegible decoded hdecoded) hsame hcontained

/-- A place of the text shows the credential: in its normal form, in legible hexadecimal digits,
or in legible base64. -/
inductive Shows (c text : String) : Prop where
  | clear (h : normalUnits c <:+: normalUnits text)
  | hex (pre : String) (digits : List Char) (post : String)
      (htext : text = pre ++ String.ofList digits ++ post) (hdigits : IsHex (utf8 c) digits)
      (hlegible : HexLegible c pre post digits)
  | base64 (pre : String) (url : Bool) (bytes : List UInt8) (pad : List Char) (post : String)
      (htext : text = pre ++ String.ofList (base64 url bytes ++ pad) ++ post)
      (hbytes : utf8 c <:+: bytes) (hpad : pad = [] ∨ pad = padding bytes)
      (hlegible : Base64Legible c pre post (base64 url bytes) pad)

/-- The input, as it stands or with its JSON escapes undone, shows a text with the normal form of
the credential. -/
def Recognizable (c input : String) : Prop :=
  ∃ secret text, normalUnits secret = normalUnits c ∧
    (text = input ∨ text = decodeJsonEscapes input) ∧ Shows secret text

theorem containsCredential_congr {c secret : String} (h : normalUnits secret = normalUnits c)
    (input : String) : containsCredential input c = containsCredential input secret := by
  simp only [normalUnits] at h
  simp only [containsCredential, h]

theorem Recognizable.found {input : String} (h : Recognizable c input) :
    containsCredential input c = true := by
  obtain ⟨secret, text, hnormal, htext, hshows⟩ := h
  rw [containsCredential_congr hnormal]
  by_cases hne : secret = ""
  · subst hne
    rfl
  cases hshows with
  | clear hclear => exact containsCredential_of htext (.inl ((Matching.contains_iff _ _).mpr hclear))
  | hex pre digits post heq hdigits hlegible =>
    refine containsCredential_of htext (.inr ?_)
    rw [heq]
    exact encodedContains_hex hne hdigits hlegible
  | base64 pre url bytes pad post heq hbytes hpad hlegible =>
    refine containsCredential_of htext (.inr ?_)
    rw [heq]
    exact encodedContains_base64 hne hbytes hpad hlegible

end Recognized

/-- A credential is recognized as it stands, in every spelling of a JSON string, and in every
input with a place that shows it. -/
theorem containsCredential_spelled (c : String) :
    (∀ pre post, containsCredential (pre ++ c ++ post) c = true) ∧
    (∀ pre cs post, JsonContent pre → Spelling c.toList cs →
      containsCredential (String.ofList (pre ++ cs ++ post)) c = true) ∧
    ∀ input, Recognizable c input → containsCredential input c = true :=
  ⟨containsCredential_clear c, fun _ _ post hpre hspelling =>
    containsCredential_json hspelling hpre post, fun _ h => h.found⟩

/-- A key with a binary byte behind it, in base64 between other digits, the digits of a letter
that is not its own normal form, and a key that is missed in base64 and stands behind it. -/
theorem containsCredential_spelled_key :
    containsCredential "key:c2VjcmV0a/8A!" "secretk" = true ∧
      containsCredential "efbd81" "ａ" = true ∧
      containsCredential "c2VjcmV0awAAA secretk" "secretk" = true := by
  have hbase : Shows "secretk" "key:c2VjcmV0a/8A!" :=
    .base64 "key:" false (utf8 "secretk" ++ [255]) [] "A!" (by decide)
      (List.prefix_append _ _).isInfix (.inl rfl) ⟨by decide, fun _ _ => .inl (by decide)⟩
  have hhex : Shows "ａ" "efbd81" :=
    .hex "" "efbd81".toList "" (by decide) (.cons (by decide) (by decide) (.cons (by decide)
      (by decide) (.cons (by decide) (by decide) .nil))) (.inr ⟨rfl, by decide, "ａ", by decide⟩)
  have hclear : Shows "secretk" "c2VjcmV0awAAA secretk" := .clear (by decide)
  exact ⟨(containsCredential_spelled "secretk").2.2 _ ⟨_, _, rfl, .inl rfl, hbase⟩,
    (containsCredential_spelled "ａ").2.2 _ ⟨_, _, rfl, .inl rfl, hhex⟩,
    (containsCredential_spelled "secretk").2.2 _ ⟨_, _, rfl, .inl rfl, hclear⟩⟩

/-- Three more digits can make the run one longer than a multiple of four, and any character
beside the digits keeps them from being read as a text. -/
theorem not_containsCredential_spelled :
    ¬(∀ c pre post url bytes, normalUnits c ≠ [] → (∀ d ∈ c.toList, 0x20 ≤ d.toNat) →
      utf8 c <:+: bytes →
      containsCredential (pre ++ String.ofList (base64 url bytes) ++ post) c = true) ∧
    ¬∀ c pre post digits, normalUnits c ≠ [] → (∀ d ∈ c.toList, 0x20 ≤ d.toNat) →
      IsHex (utf8 c) digits →
      containsCredential (pre ++ String.ofList digits ++ post) c = true := by
  constructor
  · intro h
    have hmissed : containsCredential ("" ++ String.ofList (base64 false (utf8 "secretk")) ++
      "AAA") "secretk" = false := by decide
    have hfound := h "secretk" "" "AAA" false (utf8 "secretk") (by decide)
      (List.all_iff_forall_prop.mp (by decide))
      List.infix_rfl
    exact absurd (hfound.symm.trans hmissed) (by decide)
  · intro h
    have hmissed : containsCredential ("x" ++ String.ofList "efbd81".toList ++ "") "ａ" = false := by
      decide
    have hfound := h "ａ" "x" "" "efbd81".toList (by decide)
      (List.all_iff_forall_prop.mp (by decide))
      (.cons (by decide) (by decide) (.cons (by decide) (by decide) (.cons (by decide) (by decide)
        .nil)))
    exact absurd (hfound.symm.trans hmissed) (by decide)

end Inspect
