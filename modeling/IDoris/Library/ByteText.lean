import IDoris.Library.Text

/-!
# Bytes as text

The bytes of a text in UTF-8, and three ways to write bytes as text: hexadecimal digits,
base64 in its two alphabets, and percent escapes.
-/
namespace ByteText

section Bytes

def utf8 (t : String) : List UInt8 := t.toList.flatMap String.utf8EncodeChar

theorem utf8_append (s t : String) : utf8 (s ++ t) = utf8 s ++ utf8 t := by simp [utf8]

theorem toByteArray_eq (bytes : List UInt8) : (⟨bytes.toArray⟩ : ByteArray) = bytes.toByteArray := by
  refine ByteArray.ext (Array.toList_inj.mp ?_)
  rw [List.toList_data_toByteArray]

theorem decode_chars (cs : List Char) :
    Text.decode (cs.flatMap String.utf8EncodeChar) = some (String.ofList cs) := by
  have harray : (⟨(cs.flatMap String.utf8EncodeChar).toArray⟩ : ByteArray) =
      (String.ofList cs).toByteArray := by
    rw [toByteArray_eq, String.toByteArray_ofList, List.utf8Encode]
  have hvalid : ByteArray.IsValidUTF8 (String.ofList cs).toByteArray :=
    (String.ofList cs).isValidUTF8
  rw [Text.decode, harray, String.fromUTF8?, dif_pos hvalid]
  rfl

/-- The bytes of a text spell it. -/
@[simp] theorem decode_utf8 (t : String) : Text.decode (utf8 t) = some t := by
  rw [utf8, decode_chars, String.ofList_toList]

/-- How the first byte of a character tells how many follow. -/
theorem utf8EncodeChar_width (c : Char) : ∃ first rest,
    String.utf8EncodeChar c = first :: rest ∧
      (first.toNat ≤ 0x7F ∧ rest.length = 0 ∨
        (0xC2 ≤ first.toNat ∧ first.toNat ≤ 0xDF) ∧ rest.length = 1 ∨
        (0xE0 ≤ first.toNat ∧ first.toNat ≤ 0xEF) ∧ rest.length = 2 ∨
        (0xF0 ≤ first.toNat ∧ first.toNat ≤ 0xF4) ∧ rest.length = 3) := by
  have hvalid : c.val.toNat < 0xD800 ∨ 0xDFFF < c.val.toNat ∧ c.val.toNat < 0x110000 := c.valid
  unfold String.utf8EncodeChar
  simp only
  split
  · refine ⟨_, _, rfl, .inl ⟨?_, rfl⟩⟩
    rw [UInt8.toNat_ofNat']
    omega
  · split
    · refine ⟨_, _, rfl, .inr (.inl ⟨?_, rfl⟩)⟩
      rw [UInt8.toNat_ofNat']
      omega
    · split
      · refine ⟨_, _, rfl, .inr (.inr (.inl ⟨?_, rfl⟩))⟩
        rw [UInt8.toNat_ofNat']
        omega
      · refine ⟨_, _, rfl, .inr (.inr (.inr ⟨?_, rfl⟩))⟩
        rw [UInt8.toNat_ofNat']
        omega

/-- No later byte of a character is one that a character begins with. -/
theorem utf8EncodeChar_tail {c : Char} {first : UInt8} {rest : List UInt8}
    (h : String.utf8EncodeChar c = first :: rest) :
    (first.toNat < 0x80 ∨ 0xC0 ≤ first.toNat) ∧ ∀ b ∈ rest, 0x80 ≤ b.toNat ∧ b.toNat < 0xC0 := by
  have hvalid : c.val.toNat < 0xD800 ∨ 0xDFFF < c.val.toNat ∧ c.val.toNat < 0x110000 := c.valid
  unfold String.utf8EncodeChar at h
  simp only at h
  split at h
  · cases h
    simp only [UInt8.toNat_ofNat', List.not_mem_nil, false_implies, implies_true, and_true]
    omega
  · split at h
    · cases h
      simp only [List.mem_cons, List.not_mem_nil, or_false, forall_eq, UInt8.toNat_ofNat']
      omega
    · split at h
      · cases h
        simp only [List.mem_cons, List.not_mem_nil, or_false, forall_eq_or_imp, forall_eq,
          UInt8.toNat_ofNat']
        omega
      · cases h
        simp only [List.mem_cons, List.not_mem_nil, or_false, forall_eq_or_imp, forall_eq,
          UInt8.toNat_ofNat']
        omega

theorem utf8EncodeChar_ascii {c : Char} (h : c.toNat < 128) :
    (String.utf8EncodeChar c).map UInt8.toNat = [c.toNat] := by
  have hval : c.val.toNat ≤ 0x7F := Nat.le_of_lt_succ h
  rw [String.utf8EncodeChar, if_pos hval]
  simp only [List.map_cons, List.map_nil, UInt8.toNat_ofNat', Char.toNat]
  congr 1
  omega

/-- The first byte of a character tells how many belong to it. -/
theorem utf8EncodeChar_append_cancel {c d : Char} {xs ys : List UInt8}
    (h : String.utf8EncodeChar c ++ xs = String.utf8EncodeChar d ++ ys) :
    String.utf8EncodeChar c = String.utf8EncodeChar d ∧ xs = ys := by
  obtain ⟨first, rest, hc, hwidth⟩ := utf8EncodeChar_width c
  obtain ⟨first', rest', hd, hwidth'⟩ := utf8EncodeChar_width d
  rw [hc, hd, List.cons_append, List.cons_append, List.cons.injEq] at h
  obtain ⟨rfl, h⟩ := h
  have hlen : rest.length = rest'.length := by omega
  obtain ⟨rfl, rfl⟩ := List.append_inj h hlen
  exact ⟨by rw [hc, hd], rfl⟩

theorem utf8EncodeChar_injective {c d : Char}
    (h : String.utf8EncodeChar c = String.utf8EncodeChar d) : c = d := by
  have hdecode : Text.decode ([c].flatMap String.utf8EncodeChar) =
      Text.decode ([d].flatMap String.utf8EncodeChar) := by
    rw [List.flatMap_singleton, List.flatMap_singleton, h]
  rw [decode_chars, decode_chars, Option.some.injEq] at hdecode
  simpa using congrArg String.toList hdecode

theorem prefix_of_utf8 {cs ds : List Char} {ys : List UInt8}
    (h : cs.flatMap String.utf8EncodeChar ++ ys = ds.flatMap String.utf8EncodeChar) :
    cs <+: ds := by
  induction cs generalizing ds with
  | nil => exact List.nil_prefix
  | cons c cs ih =>
    cases ds with
    | nil =>
      obtain ⟨first, rest, hc, -⟩ := utf8EncodeChar_width c
      simp [hc] at h
    | cons d ds =>
      rw [List.flatMap_cons, List.flatMap_cons, List.append_assoc] at h
      obtain ⟨hchar, htail⟩ := utf8EncodeChar_append_cancel h
      rw [utf8EncodeChar_injective hchar]
      exact List.prefix_cons_inj d |>.mpr (ih htail)

/-- Among the bytes of a text, those of another are where that text is in it. -/
theorem infix_of_utf8_infix {cs ds : List Char}
    (h : cs.flatMap String.utf8EncodeChar <:+: ds.flatMap String.utf8EncodeChar) : cs <:+: ds := by
  obtain ⟨xs, ys, h⟩ := h
  cases cs with
  | nil => exact List.nil_infix
  | cons c cs =>
    induction ds generalizing xs with
    | nil =>
      obtain ⟨first, rest, hc, -⟩ := utf8EncodeChar_width c
      simp [hc] at h
    | cons d ds ih =>
      cases xs with
      | nil => exact (prefix_of_utf8 (by simpa using h)).isInfix
      | cons x xs =>
        obtain ⟨first, rest, hc, -⟩ := utf8EncodeChar_width c
        obtain ⟨first', rest', hd, -⟩ := utf8EncodeChar_width d
        have hstart := (utf8EncodeChar_tail hc).1
        simp only [List.flatMap_cons, hc, hd, List.cons_append, List.append_assoc,
          List.cons.injEq] at h
        obtain ⟨-, h⟩ := h
        -- the bytes before reach at least to the end of the first character
        obtain ⟨zs, rfl⟩ : ∃ zs, xs = rest' ++ zs := by
          obtain ⟨zs, hzs, htail⟩ | ⟨zs, hzs, -⟩ := List.append_eq_append_iff.mp h
          · cases zs with
            | nil => exact ⟨[], by rw [hzs, List.append_nil, List.append_nil]⟩
            | cons z zs =>
              rw [List.cons_append, List.cons.injEq] at htail
              have hcontinued := (utf8EncodeChar_tail hd).2 first (by simp [hzs, htail.1])
              omega
          · exact ⟨zs, hzs⟩
        rw [List.append_assoc, List.append_cancel_left_eq] at h
        exact (ih zs (by simpa [hc] using h)).trans (List.infix_cons_iff.mpr (.inr List.infix_rfl))

end Bytes

section Hex

/-- A digit of a value below sixteen, in either case. -/
def IsHexDigit (value : Nat) (c : Char) : Prop :=
  "0123456789abcdef".toList[value]? = some c ∨ "0123456789ABCDEF".toList[value]? = some c

instance (value : Nat) (c : Char) : Decidable (IsHexDigit value c) :=
  inferInstanceAs (Decidable (_ ∨ _))

/-- Two digits for each byte. -/
inductive IsHex : List UInt8 → List Char → Prop
  | nil : IsHex [] []
  | cons {b : UInt8} {high low : Char} {bytes : List UInt8} {cs : List Char} :
      IsHexDigit (b.toNat / 16) high → IsHexDigit (b.toNat % 16) low → IsHex bytes cs →
      IsHex (b :: bytes) (high :: low :: cs)

theorem IsHex.length {bytes : List UInt8} {cs : List Char} (h : IsHex bytes cs) :
    cs.length = 2 * bytes.length := by
  induction h with
  | nil => rfl
  | cons _ _ _ ih =>
    simp only [List.length_cons, ih]
    omega

theorem IsHex.forall {P : Char → Prop} (hdigit : ∀ {value c}, IsHexDigit value c → P c)
    {bytes : List UInt8} {cs : List Char} (h : IsHex bytes cs) : ∀ c ∈ cs, P c := by
  induction h with
  | nil => simp
  | cons hhigh hlow _ ih =>
    intro c hc
    rw [List.mem_cons, List.mem_cons] at hc
    obtain rfl | rfl | hc := hc
    · exact hdigit hhigh
    · exact hdigit hlow
    · exact ih c hc

end Hex

section Base64

/-- Three bytes are four values of six bits; what is left over is filled up with zeros. -/
def sextets : List Nat → List Nat
  | [] => []
  | [a] => [a / 4, a % 4 * 16]
  | [a, b] => [a / 4, a % 4 * 16 + b / 16, b % 16 * 4]
  | a :: b :: c :: rest =>
    a / 4 :: (a % 4 * 16 + b / 16) :: (b % 16 * 4 + c / 64) :: c % 64 :: sextets rest

theorem sextets_lt {bytes : List Nat} (h : ∀ b ∈ bytes, b < 256) : ∀ n ∈ sextets bytes, n < 64 := by
  induction bytes using sextets.induct with
  | case1 => simp [sextets]
  | case2 a =>
    have := h a (by simp)
    simp only [sextets, List.mem_cons, List.not_mem_nil, or_false]
    omega
  | case3 a b =>
    have := h a (by simp)
    have := h b (by simp)
    simp only [sextets, List.mem_cons, List.not_mem_nil, or_false]
    omega
  | case4 a b c rest ih =>
    have := h a (by simp)
    have := h b (by simp)
    have := h c (by simp)
    have := ih fun x hx => h x (by simp [hx])
    intro n hn
    simp only [sextets, List.mem_cons] at hn
    obtain hn | hn | hn | hn | hn := hn
    · omega
    · omega
    · omega
    · omega
    · exact this n hn

/-- Four values for three bytes, and one more than there are bytes for what is left over. -/
theorem length_sextets (bytes : List Nat) :
    3 * (sextets bytes).length = 4 * bytes.length + (3 - bytes.length % 3) % 3 ∧
      (sextets bytes).length % 4 ≠ 1 := by
  induction bytes using sextets.induct with
  | case1 => simp [sextets]
  | case2 a => simp [sextets]
  | case3 a b => simp [sextets]
  | case4 a b c rest ih =>
    simp only [sextets, List.length_cons]
    omega

/-- The standard alphabet, or the one for URLs and file names. -/
def alphabet (url : Bool) : List Char :=
  "ABCDEFGHIJKLMNOPQRSTUVWXYZabcdefghijklmnopqrstuvwxyz0123456789".toList ++
    if url then ['-', '_'] else ['+', '/']

def base64Digit (url : Bool) (n : Nat) : Char := (alphabet url).getD n 'A'

/-- The digits of base64, without padding. -/
def base64 (url : Bool) (bytes : List UInt8) : List Char :=
  (sextets (bytes.map UInt8.toNat)).map (base64Digit url)

/-- The padding that makes the digits a multiple of four. -/
def padding (bytes : List UInt8) : List Char := List.replicate ((3 - bytes.length % 3) % 3) '='

theorem bytes_lt (bytes : List UInt8) : ∀ b ∈ bytes.map UInt8.toNat, b < 256 := by
  intro b hb
  obtain ⟨byte, -, rfl⟩ := List.mem_map.mp hb
  exact byte.toNat_lt

end Base64

section Percent

/-- An escape for each byte. -/
inductive IsEscaped : List UInt8 → List Char → Prop
  | nil : IsEscaped [] []
  | cons {b : UInt8} {high low : Char} {bytes : List UInt8} {cs : List Char} :
      IsHexDigit (b.toNat / 16) high → IsHexDigit (b.toNat % 16) low → IsEscaped bytes cs →
      IsEscaped (b :: bytes) ('%' :: high :: low :: cs)

theorem IsEscaped.length {bytes : List UInt8} {cs : List Char} (h : IsEscaped bytes cs) :
    cs.length = bytes.length * 3 := by
  induction h with
  | nil => rfl
  | cons _ _ _ ih =>
    simp only [List.length_cons, ih]
    omega

theorem IsEscaped.forall {P : Char → Prop} (hpercent : P '%')
    (hdigit : ∀ {value c}, IsHexDigit value c → P c) {bytes : List UInt8} {cs : List Char}
    (h : IsEscaped bytes cs) : ∀ c ∈ cs, P c := by
  induction h with
  | nil => simp
  | cons hhigh hlow _ ih =>
    intro c hc
    simp only [List.mem_cons] at hc
    obtain rfl | rfl | rfl | hc := hc
    · exact hpercent
    · exact hdigit hhigh
    · exact hdigit hlow
    · exact ih c hc

/-- Some characters stand for themselves, the others are escaped, percent signs always; with
the number of characters that are escaped. -/
inductive PercentEncoding : List Char → List Char → Nat → Prop
  | nil : PercentEncoding [] [] 0
  | literal {c : Char} {text cs : List Char} {n : Nat} : c ≠ '%' → PercentEncoding text cs n →
      PercentEncoding (c :: text) (c :: cs) n
  | escaped {c : Char} {text pre cs : List Char} {n : Nat} :
      IsEscaped (String.utf8EncodeChar c) pre → PercentEncoding text cs n →
      PercentEncoding (c :: text) (pre ++ cs) (n + 1)

end Percent

end ByteText
