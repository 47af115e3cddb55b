import IDoris.Inspect.Usable
import IDoris.Library.ByteText

/-!
# One layer of encoding

What the rules find in a text is found in its base64, in its hexadecimal digits and in its
percent escapes too.
-/
namespace Inspect

open Scanner Utf16 ByteText

section Digits

/-- The codes of a list of characters. -/
def codes (cs : List Char) : List Nat := cs.map Char.toNat

theorem encodeChars_ascii {cs : List Char} (h : ∀ c ∈ cs, c.toNat < 128) :
    encodeChars cs = codes cs := by
  induction cs with
  | nil => rfl
  | cons c cs ih =>
    have hc := h c List.mem_cons_self
    rw [encodeChars_cons, encodeChar, if_pos (by omega),
      ih fun x hx => h x (List.mem_cons_of_mem _ hx)]
    rfl

theorem hexValue_of_isHexDigit {value : Nat} {c : Char} (h : IsHexDigit value c) :
    hexValue c.toNat = some value := by
  have hlower : ∀ p ∈ "0123456789abcdef".toList.zipIdx, hexValue p.1.toNat = some p.2 := by decide
  have hupper : ∀ p ∈ "0123456789ABCDEF".toList.zipIdx, hexValue p.1.toNat = some p.2 := by decide
  obtain h | h := h
  · exact hlower (c, value) (List.mk_mem_zipIdx_iff_getElem?.mpr h)
  · exact hupper (c, value) (List.mk_mem_zipIdx_iff_getElem?.mpr h)

theorem lt_of_hexValue {u value : Nat} (h : hexValue u = some value) :
    u < 128 ∧ isTokenMember u = true := by
  unfold hexValue at h
  split at h
  · next hdigit =>
    refine ⟨?_, by simp [isTokenMember, isAlnum, hdigit]⟩
    simp [isDigit] at hdigit
    omega
  · split at h
    · next hlower =>
      simp only [Char.reduceToNat] at hlower
      refine ⟨by omega, ?_⟩
      simp [isTokenMember, isAlnum, isAlphabetic, isLowercase]
      omega
    · split at h
      · next hupper =>
        simp only [Char.reduceToNat] at hupper
        refine ⟨by omega, ?_⟩
        simp [isTokenMember, isAlnum, isAlphabetic, isUppercase]
        omega
      · cases h

theorem hexPairs_isHex {bytes : List UInt8} {cs : List Char} (h : IsHex bytes cs) :
    hexPairs (codes cs) = some (bytes.map UInt8.toNat) := by
  induction h with
  | nil => rfl
  | @cons b high low bytes cs hhigh hlow _ ih =>
    simp only [codes, List.map_cons] at ih ⊢
    rw [hexPairs, hexValue_of_isHexDigit hhigh, hexValue_of_isHexDigit hlow, ih]
    simp only [bind, Option.bind_some, pure, Nat.div_add_mod']

end Digits

section Base64

/-- A digit for each value of six bits. -/
def Digits (f : Nat → Nat) : Prop := ∀ n < 64, base64Value (f n) = some n

theorem digits_base64Digit (url : Bool) : Digits fun n => (base64Digit url n).toNat := by
  have halphabet : ∀ url, ∀ p ∈ (alphabet url).zipIdx, base64Value p.1.toNat = some p.2 := by
    decide
  have hlen : (alphabet url).length = 64 := by cases url <;> rfl
  intro n hn
  refine halphabet url (base64Digit url n, n) (List.mk_mem_zipIdx_iff_getElem?.mpr ?_)
  rw [base64Digit, List.getD_eq_getElem?_getD, List.getElem?_eq_getElem (by omega)]
  rfl

theorem base64Bytes_isSome {tail : List Nat} (htail : ∀ u ∈ tail, (base64Value u).isSome)
    (buffer bits : Nat) : ∃ out, base64Bytes tail buffer bits = some out := by
  induction tail generalizing buffer bits with
  | nil => exact ⟨[], rfl⟩
  | cons u tail ih =>
    obtain ⟨value, hvalue⟩ := Option.isSome_iff_exists.mp (htail u List.mem_cons_self)
    have ih := ih fun v hv => htail v (List.mem_cons_of_mem _ hv)
    simp only [base64Bytes, hvalue, bind, Option.bind_some]
    split
    · obtain ⟨out, hout⟩ := ih ((buffer * 64 + value) % 2 ^ (bits + 6 - 8)) (bits + 6 - 8)
      rw [hout]
      exact ⟨_, rfl⟩
    · exact ih (buffer * 64 + value) (bits + 6)

theorem base64Bytes_wait {c value buffer bits : Nat} (h : base64Value c = some value)
    (hbits : bits < 2) (rest : List Nat) : base64Bytes (c :: rest) buffer bits =
      base64Bytes rest (buffer * 64 + value) (bits + 6) := by
  simp only [base64Bytes, h, bind, Option.bind_some, if_neg (show ¬8 ≤ bits + 6 by omega)]

theorem base64Bytes_emit {c value buffer bits : Nat} (h : base64Value c = some value)
    (hbits : 2 ≤ bits) (rest : List Nat) : base64Bytes (c :: rest) buffer bits =
      (base64Bytes rest ((buffer * 64 + value) % 2 ^ (bits - 2)) (bits - 2)).map
        ((buffer * 64 + value) / 2 ^ (bits - 2) % 256 :: ·) := by
  simp only [base64Bytes, h, bind, Option.bind_some, if_pos (show 8 ≤ bits + 6 by omega),
    show bits + 6 - 8 = bits - 2 by omega]
  exact Option.map_eq_bind.symm

/-- Four digits are three bytes. -/
theorem base64Bytes_group {f : Nat → Nat} (hf : Digits f) {a b c : Nat} (ha : a < 256)
    (hb : b < 256) (hc : c < 256) (rest : List Nat) :
    base64Bytes (f (a / 4) :: f (a % 4 * 16 + b / 16) :: f (b % 16 * 4 + c / 64) :: f (c % 64) ::
      rest) 0 0 = (base64Bytes rest 0 0).map fun out => a :: b :: c :: out := by
  have hfirst : ((0 * 64 + a / 4) * 64 + (a % 4 * 16 + b / 16)) / 2 ^ (6 - 2) % 256 = a := by omega
  have hleft : ((0 * 64 + a / 4) * 64 + (a % 4 * 16 + b / 16)) % 2 ^ (6 - 2) = b / 16 := by omega
  have hsecond : (b / 16 * 64 + (b % 16 * 4 + c / 64)) / 2 ^ (4 - 2) % 256 = b := by omega
  have hleft' : (b / 16 * 64 + (b % 16 * 4 + c / 64)) % 2 ^ (4 - 2) = c / 64 := by omega
  have hthird : (c / 64 * 64 + c % 64) / 2 ^ (2 - 2) % 256 = c := by omega
  have hleft'' : (c / 64 * 64 + c % 64) % 2 ^ (2 - 2) = 0 := by omega
  rw [base64Bytes_wait (hf _ (by omega)) (by omega), base64Bytes_emit (hf _ (by omega)) (by omega),
    hfirst, hleft, base64Bytes_emit (hf _ (by omega)) (by omega), hsecond, hleft',
    base64Bytes_emit (hf _ (by omega)) (by omega), hthird, hleft'', Option.map_map, Option.map_map]
  rfl

/-- The digits of some bytes decode to them, whatever digits follow. -/
theorem base64Bytes_sextets {f : Nat → Nat} (hf : Digits f) {bytes : List Nat}
    (hbytes : ∀ b ∈ bytes, b < 256) {tail : List Nat}
    (htail : ∀ u ∈ tail, (base64Value u).isSome) :
    ∃ rest, base64Bytes ((sextets bytes).map f ++ tail) 0 0 = some (bytes ++ rest) ∧
      (tail = [] → rest = []) := by
  induction bytes using sextets.induct with
  | case1 =>
    obtain ⟨out, hout⟩ := base64Bytes_isSome htail 0 0
    refine ⟨out, hout, ?_⟩
    rintro rfl
    simpa [sextets, base64Bytes] using hout.symm
  | case2 a =>
    have ha := hbytes a (by simp)
    obtain ⟨out, hout⟩ := base64Bytes_isSome htail 0 4
    have hfirst : ((0 * 64 + a / 4) * 64 + a % 4 * 16) / 2 ^ (6 - 2) % 256 = a := by omega
    have hleft : ((0 * 64 + a / 4) * 64 + a % 4 * 16) % 2 ^ (6 - 2) = 0 := by omega
    refine ⟨out, ?_, ?_⟩
    · simp only [sextets, List.map_cons, List.map_nil, List.cons_append, List.nil_append]
      rw [base64Bytes_wait (hf _ (by omega)) (by omega),
        base64Bytes_emit (hf _ (by omega)) (by omega), hfirst, hleft, hout]
      rfl
    · rintro rfl
      simpa [base64Bytes] using hout.symm
  | case3 a b =>
    have ha := hbytes a (by simp)
    have hb := hbytes b (by simp)
    obtain ⟨out, hout⟩ := base64Bytes_isSome htail 0 2
    have hfirst : ((0 * 64 + a / 4) * 64 + (a % 4 * 16 + b / 16)) / 2 ^ (6 - 2) % 256 = a := by
      omega
    have hleft : ((0 * 64 + a / 4) * 64 + (a % 4 * 16 + b / 16)) % 2 ^ (6 - 2) = b / 16 := by omega
    have hsecond : (b / 16 * 64 + b % 16 * 4) / 2 ^ (4 - 2) % 256 = b := by omega
    have hleft' : (b / 16 * 64 + b % 16 * 4) % 2 ^ (4 - 2) = 0 := by omega
    refine ⟨out, ?_, ?_⟩
    · simp only [sextets, List.map_cons, List.map_nil, List.cons_append, List.nil_append]
      rw [base64Bytes_wait (hf _ (by omega)) (by omega),
        base64Bytes_emit (hf _ (by omega)) (by omega), hfirst, hleft,
        base64Bytes_emit (hf _ (by omega)) (by omega), hsecond, hleft', hout]
      rfl
    · rintro rfl
      simpa [base64Bytes] using hout.symm
  | case4 a b c rest ih =>
    obtain ⟨out, hout, hnil⟩ := ih fun x hx => hbytes x (by simp [hx])
    refine ⟨out, ?_, hnil⟩
    simp only [sextets, List.map_cons, List.cons_append]
    rw [base64Bytes_group hf (hbytes a (by simp)) (hbytes b (by simp)) (hbytes c (by simp)), hout]
    rfl

theorem base64Bytes_base64 (url : Bool) (bytes : List UInt8) :
    base64Bytes (codes (base64 url bytes)) 0 0 = some (bytes.map UInt8.toNat) := by
  have htail : ∀ u ∈ ([] : List Nat), (base64Value u).isSome := by simp
  obtain ⟨rest, hrest, hnil⟩ :=
    base64Bytes_sextets (digits_base64Digit url) (bytes_lt bytes) htail
  rw [hnil rfl, List.append_nil, List.append_nil] at hrest
  rw [codes, base64, List.map_map]
  exact hrest

end Base64

section Tokens

variable {inner : List Nat → Option (List Hit)}

/-- No character of a token beside it, and no further padding. -/
def Bounded (pre post : String) : Prop :=
  (∀ c ∈ pre.toList.getLast?, isTokenMember c.toNat = false) ∧
    ∀ c ∈ post.toList.head?, isTokenMember c.toNat = false ∧ c ≠ '='

/-- The tokens that encode a text. -/
inductive Encodes (t : String) : List Char → List Char → Prop
  | base64 (url : Bool) : 12 ≤ (base64 url (utf8 t)).length → Encodes t (base64 url (utf8 t)) []
  | padded (url : Bool) : 12 ≤ (base64 url (utf8 t)).length →
      Encodes t (base64 url (utf8 t)) (padding (utf8 t))
  | hex {cs : List Char} : IsHex (utf8 t) cs → 16 ≤ cs.length → Encodes t cs []

theorem lt_of_base64Value {u value : Nat} (h : base64Value u = some value) :
    u < 128 ∧ isTokenMember u = true := by
  unfold base64Value at h
  split at h
  · next hupper =>
    refine ⟨?_, by simp [isTokenMember, isAlnum, isAlphabetic, hupper]⟩
    simp [isUppercase] at hupper
    omega
  · split at h
    · next hlower =>
      refine ⟨?_, by simp [isTokenMember, isAlnum, isAlphabetic, hlower]⟩
      simp [isLowercase] at hlower
      omega
    · split at h
      · next hdigit =>
        refine ⟨?_, by simp [isTokenMember, isAlnum, hdigit]⟩
        simp [isDigit] at hdigit
        omega
      · split at h
        · next hsign =>
          rw [Bool.or_eq_true, decide_eq_true_eq, decide_eq_true_eq] at hsign
          obtain rfl | rfl := hsign <;> exact ⟨by decide, by decide⟩
        · split at h
          · next hsign =>
            rw [Bool.or_eq_true, decide_eq_true_eq, decide_eq_true_eq] at hsign
            obtain rfl | rfl := hsign <;> exact ⟨by decide, by decide⟩
          · cases h

theorem base64_member (url : Bool) (bytes : List UInt8) :
    ∀ c ∈ base64 url bytes, c.toNat < 128 ∧ isTokenMember c.toNat = true := by
  intro c hc
  obtain ⟨n, hn, rfl⟩ := List.mem_map.mp hc
  exact lt_of_base64Value (digits_base64Digit url n (sextets_lt (bytes_lt bytes) n hn))

theorem Encodes.body_member {t : String} {body pad : List Char} (h : Encodes t body pad) :
    ∀ c ∈ body, c.toNat < 128 ∧ isTokenMember c.toNat = true := by
  cases h with
  | base64 url _ => exact base64_member url _
  | padded url _ => exact base64_member url _
  | hex h _ => exact h.forall fun hdigit => lt_of_hexValue (hexValue_of_isHexDigit hdigit)

theorem Encodes.pad_eq {t : String} {body pad : List Char} (h : Encodes t body pad) :
    ∃ n ≤ 2, pad = List.replicate n '=' := by
  cases h with
  | base64 url _ => exact ⟨0, by omega, rfl⟩
  | padded url _ => exact ⟨_, by omega, rfl⟩
  | hex _ _ => exact ⟨0, by omega, rfl⟩

theorem Encodes.twelve_le {t : String} {body pad : List Char} (h : Encodes t body pad) :
    12 ≤ body.length := by
  cases h with
  | base64 _ hlen => exact hlen
  | padded _ hlen => exact hlen
  | hex _ hlen => omega

theorem base64Body_padded {body : List Nat} (hbody : ∀ u ∈ body, u ≠ '='.toNat) {n : Nat}
    (hn : n ≤ 2) : base64Body (body ++ List.replicate n '='.toNat) = body := by
  have hnone : ∀ k, ¬List.replicate (k + 1) '='.toNat <:+ body := by
    rintro k ⟨front, rfl⟩
    exact hbody '='.toNat (by simp [List.replicate_succ]) rfl
  have hone : encode "=" = List.replicate 1 '='.toNat := by decide
  have htwo : encode "==" = List.replicate 2 '='.toNat := by decide
  simp only [base64Body, List.isSuffixOf_iff_suffix, hone, htwo]
  match n, hn with
  | 0, _ =>
    rw [List.replicate_zero, List.append_nil, if_neg (hnone 1), if_neg (hnone 0)]
  | 1, _ =>
    have hlast : ¬List.replicate 2 '='.toNat <:+ body ++ List.replicate 1 '='.toNat := by
      rintro ⟨front, hfront⟩
      rw [List.replicate_succ', ← List.append_assoc, List.replicate_one,
        List.append_cancel_right_eq] at hfront
      exact hbody '='.toNat (by simp [← hfront]) rfl
    rw [if_neg hlast, if_pos (List.suffix_append body _)]
    simp
  | 2, _ =>
    rw [if_pos (List.suffix_append body _)]
    simp

/-- A token that encodes a text is decoded to its bytes. -/
theorem Encodes.decodes {t : String} {body pad : List Char} (h : Encodes t body pad) :
    (utf8 t).map UInt8.toNat ∈ (decodeHex (codes (body ++ pad))).toList ++
      (decodeBase64 (codes (body ++ pad))).toList := by
  have hnoEquals : ∀ u ∈ codes body, u ≠ '='.toNat := by
    rintro _ hu rfl
    obtain ⟨c, hc, hequals⟩ := List.mem_map.mp hu
    have hmember := (h.body_member c hc).2
    rw [hequals] at hmember
    exact absurd hmember (by decide)
  obtain ⟨n, hn, hpad⟩ := h.pad_eq
  have hcodes : codes (body ++ pad) = codes body ++ List.replicate n '='.toNat := by
    simp [codes, hpad]
  rw [List.mem_append, hcodes]
  have hbase : ∀ url, body = ByteText.base64 url (utf8 t) →
      decodeBase64 (codes body ++ List.replicate n '='.toNat) =
        some ((utf8 t).map UInt8.toNat) := by
    rintro url rfl
    have hlen := h.twelve_le
    have hone := (length_sextets ((utf8 t).map UInt8.toNat)).2
    simp only [decodeBase64, base64Body_padded hnoEquals hn, base64Bytes_base64]
    rw [if_neg]
    simp only [codes, List.length_map, minBase64, Bool.or_eq_true, decide_eq_true_eq]
    simp only [ByteText.base64, List.length_map] at hlen ⊢
    omega
  cases h with
  | base64 url hlen => exact .inr (by rw [hbase url rfl]; simp)
  | padded url hlen => exact .inr (by rw [hbase url rfl]; simp)
  | hex hhex hlen =>
    have hzero : n = 0 := by simpa using (congrArg List.length hpad).symm
    subst hzero
    refine .inl ?_
    have heven := hhex.length
    rw [List.replicate_zero, List.append_nil, decodeHex, if_neg, hexPairs_isHex hhex]
    · simp
    · simp only [codes, List.length_map, minHex, Bool.or_eq_true, decide_eq_true_eq]
      omega

end Tokens

section Place

/-- The unit right before a place is no part of a token when the character is not. -/
theorem not_member_last {cs : List Char} (h : ∀ c ∈ cs.getLast?, isTokenMember c.toNat = false)
    {u : Nat} (hu : (encodeChars cs).getLast? = some u) : isTokenMember u = false := by
  obtain rfl | ⟨front, c, rfl⟩ := List.eq_nil_or_concat cs
  · simp at hu
  · simp only [List.concat_eq_append] at h hu
    have hc := h c (by simp)
    rw [encodeChars_append, encodeChars_cons, encodeChars_nil, List.append_nil] at hu
    obtain ⟨-, -, -, hone⟩ | ⟨high, low, -, -, hlow, -, htwo⟩ := encodeChar_cases c
    · rw [hone, List.getLast?_concat, Option.some.injEq] at hu
      exact hu ▸ hc
    · rw [htwo, List.getLast?_append] at hu
      simp only [List.getLast?_cons_cons, List.getLast?_singleton, Option.some_or,
        Option.some.injEq] at hu
      subst hu
      cases hmember : isTokenMember low with
      | false => rfl
      | true =>
        rw [(isPlain_of_isTokenMember hmember).2] at hlow
        cases hlow

theorem not_member_head {cs : List Char}
    (h : ∀ c ∈ cs.head?, isTokenMember c.toNat = false ∧ c ≠ '=') {u : Nat}
    (hu : (encodeChars cs).head? = some u) : isTokenMember u = false ∧ u ≠ '='.toNat := by
  cases cs with
  | nil => simp at hu
  | cons c cs =>
    obtain ⟨hc, hne⟩ := h c (by simp)
    rw [encodeChars_cons] at hu
    obtain ⟨-, -, -, hone⟩ | ⟨high, low, -, hhigh, -, -, htwo⟩ := encodeChar_cases c
    · simp only [hone, List.cons_append, List.head?_cons, Option.some.injEq] at hu
      subst hu
      exact ⟨hc, fun heq => hne (Char.toNat_inj.mp heq)⟩
    · simp only [htwo, List.cons_append, List.head?_cons, Option.some.injEq] at hu
      subst hu
      refine ⟨?_, ?_⟩
      · cases hmember : isTokenMember high with
        | false => rfl
        | true =>
          rw [(isPlain_of_isTokenMember hmember).1] at hhigh
          cases hhigh
      · rintro rfl
        exact absurd hhigh (by decide)

variable {xs body ys : List Nat} {n : Nat}

theorem isRun_token (hxs : ∀ u, xs.getLast? = some u → isTokenMember u = false)
    (hbody : ∀ u ∈ body, isTokenMember u = true) (hne : body ≠ [])
    (hys : ∀ u, ys.head? = some u → isTokenMember u = false) :
    IsRun isTokenMember (xs ++ body ++ (List.replicate n '='.toNat ++ ys)) xs.length
      (xs.length + body.length) := by
  refine isRun_middle hxs hbody hne fun u hu => ?_
  cases n with
  | zero => exact hys u (by simpa using hu)
  | succ n =>
    simp only [List.replicate_succ, List.cons_append, List.head?_cons, Option.some.injEq] at hu
    exact hu ▸ by decide

variable (xs body) in
theorem padding_token (hn : n ≤ 2) (hys : ∀ u, ys.head? = some u → u ≠ '='.toNat) :
    (((xs ++ body ++ (List.replicate n '='.toNat ++ ys)).drop (xs.length + body.length)).take
      2).takeWhile (· = '='.toNat) = List.replicate n '='.toNat := by
  rw [← List.length_append, List.drop_left]
  have hstop : ∀ k, (ys.take k).takeWhile (· = '='.toNat) = [] := by
    intro k
    cases ys with
    | nil => simp
    | cons y ys =>
      cases k with
      | zero => rfl
      | succ k =>
        have hy := hys y rfl
        rw [List.take_succ_cons, List.takeWhile_cons_of_neg (by simpa using hy)]
  match n, hn with
  | 0, _ => simpa using hstop 2
  | 1, _ => simpa [List.replicate_succ] using hstop 1
  | 2, _ => simp [List.replicate_succ]

end Place

section Escapes

/-- The results of the places of a list, when each gives the element there. -/
theorem mapM_range {α : Type} {f : Nat → Option α} {xs : List α}
    (h : ∀ n, n < xs.length → f n = xs[n]?) : (List.range xs.length).mapM f = some xs := by
  induction xs generalizing f with
  | nil => rfl
  | cons x xs ih =>
    have hzero := h 0 (by simp)
    have hrest := ih (f := fun n => f (n + 1)) fun n hn => by
      rw [h (n + 1) (by simpa using hn), List.getElem?_cons_succ]
    rw [List.length_cons, List.range_succ_eq_map, List.mapM_cons, hzero, List.mapM_map]
    simp only [List.getElem?_cons_zero, bind, Option.bind_some, Function.comp_def, hrest]
    rfl

theorem byteAt_escaped {bytes : List UInt8} {pre : List Char} (h : IsEscaped bytes pre)
    (rest : List Nat) {n : Nat} (hn : n < (bytes.map UInt8.toNat).length) :
    byteAt ((codes pre ++ rest).drop (n * 3)) = (bytes.map UInt8.toNat)[n]? := by
  induction h generalizing n with
  | nil => simp at hn
  | @cons b high low bytes cs hhigh hlow _ ih =>
    cases n with
    | zero =>
      simp only [codes, List.map_cons, List.cons_append, Nat.zero_mul, List.drop_zero, byteAt,
        hexValue_of_isHexDigit hhigh, hexValue_of_isHexDigit hlow, List.getElem?_cons_zero]
      simp [Nat.div_add_mod']
    | succ n =>
      rw [List.map_cons, List.getElem?_cons_succ, ← ih (by simpa using hn), Nat.succ_mul]
      rfl

theorem ascii_of_escaped {bytes : List UInt8} {pre : List Char} (h : IsEscaped bytes pre) :
    ∀ c ∈ pre, c.toNat < 128 :=
  h.forall (by decide) fun hdigit => (lt_of_hexValue (hexValue_of_isHexDigit hdigit)).1

theorem utf8Text_map (bytes : List UInt8) :
    utf8Text (bytes.map UInt8.toNat) = Text.decode bytes := by
  rw [utf8Text, List.map_map]
  congr 1
  simp [Function.comp_def]

/-- Escapes of the bytes of a character are read as that character. -/
theorem percentChar_escaped {c : Char} {pre : List Char}
    (h : IsEscaped (String.utf8EncodeChar c) pre) (rest : List Nat) :
    percentChar (codes pre ++ rest) = some (c, pre.length) := by
  obtain ⟨first, tail, hbytes, hwidth⟩ := utf8EncodeChar_width c
  have hlen := h.length
  rw [hbytes, List.length_cons] at hlen
  have hfirst : byteAt (codes pre ++ rest) = some first.toNat := by
    have hbyte := byteAt_escaped h rest (n := 0) (by simp [hbytes])
    simpa [hbytes] using hbyte
  have hwide : utf8Width first.toNat = some (tail.length + 1) := by
    unfold utf8Width
    rcases hwidth with ⟨hle, hzero⟩ | ⟨hrange, hone⟩ | ⟨hrange, htwo⟩ | ⟨hrange, hthree⟩
    · rw [if_pos hle, hzero]
    · rw [if_neg (by omega), if_pos hrange, hone]
    · rw [if_neg (by omega), if_neg (by omega), if_pos hrange, htwo]
    · rw [if_neg (by omega), if_neg (by omega), if_neg (by omega), if_pos hrange, hthree]
  have hall : (List.range (tail.length + 1)).mapM (fun n => byteAt ((codes pre ++ rest).drop
      (n * 3))) = some ((String.utf8EncodeChar c).map UInt8.toNat) := by
    rw [show tail.length + 1 = ((String.utf8EncodeChar c).map UInt8.toNat).length by simp [hbytes]]
    exact mapM_range fun n hn => byteAt_escaped h rest hn
  have htext : utf8Text ((String.utf8EncodeChar c).map UInt8.toNat) = some (String.ofList [c]) := by
    have hchars := decode_chars [c]
    rw [List.flatMap_singleton] at hchars
    rw [utf8Text_map, hchars]
  simp only [percentChar, hfirst, hwide, hall, htext, bind, Option.bind_some, String.toList_ofList,
    List.head?_cons, pure, hlen]

theorem percentChar_literal {u : Nat} (h : u ≠ '%'.toNat) (rest : List Nat) :
    percentChar (u :: rest) = none := by
  have hbyte : byteAt (u :: rest) = none := by
    match rest with
    | [] => rfl
    | [_] => rfl
    | _ :: _ :: _ => simp only [byteAt, if_pos h]
  simp only [percentChar, hbyte]
  rfl

/-- Percent decoding undoes percent encoding. -/
theorem decodePercentFrom_encoding {text cs : List Char} {n : Nat}
    (h : PercentEncoding text cs n) (i : Nat) :
    View.units (decodePercentFrom 0 (encodeChars cs) i).1 = encodeChars text ∧
      (decodePercentFrom 0 (encodeChars cs) i).2 = n := by
  induction h generalizing i with
  | nil => exact ⟨rfl, rfl⟩
  | @literal c text cs n hne _ ih =>
    have hcode : c.toNat ≠ '%'.toNat := fun heq => hne (Char.toNat_inj.mp heq)
    rw [encodeChars_cons, encodeChars_cons]
    obtain ⟨-, -, -, hone⟩ | ⟨high, low, -, hhigh, hlow, -, htwo⟩ := encodeChar_cases c
    · rw [hone, List.singleton_append, decodePercentFrom_literal (percentChar_literal hcode _)]
      obtain ⟨hunits, hescapes⟩ := ih (i + 1)
      exact ⟨congrArg (c.toNat :: ·) hunits, hescapes⟩
    · have hfirst : percentChar (high :: low :: encodeChars cs) = none :=
        percentChar_literal (by rintro rfl; exact absurd hhigh (by decide)) _
      have hsecond : percentChar (low :: encodeChars cs) = none :=
        percentChar_literal (by rintro rfl; exact absurd hlow (by decide)) _
      rw [htwo, List.cons_append, List.singleton_append, decodePercentFrom_literal hfirst,
        decodePercentFrom_literal hsecond]
      obtain ⟨hunits, hescapes⟩ := ih (i + 1 + 1)
      exact ⟨congrArg (high :: low :: ·) hunits, hescapes⟩
  | @escaped c text pre cs n hescaped _ ih =>
    have hcodes : encodeChars (pre ++ cs) = codes pre ++ encodeChars cs := by
      rw [encodeChars_append, encodeChars_ascii (ascii_of_escaped hescaped)]
    obtain ⟨hunits, hescapes⟩ := ih (i + pre.length)
    have hdrop : (codes pre ++ encodeChars cs).drop pre.length = encodeChars cs := by
      rw [show pre.length = (codes pre).length by simp [codes], List.drop_left]
    rw [hcodes, decodePercentFrom_escape (percentChar_escaped hescaped _), hdrop]
    refine ⟨?_, congrArg (· + 1) hescapes⟩
    rw [View.units, List.map_append, List.map_map, encodeChars_cons]
    congr 1
    exact List.map_id _

end Escapes

section Found

variable {inner : List Nat → Option (List Hit)} {t pre post : String} {body pad : List Char}

theorem encode_token (h : Encodes t body pad) (pre post : String) : ∃ n ≤ 2,
    pad.length = n ∧ codes (body ++ pad) = codes body ++ List.replicate n '='.toNat ∧
      encode (pre ++ String.ofList (body ++ pad) ++ post) =
        encode pre ++ codes body ++ (List.replicate n '='.toNat ++ encode post) := by
  obtain ⟨n, hn, rfl⟩ := h.pad_eq
  have hbody := encodeChars_ascii fun c hc => (h.body_member c hc).1
  have hpad : encodeChars (List.replicate n '=') = List.replicate n '='.toNat := by
    rw [encodeChars_ascii fun c hc => by rw [List.eq_of_mem_replicate hc]; decide, codes,
      List.map_replicate]
  refine ⟨n, hn, List.length_replicate, by simp [codes], ?_⟩
  simp only [encode, String.toList_append, String.toList_ofList, encodeChars_append, hbody, hpad,
    List.append_assoc]

/-- A token that encodes a text has the hits of the text. -/
theorem scanToken_encodes (h : Encodes t body pad) (hbounded : Bounded pre post)
    {found : List Hit} (hfound : inner (encode t) = some found) {hit : Hit} (hhit : hit ∈ found) :
    ((encode pre).length, (encode pre).length + body.length) ∈
        runs isTokenMember (encode (pre ++ String.ofList (body ++ pad) ++ post)) ∧
      ∀ hits, scanToken inner (encode (pre ++ String.ofList (body ++ pad) ++ post))
          ((encode pre).length, (encode pre).length + body.length) = some hits →
        { hit with start := (encode pre).length, length := (body ++ pad).length } ∈ hits := by
  obtain ⟨n, hn, hpad, hcodes, hunits⟩ := encode_token h pre post
  have hlen : (codes body).length = body.length := List.length_map _
  have htwelve := h.twelve_le
  have hne : codes body ≠ [] := List.length_pos_iff.mp (by omega)
  have hmember : ∀ u ∈ codes body, isTokenMember u = true := by
    intro u hu
    obtain ⟨c, hc, rfl⟩ := List.mem_map.mp hu
    exact (h.body_member c hc).2
  have hpre : ∀ u, (encode pre).getLast? = some u → isTokenMember u = false :=
    fun u => not_member_last hbounded.1
  have hpost : ∀ u, (encode post).head? = some u → isTokenMember u = false ∧ u ≠ '='.toNat :=
    fun u => not_member_head hbounded.2
  have hrun := isRun_token (n := n) hpre hmember hne fun u hu => (hpost u hu).1
  have hpadding := padding_token (encode pre) (codes body) hn
    fun u hu => (hpost u hu).2
  rw [hunits]
  rw [hlen] at hrun hpadding
  refine ⟨mem_runs_of_isRun hrun, fun hits hhits => ?_⟩
  have hslice : slice (encode pre ++ codes body ++ (List.replicate n '='.toNat ++ encode post))
      (encode pre).length ((encode pre).length + body.length + n) =
        some (codes (body ++ pad)) := by
    have hall : slice (encode pre ++ codes (body ++ pad) ++ encode post) (encode pre).length
        ((encode pre).length + (codes (body ++ pad)).length) = some (codes (body ++ pad)) :=
      slice_append
    rw [hcodes] at hall ⊢
    simp only [List.length_append, hlen, List.length_replicate] at hall
    simpa only [List.append_assoc, Nat.add_assoc] using hall
  simp only [scanToken, hpadding, List.length_replicate, hslice, bind, Option.bind_some] at hhits
  refine (mem_flatMapM hhits).mpr ⟨_, h.decodes, found.map fun hit =>
    { hit with start := (encode pre).length, length := (body ++ pad).length }, ?_,
    List.mem_map.mpr ⟨hit, hhit, rfl⟩⟩
  have htext : utf8Text ((utf8 t).map UInt8.toNat) = some t := by rw [utf8Text_map, decode_utf8]
  simp only [reportDecoded, htext, hfound, List.length_append, hpad]
  rw [show (encode pre).length + body.length + n - (encode pre).length = body.length + n by omega]
  rfl

/-- The percent decoding of a text has the hits of the text. -/
theorem scanPercent_encoding {input : String} {n : Nat}
    (h : PercentEncoding t.toList input.toList n) (hn : 0 < n) {found : List Hit}
    (hfound : inner (encode t) = some found) {hit : Hit} (hhit : hit ∈ found) {hits : List Hit}
    (hhits : scanPercent inner (encode input) = some hits) :
    ∃ moved ∈ hits, moved.kind = hit.kind := by
  obtain ⟨hunits, hescapes⟩ := decodePercentFrom_encoding h 0
  have hview : decodePercent (encode input) =
      some (decodePercentFrom 0 (encodeChars input.toList) 0).1 := by
    simp only [decodePercent, encode, hescapes, minPercentEscapes]
    rw [if_pos (by omega)]
  simp only [scanPercent, hview, hunits] at hhits
  rw [show encodeChars t.toList = encode t from rfl, hfound] at hhits
  obtain ⟨moved, hmoved⟩ := mem_of_mapM hhits hhit
  refine ⟨moved, (mem_mapM_iff hhits).mpr ⟨hit, hhit, hmoved⟩, ?_⟩
  simp only [bind, Option.bind_eq_some_iff, pure, Option.some.injEq] at hmoved
  obtain ⟨span, -, rfl⟩ := hmoved
  rfl

end Found

section Reported

variable [Entropy]

theorem reports_of_decoded {input : String} {ctx : InspectCtx} {hit : Hit} {hits : List Hit}
    (h : exceedsLimit input ctx.maxInputUtf16 = false)
    (hhits : scanDecoded (scanAllViews scanPlain) (encode input) = some hits) (hhit : hit ∈ hits) :
    Reports input ctx hit.finding := by
  obtain ⟨plain, hplain, -⟩ := scanPlain_fitting (encode input) (paired_encode input)
  have hscan : scan (encode input) = some (sortDedup (plain ++ hits)) := by
    simp only [scan, hplain, hhits]
    rfl
  obtain ⟨kept, hkept, hcopied⟩ := Hit.exists_mem_sortDedup (List.mem_append_right plain hhit)
  rw [hcopied.finding_eq]
  exact reports_of_scan h hscan hkept

/-- What all readings of a text show the plain rules is reported of its encodings, too. -/
theorem inspect_encoded (t input : String) (ctx : InspectCtx) (found : List Hit) (hit : Hit)
    (hfound : scanAllViews scanPlain (encode t) = some found) (hhit : hit ∈ found)
    (h : exceedsLimit input ctx.maxInputUtf16 = false) :
    (∀ pre body pad post, input = pre ++ String.ofList (body ++ pad) ++ post →
      Encodes t body pad → Bounded pre post →
      Reports input ctx ⟨hit.kind, some ⟨(encode pre).length, (body ++ pad).length⟩⟩) ∧
    (∀ n, 0 < n → PercentEncoding t.toList input.toList n →
      ∃ span, Reports input ctx ⟨hit.kind, some span⟩) := by
  obtain ⟨hits, hhits, -⟩ :=
    scanDecoded_fitting decodedViews_fitting.2 (paired_encode input)
  have hparts := hhits
  simp only [scanDecoded, bind, Option.bind_eq_some_iff, pure, Option.some.injEq] at hparts
  obtain ⟨tokens, htokens, percent, hpercent, rfl⟩ := hparts
  constructor
  · rintro pre body pad post rfl hencodes hbounded
    obtain ⟨hrun, hmem⟩ := scanToken_encodes hencodes hbounded hfound hhit
    obtain ⟨inToken, hinToken, -⟩ := scanToken_fitting decodedViews_fitting.2 hrun
    exact reports_of_decoded h hhits (List.mem_append_left _
      ((mem_flatMapM htokens).mpr ⟨_, hrun, inToken, hinToken, hmem _ hinToken⟩))
  · intro n hn hencoding
    obtain ⟨moved, hmoved, hkind⟩ := scanPercent_encoding hencoding hn hfound hhit hpercent
    have hreports := reports_of_decoded h hhits (List.mem_append_right _ hmoved)
    rw [Hit.finding, hkind] at hreports
    exact ⟨_, hreports⟩

end Reported

/-- A telephone number in base64, and one with its first digit escaped. -/
theorem inspect_encoded_mobile :
    Reports "k=MTM4MDAxMzgwMDA=;" ⟨.any, true, true, defaultMaxInputUtf16⟩
        ⟨.cnMobile, some ⟨2, 16⟩⟩ ∧
      ∃ span, Reports "%313800138000" ⟨.any, true, true, defaultMaxInputUtf16⟩
        ⟨.cnMobile, some span⟩ := by
  have hfound : scanAllViews scanPlain (encode "13800138000") = some [⟨.cnMobile, 0, 11, .s2⟩] := by
    decide
  have hone : IsEscaped (String.utf8EncodeChar '1') ['%', '3', '1'] :=
    .cons (by decide) (by decide) .nil
  have hescaped : PercentEncoding "13800138000".toList "%313800138000".toList 1 :=
    .escaped hone
      (.literal (by decide) (.literal (by decide) (.literal (by decide) (.literal (by decide)
        (.literal (by decide) (.literal (by decide) (.literal (by decide) (.literal (by decide)
          (.literal (by decide) (.literal (by decide) .nil))))))))))
  have hbase := inspect_encoded "13800138000" "k=MTM4MDAxMzgwMDA=;"
    ⟨.any, true, true, defaultMaxInputUtf16⟩ _ _ hfound List.mem_cons_self (by decide)
  have hbounded : Bounded "k=" ";" := by
    refine ⟨fun c hc => ?_, fun c hc => ?_⟩
    · cases (Option.some.inj hc : '=' = c)
      decide
    · cases (Option.some.inj hc : ';' = c)
      decide
  have hreports := hbase.1 "k=" "MTM4MDAxMzgwMDA".toList ['='] ";" (by decide)
    (.padded false (by decide)) hbounded
  have hstart : (encode "k=").length = 2 := by decide
  have hlength : ("MTM4MDAxMzgwMDA".toList ++ ['=']).length = 16 := by decide
  rw [hstart, hlength] at hreports
  have hpercent := inspect_encoded "13800138000" "%313800138000"
    ⟨.any, true, true, defaultMaxInputUtf16⟩ _ _ hfound List.mem_cons_self (by decide)
  exact ⟨hreports, hpercent.2 1 (by decide) hescaped⟩

end Inspect
