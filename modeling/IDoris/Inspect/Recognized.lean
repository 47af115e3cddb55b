import IDoris.Inspect.Credential

/-!
# Credentials are recognized

A credential is found as it stands, in every spelling of a JSON string, in its hexadecimal
digits and in base64 around it.
-/
namespace Inspect

open Scanner Utf16 ByteText

section Spellings

/-- Four digits for a code unit. -/
def IsHexUnit (u : Nat) (digits : List Char) : Prop :=
  ∃ a b c d, digits = [a, b, c, d] ∧ u < 0x10000 ∧ IsHexDigit (u / 4096) a ∧
    IsHexDigit (u / 256 % 16) b ∧ IsHexDigit (u / 16 % 16) c ∧ IsHexDigit (u % 16) d

/-- A character that a JSON string may hold as it is. -/
def IsJsonLiteral (d : Char) : Prop := d ≠ '"' ∧ d ≠ '\\' ∧ 0x20 ≤ d.toNat

/-- The body of a JSON string that spells a text. -/
inductive Spelling : List Char → List Char → Prop
  | nil : Spelling [] []
  | literal {d : Char} {text cs : List Char} : IsJsonLiteral d → Spelling text cs →
      Spelling (d :: text) (d :: cs)
  | escape {d : Char} {text cs : List Char} : d = '/' ∨ d = '\\' ∨ d = '"' → Spelling text cs →
      Spelling (d :: text) ('\\' :: d :: cs)
  | unit {d : Char} {u : Nat} {digits text cs : List Char} : encodeChar d = [u] →
      IsHexUnit u digits → Spelling text cs → Spelling (d :: text) ('\\' :: 'u' :: (digits ++ cs))
  | pair {d : Char} {high low : Nat} {digits digits' text cs : List Char} :
      encodeChar d = [high, low] → IsHexUnit high digits → IsHexUnit low digits' →
      Spelling text cs →
      Spelling (d :: text) ('\\' :: 'u' :: (digits ++ '\\' :: 'u' :: (digits' ++ cs)))

/-- The body of any JSON string. -/
inductive JsonContent : List Char → Prop
  | nil : JsonContent []
  | literal {d : Char} {cs : List Char} : IsJsonLiteral d → JsonContent cs → JsonContent (d :: cs)
  | escape {d : Char} {cs : List Char} : d ∈ ['"', '\\', '/', 'b', 'f', 'n', 'r', 't'] →
      JsonContent cs → JsonContent ('\\' :: d :: cs)
  | unit {u : Nat} {digits cs : List Char} : IsHexUnit u digits → JsonContent cs →
      JsonContent ('\\' :: 'u' :: (digits ++ cs))

theorem escapedHexUnit_isHexUnit {u : Nat} {digits : List Char} (h : IsHexUnit u digits)
    (rest : List Char) : escapedHexUnit (digits ++ rest) = some u := by
  obtain ⟨a, b, c, d, rfl, hlt, ha, hb, hc, hd⟩ := h
  simp only [List.cons_append, List.nil_append, escapedHexUnit, hexValue_of_isHexDigit ha,
    hexValue_of_isHexDigit hb, hexValue_of_isHexDigit hc, hexValue_of_isHexDigit hd, bind,
    Option.bind_some, pure, Option.some.injEq]
  omega

theorem IsHexUnit.drop_four {u : Nat} {digits : List Char} (h : IsHexUnit u digits)
    (rest : List Char) : (digits ++ rest).drop 4 = rest := by
  obtain ⟨a, b, c, d, rfl, -⟩ := h
  rfl

theorem IsHexUnit.no_backslash {u : Nat} {digits : List Char} (h : IsHexUnit u digits) :
    ∀ c ∈ digits, c ≠ '\\' := by
  have hdigit : ∀ {value : Nat} {c : Char}, IsHexDigit value c → c ≠ '\\' := by
    rintro value c hc rfl
    exact absurd (hexValue_of_isHexDigit hc) (by simp [hexValue, isDigit])
  obtain ⟨a, b, c, d, rfl, -, ha, hb, hc, hd⟩ := h
  simp only [List.mem_cons, List.not_mem_nil, or_false, forall_eq_or_imp, forall_eq]
  exact ⟨hdigit ha, hdigit hb, hdigit hc, hdigit hd⟩

theorem decodeEscapesFrom_skip (skip : Nat) (cs : List Char) :
    decodeEscapesFrom skip cs = decodeEscapesFrom 0 (cs.drop skip) := by
  induction cs generalizing skip with
  | nil => simp [decodeEscapesFrom]
  | cons c cs ih =>
    cases skip with
    | zero => rfl
    | succ skip => rw [decodeEscapesFrom, ih, List.drop_succ_cons]

theorem decodeEscapesFrom_escape {d : Char} {n : Nat} {c : Char} {cs : List Char}
    (h : jsonEscape (c :: cs) = some (d, n + 1)) :
    decodeEscapesFrom 0 (c :: cs) = d :: decodeEscapesFrom 0 (cs.drop n) := by
  simp only [decodeEscapesFrom, h]
  rw [Nat.add_sub_cancel, decodeEscapesFrom_skip]

theorem decodeEscapesFrom_none {c : Char} {cs : List Char} (h : jsonEscape (c :: cs) = none) :
    decodeEscapesFrom 0 (c :: cs) = c :: decodeEscapesFrom 0 cs := by
  simp only [decodeEscapesFrom, h]

theorem jsonEscape_none {c : Char} (h : c ≠ '\\') (cs : List Char) : jsonEscape (c :: cs) = none := by
  unfold jsonEscape
  split <;> simp_all

theorem decodeEscapesFrom_literals {xs : List Char} (h : ∀ c ∈ xs, c ≠ '\\') (rest : List Char) :
    decodeEscapesFrom 0 (xs ++ rest) = xs ++ decodeEscapesFrom 0 rest := by
  induction xs with
  | nil => rfl
  | cons c xs ih =>
    rw [List.cons_append, decodeEscapesFrom_none (jsonEscape_none (h c List.mem_cons_self) _),
      ih fun d hd => h d (List.mem_cons_of_mem _ hd)]
    rfl

/-- A spelling is read as what it spells, whatever follows. -/
theorem decodeEscapes_spelling {text cs : List Char} (h : Spelling text cs) (post : List Char) :
    decodeEscapesFrom 0 (cs ++ post) = text ++ decodeEscapesFrom 0 post := by
  induction h with
  | nil => rfl
  | @literal d text cs hd _ ih =>
    rw [List.cons_append, decodeEscapesFrom_none (jsonEscape_none hd.2.1 _), ih]
    rfl
  | @escape d text cs hd _ ih =>
    have hescape : jsonEscape ('\\' :: d :: (cs ++ post)) = some (d, 1 + 1) := by
      obtain rfl | rfl | rfl := hd <;> rfl
    rw [List.cons_append, List.cons_append, decodeEscapesFrom_escape hescape]
    exact congrArg (d :: ·) ih
  | @unit d u digits text cs hchar hdigits _ ih =>
    obtain ⟨-, hhigh, hlow, hone⟩ | ⟨_, _, -, -, -, -, htwo⟩ := encodeChar_cases d
    · rw [hchar, List.cons.injEq] at hone
      obtain ⟨rfl, -⟩ := hone
      have hescape : jsonEscape ('\\' :: 'u' :: (digits ++ (cs ++ post))) = some (d, 5 + 1) := by
        simp only [jsonEscape, unicodeEscape, escapedHexUnit_isHexUnit hdigits, bind,
          Option.bind_some, hhigh, hlow, ofNat_toNat, pure]
        rfl
      rw [List.cons_append, List.cons_append, List.append_assoc, decodeEscapesFrom_escape hescape,
        List.drop_succ_cons, hdigits.drop_four, ih]
      rfl
    · rw [hchar] at htwo
      simp at htwo
  | @pair d high low digits digits' text cs hchar hdigits hdigits' _ ih =>
    obtain ⟨-, -, -, hone⟩ | ⟨u, v, -, hhigh, hlow, hvalue, htwo⟩ := encodeChar_cases d
    · rw [hchar] at hone
      simp at hone
    · rw [hchar] at htwo
      simp only [List.cons.injEq, and_true] at htwo
      obtain ⟨rfl, rfl⟩ := htwo
      have hescape : jsonEscape ('\\' :: 'u' :: (digits ++ ('\\' :: 'u' :: (digits' ++
          (cs ++ post))))) = some (d, 11 + 1) := by
        simp only [jsonEscape, unicodeEscape, escapedHexUnit_isHexUnit hdigits, bind,
          Option.bind_some, hhigh, hdigits.drop_four, escapedHexUnit_isHexUnit hdigits', hlow,
          hvalue, ofNat_toNat, pure]
        rfl
      have hdrop : ('u' :: (digits ++ ('\\' :: 'u' :: (digits' ++ (cs ++ post))))).drop 11 =
          cs ++ post := by
        obtain ⟨a, b, c, d, rfl, -⟩ := hdigits
        obtain ⟨a', b', c', d', rfl, -⟩ := hdigits'
        rfl
      simp only [List.cons_append, List.append_assoc]
      rw [decodeEscapesFrom_escape hescape, hdrop, ih]

/-- Text that does not go on with the second half of a pair. -/
def NoLowEscape (rest : List Char) : Prop :=
  ∀ more u, rest = '\\' :: 'u' :: more → escapedHexUnit more = some u → isLow u = false

theorem noLowEscape_spelling {text cs : List Char} (h : Spelling text cs) (hne : text ≠ [])
    (post : List Char) : NoLowEscape (cs ++ post) := by
  intro more w heq hw
  cases h with
  | nil => exact absurd rfl hne
  | literal hd _ =>
    rw [List.cons_append, List.cons.injEq] at heq
    exact absurd heq.1 hd.2.1
  | escape hd _ =>
    simp only [List.cons_append, List.cons.injEq] at heq
    obtain ⟨-, rfl, -⟩ := heq
    simp at hd
  | @unit d u digits _ _ hchar hdigits _ =>
    simp only [List.cons_append, List.append_assoc, List.cons.injEq, true_and] at heq
    rw [← heq, escapedHexUnit_isHexUnit hdigits, Option.some.injEq] at hw
    obtain ⟨-, -, hlow, hone⟩ | ⟨_, _, -, -, -, -, htwo⟩ := encodeChar_cases d
    · rw [hchar, List.cons.injEq] at hone
      rw [← hw, hone.1, hlow]
    · rw [hchar] at htwo
      simp at htwo
  | @pair d high low digits digits' _ _ hchar hdigits _ _ =>
    simp only [List.cons_append, List.append_assoc, List.cons.injEq, true_and] at heq
    rw [← heq, escapedHexUnit_isHexUnit hdigits, Option.some.injEq] at hw
    obtain ⟨-, -, -, hone⟩ | ⟨u, v, -, hhigh, -, -, htwo⟩ := encodeChar_cases d
    · rw [hchar] at hone
      simp at hone
    · rw [hchar] at htwo
      simp only [List.cons.injEq, and_true] at htwo
      rw [← hw, htwo.1, isLow_of_isHigh hhigh]

/-- The content before is read by itself. -/
theorem decodeEscapes_content {pre rest : List Char} (h : JsonContent pre)
    (hrest : NoLowEscape rest) :
    ∃ read, decodeEscapesFrom 0 (pre ++ rest) = read ++ decodeEscapesFrom 0 rest := by
  induction hn : pre.length using Nat.strong_induction_on generalizing pre with
  | h n ih =>
    cases h with
    | nil => exact ⟨[], rfl⟩
    | @literal d cs hd hcs =>
      obtain ⟨read, hread⟩ := ih cs.length (by rw [← hn]; simp) hcs rfl
      exact ⟨d :: read, by rw [List.cons_append,
        decodeEscapesFrom_none (jsonEscape_none hd.2.1 _), hread]; rfl⟩
    | @escape d cs hd hcs =>
      obtain ⟨read, hread⟩ := ih cs.length (by rw [← hn]; simp only [List.length_cons]; omega) hcs rfl
      by_cases hsimple : d = '/' ∨ d = '\\' ∨ d = '"'
      · have hescape : jsonEscape ('\\' :: d :: (cs ++ rest)) = some (d, 1 + 1) := by
          obtain rfl | rfl | rfl := hsimple <;> rfl
        refine ⟨d :: read, ?_⟩
        rw [List.cons_append, List.cons_append, decodeEscapesFrom_escape hescape]
        exact congrArg (d :: ·) hread
      · have hescape : jsonEscape ('\\' :: d :: (cs ++ rest)) = none := by
          simp only [List.mem_cons, List.not_mem_nil, or_false] at hd
          rcases hd with rfl | rfl | rfl | rfl | rfl | rfl | rfl | rfl <;> first | rfl | simp at hsimple
        have hne : d ≠ '\\' := fun h => hsimple (.inr (.inl h))
        refine ⟨'\\' :: d :: read, ?_⟩
        rw [List.cons_append, List.cons_append, decodeEscapesFrom_none hescape,
          decodeEscapesFrom_none (jsonEscape_none hne _), hread]
        rfl
    | @unit u digits cs hdigits hcs =>
      have hlen : digits.length = 4 := by
        obtain ⟨a, b, c, d, rfl, -⟩ := hdigits
        rfl
      have hshorter : cs.length < n := by
        rw [← hn]
        simp
        omega
      obtain ⟨read, hread⟩ := ih cs.length hshorter hcs rfl
      have hdrop : ('u' :: (digits ++ (cs ++ rest))).drop 5 = cs ++ rest := by
        rw [List.drop_succ_cons, hdigits.drop_four]
      simp only [List.cons_append, List.append_assoc]
      cases hescape : jsonEscape ('\\' :: 'u' :: (digits ++ (cs ++ rest))) with
      | none =>
        -- a half of a pair alone stays as it is written
        refine ⟨'\\' :: 'u' :: (digits ++ read), ?_⟩
        have hplain : ∀ c ∈ 'u' :: digits, c ≠ '\\' := by
          simp only [List.mem_cons, forall_eq_or_imp]
          exact ⟨by decide, hdigits.no_backslash⟩
        have hliteral := decodeEscapesFrom_literals hplain (cs ++ rest)
        rw [decodeEscapesFrom_none hescape]
        rw [List.cons_append] at hliteral
        rw [hliteral, hread]
        simp
      | some found =>
        obtain ⟨d, consumed⟩ := found
        have hunicode := hescape
        simp only [jsonEscape, unicodeEscape, escapedHexUnit_isHexUnit hdigits, bind,
          Option.bind_some, hdigits.drop_four] at hunicode
        split at hunicode
        · next hhigh =>
          split at hunicode
          · next more hmore =>
            simp only [Option.bind_eq_some_iff] at hunicode
            obtain ⟨second, hsecond, hunicode⟩ := hunicode
            split at hunicode
            · next hlow =>
              simp only [pure, Option.some.injEq, Prod.mk.injEq] at hunicode
              obtain ⟨rfl, rfl⟩ := hunicode
              cases hcs with
              | nil =>
                rw [List.nil_append] at hmore
                rw [hrest more second hmore hsecond] at hlow
                cases hlow
              | literal hd _ =>
                rw [List.cons_append, List.cons.injEq] at hmore
                exact absurd hmore.1 hd.2.1
              | escape hd _ =>
                simp only [List.cons_append, List.cons.injEq] at hmore
                obtain ⟨-, rfl, -⟩ := hmore
                simp at hd
              | @unit u' digits' cs' hdigits' hcs' =>
                obtain ⟨read', hread'⟩ := ih cs'.length (by
                  simp only [List.length_cons, List.length_append] at hshorter
                  omega) hcs' rfl
                have hrest' : ('u' :: (digits ++ ('\\' :: 'u' :: (digits' ++ cs') ++ rest))).drop
                    11 = cs' ++ rest := by
                  obtain ⟨a, b, c, d, rfl, -⟩ := hdigits
                  obtain ⟨a', b', c', d', rfl, -⟩ := hdigits'
                  rfl
                exact ⟨_ :: read', by
                  rw [decodeEscapesFrom_escape (n := 11) hescape, hrest', hread']; rfl⟩
            · cases hunicode
          · cases hunicode
        · split at hunicode
          · cases hunicode
          · simp only [pure, Option.some.injEq, Prod.mk.injEq] at hunicode
            obtain ⟨rfl, rfl⟩ := hunicode
            exact ⟨_ :: read, by
              rw [decodeEscapesFrom_escape (n := 5) hescape, hdrop, hread]; rfl⟩

end Spellings

section NormalForms

variable {dropIgnorables foldScripts : Bool}

theorem units_rewriteUnit (u i j : Nat) : View.units (rewriteUnit dropIgnorables foldScripts u i) =
    View.units (rewriteUnit dropIgnorables foldScripts u j) := by
  unfold rewriteUnit
  split <;> rfl

theorem units_append (view view' : View) : View.units (view ++ view') = view.units ++ view'.units :=
  List.map_append

/-- A reading of two texts is the one and then the other. -/
theorem units_rewriteFrom_append (cs ds : List Char) (i j k : Nat) :
    View.units (rewriteFrom dropIgnorables foldScripts (encodeChars (cs ++ ds)) i) =
      View.units (rewriteFrom dropIgnorables foldScripts (encodeChars cs) j) ++
        View.units (rewriteFrom dropIgnorables foldScripts (encodeChars ds) k) := by
  have hbase : ∀ (cs : List Char) (i k : Nat),
      View.units (rewriteFrom dropIgnorables foldScripts (encodeChars cs) i) =
        View.units (rewriteFrom dropIgnorables foldScripts (encodeChars cs) k) := by
    intro cs
    induction cs with
    | nil => exact fun _ _ => rfl
    | cons c cs ih =>
      intro i k
      rw [encodeChars_cons]
      obtain ⟨-, hhigh, -, hone⟩ | ⟨high, low, -, hhigh, hlow, -, htwo⟩ := encodeChar_cases c
      · rw [hone, List.singleton_append, rewriteFrom_single hhigh, rewriteFrom_single hhigh,
          units_append, units_append, units_rewriteUnit _ i k, ih (i + 1) (k + 1)]
      · rw [htwo, List.cons_append, List.singleton_append, rewriteFrom_pair hhigh hlow,
          rewriteFrom_pair hhigh hlow, units_append, units_append, ih (i + 2) (k + 2)]
        congr 1
        split <;> rfl
  induction cs generalizing i j with
  | nil => exact hbase ds i k
  | cons c cs ih =>
    rw [List.cons_append, encodeChars_cons, encodeChars_cons]
    obtain ⟨-, hhigh, -, hone⟩ | ⟨high, low, -, hhigh, hlow, -, htwo⟩ := encodeChar_cases c
    · rw [hone, List.singleton_append, List.singleton_append, rewriteFrom_single hhigh,
        rewriteFrom_single hhigh, units_append, units_append, units_rewriteUnit _ i j,
        ih (i + 1) (j + 1), List.append_assoc]
    · rw [htwo, List.cons_append, List.singleton_append, List.cons_append, List.singleton_append,
        rewriteFrom_pair hhigh hlow, rewriteFrom_pair hhigh hlow, units_append, units_append,
        ih (i + 2) (j + 2), ← List.append_assoc]
      congr 2
      split <;> rfl

def normalUnits (t : String) : List Nat := (normalize (encode t)).units

theorem normalUnits_append (s t : String) : normalUnits (s ++ t) = normalUnits s ++ normalUnits t := by
  simp only [normalUnits, normalize, rewrite, encode, String.toList_append]
  exact units_rewriteFrom_append _ _ 0 0 0

/-- What a text contains, its normal form contains in normal form. -/
theorem normalizedContains_append (pre c post : String) :
    normalizedContains (pre ++ c ++ post) (normalUnits c) = true := by
  rw [normalizedContains, Matching.contains_iff]
  show normalUnits c <:+: normalUnits (pre ++ c ++ post)
  rw [normalUnits_append, normalUnits_append]
  exact List.infix_append _ _ _

/-- A credential is looked for in the input and in the input with its JSON escapes undone. -/
theorem containsCredential_of {input text c : String}
    (htext : text = input ∨ text = decodeJsonEscapes input)
    (h : normalizedContains text (normalUnits c) = true ∨
      encodedContains (byteCodes text) (normalUnits c) = true) :
    containsCredential input c = true := by
  simp only [containsCredential]
  split
  · rfl
  · simp only [normalUnits] at h
    simp only [Bool.or_eq_true]
    obtain rfl | rfl := htext
    · exact h.elim (fun h => .inl (.inl (.inl h))) fun h => .inl (.inl (.inr h))
    · exact h.elim (fun h => .inl (.inr h)) .inr

end NormalForms

section Found

variable {c pre post : String}

theorem containsCredential_clear (c pre post : String) :
    containsCredential (pre ++ c ++ post) c = true :=
  containsCredential_of (.inl rfl) (.inl (normalizedContains_append pre c post))

/-- A spelling inside any JSON string is recognized. -/
theorem containsCredential_json {cs pre : List Char} (hspelling : Spelling c.toList cs)
    (hpre : JsonContent pre) (post : List Char) :
    containsCredential (String.ofList (pre ++ cs ++ post)) c = true := by
  by_cases hne : c.toList = []
  · have hc : c = "" := by rw [← String.ofList_toList (s := c), hne, String.ofList_nil]
    subst hc
    rfl
  · obtain ⟨read, hread⟩ := decodeEscapes_content hpre (noLowEscape_spelling hspelling hne post)
    refine containsCredential_of (.inr rfl) (.inl ?_)
    have hdecoded : decodeJsonEscapes (String.ofList (pre ++ cs ++ post)) =
        String.ofList read ++ c ++ String.ofList (decodeEscapesFrom 0 post) := by
      rw [decodeJsonEscapes, String.toList_ofList, List.append_assoc, hread,
        decodeEscapes_spelling hspelling post, ← List.append_assoc, String.ofList_append,
        String.ofList_append, String.ofList_toList]
    rw [hdecoded]
    exact normalizedContains_append _ c _

end Found

end Inspect
