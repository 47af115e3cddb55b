import IDoris.Redact.Restore

/-!
# Reading a name

What the scanner knows of an open bracket after the characters of a name, however many of
them it holds.
-/
namespace Redact

section Bytes

theorem byteLength_append (xs ys : List Char) :
    byteLength (xs ++ ys) = byteLength xs + byteLength ys := by
  rw [byteLength, List.map_append, List.sum_append]
  rfl

theorem byteLength_pos {xs : List Char} (h : xs ≠ []) : 0 < byteLength xs := by
  cases xs with
  | nil => exact absurd rfl h
  | cons c cs =>
    have := Char.utf8Size_pos c
    simp only [byteLength, List.map_cons, List.sum_cons]
    omega

theorem byteLength_open (body : List Char) : byteLength ('[' :: body) = 1 + byteLength body := by
  rw [byteLength, List.map_cons, List.sum_cons]
  rfl

theorem normalize_append (xs ys : List Char) :
    normalize (xs ++ ys) = normalize xs ++ normalize ys := by
  simp only [normalize, List.map_append, List.filter_append]

end Bytes

section Reading

variable {limit : Nat} {body kind digits : List Char} {t : Token} {c : Char}

/-- The token after another character. -/
def Token.take (limit : Nat) (t : Token) (c : Char) : Token :=
  let t := t.advance c
  if !t.overflow && byteLength t.spelling + c.utf8Size < limit then
    { t with spelling := t.spelling ++ [c] }
  else { t with spelling := [], overflow := true }

def Token.read (limit : Nat) (body : List Char) : Token := body.foldl (Token.take limit) .new

theorem Token.read_concat (limit : Nat) (body : List Char) (c : Char) :
    Token.read limit (body ++ [c]) = (Token.read limit body).take limit c := by
  rw [Token.read, List.foldl_append]
  rfl

@[simp] theorem Token.advance_spelling (t : Token) (c : Char) :
    (t.advance c).spelling = t.spelling := by
  unfold Token.advance
  simp only
  split
  · rfl
  · split <;> rfl

@[simp] theorem Token.advance_overflow (t : Token) (c : Char) :
    (t.advance c).overflow = t.overflow := by
  unfold Token.advance
  simp only
  split
  · rfl
  · split <;> rfl

/-- Only what fits is held. -/
theorem Token.read_spelling (hlimit : 1 < limit) (body : List Char) :
    (Token.read limit body).overflow = decide (limit ≤ 1 + byteLength body) ∧
      (Token.read limit body).spelling =
        if limit ≤ 1 + byteLength body then [] else '[' :: body := by
  induction body using List.reverseRecOn with
  | nil =>
    have hnot : ¬limit ≤ 1 + byteLength [] := by
      simp only [byteLength, List.map_nil, List.sum_nil]
      omega
    rw [if_neg hnot, decide_eq_false hnot]
    exact ⟨rfl, rfl⟩
  | append_singleton body c ih =>
    obtain ⟨hoverflow, hspelling⟩ := ih
    have hlen : byteLength (body ++ [c]) = byteLength body + c.utf8Size := by
      rw [byteLength_append]
      simp [byteLength]
    rw [Token.read_concat, Token.take]
    simp only [Token.advance_overflow, Token.advance_spelling, hoverflow, hspelling, hlen]
    by_cases hheld : limit ≤ 1 + byteLength body
    · rw [if_neg (by simp [hheld])]
      have hlong : limit ≤ 1 + (byteLength body + c.utf8Size) := by omega
      simp [hlong]
    · rw [if_neg hheld, byteLength_open]
      by_cases hfits : limit ≤ 1 + (byteLength body + c.utf8Size)
      · rw [if_neg (by simp; omega)]
        simp [hfits]
      · rw [if_pos (by simp; omega)]
        simp [hfits, hheld]

theorem Token.read_uppercase (limit : Nat) (body : List Char) :
    (Token.read limit body).uppercase = true ↔ NoLower body := by
  induction body using List.reverseRecOn with
  | nil => simp [Token.read, Token.new, NoLower]
  | append_singleton body c ih =>
    have hstep : ((Token.read limit body).take limit c).uppercase =
        ((Token.read limit body).uppercase && !(foldWidth c).isLower) := by
      simp only [Token.take]
      split
      · simp only [Token.advance]
        split
        · rfl
        · split <;> rfl
      · simp only [Token.advance]
        split
        · rfl
        · split <;> rfl
    rw [Token.read_concat, hstep, Bool.and_eq_true, ih, Bool.not_eq_true', NoLower, NoLower]
    simp only [List.mem_append, List.mem_singleton]
    constructor
    · rintro ⟨hall, hc⟩ d (hd | rfl)
      · exact hall d hd
      · exact hc
    · exact fun hall => ⟨fun d hd => hall d (.inl hd), hall c (.inr rfl)⟩

/-- A text split at an underscore, by its last character. -/
theorem split_concat {front kind digits : List Char} {b : Char} :
    front ++ [b] = kind ++ '_' :: digits ↔
      (b = '_' ∧ digits = [] ∧ kind = front) ∨
        ∃ digits', digits = digits' ++ [b] ∧ front = kind ++ '_' :: digits' := by
  constructor
  · intro h
    obtain rfl | ⟨digits', d, rfl⟩ := List.eq_nil_or_concat digits
    · obtain ⟨rfl, hb⟩ := List.append_inj' h rfl
      exact .inl ⟨by simpa using hb, rfl, rfl⟩
    · rw [List.concat_eq_append, ← List.cons_append, ← List.append_assoc] at h
      obtain ⟨rfl, hb⟩ := List.append_inj' h rfl
      obtain rfl : b = d := by simpa using hb
      exact .inr ⟨digits', by rw [List.concat_eq_append], rfl⟩
  · rintro (⟨rfl, rfl, rfl⟩ | ⟨digits', rfl, rfl⟩)
    · rfl
    · simp

/-- What the flags of a token say of the name it has read. -/
structure Knows (limit : Nat) (body : List Char) (t : Token) : Prop where
  indexed : t.indexed = true ↔ ∃ kind digits, body.map foldWidth = kind ++ '_' :: digits ∧
    kind ≠ [] ∧ ∀ d ∈ digits, d.isDigit = true
  digits : t.digits = true ↔ ∃ kind digits, HasIndex body kind digits
  reserved : t.reserved = true ↔ ∃ kind rest, body.map foldWidth = kind ++ '_' :: rest ∧
    '_' ∉ rest ∧ reservedKind kind = true ∧ 1 + byteLength (body.take kind.length) < limit

theorem Knows.step (hlimit : 1 < limit) (h : Knows limit body (Token.read limit body)) (c : Char) :
    Knows limit (body ++ [c]) ((Token.read limit body).advance c) := by
  obtain ⟨hoverflow, hspelling⟩ := Token.read_spelling hlimit body
  have htake : ∀ {kind rest : List Char}, body.map foldWidth = kind ++ '_' :: rest →
      (body ++ [c]).take kind.length = body.take kind.length := by
    intro kind rest hsplit
    have hlen := congrArg List.length hsplit
    simp only [List.length_map, List.length_append, List.length_cons] at hlen
    rw [List.take_append_of_le_length (by omega)]
  have hbodyLength : (body.map foldWidth).length = body.length := List.length_map _
  by_cases hunder : foldWidth c = '_'
  · have hdigit : ¬('_' : Char).isDigit = true := by decide
    simp only [Token.advance, hunder, if_true]
    refine ⟨?_, ?_, ?_⟩
    · simp only [List.map_append, List.map_cons, List.map_nil, hunder, split_concat,
        Bool.or_eq_true, decide_eq_true_eq, hoverflow, hspelling]
      constructor
      · intro hlong
        refine ⟨_, [], .inl ⟨trivial, rfl, rfl⟩, ?_, by simp⟩
        rintro hnil
        have hbody : body = [] := by simpa using hnil
        subst hbody
        simp only [byteLength, List.map_nil, List.sum_nil, Nat.add_zero] at hlong
        rw [if_neg (by omega)] at hlong
        have : byteLength ['['] = 1 := by decide
        simp only [byteLength] at this
        omega
      · rintro ⟨kind, digits, ⟨-, rfl, rfl⟩ | ⟨digits', rfl, -⟩, hne, hall⟩
        · by_cases hheld : limit ≤ 1 + byteLength body
          · exact .inl hheld
          · have := byteLength_pos (show body ≠ [] by simpa using hne)
            rw [if_neg hheld, byteLength_open]
            exact .inr (by omega)
        · exact absurd (hall '_' (by simp)) hdigit
    · simp only [HasIndex, List.map_append, List.map_cons, List.map_nil, hunder, split_concat,
        Bool.false_eq_true, false_iff, not_exists, not_and]
      rintro kind digits (⟨-, rfl, -⟩ | ⟨digits', rfl, -⟩) - hne
      · exact absurd rfl hne
      · exact fun hall => hdigit (hall '_' (by simp))
    · simp only [List.map_append, List.map_cons, List.map_nil, hunder, split_concat,
        Bool.and_eq_true, Bool.not_eq_true', hoverflow, hspelling, decide_eq_false_iff_not]
      constructor
      · rintro ⟨hheld, hreserved⟩
        rw [if_neg hheld, List.drop_succ_cons, List.drop_zero] at hreserved
        refine ⟨_, [], .inl ⟨trivial, rfl, rfl⟩, by simp, hreserved, ?_⟩
        rw [hbodyLength, List.take_left]
        omega
      · rintro ⟨kind, rest, ⟨-, rfl, rfl⟩ | ⟨rest', rfl, -⟩, hnot, hreserved, hlen⟩
        · rw [hbodyLength, List.take_left] at hlen
          refine ⟨by omega, ?_⟩
          rw [if_neg (by omega), List.drop_succ_cons, List.drop_zero]
          exact hreserved
        · exact absurd (by simp) hnot
  · have hreserved : (Token.read limit body).reserved = true ↔ ∃ kind rest,
        (body ++ [c]).map foldWidth = kind ++ '_' :: rest ∧ '_' ∉ rest ∧
          reservedKind kind = true ∧ 1 + byteLength ((body ++ [c]).take kind.length) < limit := by
      rw [h.reserved]
      simp only [List.map_append, List.map_cons, List.map_nil, split_concat, hunder, false_and,
        false_or]
      constructor
      · rintro ⟨kind, rest, hsplit, hnot, hreserved, hlen⟩
        exact ⟨kind, _, ⟨rest, rfl, hsplit⟩, by simp [hnot, Ne.symm hunder], hreserved,
          by rwa [htake hsplit]⟩
      · rintro ⟨kind, -, ⟨rest, rfl, hsplit⟩, hnot, hreserved, hlen⟩
        exact ⟨kind, rest, hsplit, fun hmem => hnot (by simp [hmem]), hreserved,
          by rwa [htake hsplit] at hlen⟩
    have hsplits : ∀ (P : List Char → Prop), (∃ kind digits,
        (body ++ [c]).map foldWidth = kind ++ '_' :: digits ∧ kind ≠ [] ∧ P digits) ↔
          ∃ kind digits, body.map foldWidth = kind ++ '_' :: digits ∧ kind ≠ [] ∧
            P (digits ++ [foldWidth c]) := by
      intro P
      simp only [List.map_append, List.map_cons, List.map_nil, split_concat, hunder, false_and,
        false_or]
      constructor
      · rintro ⟨kind, -, ⟨digits, rfl, hsplit⟩, hne, hP⟩
        exact ⟨kind, digits, hsplit, hne, hP⟩
      · rintro ⟨kind, digits, hsplit, hne, hP⟩
        exact ⟨kind, _, ⟨digits, rfl, hsplit⟩, hne, hP⟩
    simp only [Token.advance, hunder, if_false]
    split
    · next hdigit =>
      refine ⟨?_, ?_, hreserved⟩
      · rw [h.indexed, hsplits fun digits => ∀ d ∈ digits, d.isDigit = true]
        simp only [List.forall_mem_append, List.forall_mem_singleton, hdigit, and_true]
      · rw [h.indexed]
        simp only [HasIndex]
        rw [hsplits fun digits => digits ≠ [] ∧ ∀ d ∈ digits, d.isDigit = true]
        simp only [List.forall_mem_append, List.forall_mem_singleton, hdigit, and_true, ne_eq,
          List.append_eq_nil_iff, List.cons_ne_self, and_false, not_false_eq_true, true_and]
    · next hdigit =>
      refine ⟨?_, ?_, hreserved⟩
      · rw [hsplits fun digits => ∀ d ∈ digits, d.isDigit = true, Bool.false_eq_true, false_iff]
        rintro ⟨_, digits, -, -, hall⟩
        exact hdigit (hall _ (by simp))
      · simp only [HasIndex]
        rw [hsplits fun digits => digits ≠ [] ∧ ∀ d ∈ digits, d.isDigit = true,
          Bool.false_eq_true, false_iff]
        rintro ⟨_, digits, -, -, -, hall⟩
        exact hdigit (hall _ (by simp))

theorem knows_read (hlimit : 1 < limit) (body : List Char) :
    Knows limit body (Token.read limit body) := by
  induction body using List.reverseRecOn with
  | nil => exact ⟨by simp [Token.read, Token.new], by simp [Token.read, Token.new, HasIndex],
      by simp [Token.read, Token.new]⟩
  | append_singleton body c ih =>
    have hstep := ih.step hlimit c
    rw [Token.read_concat, Token.take]
    split
    · exact ⟨hstep.indexed, hstep.digits, hstep.reserved⟩
    · exact ⟨hstep.indexed, hstep.digits, hstep.reserved⟩

/-- A name is split from its index at one place. -/
theorem HasIndex.unique {rest kind' : List Char} (h : HasIndex body kind digits)
    (h' : body.map foldWidth = kind' ++ '_' :: rest) (hnot : '_' ∉ rest) : kind' = kind := by
  have hnot' : '_' ∉ digits := fun hmem => absurd (h.2.2.2 '_' hmem) (by decide)
  have heq := h.1.symm.trans h'
  obtain ⟨zs, hkind, hrest⟩ | ⟨zs, hkind, hrest⟩ := List.append_eq_append_iff.mp heq
  · cases zs with
    | nil => simpa using hkind
    | cons z zs =>
      rw [List.cons_append, List.cons.injEq] at hrest
      exact absurd (by rw [hrest.2]; simp) hnot'
  · cases zs with
    | nil => simpa using hkind.symm
    | cons z zs =>
      rw [List.cons_append, List.cons.injEq] at hrest
      exact absurd (by rw [hrest.2]; simp) hnot

/-- The token is taken for a placeholder exactly when it has the shape and, written with
lower-case letters, its name was held whole. -/
theorem placeholder_read_iff (hlimit : 1 < limit) (body : List Char) :
    (Token.read limit body).placeholder = true ↔ Shaped body ∧ ¬Overlong limit body := by
  have hknows := knows_read hlimit body
  rw [Token.placeholder, Bool.and_eq_true, Bool.or_eq_true, hknows.digits, Token.read_uppercase,
    hknows.reserved]
  constructor
  · rintro ⟨⟨kind, digits, hindex⟩, hupper | ⟨kind', rest, hsplit, hnot, hreserved, hlen⟩⟩
    · exact ⟨⟨kind, digits, hindex, .inl hupper⟩, fun ⟨_, _, _, hlower, _⟩ => hlower hupper⟩
    · obtain rfl := hindex.unique hsplit hnot
      refine ⟨⟨kind', digits, hindex, .inr hreserved⟩, fun ⟨kind, digits', hindex', _, _, hlong⟩ => ?_⟩
      have hnot' : '_' ∉ digits' := fun hmem => absurd (hindex'.2.2.2 '_' hmem) (by decide)
      obtain rfl := hindex.unique hindex'.1 hnot'
      omega
  · rintro ⟨⟨kind, digits, hindex, hkind⟩, hshort⟩
    refine ⟨⟨kind, digits, hindex⟩, ?_⟩
    by_cases hupper : NoLower body
    · exact .inl hupper
    · obtain hupper' | hreserved := hkind
      · exact absurd hupper' hupper
      · refine .inr ⟨kind, digits, hindex.1, fun hmem => absurd (hindex.2.2.2 '_' hmem) (by decide),
          hreserved, ?_⟩
        by_contra hlong
        exact hshort ⟨kind, digits, hindex, hupper, hreserved, by omega⟩

end Reading

end Redact
