import IDoris.Redact.Lexemes

/-!
# Brackets of a text

The closed brackets around names that occur in a text are the ones it is cut into, and the
ones the program lists.
-/
namespace Redact

section Words

variable {xs ys rest text : List Char} {body : List Char}

/-- All of it is a name. -/
def IsName (body : List Char) : Prop := ∀ c ∈ body, isWord c = true

/-- A name in brackets. -/
def enclose (body : List Char) : List Char := '[' :: body ++ [']']

theorem not_word_open : isWord '[' = false := by decide

theorem takeWhile_name (h : IsName xs) (hrest : ∀ c, rest.head? = some c → isWord c = false) :
    (xs ++ rest).takeWhile isWord = xs := by
  rw [List.takeWhile_append_of_pos h]
  cases rest with
  | nil => simp
  | cons c cs => simp [hrest c rfl]

/-- A name that ends with a bracket in front of a text is the name in front of it. -/
theorem name_prefix (hxs : IsName xs) (hys : IsName ys)
    (hrest : ∀ c, rest.head? = some c → isWord c = false) (h : xs ++ [']'] <+: ys ++ rest) :
    xs = ys ∧ rest.head? = some ']' := by
  obtain ⟨more, hmore⟩ := h
  have hleft : (xs ++ ']' :: more).takeWhile isWord = xs :=
    takeWhile_name hxs fun c hc => by
      cases (Option.some.inj hc : ']' = c)
      exact not_word_close
  have hright := takeWhile_name hys hrest
  rw [← hmore, List.append_assoc, List.singleton_append, hleft] at hright
  subst hright
  rw [List.append_assoc, List.singleton_append, List.append_cancel_left_eq] at hmore
  exact ⟨rfl, by rw [← hmore]; rfl⟩

/-- A bracket that opens stands behind a text that has none. -/
theorem infix_of_append (hxs : '[' ∉ xs) (h : enclose body <:+: xs ++ text) :
    enclose body <:+: text := by
  induction xs with
  | nil => exact h
  | cons c cs ih =>
    rw [List.cons_append, List.infix_cons_iff] at h
    obtain hfront | hrest := h
    · rw [enclose, List.cons_append, List.cons_prefix_cons] at hfront
      exact absurd (hfront.1 ▸ List.mem_cons_self) hxs
    · exact ih (fun hmem => hxs (List.mem_cons_of_mem c hmem)) hrest

theorem IsName.not_mem_open (h : IsName body) : '[' ∉ body := by
  intro hmem
  have hword := h '[' hmem
  rw [not_word_open] at hword
  cases hword

end Words

section Lexemes

variable {ls : List Lexeme} {body : List Char}

theorem spell_cons (l : Lexeme) (ls : List Lexeme) : spell (l :: ls) = l.spelling ++ spell ls := by
  rw [spell, List.flatMap_cons]
  rfl

theorem spell_append (ls ls' : List Lexeme) : spell (ls ++ ls') = spell ls ++ spell ls' := by
  rw [spell, List.flatMap_append]
  rfl

theorem infix_of_mem (h : Lexeme.bracket body ∈ ls) : enclose body <:+: spell ls := by
  obtain ⟨before, after, rfl⟩ := List.append_of_mem h
  rw [spell_append, spell_cons]
  exact ⟨spell before, spell after, List.append_assoc _ _ _⟩

/-- A name in brackets occurs in a text exactly where the text is cut into it. -/
theorem infix_spell_iff (h : Lexed ls) (hbody : IsName body) :
    enclose body <:+: spell ls ↔ .bracket body ∈ ls := by
  refine ⟨fun hinside => ?_, infix_of_mem⟩
  induction h with
  | nil => simp [spell, enclose] at hinside
  | @char c ls hc _ ih =>
    rw [spell_cons] at hinside
    have hopen : '[' ∉ (Lexeme.char c).spelling := by simpa [Lexeme.spelling] using Ne.symm hc
    exact List.mem_cons_of_mem _ (ih (infix_of_append hopen hinside))
  | @opened name ls hname hhead _ ih =>
    rw [spell_cons, Lexeme.spelling, List.cons_append, List.infix_cons_iff] at hinside
    obtain hfront | hrest := hinside
    · rw [enclose, List.cons_append, List.cons_prefix_cons] at hfront
      obtain ⟨-, hclose⟩ := name_prefix hbody hname (fun c hc => (hhead c hc).1) hfront.2
      exact absurd rfl (hhead _ hclose).2
    · exact List.mem_cons_of_mem _ (ih (infix_of_append (IsName.not_mem_open hname) hrest))
  | @bracket name ls hname _ ih =>
    rw [spell_cons, Lexeme.spelling, List.cons_append, List.cons_append, List.append_assoc,
      List.singleton_append, List.infix_cons_iff] at hinside
    obtain hfront | hrest := hinside
    · rw [enclose, List.cons_append, List.cons_prefix_cons] at hfront
      obtain ⟨rfl, -⟩ := name_prefix hbody hname (fun c hc => by
        cases (Option.some.inj hc : ']' = c)
        exact not_word_close) hfront.2
      exact List.mem_cons_self
    · have hrest := infix_of_append (IsName.not_mem_open hname) hrest
      exact List.mem_cons_of_mem _ (ih (infix_of_append (show '[' ∉ [']'] by decide) hrest))

/-- The names in brackets a text is cut into. -/
def Lexeme.enclosed : Lexeme → Option (List Char)
  | .bracket body => some (enclose body)
  | _ => none

theorem tokensFrom_name {t : Token} (h : IsName body) (rest : List Char) :
    ∃ t' : Token, t'.spelling = t.spelling ++ body ∧
      placeholderTokensFrom (some t) (body ++ rest) = placeholderTokensFrom (some t') rest := by
  induction body generalizing t with
  | nil => exact ⟨t, by simp, rfl⟩
  | cons c cs ih =>
    have hc : isWord c = true := h c List.mem_cons_self
    have hopen : c ≠ '[' := fun heq => IsName.not_mem_open h (heq ▸ List.mem_cons_self)
    have hclose : c ≠ ']' := by
      rintro rfl
      rw [not_word_close] at hc
      cases hc
    obtain ⟨t', hspelling, htokens⟩ := ih
      (t := { t.advance c with spelling := (t.advance c).spelling ++ [c] })
      (fun d hd => h d (List.mem_cons_of_mem c hd))
    refine ⟨t', ?_, ?_⟩
    · rw [hspelling, Token.advance_spelling, List.append_assoc, List.singleton_append]
    · rw [List.cons_append, placeholderTokensFrom, if_neg hopen]
      simp only [if_neg hclose, hc, if_true, htokens]

/-- An open bracket that nothing closes is forgotten. -/
theorem tokensFrom_drop {t : Token} {rest : List Char}
    (h : ∀ c, rest.head? = some c → isWord c = false ∧ c ≠ ']') :
    placeholderTokensFrom (some t) rest = placeholderTokensFrom none rest := by
  cases rest with
  | nil => rfl
  | cons c cs =>
    obtain ⟨hword, hclose⟩ := h c rfl
    simp only [placeholderTokensFrom, if_neg hclose, hword, Bool.false_eq_true, if_false]

theorem placeholderTokens_spell (h : Lexed ls) :
    placeholderTokens (spell ls) = ls.filterMap Lexeme.enclosed := by
  unfold placeholderTokens
  induction h with
  | nil => rfl
  | @char c ls hc _ ih =>
    rw [spell_cons, List.filterMap_cons_none rfl, ← ih]
    simp only [Lexeme.spelling, List.singleton_append, placeholderTokensFrom, if_neg hc]
  | @opened name ls hname hhead _ ih =>
    obtain ⟨t, -, htokens⟩ := tokensFrom_name (t := .new) hname (spell ls)
    rw [spell_cons, List.filterMap_cons_none rfl, ← ih, Lexeme.spelling, List.cons_append,
      placeholderTokensFrom, if_pos rfl, htokens, tokensFrom_drop hhead]
  | @bracket name ls hname _ ih =>
    obtain ⟨t, hspelling, htokens⟩ :=
      tokensFrom_name (t := .new) hname (']' :: spell ls)
    have hclose : ¬(']' : Char) = '[' := by decide
    have henclosed : (Lexeme.bracket name).enclosed = some (enclose name) := rfl
    rw [spell_cons, List.filterMap_cons_some henclosed, ← ih, Lexeme.spelling,
      List.cons_append, List.cons_append, List.append_assoc, List.singleton_append, placeholderTokensFrom,
      if_pos rfl, htokens, placeholderTokensFrom, if_neg hclose]
    simp only [if_true, hspelling]
    rfl

/-- The program lists the names in brackets that occur in a text. -/
theorem mem_placeholderTokens {text : List Char} (hbody : IsName body) :
    enclose body ∈ placeholderTokens text ↔ enclose body <:+: text := by
  obtain ⟨ls, hls, rfl⟩ := exists_lexed text
  rw [placeholderTokens_spell hls, infix_spell_iff hls hbody, List.mem_filterMap]
  constructor
  · rintro ⟨l, hl, heq⟩
    cases l with
    | bracket name =>
      have hname : name = body := by
        have hsame := Option.some.inj heq
        simpa [enclose] using hsame
      exact hname ▸ hl
    | char c => cases heq
    | opened name => cases heq
  · exact fun hmem => ⟨_, hmem, rfl⟩

end Lexemes

end Redact
