import IDoris.Redact.Brackets
import IDoris.Redact.Mint

/-!
# What restoring lets through

A restored text is cut at the placeholders. Between them nothing is changed, and no name of a
placeholder shows up there.
-/
namespace Redact

open Inspect (InspectResponse InspectCtx Entropy)

/-- A text in front of entries of a table, each with the text behind it. -/
def assemble (side : List Char × List Char → List Char) (first : List Char)
    (pieces : List ((List Char × List Char) × List Char)) : List Char :=
  first ++ pieces.flatMap fun p => side p.1 ++ p.2

/-- The text is the output with the placeholders replaced that occur in it. -/
structure Replaces (r : Redaction) (output text first : List Char)
    (pieces : List ((List Char × List Char) × List Char)) : Prop where
  output : output = assemble Prod.fst first pieces
  text : text = assemble Prod.snd first pieces
  entries : ∀ p ∈ pieces, p.1 ∈ r.table
  rest : ∀ part ∈ first :: pieces.map Prod.snd, ∀ entry ∈ r.table, ¬entry.1 <:+: part

/-- No name of a placeholder is spelled in a text, in whatever case and width and with whatever
between its characters, but wholly inside one of the names in brackets that the input had. -/
def NameFree (r : Redaction) (text : List Char) : Prop :=
  ∀ name ∈ r.names, ∀ u v, normalize text = u ++ name ++ v →
    ∃ before literal after, text = before ++ literal ++ after ∧ literal ∈ r.literals ∧
      (normalize before).length ≤ u.length ∧
      u.length + name.length ≤ (normalize (before ++ literal)).length

variable {r : Redaction}

section Lexemes

variable {l : Lexeme} {ls : List Lexeme} {body full : List Char} {i : Nat}

/-- The placeholder a lexeme is. -/
def Lexeme.index (r : Redaction) : Lexeme → Option Nat
  | .bracket body => entry r body
  | _ => none

theorem entry_some (h : Lexeme.entry r body = some i) :
    enclose body ∉ r.literals ∧ (r.table[i]?).map Prod.fst = some (enclose body) := by
  unfold Lexeme.entry at h
  split at h
  · cases h
  · rename_i hliteral
    obtain ⟨hi, hkey, -⟩ := List.findIdx?_eq_some_iff_getElem.mp h
    refine ⟨by simpa [enclose] using hliteral, ?_⟩
    rw [List.getElem?_eq_getElem hi, Option.map_some]
    simpa [enclose] using hkey

/-- The entry at an index, which is in range where it is used. -/
def entryAt (r : Redaction) (i : Nat) : List Char × List Char := (r.table[i]?).getD ([], [])

theorem index_some (h : l.index r = some i) : entryAt r i ∈ r.table ∧
    l.spelling = (entryAt r i).1 ∧ l.render r = (entryAt r i).2 ∧ ∀ full, l.after r full = [] := by
  cases l with
  | char c => cases h
  | opened body => cases h
  | bracket body =>
    have hentry : Lexeme.entry r body = some i := h
    obtain ⟨-, hkey⟩ := entry_some hentry
    obtain ⟨e, he, hfst⟩ := Option.map_eq_some_iff.mp hkey
    simp only [entryAt, he, Option.getD_some, Lexeme.render, hentry, Option.map_some,
      Lexeme.original, Lexeme.after, Option.isSome_some, if_true, implies_true, and_true]
    exact ⟨List.mem_of_getElem? he, hfst.symm⟩

theorem index_none (h : l.index r = none) :
    l.render r = l.spelling ∧ ∀ full, l.after r full = full ++ normalize l.spelling := by
  cases l with
  | char c => exact ⟨rfl, fun _ => rfl⟩
  | opened body => exact ⟨rfl, fun _ => rfl⟩
  | bracket body =>
    have hentry : Lexeme.entry r body = none := h
    simp only [Lexeme.render, Lexeme.after, hentry, Option.map_none, Option.getD_none,
      Option.isSome_none, Bool.false_eq_true, if_false, true_and, Lexeme.spelling]
    exact fun full => by rw [normalize_bracket]

/-- A list of lexemes cut at its placeholders. -/
def cut (r : Redaction) : List Lexeme → List Lexeme × List (Nat × List Lexeme)
  | [] => ([], [])
  | l :: ls =>
    match l.index r with
    | some i => ([], (i, (cut r ls).1) :: (cut r ls).2)
    | none => (l :: (cut r ls).1, (cut r ls).2)

theorem cut_some (h : l.index r = some i) :
    cut r (l :: ls) = ([], (i, (cut r ls).1) :: (cut r ls).2) := by
  simp only [cut, h]

theorem cut_none (h : l.index r = none) :
    cut r (l :: ls) = (l :: (cut r ls).1, (cut r ls).2) := by
  simp only [cut, h]

/-- The placeholders of a text with the texts behind them. -/
def pieces (r : Redaction) (ls : List Lexeme) : List ((List Char × List Char) × List Char) :=
  (cut r ls).2.map fun p => (entryAt r p.1, spell p.2)

theorem spell_cut (ls : List Lexeme) :
    spell ls = assemble Prod.fst (spell (cut r ls).1) (pieces r ls) := by
  induction ls with
  | nil => rfl
  | cons l ls ih =>
    rw [spell_cons, ih]
    cases hindex : l.index r with
    | some i =>
      obtain ⟨-, hspelling, -⟩ := index_some hindex
      simp only [assemble, pieces, cut_some hindex, List.map_cons, List.flatMap_cons, hspelling,
        List.append_assoc]
      rfl
    | none =>
      simp only [assemble, pieces, cut_none hindex, spell_cons, List.append_assoc]

theorem render_cut (ls : List Lexeme) :
    ls.flatMap (Lexeme.render r) = assemble Prod.snd (spell (cut r ls).1) (pieces r ls) := by
  induction ls with
  | nil => rfl
  | cons l ls ih =>
    rw [List.flatMap_cons, ih]
    cases hindex : l.index r with
    | some i =>
      obtain ⟨-, -, hrender, -⟩ := index_some hindex
      simp only [assemble, pieces, cut_some hindex, List.map_cons, List.flatMap_cons, hrender,
        List.append_assoc]
      rfl
    | none =>
      simp only [assemble, pieces, cut_none hindex, spell_cons, (index_none hindex).1,
        List.append_assoc]

theorem cut_entries (ls : List Lexeme) : ∀ p ∈ pieces r ls, p.1 ∈ r.table := by
  induction ls with
  | nil => simp [pieces, cut]
  | cons l ls ih =>
    cases hindex : l.index r with
    | some i =>
      simp only [pieces, cut_some hindex, List.map_cons, List.forall_mem_cons]
      exact ⟨(index_some hindex).1, ih⟩
    | none =>
      simp only [pieces, cut_none hindex]
      exact ih

/-- A part of a text is cut as the text is, and holds no placeholder. -/
structure Part (r : Redaction) (ls part : List Lexeme) : Prop where
  lexed : Lexed part
  subset : part ⊆ ls
  plain : ∀ l ∈ part, l.index r = none

theorem lexed_cons {part : List Lexeme} (h : Lexed (l :: ls)) (hpart : Lexed part)
    (hhead : ∀ c, (spell part).head? = some c → (spell ls).head? = some c) : Lexed (l :: part) := by
  cases h with
  | char hc _ => exact .char hc hpart
  | opened hname hnext _ => exact .opened hname (fun c hc => hnext c (hhead c hc)) hpart
  | bracket hname _ => exact .bracket hname hpart

theorem Part.weaken {part : List Lexeme} (h : Part r ls part) : Part r (l :: ls) part :=
  ⟨h.lexed, fun _ hmem => List.mem_cons_of_mem l (h.subset hmem), h.plain⟩

/-- Behind a placeholder the buffer is empty. -/
theorem cut_part (h : Lexed ls) (hpass : AllPass r full ls) :
    (Part r ls (cut r ls).1 ∧ AllPass r full (cut r ls).1) ∧
      ∀ p ∈ (cut r ls).2, Part r ls p.2 ∧ AllPass r [] p.2 := by
  induction ls generalizing full with
  | nil => exact ⟨⟨⟨.nil, List.Subset.refl _, nofun⟩, trivial⟩, nofun⟩
  | cons l ls ih =>
    obtain ⟨hl, hls⟩ := hpass
    cases hindex : l.index r with
    | some i =>
      rw [(index_some hindex).2.2.2] at hls
      obtain ⟨⟨hfirst, hfirstPass⟩, hrest⟩ := ih (lexed_head h).2 hls
      rw [cut_some hindex]
      refine ⟨⟨⟨.nil, List.nil_subset _, nofun⟩, trivial⟩, fun p hp => ?_⟩
      rw [List.mem_cons] at hp
      obtain rfl | hp := hp
      · exact ⟨hfirst.weaken, hfirstPass⟩
      · exact ⟨(hrest p hp).1.weaken, (hrest p hp).2⟩
    | none =>
      obtain ⟨⟨hfirst, hfirstPass⟩, hrest⟩ := ih (lexed_head h).2 hls
      rw [cut_none hindex]
      refine ⟨⟨⟨?_, ?_, ?_⟩, hl, hfirstPass⟩,
        fun p hp => ⟨(hrest p hp).1.weaken, (hrest p hp).2⟩⟩
      · refine lexed_cons h hfirst.lexed fun c hc => ?_
        rw [spell_cut (r := r) ls, assemble, List.head?_append, hc]
        rfl
      · exact List.cons_subset_cons l hfirst.subset
      · exact List.forall_mem_cons.mpr ⟨hindex, hfirst.plain⟩

/-- A name that ends among these characters is no longer than the bound where it ends. -/
theorem Clear.ends {bound : Nat → Nat} {cs more name u v : List Char} (h : Clear r bound full cs)
    (hname : name ∈ r.names) (hsplit : full ++ (cs ++ more) = u ++ name ++ v)
    (hlt : full.length < u.length + name.length)
    (hle : u.length + name.length ≤ full.length + cs.length) :
    name.length ≤ bound (u.length + name.length - full.length) := by
  obtain ⟨n, hn⟩ : ∃ n, u.length + name.length = full.length + (n + 1) :=
    ⟨u.length + name.length - full.length - 1, by omega⟩
  have hget : n < cs.length := by omega
  have hcut : cs = cs.take n ++ cs[n] :: cs.drop (n + 1) := by simp
  have hends : full ++ (cs.take n ++ [cs[n]]) = u ++ name := by
    have htake := congrArg (List.take (full.length + (n + 1))) hsplit
    rw [List.take_length_add_append, List.take_append_of_le_length (by omega), ← hn,
      ← List.length_append, List.take_left] at htake
    rw [← htake, List.take_succ_eq_append_getElem hget]
  have hbound := h _ _ _ hcut name hname (hends ▸ List.suffix_append u name)
  rw [List.length_take, Nat.min_eq_left (by omega)] at hbound
  rwa [show u.length + name.length - full.length = n + 1 by omega]

/-- A name that ends among these characters, where no placeholder stands, lies inside a literal. -/
theorem name_inside {name u v : List Char} (hname : name ∈ r.names) (hne : name ≠ [])
    (hpass : AllPass r full ls) (hplain : ∀ l ∈ ls, l.index r = none)
    (hsplit : full ++ normalize (spell ls) = u ++ name ++ v)
    (hend : full.length < u.length + name.length) :
    ∃ before body after, ls = before ++ .bracket body :: after ∧ enclose body ∈ r.literals ∧
      full.length + (normalize (spell before)).length ≤ u.length ∧
      u.length + name.length ≤
        full.length + (normalize (spell before ++ enclose body)).length := by
  have hpos : 0 < name.length := List.length_pos_iff.mpr hne
  induction ls generalizing full with
  | nil =>
    have hlen := congrArg List.length hsplit
    simp only [spell, List.flatMap_nil, normalize, List.map_nil, List.filter_nil, List.append_nil,
      List.length_append] at hlen
    omega
  | cons l ls ih =>
    obtain ⟨hl, hls⟩ := hpass
    rw [spell_cons, normalize_append] at hsplit
    have hindex := hplain l List.mem_cons_self
    by_cases hin : u.length + name.length ≤ full.length + (normalize l.spelling).length
    · have hnot : ¬Clear r (fun _ => 0) full (normalize l.spelling) := by
        intro hclear
        have := hclear.ends hname hsplit hend hin
        omega
      cases l with
      | char c => exact absurd hl hnot
      | opened body => exact absurd hl hnot
      | bracket body =>
        rw [Lexeme.spelling, normalize_bracket] at hin hsplit hnot
        have hentry : Lexeme.entry r body = none := hindex
        simp only [Lexeme.Passes, hentry, Option.isSome_none, Bool.false_eq_true, false_or] at hl
        split at hl
        · rename_i hliteral
          have hwithin := Clear.ends hl hname hsplit hend hin
          simp only [id] at hwithin
          refine ⟨[], body, ls, rfl, by simpa [enclose] using hliteral, ?_, ?_⟩
          · simp only [spell, List.flatMap_nil, normalize, List.map_nil, List.filter_nil,
              List.length_nil]
            omega
          · rw [spell, List.flatMap_nil, List.nil_append, enclose, normalize_bracket]
            exact hin
        · exact absurd hl.2 hnot
    · rw [(index_none hindex).2] at hls
      rw [← List.append_assoc] at hsplit
      obtain ⟨before, body, after, rfl, hliteral, hstart, hstop⟩ := ih hls
        (fun l hl => hplain l (List.mem_cons_of_mem _ hl)) hsplit (by
          rw [List.length_append]
          omega)
      refine ⟨l :: before, body, after, rfl, hliteral, ?_, ?_⟩
      · rw [spell_cons, normalize_append, List.length_append]
        rw [List.length_append] at hstart
        omega
      · rw [spell_cons, List.append_assoc, normalize_append, List.length_append]
        rw [List.length_append] at hstop
        omega

/-- A part without placeholders that passes from an empty buffer is free of their names. -/
theorem Part.nameFree {part : List Lexeme} (h : Part r ls part) (hpass : AllPass r [] part)
    (hnames : ∀ name ∈ r.names, name ≠ []) : NameFree r (spell part) := by
  intro name hname u v hsplit
  have hpos := List.length_pos_iff.mpr (hnames name hname)
  obtain ⟨before, body, after, hpart, hliteral, hstart, hstop⟩ :=
    name_inside hname (hnames name hname) hpass h.plain hsplit (by
      rw [List.length_nil]
      omega)
  rw [List.length_nil, Nat.zero_add] at hstart hstop
  refine ⟨spell before, enclose body, spell after, ?_, hliteral, hstart, hstop⟩
  rw [hpart, spell_append, spell_cons, List.append_assoc]
  rfl

theorem mark_eq (l : Lexeme) (seen : List Bool) :
    l.mark r seen = match l.index r with
      | some i => seen.set i true
      | none => seen := by
  cases l with
  | char c => rfl
  | opened body => rfl
  | bracket body =>
    cases hentry : Lexeme.entry r body with
    | none => simp only [Lexeme.mark, Lexeme.index, hentry, Option.map_none, Option.getD_none]
    | some i => simp only [Lexeme.mark, Lexeme.index, hentry, Option.map_some, Option.getD_some]

/-- What has been marked is a placeholder of the text. -/
theorem index_of_marked {seen : List Bool} (h : (ls.foldl (Lexeme.mark r) seen)[i]? = some true) :
    seen[i]? = some true ∨ ∃ l ∈ ls, l.index r = some i := by
  induction ls generalizing seen with
  | nil => exact .inl h
  | cons l ls ih =>
    obtain hbefore | ⟨l', hl', hindex⟩ := ih h
    · rw [mark_eq] at hbefore
      cases hindex : l.index r with
      | none =>
        rw [hindex] at hbefore
        exact .inl hbefore
      | some j =>
        simp only [hindex] at hbefore
        by_cases hij : j = i
        · exact .inr ⟨l, List.mem_cons_self, hij ▸ hindex⟩
        · rw [List.getElem?_set_ne hij] at hbefore
          exact .inl hbefore
    · exact .inr ⟨l', List.mem_cons_of_mem l hl', hindex⟩

theorem length_marks (ls : List Lexeme) (seen : List Bool) :
    (ls.foldl (Lexeme.mark r) seen).length = seen.length := by
  induction ls generalizing seen with
  | nil => rfl
  | cons l ls ih =>
    rw [List.foldl_cons, ih, mark_eq]
    cases l.index r with
    | none => rfl
    | some i => exact List.length_set

/-- When everything was seen, every entry stands in the text. -/
theorem bracket_of_seen
    (h : (ls.foldl (Lexeme.mark r) (List.replicate r.table.length false)).all id = true)
    {entry : List Char × List Char} (hentry : entry ∈ r.table) :
    ∃ body i, .bracket body ∈ ls ∧ Lexeme.entry r body = some i ∧ entry.1 = enclose body := by
  obtain ⟨i, hi, rfl⟩ := List.mem_iff_getElem.mp hentry
  have hlen : i < (ls.foldl (Lexeme.mark r) (List.replicate r.table.length false)).length := by
    rw [length_marks, List.length_replicate]
    exact hi
  have hmarked := List.all_eq_true.mp h _ (List.getElem_mem hlen)
  obtain hbefore | ⟨l, hl, hindex⟩ :=
    index_of_marked (i := i) (by rw [List.getElem?_eq_getElem hlen]; exact congrArg some hmarked)
  · rw [List.getElem?_replicate, if_pos hi] at hbefore
    cases hbefore
  · cases l with
    | char c => cases hindex
    | opened body => cases hindex
    | bracket body =>
      have hkey := (entry_some hindex).2
      rw [List.getElem?_eq_getElem hi, Option.map_some, Option.some.injEq] at hkey
      exact ⟨body, i, hl, hindex, hkey⟩

theorem lexed_name (h : Lexed ls) (hmem : .bracket body ∈ ls) : IsName body := by
  induction h with
  | nil => cases hmem
  | char _ _ ih =>
    obtain hmem | hmem := List.mem_cons.mp hmem
    · cases hmem
    · exact ih hmem
  | opened _ _ _ ih =>
    obtain hmem | hmem := List.mem_cons.mp hmem
    · cases hmem
    · exact ih hmem
  | bracket hname _ ih =>
    obtain hmem | hmem := List.mem_cons.mp hmem
    · cases hmem
      exact hname
    · exact ih hmem

theorem passes_of_mem {l : Lexeme} (hpass : AllPass r full ls) (hmem : l ∈ ls) :
    ∃ full, l.Passes r full := by
  induction ls generalizing full with
  | nil => cases hmem
  | cons first ls ih =>
    obtain hmem | hmem := List.mem_cons.mp hmem
    · exact ⟨full, hmem ▸ hpass.1⟩
    · exact ih hpass.2 hmem

/-- A name in brackets with the shape of a placeholder passes as an entry, as a literal, or
because it is too long to be held. -/
theorem known_of_passes (h : (Lexeme.bracket body).Passes r full) (hshaped : Shaped body)
    (hheld : ¬Overlong r.limit body) :
    enclose body ∈ r.table.map Prod.fst ∨ enclose body ∈ r.literals := by
  simp only [Lexeme.Passes] at h
  split at h
  · rename_i hliteral
    exact .inr (by simpa [enclose] using hliteral)
  · obtain hentry | ⟨hplain, -⟩ := h
    · obtain ⟨i, hi⟩ := Option.isSome_iff_exists.mp hentry
      obtain ⟨e, he, hfst⟩ := Option.map_eq_some_iff.mp (entry_some hi).2
      exact .inl (List.mem_map.mpr ⟨e, List.mem_of_getElem? he, hfst⟩)
    · have hread := (placeholder_read_iff (one_lt_limit r) body).mpr ⟨hshaped, hheld⟩
      rw [hplain] at hread
      cases hread

/-- What is too long to be held is no entry and no literal. -/
theorem Overlong.unknown (h : Overlong r.limit body) :
    ¬(enclose body ∈ r.table.map Prod.fst ∨ enclose body ∈ r.literals) := by
  intro hknown
  obtain ⟨kind, digits, -, -, -, hlong⟩ := h
  have hle := byteLength_le_limit hknown
  have htake : byteLength (body.take kind.length) ≤ byteLength body := by
    conv_rhs => rw [← List.take_append_drop kind.length body]
    rw [byteLength_append]
    omega
  have hclose : byteLength [']'] = 1 := by decide
  rw [enclose, byteLength_append, byteLength_open, hclose] at hle
  omega

theorem Overlong.shaped (h : Overlong r.limit body) : Shaped body := by
  obtain ⟨kind, digits, hindex, -, hreserved, -⟩ := h
  exact ⟨kind, digits, hindex, .inr hreserved⟩

end Lexemes

section Whole

variable [Entropy] {input : String} {verdict : InspectResponse} {ctx : InspectCtx}

/-- However the output is cut into chunks, pushing them and finishing does what restoring the
whole does. When that succeeds, the text is the output with the placeholders replaced that occur
in it and nothing else changed, all of them occur, and none of their names is left. Every other
name in brackets with the shape of a placeholder was one of the input, exactly when no reserved
name with lower-case letters is longer than what is held. -/
theorem restore_sound (h : Yields (redact input verdict ctx) r) (chunks : List (List Char)) :
    pushAll r r.stream chunks = r.restore chunks.flatten ∧
    ∀ text, r.restore chunks.flatten = .ok text →
      (∃ first pieces, Replaces r chunks.flatten text first pieces ∧
        ∀ part ∈ first :: pieces.map Prod.snd, NameFree r part) ∧
      (∀ entry ∈ r.table, entry.1 <:+: chunks.flatten) ∧
      ((∀ body, IsName body → enclose body <:+: chunks.flatten → Shaped body →
          enclose body ∈ r.table.map Prod.fst ∨ enclose body <:+: input.toList) ↔
        ∀ body, IsName body → enclose body <:+: chunks.flatten → ¬Overlong r.limit body) := by
  refine ⟨restore_chunks chunks, fun text htext => ?_⟩
  obtain ⟨hminted, hliterals⟩ := redact_yields h
  have hnames : ∀ name ∈ r.names, name ≠ [] := by
    intro name hname
    obtain ⟨entry, hentry, rfl⟩ := List.mem_map.mp hname
    obtain ⟨kind, n, hkind⟩ := hminted entry hentry
    rw [hkind]
    exact normalize_candidate_ne_nil kind n
  obtain ⟨ls, hls, hspell⟩ := exists_lexed chunks.flatten
  rw [← hspell] at htext ⊢
  obtain ⟨hpass, hseen, rfl⟩ := (restore_eq_ok hls).mp htext
  obtain ⟨⟨hfirst, hfirstPass⟩, hrest⟩ := cut_part hls hpass
  have hparts : ∀ part ∈ spell (cut r ls).1 :: (pieces r ls).map Prod.snd,
      ∃ lexemes, spell lexemes = part ∧ Part r ls lexemes ∧ AllPass r [] lexemes := by
    intro part hpart
    simp only [pieces, List.map_map, List.mem_cons, List.mem_map, Function.comp] at hpart
    obtain rfl | ⟨p, hp, rfl⟩ := hpart
    · exact ⟨_, rfl, hfirst, hfirstPass⟩
    · exact ⟨_, rfl, hrest p hp⟩
  refine ⟨⟨spell (cut r ls).1, pieces r ls,
    ⟨spell_cut ls, render_cut ls, cut_entries ls, fun part hpart entry hentry => ?_⟩,
    fun part hpart => ?_⟩, fun entry hentry => ?_, fun hknown body hbody hinside hlong => ?_,
    fun hheld body hbody hinside hshaped => ?_⟩
  · obtain ⟨lexemes, rfl, hlexemes, -⟩ := hparts part hpart
    obtain ⟨body, i, hmem, hindex, hkey⟩ := bracket_of_seen hseen hentry
    rw [hkey, infix_spell_iff hlexemes.lexed (lexed_name hls hmem)]
    intro hpartMem
    have hnone : Lexeme.entry r body = none := hlexemes.plain _ hpartMem
    rw [hindex] at hnone
    cases hnone
  · obtain ⟨lexemes, rfl, hlexemes, hlexemesPass⟩ := hparts part hpart
    exact hlexemes.nameFree hlexemesPass hnames
  · obtain ⟨body, i, hmem, -, hkey⟩ := bracket_of_seen hseen hentry
    exact hkey ▸ infix_of_mem hmem
  · refine hlong.unknown ?_
    rw [hliterals, mem_placeholderTokens hbody]
    exact hknown body hbody hinside hlong.shaped
  · obtain ⟨full, hpasses⟩ := passes_of_mem hpass ((infix_spell_iff hls hbody).mp hinside)
    have hknown := known_of_passes hpasses hshaped (hheld body hbody hinside)
    rwa [hliterals, mem_placeholderTokens hbody] at hknown

end Whole

section Sample

/-- What a telephone number becomes. -/
def mobileRedaction : Redaction where
  text := "[CN_MOBILE_1]".toList
  table := [("[CN_MOBILE_1]".toList, "13812345678".toList)]
  literals := []

theorem yields_mobile : Yields (redact "13812345678"
    ⟨.s2, [⟨.cnMobile, some ⟨0, 11⟩⟩], .redact⟩ ⟨.any, true, true, Inspect.defaultMaxInputUtf16⟩)
    mobileRedaction := by
  unfold Yields
  decide +kernel

/-- A placeholder cut in two. -/
theorem restore_sound_mobile : ∃ first pieces,
    Replaces mobileRedaction ["call [CN_MOB".toList, "ILE_1]".toList].flatten
        "call 13812345678".toList first pieces ∧
      ∀ part ∈ first :: pieces.map Prod.snd, NameFree mobileRedaction part :=
  ((restore_sound yields_mobile ["call [CN_MOB".toList, "ILE_1]".toList]).2 _
    (by decide +kernel)).1

/-- A reserved name in fullwidth lower-case letters is longer than what is held, and passes. -/
theorem not_restore_sound :
    ¬∀ (input : String) (verdict : InspectResponse) (ctx : InspectCtx) (r : Redaction)
      (output text : List Char), Yields (redact input verdict ctx) r →
      r.restore output = .ok text → ∀ body, IsName body → enclose body <:+: output →
      Shaped body → enclose body ∈ r.table.map Prod.fst ∨ enclose body <:+: input.toList := by
  intro h
  let body := "ｃｎ＿ｕｎｉｆｉｅｄ＿ｓｏｃｉａｌ＿ｃｒｅｄｉｔ＿ｃｏｄｅ＿９".toList
  have hrestored : mobileRedaction.restore ("[CN_MOBILE_1] ".toList ++ enclose body) =
      .ok ("13812345678 ".toList ++ enclose body) := by decide +kernel
  have hname : IsName body :=
    fun c hc => List.all_eq_true.mp (show body.all isWord = true by decide) c hc
  have hshaped : Shaped body :=
    ⟨"cn_unified_social_credit_code".toList, ['9'], ⟨by decide, by decide, by decide,
      by simp⟩, .inr (by decide)⟩
  obtain hknown | hinside := h _ _ _ _ _ _ yields_mobile hrestored body hname
    (List.suffix_append _ _).isInfix hshaped
  · exact absurd hknown (by decide)
  · exact absurd hinside.length_le (by decide)

end Sample

end Redact
