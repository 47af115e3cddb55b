import IDoris.Redact.Regions
import IDoris.Redact.Restored

/-!
# Round trip

A redacted text is the input with entries of the table in place of what they stand for. The
scanner lets the parts of the input through and finds every entry.
-/
namespace Redact

open Inspect (InspectResponse InspectCtx Entropy inspect exceedsLimit)
open Utf16 (encodeChars)

section Weave

variable {side : List Char × List Char → List Char}
  {threads : List (List Char × List Char × List Char)} {thread : List Char × List Char × List Char}

/-- Entries of a table, each behind a text. -/
def weave (side : List Char × List Char → List Char)
    (threads : List (List Char × List Char × List Char)) : List Char :=
  threads.flatMap fun thread => thread.1 ++ side thread.2

theorem weave_cons : weave side (thread :: threads) =
    thread.1 ++ side thread.2 ++ weave side threads := rfl

theorem weave_concat : weave side (threads ++ [thread]) =
    weave side threads ++ thread.1 ++ side thread.2 := by
  simp [weave]

theorem infix_weave (side : List Char × List Char → List Char) (h : thread ∈ threads) :
    thread.1 <:+: weave side threads ∧ side thread.2 <:+: weave side threads := by
  obtain ⟨front, back, rfl⟩ := List.append_of_mem h
  have hsplit : weave side (front ++ thread :: back) =
      weave side front ++ (thread.1 ++ side thread.2 ++ weave side back) := by
    simp [weave]
  rw [hsplit]
  exact ⟨⟨weave side front, side thread.2 ++ weave side back, by simp⟩,
    ⟨weave side front ++ thread.1, weave side back, by simp⟩⟩

end Weave

section Invariant

variable {input before original key : List Char} {p q : Progress} {region : Region}
  {threads : List (List Char × List Char × List Char)}

/-- A placeholder that the input does not spell. -/
structure Fresh (input key : List Char) : Prop where
  name : ∃ body, IsName body ∧ key = enclose body
  unspelled : ¬normalize key <:+: normalize input

theorem isWord_label : ∀ kind, (label kind).all isWord = true := by
  intro kind
  cases kind <;> decide

theorem isWord_of_isDigit {c : Char} (h : c.isDigit = true) : isWord c = true := by
  rw [isWord, foldWidth_of_isDigit h, Char.isAlphanum, h, Bool.or_true, Bool.true_or]

theorem candidate_name (kind : Inspect.FindingKind) (n : Nat) :
    ∃ body, IsName body ∧ candidate (label kind) n = enclose body := by
  refine ⟨label kind ++ '_' :: Nat.toDigits 10 n, fun c hc => ?_, by simp [candidate, enclose]⟩
  rw [List.mem_append, List.mem_cons] at hc
  obtain hc | rfl | hc := hc
  · exact List.all_eq_true.mp (isWord_label kind) c hc
  · decide
  · exact isWord_of_isDigit (Nat.isDigit_of_mem_toDigits (by decide) (by decide) hc)

theorem fresh_of_not_taken {text : List Char} {kind : Inspect.FindingKind} {n : Nat}
    (h : taken (normalize input) text (label kind) n = false) :
    Fresh input (candidate (label kind) n) ∧ ¬candidate (label kind) n <:+: text := by
  rw [taken, Bool.or_eq_false_iff, decide_eq_false_iff_not, decide_eq_false_iff_not] at h
  exact ⟨⟨candidate_name kind n, h.1⟩, h.2⟩

/-- The text so far is a part of the input with entries of the table in it. -/
structure Woven (input : List Char) (threads : List (List Char × List Char × List Char))
    (p : Progress) : Prop where
  text : p.text = weave Prod.fst threads
  original : weave Prod.snd threads <+: input
  cursor : p.cursor = (encodeChars (weave Prod.snd threads)).length
  table : ∀ entry, entry ∈ p.table ↔ entry ∈ threads.map Prod.snd
  keys : (p.table.map Prod.fst).Nodup
  fresh : ∀ entry ∈ p.table, Fresh input entry.1

theorem woven_start (input : List Char) : Woven input [] ⟨[], [], [], 0⟩ :=
  ⟨rfl, List.nil_prefix, rfl, fun _ => Iff.rfl, List.nodup_nil, nofun⟩

/-- An original that was met before keeps its placeholder. -/
theorem Woven.reuse (h : Woven input threads p) (hentry : (key, original) ∈ p.table)
    (hinput : weave Prod.snd threads ++ before ++ original <+: input) {cursor : Nat}
    (hcursor : cursor = (encodeChars (weave Prod.snd threads ++ before ++ original)).length) :
    Woven input (threads ++ [(before, key, original)])
      { p with text := p.text ++ before ++ key, cursor } where
  text := by rw [weave_concat, h.text]
  original := by
    rw [weave_concat]
    exact hinput
  cursor := by
    rw [weave_concat]
    exact hcursor
  table entry := by
    rw [List.map_append, List.mem_append, ← h.table, List.map_singleton, List.mem_singleton]
    constructor
    · exact .inl
    · rintro (hmem | rfl)
      · exact hmem
      · exact hentry
  keys := h.keys
  fresh := h.fresh

/-- A new original gets a placeholder that is free. -/
theorem Woven.mint (h : Woven input threads p) (hfresh : Fresh input key)
    (hnew : ¬key <:+: p.text ++ before)
    (hinput : weave Prod.snd threads ++ before ++ original <+: input) {cursor : Nat}
    (hcursor : cursor = (encodeChars (weave Prod.snd threads ++ before ++ original)).length)
    (counters : List (List Char × Nat)) :
    Woven input (threads ++ [(before, key, original)])
      ⟨p.text ++ before ++ key, p.table ++ [(key, original)], counters, cursor⟩ where
  text := by rw [weave_concat, h.text]
  original := by
    rw [weave_concat]
    exact hinput
  cursor := by
    rw [weave_concat]
    exact hcursor
  table entry := by
    rw [List.map_append, List.mem_append, List.mem_append, ← h.table]
    rfl
  keys := by
    rw [List.map_append, List.nodup_append]
    refine ⟨h.keys, List.nodup_singleton _, fun a ha b hb => ?_⟩
    rintro rfl
    rw [List.map_singleton, List.mem_singleton] at hb
    obtain ⟨entry, hentry, hfst⟩ := List.mem_map.mp ha
    obtain ⟨thread, hthread, rfl⟩ := List.mem_map.mp ((h.table entry).mp hentry)
    have hinside := (infix_weave Prod.fst hthread).2
    rw [hfst, hb, ← h.text] at hinside
    exact hnew (hinside.trans (List.prefix_append _ _).isInfix)
  fresh := List.forall_mem_append.mpr ⟨h.fresh, List.forall_mem_singleton.mpr hfresh⟩

/-- A region never fails. -/
theorem redactRegion_woven (h : Woven input threads p)
    (hregion : region.Usable (encodeChars input)) (hbehind : p.cursor ≤ region.start) :
    ∃ q threads', Yields (redactRegion (encodeChars input) (normalize input) p region) q ∧
      Woven input threads' q ∧ q.cursor = region.stop := by
  obtain ⟨rest, hrest⟩ := h.original
  have hcursor := h.cursor
  obtain ⟨before, back, rfl, hbefore⟩ := exists_cut_behind (weave Prod.snd threads)
    (by rw [hrest]; exact hregion.start) (hcursor ▸ hbehind)
    (by rw [hrest]; exact hregion.lt.le.trans hregion.le)
  rw [← List.append_assoc] at hrest
  obtain ⟨original, back, rfl, horiginal⟩ := exists_cut_behind
    (weave Prod.snd threads ++ before) (by rw [hrest]; exact hregion.stop)
    (hbefore.le.trans hregion.lt.le) (by rw [hrest]; exact hregion.le)
  have hinput : weave Prod.snd threads ++ before ++ original <+: input :=
    ⟨back, by rw [← hrest]; simp⟩
  have hfirst : Scanner.slice (encodeChars input) p.cursor region.start =
      some (encodeChars before) := by
    rw [← hrest, hcursor, ← hbefore]
    exact slice_encode _ before (original ++ back)
  have hsecond : Scanner.slice (encodeChars input) region.start region.stop =
      some (encodeChars original) := by
    rw [← hrest, ← hbefore, ← horiginal, ← List.append_assoc]
    exact slice_encode _ original back
  simp only [redactRegion, yields_bind, yields_orPanic, yields_utf16, hfirst, hsecond,
    Option.some.injEq, exists_eq_left', Utf16.decodeChars_encodeChars]
  cases hfind : p.table.find? (·.2 = original) with
  | some found =>
    obtain ⟨key, value⟩ := found
    have hvalue : value = original := by simpa using List.find?_some hfind
    have hmem := List.mem_of_find?_eq_some hfind
    rw [hvalue] at hmem
    exact ⟨_, _, yields_pure.mpr rfl, h.reuse hmem hinput horiginal.symm, rfl⟩
  | none =>
    obtain ⟨kind, hkind⟩ := hregion.kind
    obtain ⟨k, hmint, hfree⟩ := exists_mint (normalize input) (p.text ++ before) (label kind)
      (count p.counters (label kind)).1
    obtain ⟨hfresh, hnew⟩ := fresh_of_not_taken hfree
    simp only [yields_bind, yields_orPanic, hkind]
    exact ⟨_, _, ⟨_, hmint, yields_pure.mpr rfl⟩, h.mint hfresh hnew hinput horiginal.symm _, rfl⟩

theorem foldlM_woven {regions : List Region} (h : Woven input threads p)
    (hregions : Tiled (encodeChars input) regions)
    (hbehind : ∀ region ∈ regions, p.cursor ≤ region.start) :
    ∃ q threads', Yields (regions.foldlM (redactRegion (encodeChars input) (normalize input)) p) q ∧
      Woven input threads' q := by
  induction regions generalizing p threads with
  | nil => exact ⟨p, threads, yields_pure.mpr rfl, h⟩
  | cons region regions ih =>
    obtain ⟨husable, hrest⟩ := List.forall_mem_cons.mp hregions.usable
    obtain ⟨happart, htail⟩ := List.pairwise_cons.mp hregions.apart
    obtain ⟨next, threads', hnext, hwoven, hcursor⟩ :=
      redactRegion_woven h husable (hbehind region List.mem_cons_self)
    obtain ⟨q, threads'', hq, hwoven'⟩ := ih hwoven ⟨hrest, htail⟩ fun b hb => by
      rw [hcursor]
      exact happart b hb
    rw [List.foldlM_cons]
    exact ⟨q, threads'', yields_bind.mpr ⟨next, hnext, hq⟩, hwoven'⟩

end Invariant

section Scanned

variable {r : Redaction} {input full after : List Char} {ls ls' : List Lexeme} {i : Nat}
  {threads : List (List Char × List Char × List Char)}

/-- The table has distinct placeholders that the input does not spell, and the literals are the
names in brackets of the input. -/
structure Redaction.Of (r : Redaction) (input : List Char) : Prop where
  keys : (r.table.map Prod.fst).Nodup
  fresh : ∀ entry ∈ r.table, Fresh input entry.1
  literals : r.literals = placeholderTokens input

theorem clear_of_free {bound : Nat → Nat} {cs : List Char}
    (h : ∀ name ∈ r.names, ¬name <:+: full ++ cs) : Clear r bound full cs := by
  rintro u c v rfl name hname hsuffix
  refine absurd (hsuffix.isInfix.trans ?_) (h name hname)
  exact ⟨[], v, by simp⟩

/-- A text that spells no name and whose names in brackets are literals passes unchanged. -/
theorem passes_free (hfree : ∀ name ∈ r.names, ¬name <:+: full ++ normalize (spell ls))
    (hliterals : ∀ body, .bracket body ∈ ls → enclose body ∈ r.literals) :
    AllPass r full ls ∧ ls.flatMap (Lexeme.render r) = spell ls := by
  induction ls generalizing full with
  | nil => exact ⟨trivial, rfl⟩
  | cons l ls ih =>
    rw [spell_cons, normalize_append, ← List.append_assoc] at hfree
    have hclear : ∀ bound, Clear r bound full (normalize l.spelling) := fun bound =>
      clear_of_free fun name hname hinside =>
        hfree name hname (hinside.trans (List.prefix_append _ _).isInfix)
    obtain ⟨hindex, hpasses⟩ : l.index r = none ∧ l.Passes r full := by
      cases l with
      | char c => exact ⟨rfl, hclear fun _ => 0⟩
      | opened body => exact ⟨rfl, hclear fun _ => 0⟩
      | bracket body =>
        have hliteral : r.literals.contains ('[' :: body ++ [']']) = true :=
          List.contains_iff_mem.mpr (hliterals body List.mem_cons_self)
        have hbody := hclear id
        rw [Lexeme.spelling, normalize_bracket] at hbody
        simp only [Lexeme.index, Lexeme.entry, Lexeme.Passes, if_pos hliteral, true_and]
        exact hbody
    obtain ⟨hrender, hafter⟩ := index_none hindex
    rw [← hafter full] at hfree
    obtain ⟨hpass, hrest⟩ := ih hfree fun body hmem => hliterals body (List.mem_cons_of_mem l hmem)
    exact ⟨⟨hpasses, hpass⟩, by rw [List.flatMap_cons, hrender, hrest, spell_cons]⟩

/-- A part of the input passes unchanged. -/
theorem passes_part (hr : r.Of input) (h : Lexed ls) (hinside : spell ls <:+: input) :
    AllPass r [] ls ∧ ls.flatMap (Lexeme.render r) = spell ls := by
  refine passes_free (fun name hname hspelled => ?_) fun body hbody => ?_
  · obtain ⟨entry, hentry, rfl⟩ := List.mem_map.mp hname
    obtain ⟨front, back, rfl⟩ := hinside
    refine (hr.fresh entry hentry).unspelled (hspelled.trans ?_)
    rw [List.nil_append, normalize_append, normalize_append]
    exact ⟨_, _, rfl⟩
  · rw [hr.literals, mem_placeholderTokens (lexed_name h hbody)]
    exact (infix_of_mem hbody).trans hinside

theorem Fresh.absent {key : List Char} (h : Fresh input key) : ¬key <:+: input := by
  rintro ⟨front, back, rfl⟩
  refine h.unspelled ?_
  rw [normalize_append, normalize_append]
  exact ⟨_, _, rfl⟩

/-- A placeholder is found at its entry. -/
theorem entry_of_table (hr : r.Of input) {body : List Char} (hbody : IsName body)
    {entry : List Char × List Char} (hi : r.table[i]? = some entry) (hentry : entry.1 = enclose body) :
    Lexeme.entry r body = some i := by
  obtain ⟨hlt, rfl⟩ := List.getElem?_eq_some_iff.mp hi
  have hfresh := (hr.fresh _ (List.mem_of_getElem? hi)).absent
  rw [hentry] at hfresh
  have hliteral : ¬r.literals.contains ('[' :: body ++ [']']) = true := by
    rw [List.contains_iff_mem, hr.literals]
    exact fun hmem => hfresh ((mem_placeholderTokens hbody).mp hmem)
  rw [Lexeme.entry, if_neg hliteral, List.findIdx?_eq_some_iff_getElem]
  refine ⟨hlt, by rw [hentry]; simp [enclose], fun j hj hsame => ?_⟩
  have hkey : r.table[j].1 = r.table[i].1 := by
    rw [hentry]
    simpa [enclose] using hsame
  have hmap : (r.table.map Prod.fst)[j]? = (r.table.map Prod.fst)[i]? := by
    rw [List.getElem?_map, List.getElem?_map, List.getElem?_eq_getElem hlt,
      List.getElem?_eq_getElem (hj.trans hlt), Option.map_some, Option.map_some, hkey]
  have hij := (List.getElem?_inj (by rw [List.length_map]; omega) hr.keys).mp hmap
  omega

theorem allPass_append : AllPass r full (ls ++ ls') ↔
    AllPass r full ls ∧ AllPass r (ls.foldl (Lexeme.after r) full) ls' := by
  induction ls generalizing full with
  | nil => simp only [List.nil_append, AllPass, List.foldl_nil, true_and]
  | cons l ls ih => rw [List.cons_append, AllPass, ih, AllPass, List.foldl_cons, and_assoc]

/-- A bracket that opens ends whatever was open. -/
theorem lexed_append {body : List Char} (h : Lexed ls) (h' : Lexed (.bracket body :: ls')) :
    Lexed (ls ++ .bracket body :: ls') := by
  induction h with
  | nil => exact h'
  | char hc _ ih => exact .char hc ih
  | bracket hname _ ih => exact .bracket hname ih
  | opened hname hnext _ ih =>
    refine .opened hname (fun c hc => ?_) ih
    change (spell (_ ++ .bracket body :: ls')).head? = some c at hc
    rw [spell_append, spell_cons, List.head?_append] at hc
    obtain hc | ⟨-, hc⟩ := Option.or_eq_some_iff.mp hc
    · exact hnext c hc
    · cases (Option.some.inj hc : '[' = c)
      exact ⟨not_word_open, by decide⟩

theorem exists_lexed_weave (hr : r.Of input) (htable : ∀ thread ∈ threads, thread.2 ∈ r.table)
    (hparts : ∀ part ∈ after :: threads.map Prod.fst, part <:+: input) :
    ∃ ls, Lexed ls ∧ spell ls = weave Prod.fst threads ++ after ∧ AllPass r [] ls ∧
      ls.flatMap (Lexeme.render r) = weave Prod.snd threads ++ after := by
  induction threads with
  | nil =>
    obtain ⟨ls, hls, rfl⟩ := exists_lexed after
    obtain ⟨hpass, hrender⟩ := passes_part hr hls (hparts _ List.mem_cons_self)
    exact ⟨ls, hls, rfl, hpass, hrender⟩
  | cons thread threads ih =>
    obtain ⟨before, key, original⟩ := thread
    obtain ⟨hentry, htable⟩ := List.forall_mem_cons.mp htable
    rw [List.map_cons, List.forall_mem_cons, List.forall_mem_cons] at hparts
    obtain ⟨hafter, hbefore, hparts⟩ := hparts
    obtain ⟨ls', hls', hspell', hpass', hrender'⟩ :=
      ih htable (List.forall_mem_cons.mpr ⟨hafter, hparts⟩)
    obtain ⟨ls, hls, rfl⟩ := exists_lexed before
    obtain ⟨hpass, hrender⟩ := passes_part hr hls hbefore
    obtain ⟨body, hbody, rfl⟩ := (hr.fresh _ hentry).name
    obtain ⟨i, hi⟩ := List.mem_iff_getElem?.mp hentry
    have hindex := entry_of_table hr hbody hi rfl
    obtain ⟨-, -, -, hempty⟩ := index_some (l := .bracket body) hindex
    refine ⟨ls ++ .bracket body :: ls', lexed_append hls (.bracket hbody hls'), ?_, ?_, ?_⟩
    · rw [spell_append, spell_cons, hspell', weave_cons]
      simp [Lexeme.spelling, enclose]
    · refine allPass_append.mpr ⟨hpass, ?_, by rw [hempty]; exact hpass'⟩
      have hliteral : ¬r.literals.contains ('[' :: body ++ [']']) = true := by
        rw [List.contains_iff_mem]
        exact (entry_some hindex).1
      simp only [Lexeme.Passes, if_neg hliteral, hindex, Option.isSome_some, true_or]
    · rw [List.flatMap_append, List.flatMap_cons, hrender, hrender', weave_cons]
      simp [Lexeme.render, hindex, Lexeme.original, hi]

/-- What was marked stays marked. -/
theorem marked_of_seen {seen : List Bool} (h : seen[i]? = some true) :
    (ls.foldl (Lexeme.mark r) seen)[i]? = some true := by
  induction ls generalizing seen with
  | nil => exact h
  | cons l ls ih =>
    refine ih ?_
    rw [mark_eq]
    cases l.index r with
    | none => exact h
    | some j =>
      obtain ⟨hi, -⟩ := List.getElem?_eq_some_iff.mp h
      rw [List.getElem?_set]
      split
      · rw [if_pos (by omega)]
      · exact h

/-- A placeholder of the text is marked. -/
theorem marked_of_mem {l : Lexeme} {seen : List Bool} (hmem : l ∈ ls) (hindex : l.index r = some i)
    (hi : i < seen.length) : (ls.foldl (Lexeme.mark r) seen)[i]? = some true := by
  obtain ⟨front, back, rfl⟩ := List.append_of_mem hmem
  rw [List.foldl_append, List.foldl_cons]
  refine marked_of_seen ?_
  rw [mark_eq, hindex]
  rw [← length_marks (r := r) front seen] at hi
  exact List.getElem?_set_self hi

/-- Parts of the input with placeholders between them are restored to the input. -/
theorem restore_weave (hr : r.Of input)
    (htable : ∀ entry, entry ∈ r.table ↔ entry ∈ threads.map Prod.snd)
    (hinput : input = weave Prod.snd threads ++ after) :
    r.restore (weave Prod.fst threads ++ after) = .ok input := by
  have hafter : after <:+: input := hinput ▸ (List.suffix_append _ _).isInfix
  have hparts : ∀ thread ∈ threads, thread.1 <:+: input := fun thread hthread =>
    (infix_weave Prod.snd hthread).1.trans (hinput ▸ (List.prefix_append _ _).isInfix)
  obtain ⟨ls, hls, hspell, hpass, hrender⟩ := exists_lexed_weave hr
    (fun thread hthread => (htable _).mpr (List.mem_map_of_mem hthread))
    (List.forall_mem_cons.mpr ⟨hafter, List.forall_mem_map.mpr hparts⟩)
  rw [← hspell, restore_eq_ok hls, hrender]
  refine ⟨hpass, List.all_eq_true.mpr fun b hb => ?_, hinput⟩
  obtain ⟨i, hi, rfl⟩ := List.mem_iff_getElem.mp hb
  have hlt : i < r.table.length := by
    rw [length_marks, List.length_replicate] at hi
    exact hi
  obtain ⟨thread, hthread, hentry⟩ := List.mem_map.mp ((htable _).mp (List.getElem_mem hlt))
  obtain ⟨body, hbody, hkey⟩ := (hr.fresh _ (List.getElem_mem hlt)).name
  have hspelled : enclose body <:+: spell ls := by
    rw [hspell, ← hkey, ← hentry]
    exact (infix_weave Prod.fst hthread).2.trans (List.prefix_append _ _).isInfix
  have hindex : (Lexeme.bracket body).index r = some i :=
    entry_of_table hr hbody (List.getElem?_eq_getElem hlt) hkey
  have hunseen : i < (List.replicate r.table.length false).length := by
    rw [List.length_replicate]
    exact hlt
  have hmarked := marked_of_mem ((infix_spell_iff hls hbody).mp hspelled) hindex hunseen
  rw [List.getElem?_eq_getElem hi, Option.some.injEq] at hmarked
  exact hmarked

end Scanned

section Whole

variable [Entropy]

/-- What is to be redacted has usable findings. -/
theorem usable_of_redact {input : String} {ctx : InspectCtx} {verdict : InspectResponse}
    (h : inspect input ctx = some verdict) (hredact : verdict.action = .redact) :
    ∀ finding ∈ verdict.findings, ∃ span, finding.span = some span ∧
      span.Usable (Utf16.encode input) := by
  cases hlimit : exceedsLimit input ctx.maxInputUtf16 with
  | true =>
    rw [inspect, if_pos hlimit, Option.some.injEq] at h
    rw [← h] at hredact
    cases hredact
  | false =>
    obtain ⟨hits, response, hhits, hinspect, hfindings, -⟩ := Inspect.inspect_eq hlimit
    rw [h, Option.some.injEq] at hinspect
    obtain ⟨hits', hhits', hfits⟩ :=
      Inspect.scanAllViews_fitting Inspect.scan_fitting (Utf16.paired_encode input)
    rw [hhits, Option.some.injEq] at hhits'
    intro finding hfinding
    rw [hinspect, hfindings, List.mem_map] at hfinding
    obtain ⟨hit, hhit, rfl⟩ := hfinding
    exact ⟨_, rfl, (hfits hit (hhits' ▸ hhit)).usable⟩

/-- What is to be redacted is redacted, unless something is found in the redacted text, and the
redacted text is restored to the input. -/
theorem redact_round_trip (input : String) (ctx : InspectCtx) (verdict : InspectResponse)
    (h : inspect input ctx = some verdict) (hredact : verdict.action = .redact) :
    ∃ result, (redact input verdict ctx).run = some result ∧
      result ≠ .error .notRedactable ∧ result ≠ .error .invalidSpan ∧
      ∀ r, result = .ok r → r.restore r.text = .ok input.toList := by
  have hnone : Tiled (Utf16.encode input) [] := ⟨nofun, .nil⟩
  obtain ⟨regions, hregions, htiled⟩ := regionsFrom_tiled hnone (usable_of_redact h hredact)
  obtain ⟨p, threads, hfold, hwoven⟩ :=
    foldlM_woven (woven_start input.toList) htiled fun _ _ => Nat.zero_le _
  obtain ⟨after, hafter⟩ := hwoven.original
  obtain ⟨response, hresponse⟩ := Inspect.exists_inspect (String.ofList (p.text ++ after)) ctx
  have hslice : Scanner.slice (Utf16.encode input) p.cursor (Utf16.encode input).length =
      some (encodeChars after) := by
    have hslice := slice_encode (weave Prod.snd threads) after []
    rwa [List.append_nil, hafter, ← hwoven.cursor] at hslice
  have hrun : (redact input verdict ctx).run = if response.findings ≠ []
      then some (.error .residualFinding)
      else some (.ok ⟨p.text ++ after, p.table, placeholderTokens input.toList⟩) := by
    have hmade : Yields (ExceptT.mk (some (regionsFrom (Utf16.encode input).length []
        verdict.findings))) regions := congrArg some hregions
    have hdecoded := yields_utf16.mpr (Utf16.decodeChars_encodeChars after)
    rw [redact, if_neg (not_not.mpr hredact)]
    refine (run_bind hmade).trans ((run_bind hfold).trans ?_)
    refine (run_bind (yields_orPanic.mpr hslice)).trans ((run_bind hdecoded).trans ?_)
    refine (run_bind (yields_orPanic.mpr hresponse)).trans ?_
    split
    · rfl
    · rfl
  have hrestore := restore_weave (r := ⟨p.text ++ after, p.table, placeholderTokens input.toList⟩)
    ⟨hwoven.keys, hwoven.fresh, rfl⟩ hwoven.table hafter.symm
  rw [hrun]
  split
  · exact ⟨_, rfl, nofun, nofun, nofun⟩
  · refine ⟨_, rfl, nofun, nofun, ?_⟩
    rintro r ⟨⟩
    rw [← hwoven.text] at hrestore
    exact hrestore

end Whole

/-- A telephone number behind the name that would have been its placeholder gets another one. -/
theorem redact_round_trip_reserved : ∃ r,
    (redact "[CN_MOBILE_1] 13812345678" ⟨.s2, [⟨.cnMobile, some ⟨14, 11⟩⟩], .redact⟩
      ⟨.any, true, true, Inspect.defaultMaxInputUtf16⟩).run = some (.ok r) ∧
    r.text = "[CN_MOBILE_1] [CN_MOBILE_2]".toList ∧
    r.restore r.text = .ok "[CN_MOBILE_1] 13812345678".toList := by
  obtain ⟨result, hrun, -, -, hrestored⟩ := redact_round_trip "[CN_MOBILE_1] 13812345678"
    ⟨.any, true, true, Inspect.defaultMaxInputUtf16⟩
    ⟨.s2, [⟨.cnMobile, some ⟨14, 11⟩⟩], .redact⟩ (by decide +kernel) rfl
  have htext : (redact "[CN_MOBILE_1] 13812345678" ⟨.s2, [⟨.cnMobile, some ⟨14, 11⟩⟩], .redact⟩
      ⟨.any, true, true, Inspect.defaultMaxInputUtf16⟩).run.any (fun result =>
        result.toOption.any fun r => r.text = "[CN_MOBILE_1] [CN_MOBILE_2]".toList) = true := by
    decide +kernel
  rw [hrun] at htext
  cases result with
  | error error => cases htext
  | ok r => exact ⟨r, hrun, of_decide_eq_true htext, hrestored r rfl⟩

end Redact
