import IDoris.Redact.Tokens
import Mathlib.Data.List.DropRight

/-!
# The scanner over whole brackets

A text is cut into characters, brackets around a name, and brackets that opened and did not
close. What the scanner does with each of them depends on what went before only through the
letters and digits since the last placeholder.
-/
namespace Redact

variable {r : Redaction}

section Lengths

theorem le_foldl_max (xs : List Nat) (start : Nat) :
    start ≤ xs.foldl max start ∧ ∀ x ∈ xs, x ≤ xs.foldl max start := by
  induction xs generalizing start with
  | nil => simp
  | cons x xs ih =>
    obtain ⟨hstart, hall⟩ := ih (max start x)
    simp only [List.foldl_cons, List.mem_cons, forall_eq_or_imp]
    exact ⟨by omega, by omega, hall⟩

theorem one_lt_limit (r : Redaction) : 1 < r.limit := by
  have := (le_foldl_max ((r.table.map fun entry => byteLength entry.1) ++
    r.literals.map byteLength) 64).1
  rw [Redaction.limit]
  omega

theorem byteLength_le_limit {spelling : List Char}
    (h : spelling ∈ r.table.map Prod.fst ∨ spelling ∈ r.literals) :
    byteLength spelling ≤ r.limit := by
  refine (le_foldl_max _ 64).2 _ ?_
  rw [List.mem_append]
  obtain h | h := h
  · obtain ⟨entry, hentry, rfl⟩ := List.mem_map.mp h
    exact .inl (List.mem_map_of_mem (f := fun entry => byteLength entry.1) hentry)
  · exact .inr (List.mem_map_of_mem h)

theorem length_le_maxName {name : List Char} (h : name ∈ r.names) : name.length ≤ r.maxName :=
  (le_foldl_max _ 0).2 _ (List.mem_map_of_mem h)

end Lengths

section Tracking

theorem length_rtake (n : Nat) (full : List Char) : (full.rtake n).length = min n full.length := by
  rw [List.rtake, List.length_drop]
  omega

theorem rtake_suffix (n : Nat) (full : List Char) : full.rtake n <:+ full := List.drop_suffix _ _

theorem rtake_rtake_concat (n : Nat) (full : List Char) (c : Char) :
    (full.rtake n ++ [c]).rtake n = (full ++ [c]).rtake n := by
  rw [← List.rtake_concat_succ]
  simp only [List.rtake_eq_reverse_take_reverse, List.reverse_reverse, List.take_take,
    Nat.min_eq_left (Nat.le_succ n)]

theorem suffix_rtake_concat {n : Nat} {name full : List Char} (h : name.length ≤ n) (c : Char) :
    name <:+ full.rtake n ++ [c] ↔ name <:+ full ++ [c] := by
  rw [← List.rtake_concat_succ]
  constructor
  · exact fun hname => hname.trans (rtake_suffix _ _)
  · intro hname
    refine List.suffix_of_suffix_length_le hname (rtake_suffix _ _) ?_
    have := hname.length_le
    rw [length_rtake]
    omega

/-- No name ends within these characters, unless it is no longer than the bound there. -/
def Clear (r : Redaction) (bound : Nat → Nat) (full cs : List Char) : Prop :=
  ∀ u c v, cs = u ++ c :: v → ∀ name ∈ r.names, name <:+ full ++ (u ++ [c]) →
    name.length ≤ bound (u.length + 1)

theorem clear_nil (bound : Nat → Nat) (full : List Char) : Clear r bound full [] := by
  intro u c v h
  simp at h

theorem clear_cons {bound : Nat → Nat} {full cs : List Char} {c : Char} :
    Clear r bound full (c :: cs) ↔
      (∀ name ∈ r.names, name <:+ full ++ [c] → name.length ≤ bound 1) ∧
        Clear r (fun n => bound (n + 1)) (full ++ [c]) cs := by
  constructor
  · refine fun h => ⟨fun name hname hsuffix => h [] c cs rfl name hname hsuffix,
      fun u d v hsplit name hname hsuffix => ?_⟩
    refine h (c :: u) d v (by rw [hsplit]; rfl) name hname ?_
    simpa using hsuffix
  · rintro ⟨hfirst, hrest⟩ u d v hsplit name hname hsuffix
    cases u with
    | nil =>
      obtain ⟨rfl, rfl⟩ := List.cons.inj hsplit
      exact hfirst name hname hsuffix
    | cons d' u =>
      obtain ⟨rfl, rfl⟩ := List.cons.inj hsplit
      exact hrest u d v rfl name hname (by simpa using hsuffix)

theorem clear_append {full xs ys : List Char} : Clear r (fun _ => 0) full (xs ++ ys) ↔
    Clear r (fun _ => 0) full xs ∧ Clear r (fun _ => 0) (full ++ xs) ys := by
  induction xs generalizing full with
  | nil => simp [clear_nil]
  | cons c xs ih =>
    rw [List.cons_append, clear_cons, clear_cons, ih, and_assoc]
    simp

/-- Tracking succeeds when no name shows up, and keeps the last characters. -/
theorem trackFrom_eq_ok {literal : Bool} {inside : Nat} {s s' : Scan} {full cs : List Char}
    (hs : s.normalized = full.rtake r.maxName) :
    trackFrom r r.drain literal inside s cs = .ok s' ↔
      Clear r (fun n => if literal then inside + n else inside) full cs ∧
        s' = { s with normalized := (full ++ cs).rtake r.maxName } := by
  induction cs generalizing inside full s with
  | nil => simp [trackFrom, clear_nil, eq_comm, ← hs]
  | cons c cs ih =>
    have hname : (r.names.any fun name => name.isSuffixOf (full.rtake r.maxName ++ [c]) &&
        (if literal then inside + 1 else inside) < name.length) = true ↔
          ¬∀ name ∈ r.names, name <:+ full ++ [c] →
            name.length ≤ if literal then inside + 1 else inside := by
      simp only [List.any_eq_true, Bool.and_eq_true, List.isSuffixOf_iff_suffix, decide_eq_true_eq,
        not_forall, not_le]
      constructor
      · rintro ⟨name, hname, hsuffix, hlt⟩
        exact ⟨name, hname, (suffix_rtake_concat (length_le_maxName hname) c).mp hsuffix, hlt⟩
      · rintro ⟨name, hname, hsuffix, hlt⟩
        exact ⟨name, hname, (suffix_rtake_concat (length_le_maxName hname) c).mpr hsuffix, hlt⟩
    simp only [trackFrom, hs]
    by_cases hfound : (r.names.any fun name => name.isSuffixOf (full.rtake r.maxName ++ [c]) &&
        (if literal then inside + 1 else inside) < name.length) = true
    · rw [if_pos hfound, clear_cons]
      simp only [reduceCtorEq, false_iff]
      exact fun h => hname.mp hfound h.1.1
    · rw [if_neg hfound, clear_cons]
      have hclear : ∀ name ∈ r.names, name <:+ full ++ [c] →
          name.length ≤ if literal then inside + 1 else inside := by
        by_contra hnot
        exact hfound (hname.mpr hnot)
      have hdrain : r.drain (full.rtake r.maxName ++ [c]) = (full ++ [c]).rtake r.maxName :=
        rtake_rtake_concat _ _ _
      rw [ih hdrain]
      have hbound : (fun n => if literal then (if literal then inside + 1 else inside) + n else
          if literal then inside + 1 else inside) =
            fun n => if literal then inside + (n + 1) else inside := by
        funext n
        cases literal
        · rfl
        · simp only [if_true]
          omega
      rw [hbound, and_iff_right hclear]
      simp

end Tracking

section Plain

variable {s s' : Scan} {full text out : List Char}

theorem track_eq_ok {literal : Bool} (hs : s.normalized = full.rtake r.maxName) :
    track r r.drain s text literal = .ok s' ↔
      Clear r (fun n => if literal then n else 0) full (normalize text) ∧
        s' = { s with normalized := (full ++ normalize text).rtake r.maxName } := by
  rw [track, trackFrom_eq_ok hs]
  simp only [Nat.zero_add]

theorem plain_eq_ok (hs : s.normalized = full.rtake r.maxName) :
    plain r r.drain s text = .ok (s', out) ↔ Clear r (fun _ => 0) full (normalize text) ∧
      s' = { s with normalized := (full ++ normalize text).rtake r.maxName } ∧ out = text := by
  have htrack : ∀ t, track r r.drain s text false = .ok t ↔ _ := fun t => track_eq_ok hs
  simp only [plain, bind, Except.bind]
  cases hresult : track r r.drain s text false with
  | error e =>
    simp only [hresult, reduceCtorEq, false_iff, Bool.false_eq_true, if_false, not_and] at htrack
    simp only [reduceCtorEq, false_iff, not_and]
    exact fun hclear => absurd rfl (htrack _ hclear)
  | ok t =>
    obtain ⟨hclear, rfl⟩ := (htrack t).mp hresult
    simp only [pure, Except.pure, Except.ok.injEq, Prod.mk.injEq]
    simp only [Bool.false_eq_true, if_false] at hclear
    rw [and_iff_right hclear, eq_comm, eq_comm (a := text)]

end Plain

section Pieces

variable {s s' : Scan} {full body out : List Char} {c : Char}

theorem normalize_open (body : List Char) : normalize ('[' :: body) = normalize body := by
  rw [← List.singleton_append, normalize_append]
  rfl

theorem normalize_bracket (body : List Char) : normalize ('[' :: body ++ [']']) = normalize body := by
  rw [normalize_append, normalize_open]
  exact List.append_nil _

theorem release_none (h : s.token = none) : release r r.drain s = .ok (s, []) := by
  rw [release, h]
  rfl

theorem release_some (t : Token) (normalized : List Char) (seen : List Bool) :
    release r r.drain ⟨some t, normalized, seen⟩ =
      plain r r.drain ⟨none, normalized, seen⟩ t.spelling := rfl

theorem scan_singleton (s : Scan) (c : Char) : scan r r.drain s [c] = step r r.drain s c := by
  simp only [scan, bind, Except.bind, pure, Except.pure]
  cases step r r.drain s c with
  | error e => rfl
  | ok found => simp only [List.append_nil]

theorem bind_eq_ok {α β : Type} {x : Outcome α} {f : α → Outcome β} {b : β} :
    (x >>= f) = .ok b ↔ ∃ a, x = .ok a ∧ f a = .ok b := by
  cases x with
  | error e => simp [bind, Except.bind]
  | ok a => simp [bind, Except.bind]

theorem scan_append_eq_ok {xs ys : List Char} : scan r r.drain s (xs ++ ys) = .ok (s', out) ↔
    ∃ t a b, scan r r.drain s xs = .ok (t, a) ∧ scan r r.drain t ys = .ok (s', b) ∧
      out = a ++ b := by
  rw [scan_append]
  simp only [bind_eq_ok, Prod.exists, pure, Except.pure, Except.ok.injEq, Prod.mk.injEq]
  constructor
  · rintro ⟨t, a, hfirst, _, b, hrest, rfl, rfl⟩
    exact ⟨t, a, b, hfirst, hrest, rfl⟩
  · rintro ⟨t, a, b, hfirst, hrest, rfl⟩
    exact ⟨t, a, hfirst, _, b, hrest, rfl, rfl⟩

theorem not_word_close : isWord ']' = false := by decide

section Word

variable {u : Scan}

theorem byteLength_concat (body : List Char) (c : Char) :
    byteLength (body ++ [c]) = byteLength body + c.utf8Size := by
  rw [byteLength_append]
  simp [byteLength]

theorem word_held (hfits : ¬r.limit ≤ 1 + byteLength (body ++ [c])) :
    word r r.drain u (.read r.limit body) c =
      .ok ({ u with token := some (.read r.limit (body ++ [c])) }, []) := by
  obtain ⟨hoverflow, hspelling⟩ := Token.read_spelling (one_lt_limit r) body
  rw [byteLength_concat] at hfits
  have hheld : ¬r.limit ≤ 1 + byteLength body := by omega
  have hcond : (!((Token.read r.limit body).advance c).overflow && decide (byteLength
      ((Token.read r.limit body).advance c).spelling + c.utf8Size < r.limit)) = true := by
    rw [Token.advance_overflow, Token.advance_spelling, hoverflow, hspelling, if_neg hheld,
      byteLength_open]
    simp
    omega
  simp only [word, Token.read_concat, Token.take]
  rw [if_pos hcond, if_pos hcond]
  rfl

theorem word_released (hheld : ¬r.limit ≤ 1 + byteLength body)
    (hlong : r.limit ≤ 1 + byteLength (body ++ [c])) :
    word r r.drain u (.read r.limit body) c = (do
      let (u, held) ← plain r r.drain u ('[' :: body)
      let (u, here) ← plain r r.drain u [c]
      return ({ u with token := some (.read r.limit (body ++ [c])) }, held ++ here)) := by
  obtain ⟨hoverflow, hspelling⟩ := Token.read_spelling (one_lt_limit r) body
  rw [byteLength_concat] at hlong
  have hcond : ¬(!((Token.read r.limit body).advance c).overflow && decide (byteLength
      ((Token.read r.limit body).advance c).spelling + c.utf8Size < r.limit)) = true := by
    rw [Token.advance_overflow, Token.advance_spelling, hoverflow, hspelling, if_neg hheld,
      byteLength_open]
    simp
    omega
  simp only [word, Token.read_concat, Token.take]
  rw [if_neg hcond, if_neg hcond]
  simp only [overflow, Token.advance_overflow, Token.advance_spelling, hoverflow, hspelling,
    if_neg hheld, decide_eq_false hheld, Bool.false_eq_true, if_false]

theorem word_free (hlong : r.limit ≤ 1 + byteLength body) :
    word r r.drain u (.read r.limit body) c = (do
      let (u, here) ← plain r r.drain u [c]
      return ({ u with token := some (.read r.limit (body ++ [c])) }, here)) := by
  obtain ⟨hoverflow, hspelling⟩ := Token.read_spelling (one_lt_limit r) body
  have hcond : ¬(!((Token.read r.limit body).advance c).overflow && decide (byteLength
      ((Token.read r.limit body).advance c).spelling + c.utf8Size < r.limit)) = true := by
    rw [Token.advance_overflow, hoverflow]
    simp [hlong]
  simp only [word, Token.read_concat, Token.take]
  rw [if_neg hcond, if_neg hcond]
  simp only [overflow, Token.advance_overflow, Token.advance_spelling, hoverflow, hspelling,
    if_pos hlong, decide_eq_true hlong, if_true, pure_bind, List.nil_append]

end Word

/-- A name is read: what is held is not tracked yet, the rest is. -/
theorem scan_open (hs : s.token = none) (hfull : s.normalized = full.rtake r.maxName)
    (hbody : ∀ c ∈ body, isWord c = true) :
    scan r r.drain s ('[' :: body) = .ok (s', out) ↔
      if r.limit ≤ 1 + byteLength body then
        Clear r (fun _ => 0) full (normalize body) ∧
          s' = ⟨some (.read r.limit body), (full ++ normalize body).rtake r.maxName, s.seen⟩ ∧
          out = '[' :: body
      else s' = ⟨some (.read r.limit body), s.normalized, s.seen⟩ ∧ out = [] := by
  induction body using List.reverseRecOn generalizing s' out with
  | nil =>
    have hlimit := one_lt_limit r
    have hnot : ¬r.limit ≤ 1 + byteLength [] := by
      simp only [byteLength, List.map_nil, List.sum_nil]
      omega
    rw [if_neg hnot, scan_singleton]
    simp only [step, hs, other, release_none hs, bind, Except.bind, if_true, pure, Except.pure,
      Except.ok.injEq, Prod.mk.injEq]
    rw [eq_comm, eq_comm (a := ([] : List Char))]
    rfl
  | append_singleton body c ih =>
    have hword := hbody c (by simp)
    have hne : c ≠ ']' := by
      rintro rfl
      rw [not_word_close] at hword
      cases hword
    have ih := fun {s' out} => @ih s' out fun d hd => hbody d (by simp [hd])
    have hpos := Char.utf8Size_pos c
    have hlen := byteLength_concat body c
    have hstep : ∀ {t : Scan} {token : Token}, t.token = some token →
        step r r.drain t c = word r r.drain { t with token := none } token c := by
      intro t token ht
      simp only [step, ht, if_neg hne, hword, if_true]
    rw [← List.cons_append, scan_append_eq_ok]
    simp only [scan_singleton, ih]
    by_cases hlong : r.limit ≤ 1 + byteLength body
    · have hlong' : r.limit ≤ 1 + byteLength (body ++ [c]) := by omega
      rw [if_pos hlong']
      simp only [if_pos hlong]
      constructor
      · rintro ⟨t, a, b, ⟨hclear, rfl, rfl⟩, hc, rfl⟩
        rw [hstep rfl, word_free hlong, bind_eq_ok] at hc
        obtain ⟨⟨u, here⟩, hplain, hresult⟩ := hc
        obtain ⟨hclear', rfl, rfl⟩ := (plain_eq_ok (show _ = (full ++ normalize body).rtake r.maxName from rfl)).mp hplain
        cases hresult
        rw [normalize_append, clear_append, ← List.append_assoc]
        exact ⟨⟨hclear, hclear'⟩, rfl, rfl⟩
      · rintro ⟨hclear, rfl, rfl⟩
        rw [normalize_append, clear_append] at hclear
        refine ⟨_, _, [c], ⟨hclear.1, rfl, rfl⟩, ?_, rfl⟩
        rw [hstep rfl, word_free hlong, bind_eq_ok]
        refine ⟨_, (plain_eq_ok (show _ = (full ++ normalize body).rtake r.maxName from rfl)).mpr ⟨hclear.2, rfl, rfl⟩, ?_⟩
        rw [normalize_append, ← List.append_assoc]
        rfl
    · simp only [if_neg hlong]
      by_cases hlong' : r.limit ≤ 1 + byteLength (body ++ [c])
      · rw [if_pos hlong']
        constructor
        · rintro ⟨t, a, b, ⟨rfl, rfl⟩, hc, rfl⟩
          rw [hstep rfl, word_released hlong hlong', bind_eq_ok] at hc
          obtain ⟨⟨u, held⟩, hfirst, hc⟩ := hc
          obtain ⟨hclear, rfl, rfl⟩ :=
            (plain_eq_ok (s := ⟨none, s.normalized, s.seen⟩) hfull).mp hfirst
          rw [bind_eq_ok] at hc
          obtain ⟨⟨u, here⟩, hplain, hresult⟩ := hc
          obtain ⟨hclear', rfl, rfl⟩ :=
            (plain_eq_ok (show _ = (full ++ normalize ('[' :: body)).rtake r.maxName from rfl)).mp hplain
          cases hresult
          rw [normalize_open] at hclear hclear' ⊢
          rw [normalize_append, clear_append, ← List.append_assoc]
          exact ⟨⟨hclear, hclear'⟩, rfl, rfl⟩
        · rintro ⟨hclear, rfl, rfl⟩
          rw [normalize_append, clear_append] at hclear
          refine ⟨_, _, '[' :: body ++ [c], ⟨rfl, rfl⟩, ?_, rfl⟩
          rw [hstep rfl, word_released hlong hlong', bind_eq_ok]
          refine ⟨_, (plain_eq_ok (s := ⟨none, s.normalized, s.seen⟩) hfull).mpr
            ⟨by rw [normalize_open]; exact hclear.1, rfl, rfl⟩, ?_⟩
          rw [bind_eq_ok]
          refine ⟨_, (plain_eq_ok (show _ = (full ++ normalize ('[' :: body)).rtake r.maxName from rfl)).mpr
            ⟨by rw [normalize_open]; exact hclear.2, rfl, rfl⟩, ?_⟩
          rw [normalize_open, normalize_append, ← List.append_assoc]
          rfl
      · rw [if_neg hlong']
        constructor
        · rintro ⟨t, a, b, ⟨rfl, rfl⟩, hc, rfl⟩
          rw [hstep rfl, word_held hlong'] at hc
          cases hc
          exact ⟨rfl, rfl⟩
        · rintro ⟨rfl, rfl⟩
          refine ⟨_, [], [], ⟨rfl, rfl⟩, ?_, rfl⟩
          rw [hstep rfl, word_held hlong']

end Pieces

/-- A character other than a bracket that opens, a bracket that opened, with the name behind
it, or a closed bracket around a name. -/
inductive Lexeme where
  | char (c : Char)
  | opened (body : List Char)
  | bracket (body : List Char)

namespace Lexeme

def spelling : Lexeme → List Char
  | char c => [c]
  | opened body => '[' :: body
  | bracket body => '[' :: body ++ [']']

/-- The entry of the table for a bracket, which must not be one that the input had. -/
def entry (r : Redaction) (body : List Char) : Option Nat :=
  if r.literals.contains ('[' :: body ++ [']']) then none
  else r.table.findIdx? (·.1 = '[' :: body ++ [']'])

def original (r : Redaction) (index : Nat) : List Char := (r.table[index]?.map Prod.snd).getD []

def render (r : Redaction) : Lexeme → List Char
  | bracket body => ((entry r body).map (original r)).getD (bracket body).spelling
  | l => l.spelling

def mark (r : Redaction) (seen : List Bool) : Lexeme → List Bool
  | bracket body => ((entry r body).map fun index => seen.set index true).getD seen
  | _ => seen

/-- The letters and digits since the last placeholder. -/
def after (r : Redaction) (full : List Char) : Lexeme → List Char
  | bracket body => if (entry r body).isSome then [] else full ++ normalize body
  | l => full ++ normalize l.spelling

/-- The scanner lets it through. -/
def Passes (r : Redaction) (full : List Char) : Lexeme → Prop
  | bracket body =>
    if r.literals.contains ('[' :: body ++ [']']) then Clear r id full (normalize body)
    else (entry r body).isSome ∨
      (Token.read r.limit body).placeholder = false ∧ Clear r (fun _ => 0) full (normalize body)
  | l => Clear r (fun _ => 0) full (normalize l.spelling)

end Lexeme

def spell (ls : List Lexeme) : List Char := ls.flatMap Lexeme.spelling

/-- How a text is cut. -/
inductive Lexed : List Lexeme → Prop
  | nil : Lexed []
  | char {c : Char} {ls : List Lexeme} : c ≠ '[' → Lexed ls → Lexed (.char c :: ls)
  | opened {body : List Char} {ls : List Lexeme} : (∀ c ∈ body, isWord c = true) →
      (∀ c, (spell ls).head? = some c → isWord c = false ∧ c ≠ ']') → Lexed ls →
      Lexed (.opened body :: ls)
  | bracket {body : List Char} {ls : List Lexeme} : (∀ c ∈ body, isWord c = true) → Lexed ls →
      Lexed (.bracket body :: ls)

/-- Every text is cut in this way. -/
theorem exists_lexed (text : List Char) : ∃ ls, Lexed ls ∧ spell ls = text := by
  induction hn : text.length using Nat.strong_induction_on generalizing text with
  | h n ih =>
    cases text with
    | nil => exact ⟨[], .nil, rfl⟩
    | cons c cs =>
      simp only [List.length_cons] at hn
      by_cases hopen : c = '['
      · subst hopen
        have hword : ∀ d ∈ cs.takeWhile isWord, isWord d = true :=
          fun d hd => List.mem_takeWhile_imp hd
        have hsplit := List.takeWhile_append_dropWhile (p := isWord) (l := cs)
        have hshorter := List.length_dropWhile_le isWord cs
        have hstop : ∀ d, (cs.dropWhile isWord).head? = some d → isWord d = false := by
          intro d hd
          have hnot := List.head?_dropWhile_not isWord cs
          rw [hd] at hnot
          exact hnot
        by_cases hclose : (cs.dropWhile isWord).head? = some ']'
        · obtain ⟨rest, hrest⟩ : ∃ rest, cs.dropWhile isWord = ']' :: rest := by
            cases hdrop : cs.dropWhile isWord with
            | nil => simp [hdrop] at hclose
            | cons d rest => exact ⟨rest, by simpa [hdrop] using hclose⟩
          obtain ⟨ls, hls, hspell⟩ := ih rest.length (by
            rw [hrest] at hshorter
            simp only [List.length_cons] at hshorter
            omega) rest rfl
          refine ⟨.bracket (cs.takeWhile isWord) :: ls, .bracket hword hls, ?_⟩
          rw [spell, List.flatMap_cons, ← spell, hspell]
          conv_rhs => rw [← hsplit, hrest]
          simp [Lexeme.spelling]
        · obtain ⟨ls, hls, hspell⟩ := ih (cs.dropWhile isWord).length (by omega) _ rfl
          refine ⟨.opened (cs.takeWhile isWord) :: ls, .opened hword (fun d hd => ?_) hls, ?_⟩
          · rw [hspell] at hd
            exact ⟨hstop d hd, fun h => hclose (h ▸ hd)⟩
          · rw [spell, List.flatMap_cons, ← spell, hspell]
            conv_rhs => rw [← hsplit]
            rfl
      · obtain ⟨ls, hls, hspell⟩ := ih cs.length (by omega) cs rfl
        exact ⟨.char c :: ls, .char hopen hls, by rw [spell, List.flatMap_cons, ← spell, hspell]; rfl⟩

section Run

variable {s s' : Scan} {full body out : List Char} {c : Char}

/-- A text and then the end of a bracket that is still open. -/
def settle (r : Redaction) (s : Scan) (text : List Char) : Outcome (Scan × List Char) := do
  let (s, first) ← scan r r.drain s text
  let (s, rest) ← release r r.drain s
  return (s, first ++ rest)

theorem settle_eq_ok {text : List Char} : settle r s text = .ok (s', out) ↔
    ∃ t a b, scan r r.drain s text = .ok (t, a) ∧ release r r.drain t = .ok (s', b) ∧
      out = a ++ b := by
  simp only [settle, bind_eq_ok, Prod.exists, pure, Except.pure, Except.ok.injEq, Prod.mk.injEq]
  constructor
  · rintro ⟨t, a, hscan, _, b, hrelease, rfl, rfl⟩
    exact ⟨t, a, b, hscan, hrelease, rfl⟩
  · rintro ⟨t, a, b, hscan, hrelease, rfl⟩
    exact ⟨t, a, hscan, _, b, hrelease, rfl, rfl⟩

theorem not_mem_of_long (hlong : r.limit ≤ 1 + byteLength body) :
    r.literals.contains ('[' :: body ++ [']']) = false ∧ Lexeme.entry r body = none := by
  have hbytes : byteLength ('[' :: body ++ [']']) = 1 + byteLength body + 1 := by
    rw [byteLength_append, byteLength_open]
    rfl
  have hliteral : r.literals.contains ('[' :: body ++ [']']) = false := by
    by_contra h
    rw [Bool.not_eq_false, List.contains_iff_mem] at h
    have := byteLength_le_limit (.inr h)
    omega
  refine ⟨hliteral, ?_⟩
  rw [Lexeme.entry, hliteral, if_neg Bool.false_ne_true, List.findIdx?_eq_none_iff]
  intro entry hentry
  rw [decide_eq_false_iff_not]
  intro heq
  have := byteLength_le_limit (r := r) (.inl (List.mem_map_of_mem (f := Prod.fst) hentry))
  rw [heq] at this
  omega

theorem settle_char (hs : s.token = none) (hfull : s.normalized = full.rtake r.maxName)
    (hc : c ≠ '[') : settle r s [c] = .ok (s', out) ↔ (Lexeme.char c).Passes r full ∧
      s' = ⟨none, ((Lexeme.char c).after r full).rtake r.maxName, s.seen⟩ ∧ out = [c] := by
  have hstep : scan r r.drain s [c] = plain r r.drain s [c] := by
    rw [scan_singleton]
    simp only [step, hs, other, release_none hs, bind, Except.bind, if_neg hc, List.nil_append]
    cases plain r r.drain s [c] <;> rfl
  rw [settle_eq_ok]
  constructor
  · rintro ⟨t, a, b, hscan, hrelease, rfl⟩
    rw [hstep] at hscan
    obtain ⟨hclear, rfl, rfl⟩ := (plain_eq_ok hfull).mp hscan
    rw [release_none (by exact hs)] at hrelease
    cases hrelease
    exact ⟨hclear, by rw [hs]; rfl, rfl⟩
  · rintro ⟨hclear, rfl, rfl⟩
    exact ⟨_, [c], [], hstep.trans ((plain_eq_ok hfull).mpr ⟨hclear, rfl, rfl⟩),
      by rw [release_none (by exact hs), hs]; rfl, rfl⟩

theorem settle_opened (hs : s.token = none) (hfull : s.normalized = full.rtake r.maxName)
    (hbody : ∀ c ∈ body, isWord c = true) :
    settle r s ('[' :: body) = .ok (s', out) ↔ (Lexeme.opened body).Passes r full ∧
      s' = ⟨none, ((Lexeme.opened body).after r full).rtake r.maxName, s.seen⟩ ∧
      out = '[' :: body := by
  obtain ⟨-, hspelling⟩ := Token.read_spelling (one_lt_limit r) body
  rw [settle_eq_ok]
  simp only [scan_open hs hfull hbody, Lexeme.Passes, Lexeme.after, Lexeme.spelling, normalize_open]
  by_cases hlong : r.limit ≤ 1 + byteLength body
  · simp only [if_pos hlong] at hspelling ⊢
    have hrest : ∀ {u : Scan} {b : List Char}, u.normalized = (full ++ normalize body).rtake r.maxName →
        (plain r r.drain u [] = .ok (s', b) ↔ s' = u ∧ b = []) := by
      intro u b hu
      have hnil : normalize [] = [] := rfl
      rw [plain_eq_ok hu, hnil]
      simp only [clear_nil, List.append_nil, true_and]
      rw [← hu]
    constructor
    · rintro ⟨t, a, b, ⟨hclear, rfl, rfl⟩, hrelease, rfl⟩
      rw [release_some, hspelling] at hrelease
      obtain ⟨rfl, rfl⟩ := (hrest rfl).mp hrelease
      exact ⟨hclear, rfl, List.append_nil _⟩
    · rintro ⟨hclear, rfl, rfl⟩
      refine ⟨_, _, [], ⟨hclear, rfl, rfl⟩, ?_, (List.append_nil _).symm⟩
      rw [release_some, hspelling]
      exact (hrest rfl).mpr ⟨rfl, rfl⟩
  · simp only [if_neg hlong] at hspelling ⊢
    have hplain : ∀ {b : List Char}, plain r r.drain ⟨none, s.normalized, s.seen⟩ ('[' :: body) =
        .ok (s', b) ↔ Clear r (fun _ => 0) full (normalize body) ∧
          s' = ⟨none, (full ++ normalize body).rtake r.maxName, s.seen⟩ ∧ b = '[' :: body := by
      intro b
      rw [plain_eq_ok (s := ⟨none, s.normalized, s.seen⟩) hfull, normalize_open]
    constructor
    · rintro ⟨t, a, b, ⟨rfl, rfl⟩, hrelease, rfl⟩
      rw [release_some, hspelling] at hrelease
      exact hplain.mp hrelease
    · rintro ⟨hclear, rfl, rfl⟩
      refine ⟨_, [], _, ⟨rfl, rfl⟩, ?_, rfl⟩
      rw [release_some, hspelling]
      exact hplain.mpr ⟨hclear, rfl, rfl⟩

/-- A name in brackets: one that the input had passes, an entry of the table is replaced, and
any other must not have the shape of a placeholder. -/
theorem close_eq_ok {u : Scan} (hfull : u.normalized =
      (if r.limit ≤ 1 + byteLength body then full ++ normalize body else full).rtake r.maxName)
    (hclear : r.limit ≤ 1 + byteLength body → Clear r (fun _ => 0) full (normalize body)) :
    close r r.drain u (.read r.limit body) = .ok (s', out) ↔ (Lexeme.bracket body).Passes r full ∧
      s' = ⟨u.token, ((Lexeme.bracket body).after r full).rtake r.maxName,
        (Lexeme.bracket body).mark r u.seen⟩ ∧
      (if r.limit ≤ 1 + byteLength body then '[' :: body ++ out else out) =
        (Lexeme.bracket body).render r := by
  obtain ⟨hoverflow, hspelling⟩ := Token.read_spelling (one_lt_limit r) body
  by_cases hlong : r.limit ≤ 1 + byteLength body
  · obtain ⟨hliteral, hentry⟩ := not_mem_of_long hlong
    have hclose : normalize [']'] = [] := by decide
    simp only [if_pos hlong] at hfull hspelling ⊢
    simp only [close, hoverflow, decide_eq_true hlong, Bool.not_true, Bool.false_and,
      Bool.false_eq_true, if_false, if_true, Lexeme.Passes, Lexeme.after, Lexeme.mark,
      Lexeme.render, hliteral, hentry, Option.isSome_none, false_or, Option.map_none,
      Option.getD_none, Lexeme.spelling]
    by_cases hplaceholder : (Token.read r.limit body).placeholder = true
    · simp only [hplaceholder, if_true, reduceCtorEq, false_and]
    · rw [if_neg hplaceholder, plain_eq_ok hfull, hclose, List.append_nil]
      simp only [clear_nil, true_and, Bool.not_eq_true] at hplaceholder ⊢
      simp only [hplaceholder, true_and, hclear hlong]
      rw [List.append_right_inj]
  · have hspell : (Token.read r.limit body).spelling ++ [']'] = '[' :: body ++ [']'] := by
      rw [hspelling, if_neg hlong]
    simp only [if_neg hlong] at hfull ⊢
    simp only [close, hoverflow, decide_eq_false hlong, Bool.not_false, Bool.true_and, hspell,
      Bool.false_eq_true, if_false, Lexeme.Passes, Lexeme.after, Lexeme.mark, Lexeme.render,
      Lexeme.spelling]
    by_cases hliteral : r.literals.contains ('[' :: body ++ [']']) = true
    · have hentry : Lexeme.entry r body = none := by
        rw [Lexeme.entry, if_pos hliteral]
      rw [if_pos hliteral, if_pos hliteral, bind_eq_ok]
      simp only [hentry, Option.isSome_none, Bool.false_eq_true, if_false, Option.map_none,
        Option.getD_none, track_eq_ok hfull, normalize_bracket, if_true, pure, Except.pure,
        Except.ok.injEq, Prod.mk.injEq]
      constructor
      · rintro ⟨n, ⟨hclear, rfl⟩, rfl, rfl⟩
        exact ⟨hclear, rfl, rfl⟩
      · rintro ⟨hclear, rfl, rfl⟩
        exact ⟨_, ⟨hclear, rfl⟩, rfl, rfl⟩
    · rw [if_neg hliteral, if_neg hliteral]
      have hentry : Lexeme.entry r body = r.table.findIdx? (·.1 = '[' :: body ++ [']']) := by
        rw [Lexeme.entry, if_neg hliteral]
      rw [← hentry]
      cases Lexeme.entry r body with
      | some index =>
        simp only [pure, Except.pure, Except.ok.injEq, Prod.mk.injEq, Option.isSome_some, true_or,
          if_true, Option.map_some, Option.getD_some, true_and]
        rw [List.rtake_nil, eq_comm, eq_comm (b := out)]
        rfl
      | none =>
        simp only [Option.isSome_none, Bool.false_eq_true, false_or, if_false, Option.map_none,
          Option.getD_none]
        by_cases hplaceholder : (Token.read r.limit body).placeholder = true
        · simp only [hplaceholder, if_true, reduceCtorEq, false_and]
        · rw [if_neg hplaceholder, plain_eq_ok hfull, normalize_bracket, Bool.not_eq_true] at *
          simp only [hplaceholder, true_and]

theorem settle_bracket (hs : s.token = none) (hfull : s.normalized = full.rtake r.maxName)
    (hbody : ∀ c ∈ body, isWord c = true) :
    settle r s ('[' :: body ++ [']']) = .ok (s', out) ↔ (Lexeme.bracket body).Passes r full ∧
      s' = ⟨none, ((Lexeme.bracket body).after r full).rtake r.maxName,
        (Lexeme.bracket body).mark r s.seen⟩ ∧ out = (Lexeme.bracket body).render r := by
  have hstep : ∀ {n : List Char}, step r r.drain ⟨some (.read r.limit body), n, s.seen⟩ ']' =
      close r r.drain ⟨none, n, s.seen⟩ (.read r.limit body) := by
    intro n
    simp only [step, if_true]
  rw [settle_eq_ok]
  simp only [scan_append_eq_ok, scan_open hs hfull hbody, scan_singleton]
  by_cases hlong : r.limit ≤ 1 + byteLength body
  · simp only [if_pos hlong]
    have hclose : ∀ {t : Scan} {b : List Char}, Clear r (fun _ => 0) full (normalize body) →
        (close r r.drain ⟨none, (full ++ normalize body).rtake r.maxName, s.seen⟩ (.read r.limit body) =
          .ok (t, b) ↔ (Lexeme.bracket body).Passes r full ∧
            t = ⟨none, ((Lexeme.bracket body).after r full).rtake r.maxName,
              (Lexeme.bracket body).mark r s.seen⟩ ∧
            '[' :: body ++ b = (Lexeme.bracket body).render r) := by
      intro t b hclear
      refine (close_eq_ok (by rw [if_pos hlong]) fun _ => hclear).trans ?_
      rw [if_pos hlong]
    obtain ⟨hliteral, hentry⟩ := not_mem_of_long hlong
    have hpasses : (Lexeme.bracket body).Passes r full → Clear r (fun _ => 0) full (normalize body) := by
      simp only [Lexeme.Passes, hliteral, hentry, Bool.false_eq_true, if_false,
        Option.isSome_none, false_or]
      exact And.right
    constructor
    · rintro ⟨t, a, b, ⟨t', a', b', ⟨hclear, rfl, rfl⟩, hc, rfl⟩, hrelease, rfl⟩
      rw [hstep] at hc
      obtain ⟨hpass, rfl, hout⟩ := (hclose hclear).mp hc
      rw [release_none rfl] at hrelease
      cases hrelease
      exact ⟨hpass, rfl, by rw [List.append_nil, hout]⟩
    · rintro ⟨hpass, rfl, rfl⟩
      have hclear := hpasses hpass
      have hrender : (Lexeme.bracket body).render r = '[' :: body ++ [']'] := by
        simp only [Lexeme.render, hentry, Option.map_none, Option.getD_none, Lexeme.spelling]
      refine ⟨_, _, [], ⟨_, _, [']'], ⟨hclear, rfl, rfl⟩, ?_, rfl⟩, release_none rfl, ?_⟩
      · rw [hstep]
        exact (hclose hclear).mpr ⟨hpass, rfl, hrender.symm⟩
      · rw [hrender, List.append_nil]
  · simp only [if_neg hlong]
    have hclose : ∀ {t : Scan} {b : List Char},
        close r r.drain ⟨none, s.normalized, s.seen⟩ (.read r.limit body) = .ok (t, b) ↔
          (Lexeme.bracket body).Passes r full ∧
            t = ⟨none, ((Lexeme.bracket body).after r full).rtake r.maxName,
              (Lexeme.bracket body).mark r s.seen⟩ ∧
            b = (Lexeme.bracket body).render r := by
      intro t b
      refine (close_eq_ok (by rw [if_neg hlong]; exact hfull) fun h => absurd h hlong).trans ?_
      rw [if_neg hlong]
    constructor
    · rintro ⟨t, a, b, ⟨t', a', b', ⟨rfl, rfl⟩, hc, rfl⟩, hrelease, rfl⟩
      rw [hstep] at hc
      obtain ⟨hpass, rfl, rfl⟩ := hclose.mp hc
      rw [release_none rfl] at hrelease
      cases hrelease
      exact ⟨hpass, rfl, List.append_nil _⟩
    · rintro ⟨hpass, rfl, rfl⟩
      refine ⟨_, _, [], ⟨_, [], (Lexeme.bracket body).render r, ⟨rfl, rfl⟩, ?_, rfl⟩,
        release_none rfl, (List.append_nil _).symm⟩
      rw [hstep]
      exact hclose.mpr ⟨hpass, rfl, rfl⟩

/-- The scanner lets every lexeme through. -/
def AllPass (r : Redaction) : (full : List Char) → List Lexeme → Prop
  | _, [] => True
  | full, l :: ls => l.Passes r full ∧ AllPass r (l.after r full) ls

theorem settle_lexeme {l : Lexeme} (hl : Lexed [l]) (hs : s.token = none)
    (hfull : s.normalized = full.rtake r.maxName) :
    settle r s l.spelling = .ok (s', out) ↔ l.Passes r full ∧
      s' = ⟨none, (l.after r full).rtake r.maxName, l.mark r s.seen⟩ ∧ out = l.render r := by
  cases hl with
  | char hc _ => exact settle_char hs hfull hc
  | opened hbody _ _ => exact settle_opened hs hfull hbody
  | bracket hbody _ => exact settle_bracket hs hfull hbody

theorem trackFrom_token {literal : Bool} {inside : Nat} {t u : Scan} {cs : List Char}
    (h : trackFrom r r.drain literal inside t cs = .ok u) : u.token = t.token := by
  induction cs generalizing inside t with
  | nil =>
    cases h
    rfl
  | cons c cs ih =>
    simp only [trackFrom] at h
    generalize (if literal then inside + 1 else inside) = counted at h
    split at h
    · cases h
    · exact (ih h).trans rfl

theorem plain_token {t u : Scan} {text a : List Char} (h : plain r r.drain t text = .ok (u, a)) :
    u.token = t.token := by
  simp only [plain, bind_eq_ok, pure, Except.pure, Except.ok.injEq, Prod.mk.injEq] at h
  obtain ⟨n, htrack, rfl, -⟩ := h
  exact trackFrom_token htrack

theorem release_token {t u : Scan} {a : List Char} (h : release r r.drain t = .ok (u, a)) :
    u.token = none := by
  rw [release] at h
  split at h
  · rw [plain_token h]
  · next hnone =>
    cases h
    exact hnone

theorem settle_append {xs ys : List Char} : settle r s (xs ++ ys) = .ok (s', out) ↔
    ∃ t a b, scan r r.drain s xs = .ok (t, a) ∧ settle r t ys = .ok (s', b) ∧ out = a ++ b := by
  simp only [settle_eq_ok, scan_append_eq_ok]
  constructor
  · rintro ⟨t, a, b, ⟨u, a', b', hxs, hys, rfl⟩, hrelease, rfl⟩
    exact ⟨u, a', b' ++ b, hxs, ⟨t, b', b, hys, hrelease, rfl⟩, List.append_assoc _ _ _⟩
  · rintro ⟨u, a, b, hxs, ⟨t, b', b'', hys, hrelease, rfl⟩, rfl⟩
    exact ⟨t, a ++ b', b'', ⟨u, a, b', hxs, hys, rfl⟩, hrelease, (List.append_assoc _ _ _).symm⟩

/-- A character that stands outside of names, when no bracket is open. -/
def outside (r : Redaction) (s : Scan) (c : Char) : Outcome (Scan × List Char) :=
  if c = '[' then .ok ({ s with token := some .new }, []) else plain r r.drain s [c]

theorem other_eq_ok {t : Scan} : other r r.drain t c = .ok (s', out) ↔
    ∃ u a b, release r r.drain t = .ok (u, a) ∧ outside r u c = .ok (s', b) ∧ out = a ++ b := by
  rw [other, bind_eq_ok]
  constructor
  · rintro ⟨⟨u, a⟩, hu, hrest⟩
    simp only [outside]
    by_cases hopen : c = '['
    · simp only [if_pos hopen] at hrest ⊢
      cases hrest
      exact ⟨u, _, [], hu, rfl, (List.append_nil _).symm⟩
    · simp only [if_neg hopen, bind_eq_ok] at hrest ⊢
      obtain ⟨⟨v, b⟩, hplain, hresult⟩ := hrest
      cases hresult
      exact ⟨u, a, b, hu, hplain, rfl⟩
  · rintro ⟨u, a, b, hu, hrest, rfl⟩
    refine ⟨⟨u, a⟩, hu, ?_⟩
    simp only [outside] at hrest ⊢
    by_cases hopen : c = '['
    · simp only [if_pos hopen] at hrest ⊢
      cases hrest
      rw [List.append_nil]
      rfl
    · simp only [if_neg hopen, bind_eq_ok] at hrest ⊢
      exact ⟨_, hrest, rfl⟩

theorem other_none {t : Scan} (h : t.token = none) :
    other r r.drain t c = .ok (s', out) ↔ outside r t c = .ok (s', out) := by
  rw [other_eq_ok]
  constructor
  · rintro ⟨u, a, b, hu, hrest, rfl⟩
    rw [release_none h] at hu
    cases hu
    exact hrest
  · exact fun hrest => ⟨t, [], out, release_none h, hrest, rfl⟩

theorem close_token {t u : Scan} {token : Token} {a : List Char}
    (h : close r r.drain { t with token := none } token = .ok (u, a)) : u.token = none := by
  simp only [close] at h
  split at h
  · simp only [bind_eq_ok, pure, Except.pure, Except.ok.injEq, Prod.mk.injEq] at h
    obtain ⟨n, htrack, rfl, -⟩ := h
    exact trackFrom_token htrack
  · split at h
    · cases h
      rfl
    · split at h
      · cases h
      · rw [plain_token h]

/-- What cannot close or go on with an open bracket releases it first. -/
theorem settle_release {t : Scan} {ys : List Char} (h : t.token = none ∨
      ∀ c, ys.head? = some c → isWord c = false ∧ c ≠ ']') :
    settle r t ys = .ok (s', out) ↔ ∃ u a b, release r r.drain t = .ok (u, a) ∧
      settle r u ys = .ok (s', b) ∧ out = a ++ b := by
  obtain hnone | hhead := h
  · rw [release_none hnone]
    constructor
    · exact fun h => ⟨t, [], out, rfl, h, rfl⟩
    · rintro ⟨u, a, b, hu, h, rfl⟩
      cases hu
      exact h
  · cases ys with
    | nil =>
      have hempty : ∀ {u : Scan}, settle r u [] = release r r.drain u := by
        intro u
        simp only [settle, scan, bind, Except.bind, pure, Except.pure, List.nil_append]
        cases release r r.drain u <;> rfl
      simp only [hempty]
      constructor
      · intro h
        exact ⟨s', out, [], h, release_none (release_token h), (List.append_nil _).symm⟩
      · rintro ⟨u, a, b, hu, hb, rfl⟩
        rw [release_none (release_token hu)] at hb
        cases hb
        rw [List.append_nil]
        exact hu
    | cons c cs =>
      obtain ⟨hword, hne⟩ := hhead c rfl
      have hother : ∀ {u : Scan}, step r r.drain u c = other r r.drain u c := by
        intro u
        simp only [step, hword, Bool.false_eq_true, if_false, if_neg hne]
        cases u.token <;> rfl
      have hfirst : ∀ {v : Scan} {b : List Char}, step r r.drain t c = .ok (v, b) ↔
          ∃ u a d, release r r.drain t = .ok (u, a) ∧ step r r.drain u c = .ok (v, d) ∧ b = a ++ d := by
        intro v b
        rw [hother, other_eq_ok]
        constructor
        · rintro ⟨u, a, d, hu, hrest, rfl⟩
          exact ⟨u, a, d, hu, by rw [hother, other_none (release_token hu)]; exact hrest, rfl⟩
        · rintro ⟨u, a, d, hu, hrest, rfl⟩
          rw [hother, other_none (release_token hu)] at hrest
          exact ⟨u, a, d, hu, hrest, rfl⟩
      have hscan : ∀ {u : Scan} {out : List Char}, settle r u (c :: cs) = .ok (s', out) ↔ ∃ v a b,
          step r r.drain u c = .ok (v, a) ∧ settle r v cs = .ok (s', b) ∧ out = a ++ b := by
        intro u out
        rw [← List.singleton_append, settle_append]
        simp only [scan_singleton]
      simp only [hscan, hfirst]
      constructor
      · rintro ⟨v, -, b, ⟨u, a, d, hu, hc, rfl⟩, hrest, rfl⟩
        exact ⟨u, a, d ++ b, hu, ⟨v, d, b, hc, hrest, rfl⟩, List.append_assoc _ _ _⟩
      · rintro ⟨u, a, -, hu, ⟨v, d, b, hc, hrest, rfl⟩, rfl⟩
        exact ⟨v, a ++ d, b, ⟨u, a, d, hu, hc, rfl⟩, hrest, (List.append_assoc _ _ _).symm⟩

theorem lexed_head {l : Lexeme} {ls : List Lexeme} (h : Lexed (l :: ls)) : Lexed [l] ∧ Lexed ls := by
  cases h with
  | char hc h => exact ⟨.char hc .nil, h⟩
  | opened hbody _ h => exact ⟨.opened hbody (by simp [spell]) .nil, h⟩
  | bracket hbody h => exact ⟨.bracket hbody .nil, h⟩

/-- A lexeme is settled before the next one. -/
theorem settle_cons {l : Lexeme} {ls : List Lexeme} (h : Lexed (l :: ls)) (hs : s.token = none)
    (hfull : s.normalized = full.rtake r.maxName) :
    settle r s (spell (l :: ls)) = .ok (s', out) ↔ ∃ t a b, settle r s l.spelling = .ok (t, a) ∧
      settle r t (spell ls) = .ok (s', b) ∧ out = a ++ b := by
  have hready : ∀ {t a}, scan r r.drain s l.spelling = .ok (t, a) → t.token = none ∨
      ∀ c, (spell ls).head? = some c → isWord c = false ∧ c ≠ ']' := by
    intro t a hscan
    cases h with
    | @char c _ hc _ =>
      left
      rw [Lexeme.spelling, scan_singleton] at hscan
      simp only [step, hs] at hscan
      rw [other_none hs, outside, if_neg hc] at hscan
      obtain ⟨-, rfl, -⟩ := (plain_eq_ok hfull).mp hscan
      exact hs
    | opened _ hhead _ => exact .inr hhead
    | @bracket body _ hbody _ =>
      left
      obtain ⟨t', a', b', hopen, hclose, -⟩ := scan_append_eq_ok.mp hscan
      rw [scan_open hs hfull hbody] at hopen
      rw [scan_singleton] at hclose
      have htoken : t'.token = some (.read r.limit body) := by
        split at hopen
        · rw [hopen.2.1]
        · rw [hopen.1]
      simp only [step, htoken, if_true] at hclose
      exact close_token hclose
  rw [show spell (l :: ls) = l.spelling ++ spell ls from List.flatMap_cons, settle_append]
  constructor
  · rintro ⟨t, a, b, hscan, hrest, rfl⟩
    obtain ⟨u, b', b'', hrelease, hsettle, rfl⟩ := (settle_release (hready hscan)).mp hrest
    exact ⟨u, a ++ b', b'', settle_eq_ok.mpr ⟨t, a, b', hscan, hrelease, rfl⟩, hsettle,
      (List.append_assoc _ _ _).symm⟩
  · rintro ⟨u, a, b, hfirst, hsettle, rfl⟩
    obtain ⟨t, a', b', hscan, hrelease, rfl⟩ := settle_eq_ok.mp hfirst
    exact ⟨t, a', b' ++ b, hscan, (settle_release (hready hscan)).mpr
      ⟨u, b', b, hrelease, hsettle, rfl⟩, List.append_assoc _ _ _⟩

/-- The scanner lets a text through when it lets each of its lexemes through. -/
theorem settle_lexed {ls : List Lexeme} (h : Lexed ls) (hs : s.token = none)
    (hfull : s.normalized = full.rtake r.maxName) :
    settle r s (spell ls) = .ok (s', out) ↔ AllPass r full ls ∧
      s' = ⟨none, (ls.foldl (Lexeme.after r) full).rtake r.maxName,
        ls.foldl (Lexeme.mark r) s.seen⟩ ∧ out = ls.flatMap (Lexeme.render r) := by
  induction ls generalizing s full out with
  | nil =>
    rw [settle_eq_ok]
    simp only [spell, List.flatMap_nil, scan, pure, Except.pure, Except.ok.injEq, Prod.mk.injEq,
      AllPass, List.foldl_nil, true_and]
    constructor
    · rintro ⟨t, a, b, ⟨rfl, rfl⟩, hrelease, rfl⟩
      rw [release_none hs] at hrelease
      cases hrelease
      exact ⟨by rw [← hfull, ← hs], rfl⟩
    · rintro ⟨rfl, rfl⟩
      refine ⟨s, [], [], ⟨rfl, rfl⟩, ?_, rfl⟩
      rw [release_none hs, ← hfull, ← hs]
  | cons l ls ih =>
    obtain ⟨hl, hls⟩ := lexed_head h
    rw [settle_cons h hs hfull]
    simp only [settle_lexeme hl hs hfull, AllPass, List.foldl_cons, List.flatMap_cons]
    constructor
    · rintro ⟨t, a, b, ⟨hpass, rfl, rfl⟩, hrest, rfl⟩
      obtain ⟨hall, rfl, rfl⟩ := (ih hls rfl rfl).mp hrest
      exact ⟨⟨hpass, hall⟩, rfl, rfl⟩
    · rintro ⟨⟨hpass, hall⟩, rfl, rfl⟩
      exact ⟨_, _, _, ⟨hpass, rfl, rfl⟩, (ih hls rfl rfl).mpr ⟨hall, rfl, rfl⟩, rfl⟩

theorem restore_settle {text : List Char} : r.restore text = .ok out ↔
    ∃ t, settle r r.stream.state text = .ok (t, out) ∧ t.seen.all id = true := by
  have hseen : ∀ seen : List Bool, seen.any (!·) = !seen.all id := by
    intro seen
    induction seen with
    | nil => rfl
    | cons x seen ih =>
      rw [List.any_cons, List.all_cons, ih]
      cases x <;> rfl
  have hstart : r.stream.failed = none := rfl
  simp only [settle_eq_ok, Redaction.restore, StreamRestorer.push, hstart]
  cases hscan : scan r r.drain r.stream.state text with
  | error e => simp
  | ok found =>
    obtain ⟨t, a⟩ := found
    simp only [Except.ok.injEq, Prod.mk.injEq, StreamRestorer.finish, hseen]
    cases hrelease : release r r.drain t with
    | error e => simp [hrelease, bind, Except.bind]
    | ok released =>
      obtain ⟨u, b⟩ := released
      simp only [bind, Except.bind]
      cases hall : u.seen.all id with
      | false =>
        simp only [Bool.not_false, if_true, reduceCtorEq, false_iff]
        rintro ⟨_, ⟨_, _, _, ⟨rfl, rfl⟩, hsame, rfl⟩, hseen⟩
        rw [hrelease] at hsame
        cases hsame
        exact Bool.false_ne_true (hall.symm.trans hseen)
      | true =>
        simp only [Bool.not_true, Bool.false_eq_true, if_false, pure, Except.pure, Except.ok.injEq]
        constructor
        · rintro rfl
          exact ⟨u, ⟨t, a, b, ⟨rfl, rfl⟩, hrelease, rfl⟩, hall⟩
        · rintro ⟨_, ⟨_, _, _, ⟨rfl, rfl⟩, hsame, rfl⟩, -⟩
          rw [hrelease] at hsame
          cases hsame
          rfl

/-- Restoring succeeds when every lexeme passes and every placeholder was seen, and replaces
the lexemes one by one. -/
theorem restore_eq_ok {ls : List Lexeme} (h : Lexed ls) : r.restore (spell ls) = .ok out ↔
    AllPass r [] ls ∧ (ls.foldl (Lexeme.mark r) (List.replicate r.table.length false)).all id = true ∧
      out = ls.flatMap (Lexeme.render r) := by
  have hrun : ∀ {t : Scan}, settle r r.stream.state (spell ls) = .ok (t, out) ↔
      AllPass r [] ls ∧ t = ⟨none, (ls.foldl (Lexeme.after r) []).rtake r.maxName,
        ls.foldl (Lexeme.mark r) (List.replicate r.table.length false)⟩ ∧
          out = ls.flatMap (Lexeme.render r) :=
    settle_lexed h rfl (List.rtake_nil _).symm
  rw [restore_settle]
  simp only [hrun]
  constructor
  · rintro ⟨t, ⟨hpass, rfl, rfl⟩, hall⟩
    exact ⟨hpass, hall, rfl⟩
  · rintro ⟨hpass, hall, rfl⟩
    exact ⟨_, ⟨hpass, rfl, rfl⟩, hall⟩

end Run

end Redact
