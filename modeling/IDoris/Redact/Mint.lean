import IDoris.Inspect.Verdict
import IDoris.Library.Decimal
import IDoris.Library.Loop
import IDoris.Redact.Restore

/-!
# Redaction

Every finding is replaced by a placeholder that the input does not spell. A result that the
program does not reach, because it panics, is `none`.
-/
namespace Redact

open Inspect (InspectResponse InspectCtx InspectFinding Entropy inspect)

inductive RedactError where
  | notRedactable | residualFinding | invalidSpan
  deriving DecidableEq

/-- A stretch that is replaced, with the name of what it holds. -/
structure Region where
  start : Nat
  stop : Nat
  kind : List Char
  deriving DecidableEq

def pushRegion (regions : List Region) (region : Region) : List Region :=
  match regions.getLast? with
  | some last =>
    if region.start < last.stop then
      regions.dropLast ++ [{ last with stop := max last.stop region.stop }]
    else regions ++ [region]
  | none => [region]

def regionsFrom (length : Nat) : List Region → List InspectFinding → Except RedactError (List Region)
  | regions, [] => .ok regions
  | regions, finding :: rest =>
    match finding.span with
    | none => .error .notRedactable
    | some span =>
      let stop := span.start + span.length
      if stop ≤ length then
        regionsFrom length (pushRegion regions ⟨span.start, stop, label finding.kind⟩) rest
      else .error .invalidSpan

def candidate (kind : List Char) (n : Nat) : List Char :=
  '[' :: (kind ++ '_' :: Nat.toDigits 10 n) ++ [']']

/-- The name is spelled in the input, in whatever way, or is in the text already. -/
def taken (normalizedInput text kind : List Char) (n : Nat) : Bool :=
  decide (normalize (candidate kind n) <:+: normalizedInput) || decide (candidate kind n <:+: text)

/-- The loop that looks for a free index. -/
def mintFrom (normalizedInput text kind : List Char) : (left n : Nat) → Option (List Char)
  | 0, _ => none
  | left + 1, n =>
    if taken normalizedInput text kind n then mintFrom normalizedInput text kind left (n + 1)
    else some (candidate kind n)

/-- An index with more digits than there are characters is free. -/
def mint (normalizedInput text kind : List Char) (n : Nat) : Option (List Char) :=
  mintFrom normalizedInput text kind (10 ^ (normalizedInput.length + text.length) + 1) n

structure Progress where
  text : List Char
  table : List (List Char × List Char)
  counters : List (List Char × Nat)
  cursor : Nat
  deriving DecidableEq

abbrev Run := ExceptT RedactError Option

def orPanic {α : Type} (x : Option α) : Run α := ExceptT.lift x

def utf16 (units : List Nat) : Run (List Char) :=
  match Utf16.decodeChars units with
  | some text => pure text
  | none => throw .invalidSpan

/-- The next number of a kind. -/
def count (counters : List (List Char × Nat)) (kind : List Char) : Nat × List (List Char × Nat) :=
  match counters.findIdx? (·.1 = kind) with
  | some i =>
    let n := (counters[i]?.map Prod.snd).getD 0 + 1
    (n, counters.set i (kind, n))
  | none => (1, counters ++ [(kind, 1)])

def redactRegion (units : List Nat) (normalizedInput : List Char) (p : Progress) (region : Region) :
    Run Progress := do
  let before ← utf16 (← orPanic (Scanner.slice units p.cursor region.start))
  let text := p.text ++ before
  let original ← utf16 (← orPanic (Scanner.slice units region.start region.stop))
  match p.table.find? (·.2 = original) with
  | some (placeholder, _) =>
    return { p with text := text ++ placeholder, cursor := region.stop }
  | none =>
    let (n, counters) := count p.counters region.kind
    let placeholder ← orPanic (mint normalizedInput text region.kind n)
    return ⟨text ++ placeholder, p.table ++ [(placeholder, original)], counters, region.stop⟩

def redact [Entropy] (input : String) (verdict : InspectResponse) (ctx : InspectCtx) :
    Run Redaction := do
  if verdict.action ≠ .redact then throw .notRedactable
  let units := Utf16.encode input
  let regions ← ExceptT.mk (some (regionsFrom units.length [] verdict.findings))
  let p ← regions.foldlM (redactRegion units (normalize input.toList)) ⟨[], [], [], 0⟩
  let after ← utf16 (← orPanic (Scanner.slice units p.cursor units.length))
  let text := p.text ++ after
  let response ← orPanic (inspect (String.ofList text) ctx)
  if response.findings ≠ [] then throw .residualFinding
  return ⟨text, p.table, placeholderTokens input.toList⟩

section Runs

variable {α β : Type}

/-- The run ends with this result. -/
def Yields (x : Run α) (a : α) : Prop := x.run = some (.ok a)

theorem yields_bind {x : Run α} {f : α → Run β} {b : β} :
    Yields (x >>= f) b ↔ ∃ a, Yields x a ∧ Yields (f a) b := by
  simp only [Yields, ExceptT.run_bind]
  rcases x.run with _ | (e | a)
  · simp
  · simp
  · simp

theorem run_bind {x : Run α} {f : α → Run β} {a : α} (h : Yields x a) :
    (x >>= f).run = (f a).run := by
  rw [ExceptT.run_bind, show x.run = some (.ok a) from h]
  rfl

theorem yields_pure {a b : α} : Yields (pure a : Run α) b ↔ a = b := by
  simp [Yields]

theorem not_yields_throw (e : RedactError) (a : α) : ¬Yields (throw e : Run α) a := by
  simp [Yields]

theorem yields_orPanic {x : Option α} {a : α} : Yields (orPanic x) a ↔ x = some a := by
  cases x with
  | none => simp [Yields, orPanic]
  | some b => simp [Yields, orPanic]

theorem yields_utf16 {units : List Nat} {text : List Char} :
    Yields (utf16 units) text ↔ Utf16.decodeChars units = some text := by
  rw [utf16]
  cases Utf16.decodeChars units with
  | none => simp [not_yields_throw]
  | some found => simp [yields_pure]

def outcome : Loop.Outcome Run where
  of := Yields
  of_pure := yields_pure.mp
  of_bind := yields_bind.mp

end Runs

section Minted

variable {units : List Nat} {normalizedInput text kind placeholder : List Char} {n left : Nat}
  {p q : Progress} {region : Region}

theorem foldWidth_of_isDigit {c : Char} (h : c.isDigit = true) : foldWidth c = c := by
  have hle : c.toNat ≤ 57 := by
    rw [Char.isDigit, Bool.and_eq_true, decide_eq_true_eq, decide_eq_true_eq] at h
    exact h.2
  exact if_neg (by omega)

/-- An index is spelled by its digits. -/
theorem normalize_candidate_ne_nil (kind : List Char) (n : Nat) :
    normalize (candidate kind n) ≠ [] := by
  obtain ⟨d, hd⟩ := List.exists_mem_of_ne_nil _ (Nat.toDigits_ne_nil (n := n) (b := 10))
  have hdigit : d.isDigit = true := Nat.isDigit_of_mem_toDigits (by decide) (by decide) hd
  have hmem : d ∈ candidate kind n := by simp [candidate, hd]
  refine List.ne_nil_of_mem (a := d.toUpper) (List.mem_map_of_mem (List.mem_filter.mpr ⟨?_, ?_⟩))
  · exact List.mem_map.mpr ⟨d, hmem, foldWidth_of_isDigit hdigit⟩
  · rw [Char.isAlphanum, hdigit, Bool.or_true]

theorem mintFrom_some (h : mintFrom normalizedInput text kind left n = some placeholder) :
    ∃ k, placeholder = candidate kind k := by
  induction left generalizing n with
  | zero => cases h
  | succ left ih =>
    rw [mintFrom] at h
    split at h
    · exact ih h
    · exact ⟨n, (Option.some.inj h).symm⟩

/-- Every placeholder of the table is minted. -/
def Minted (table : List (List Char × List Char)) : Prop :=
  ∀ entry ∈ table, ∃ kind n, entry.1 = candidate kind n

theorem redactRegion_minted (h : Minted p.table)
    (hstep : Yields (redactRegion units normalizedInput p region) q) : Minted q.table := by
  simp only [redactRegion, yields_bind] at hstep
  obtain ⟨_, -, _, -, _, -, original, -, hstep⟩ := hstep
  split at hstep
  · rw [← yields_pure.mp hstep]
    exact h
  · simp only [yields_bind, yields_orPanic] at hstep
    obtain ⟨placeholder, hmint, hstep⟩ := hstep
    rw [← yields_pure.mp hstep]
    intro entry hentry
    rw [List.mem_append, List.mem_singleton] at hentry
    obtain hentry | rfl := hentry
    · exact h entry hentry
    · obtain ⟨k, hk⟩ := mintFrom_some hmint
      exact ⟨_, k, hk⟩

variable [Entropy] {input : String} {verdict : InspectResponse} {ctx : InspectCtx} {r : Redaction}

/-- What is known of a redaction: its placeholders are minted, and its literals are the names in
brackets of the input. -/
theorem redact_yields (h : Yields (redact input verdict ctx) r) :
    Minted r.table ∧ r.literals = placeholderTokens input.toList := by
  unfold redact at h
  split at h
  · rw [yields_bind] at h
    obtain ⟨_, hthrow, -⟩ := h
    exact absurd hthrow (not_yields_throw _ _)
  · simp only [yields_bind] at h
    obtain ⟨regions, -, p, hfold, _, -, _, -, response, -, h⟩ := h
    split at h
    · rw [yields_bind] at h
      obtain ⟨_, hthrow, -⟩ := h
      exact absurd hthrow (not_yields_throw _ _)
    · rw [← yields_pure.mp h]
      have hstart : Minted [] := List.forall_mem_nil _
      exact ⟨Loop.foldlM_seen outcome (fun _ p => Minted p.table) hstart
        (fun _ region p q => redactRegion_minted) hfold, rfl⟩

end Minted

end Redact
