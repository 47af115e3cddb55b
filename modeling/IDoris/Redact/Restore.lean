import IDoris.Redact.Shape

/-!
# Restoring

The scanner that puts the originals back for their placeholders, over a text that comes in
chunks, with the state that an error leaves behind.
-/
namespace Redact

inductive RestoreError where
  | unknownPlaceholder | mangledPlaceholder
  deriving DecidableEq

/-- The text that is sent, the placeholders with their originals, and the bracketed names
that the input had before. -/
structure Redaction where
  text : List Char
  table : List (List Char × List Char)
  literals : List (List Char)
  deriving DecidableEq

namespace Redaction

variable (r : Redaction)

def limit : Nat :=
  ((r.table.map fun entry => byteLength entry.1) ++ r.literals.map byteLength).foldl max 64

def names : List (List Char) := r.table.map fun entry => normalize entry.1

def maxName : Nat := (r.names.map List.length).foldl max 0

end Redaction

/-- The state of the scanner between characters. -/
structure Scan where
  token : Option Token
  normalized : List Char
  seen : List Bool
  deriving DecidableEq

structure StreamRestorer where
  state : Scan
  failed : Option RestoreError
  deriving DecidableEq

/-- A result with the state that holds it, or an error with the state that it leaves. -/
abbrev Outcome (α : Type) := Except (RestoreError × Scan) α

/-- The last characters of a normalized text, as many as the longest name has. -/
def Redaction.drain (r : Redaction) (normalized : List Char) : List Char :=
  normalized.drop (normalized.length - r.maxName)

section Scan

variable (r : Redaction)

def Redaction.stream : StreamRestorer :=
  ⟨⟨none, [], List.replicate r.table.length false⟩, none⟩

variable (retain : List Char → List Char)

/-- The pass of `track` over normal characters; `inside` counts those of a literal. What is kept
of the text is a parameter: the source keeps what `drain` leaves. -/
def trackFrom (literal : Bool) : (inside : Nat) → Scan → List Char → Outcome Scan
  | _, s, [] => .ok s
  | inside, s, c :: cs =>
    let inside := if literal then inside + 1 else inside
    let grown := { s with normalized := s.normalized ++ [c] }
    if r.names.any fun name => name.isSuffixOf grown.normalized && inside < name.length then
      .error (.mangledPlaceholder, grown)
    else trackFrom literal inside { grown with normalized := retain grown.normalized } cs

def track (s : Scan) (text : List Char) (literal : Bool) : Outcome Scan :=
  trackFrom r retain literal 0 s (normalize text)

def plain (s : Scan) (text : List Char) : Outcome (Scan × List Char) := do
  let s ← track r retain s text false
  return (s, text)

/-- A bracket that closes. -/
def close (s : Scan) (token : Token) : Outcome (Scan × List Char) :=
  let spelling := token.spelling ++ [']']
  if !token.overflow && r.literals.contains spelling then do
    let s ← track r retain s spelling true
    return (s, spelling)
  else
    match if token.overflow then none else r.table.findIdx? (·.1 = spelling) with
    | some index =>
      return ({ s with normalized := [], seen := s.seen.set index true },
        (r.table[index]?.map Prod.snd).getD [])
    | none =>
      if token.placeholder then
        .error (if token.uppercase then .unknownPlaceholder else .mangledPlaceholder, s)
      else plain r retain s (if token.overflow then [']'] else spelling)

/-- What an open bracket holds, unless it was let go before. -/
def overflow (s : Scan) (token : Token) : Outcome (Scan × List Char) :=
  if token.overflow then pure (s, []) else plain r retain s token.spelling

/-- A character of a name; what is too long is let go. -/
def word (s : Scan) (token : Token) (c : Char) : Outcome (Scan × List Char) := do
  let token := token.advance c
  if !token.overflow && byteLength token.spelling + c.utf8Size < r.limit then
    return ({ s with token := some { token with spelling := token.spelling ++ [c] } }, [])
  else
    let (s, held) ← overflow r retain s token
    let (s, here) ← plain r retain s [c]
    return ({ s with token := some { token with spelling := [], overflow := true } }, held ++ here)

/-- A bracket that opened and did not close is plain text. -/
def release (s : Scan) : Outcome (Scan × List Char) :=
  match s.token with
  | some token => plain r retain { s with token := none } token.spelling
  | none => pure (s, [])

def other (s : Scan) (c : Char) : Outcome (Scan × List Char) := do
  let (s, held) ← release r retain s
  if c = '[' then return ({ s with token := some .new }, held)
  else
    let (s, here) ← plain r retain s [c]
    return (s, held ++ here)

def step (s : Scan) (c : Char) : Outcome (Scan × List Char) :=
  match s.token with
  | some token =>
    if c = ']' then close r retain { s with token := none } token
    else if isWord c then word r retain { s with token := none } token c
    else other r retain s c
  | none => other r retain s c

def scan : Scan → List Char → Outcome (Scan × List Char)
  | s, [] => return (s, [])
  | s, c :: cs => do
    let (s, first) ← step r retain s c
    let (s, rest) ← scan s cs
    return (s, first ++ rest)

/-- An error stays: nothing after it succeeds. -/
def StreamRestorer.push (s : StreamRestorer) (chunk : List Char) :
    Except RestoreError (List Char) × StreamRestorer :=
  match s.failed with
  | some error => (.error error, s)
  | none =>
    match scan r retain s.state chunk with
    | .ok (next, text) => (.ok text, { s with state := next })
    | .error (error, left) => (.error error, ⟨left, some error⟩)

def StreamRestorer.finish (s : StreamRestorer) : Except RestoreError (List Char) :=
  match s.failed with
  | some error => .error error
  | none =>
    match release r r.drain s.state with
    | .error (error, _) => .error error
    | .ok (next, tail) => if next.seen.any (!·) then .error .mangledPlaceholder else .ok tail

def Redaction.restore (output : List Char) : Except RestoreError (List Char) :=
  match r.stream.push r r.drain output with
  | (.error error, _) => .error error
  | (.ok result, s) => do
    let tail ← s.finish r
    return result ++ tail

/-- Pushing chunk after chunk and finishing. -/
def pushAll (s : StreamRestorer) : List (List Char) → Except RestoreError (List Char)
  | [] => s.finish r
  | chunk :: rest =>
    match s.push r r.drain chunk with
    | (.error error, _) => .error error
    | (.ok text, s) => do
      let more ← pushAll s rest
      return text ++ more

end Scan

section Chunks

variable {r : Redaction} {retain : List Char → List Char}

theorem scan_append (s : Scan) (xs ys : List Char) : scan r retain s (xs ++ ys) = (do
    let (s, first) ← scan r retain s xs
    let (s, rest) ← scan r retain s ys
    return (s, first ++ rest)) := by
  induction xs generalizing s with
  | nil =>
    simp only [List.nil_append, scan, pure_bind]
    cases scan r retain s ys <;> rfl
  | cons c cs ih =>
    simp only [List.cons_append, scan, ih, bind_assoc, pure_bind, List.append_assoc]

theorem push_ok {s : StreamRestorer} (h : s.failed = none) {chunk text : List Char} {next : Scan}
    (hscan : scan r retain s.state chunk = .ok (next, text)) :
    s.push r retain chunk = (.ok text, { s with state := next }) := by
  simp only [StreamRestorer.push, h, hscan]

theorem push_error {s : StreamRestorer} (h : s.failed = none) {chunk : List Char}
    {left : RestoreError × Scan} (hscan : scan r retain s.state chunk = .error left) :
    s.push r retain chunk = (.error left.1, ⟨left.2, some left.1⟩) := by
  simp only [StreamRestorer.push, h, hscan]

theorem pushAll_flatten (s : StreamRestorer) (h : s.failed = none) (chunks : List (List Char)) :
    pushAll r s chunks = pushAll r s [chunks.flatten] := by
  induction chunks generalizing s with
  | nil =>
    have hscan : scan r r.drain s.state [] = .ok (s.state, []) := rfl
    simp only [List.flatten_nil, pushAll, push_ok h hscan]
    cases s.finish r <;> rfl
  | cons chunk rest ih =>
    simp only [List.flatten_cons]
    cases hfirst : scan r r.drain s.state chunk with
    | error left =>
      have hall : scan r r.drain s.state (chunk ++ rest.flatten) = .error left := by
        rw [scan_append, hfirst]
        rfl
      simp only [pushAll, push_error h hfirst, push_error h hall]
    | ok found =>
      obtain ⟨next, text⟩ := found
      have hnext : ({ s with state := next } : StreamRestorer).failed = none := h
      have hrest := ih { s with state := next } hnext
      simp only [pushAll] at hrest
      simp only [pushAll, push_ok h hfirst]
      rw [hrest]
      cases hmore : scan r r.drain next rest.flatten with
      | error left =>
        have hall : scan r r.drain s.state (chunk ++ rest.flatten) = .error left := by
          rw [scan_append, hfirst]
          simp only [bind, Except.bind, hmore]
        rw [push_error h hall, push_error hnext hmore]
        rfl
      | ok found =>
        obtain ⟨last, more⟩ := found
        have hall : scan r r.drain s.state (chunk ++ rest.flatten) = .ok (last, text ++ more) := by
          rw [scan_append, hfirst]
          simp only [bind, Except.bind, hmore]
          rfl
        rw [push_ok h hall, push_ok hnext hmore]
        simp only [bind_assoc, pure_bind, List.append_assoc]

/-- Chunks are restored as the whole is. -/
theorem restore_chunks (chunks : List (List Char)) :
    pushAll r r.stream chunks = r.restore chunks.flatten := by
  rw [pushAll_flatten _ rfl]
  rfl

end Chunks

end Redact
