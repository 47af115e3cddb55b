import Mathlib.Data.List.Basic
import Mathlib.Data.List.TakeDrop
import Mathlib.Data.List.TakeWhile
import Mathlib.Tactic.Common

/-!
# Characters and strings
-/
namespace Text

/-- The characters with Unicode's White_Space property. -/
def isWhitespace (c : Char) : Bool :=
  let n := c.toNat
  decide (9 ≤ n ∧ n ≤ 13 ∨ n = 32 ∨ n = 133 ∨ n = 160 ∨ n = 5760 ∨ 8192 ≤ n ∧ n ≤ 8202 ∨
    n = 8232 ∨ n = 8233 ∨ n = 8239 ∨ n = 8287 ∨ n = 12288)

/-- Nothing is left of the string once it is trimmed. -/
def isBlank (value : String) : Bool := value.toList.all isWhitespace

/-- The string without the white space at its two ends. -/
def trim (value : String) : String :=
  String.ofList ((value.toList.dropWhile isWhitespace).reverse.dropWhile isWhitespace).reverse

/-- The text of valid UTF-8 bytes. -/
def decode (bytes : List UInt8) : Option String := String.fromUTF8? ⟨bytes.toArray⟩

/-- Equality up to the case of ASCII letters. -/
def eqIgnoreAsciiCase (a b : String) : Bool :=
  a.toList.map Char.toLower = b.toList.map Char.toLower

def toAsciiUppercase (value : String) : String := String.ofList (value.toList.map Char.toUpper)

/-- What follows a prefix the string has. -/
def stripPrefix (value pre : String) : Option String :=
  (value.toList.dropPrefix? pre.toList).map String.ofList

/-- The parts before and after the first occurrence of a character. -/
def splitOnce (value : String) (c : Char) : Option (String × String) :=
  match value.toList.dropWhile (· ≠ c) with
  | _ :: after => some (String.ofList (value.toList.takeWhile (· ≠ c)), String.ofList after)
  | [] => none

theorem eqIgnoreAsciiCase_self (a : String) : eqIgnoreAsciiCase a a = true := by
  simp [eqIgnoreAsciiCase]

theorem dropWhile_of_none {chars : List Char} (h : ∀ c ∈ chars, isWhitespace c = false) :
    chars.dropWhile isWhitespace = chars := by
  cases chars with
  | nil => rfl
  | cons c rest => simp [List.dropWhile, h c List.mem_cons_self]

theorem trim_of_none {value : String} (h : ∀ c ∈ value.toList, isWhitespace c = false) :
    trim value = value := by
  have hreverse : ∀ c ∈ value.toList.reverse, isWhitespace c = false := by simpa using h
  simp [trim, dropWhile_of_none h, dropWhile_of_none hreverse]

theorem stripPrefix_eq_some {value pre rest : String} :
    stripPrefix value pre = some rest ↔ value.toList = pre.toList ++ rest.toList := by
  simp only [stripPrefix, Option.map_eq_some_iff, List.dropPrefix?_eq_some_iff, beq_iff_eq]
  constructor
  · rintro ⟨_, ⟨_, h, rfl⟩, rfl⟩
    simpa using h
  · intro h
    exact ⟨rest.toList, ⟨_, h, rfl⟩, String.ofList_toList⟩

theorem splitOnce_eq_some {value before after : String} {c : Char} :
    splitOnce value c = some (before, after) ↔
      c ∉ before.toList ∧ value.toList = before.toList ++ c :: after.toList := by
  constructor
  · intro h
    unfold splitOnce at h
    split at h
    · rename_i x rest hdrop
      cases h
      have hx : x = c := by
        have hhead := List.head?_dropWhile_not (fun d => decide (d ≠ c)) value.toList
        rw [hdrop] at hhead
        simpa using hhead
      rw [String.toList_ofList, String.toList_ofList]
      refine ⟨fun hmem => by simpa using List.mem_takeWhile_imp hmem, ?_⟩
      rw [← hx, ← hdrop, hx, List.takeWhile_append_dropWhile]
    · cases h
  · rintro ⟨hbefore, hvalue⟩
    have hpass : ∀ x ∈ before.toList, decide (x ≠ c) = true := by
      intro x hx
      rw [decide_eq_true_eq]
      rintro rfl
      exact hbefore hx
    rw [splitOnce, hvalue, List.dropWhile_append_of_pos hpass, List.takeWhile_append_of_pos hpass]
    simp

theorem occurs_join {pieces : List (List Char)} {piece : List Char} (separator : List Char)
    (h : piece ∈ pieces) : piece <:+: separator.intercalate pieces := by
  induction pieces with
  | nil => cases h
  | cons head rest ih =>
    by_cases hrest : rest = []
    · obtain rfl : piece = head := by simpa [hrest] using h
      simp only [hrest, List.intercalate_singleton, List.infix_rfl]
    · rw [List.intercalate_cons_of_ne_nil hrest, List.append_assoc]
      obtain rfl | hmem := List.mem_cons.mp h
      · exact (List.prefix_append _ _).isInfix
      · exact List.infix_append_of_infix_right (List.infix_append_of_infix_right (ih hmem))

/-- Every piece occurs in the text that is joined from the pieces. -/
theorem occurs_intercalate {pieces : List String} {piece : String} (separator : String)
    (h : piece ∈ pieces) : piece.toList <:+: (separator.intercalate pieces).toList := by
  rw [String.toList_intercalate]
  exact occurs_join _ (List.mem_map_of_mem h)

end Text
