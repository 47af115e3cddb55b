import Mathlib.Data.List.Induction
import IDoris.Proxy.Sse

/-!
# The guard around an upstream stream

The chunks pass unchanged. Where the upstream ends without a terminating event, the guard
ends with an error instead.
-/
namespace Proxy

open EventStream

inductive ErrorKind where
  | other
  | unexpectedEof
  deriving DecidableEq

/-- An error of the guarded stream: that of the upstream, or the text of the guard's own. -/
structure IoError (E : Type) where
  kind : ErrorKind
  source : E ⊕ String

def IoError.upstream {E : Type} (error : E) : IoError E := ⟨.other, .inl error⟩

def IoError.unterminated {E : Type} : IoError E :=
  ⟨.unexpectedEof, .inr "unterminated upstream SSE"⟩

section Guard

variable {E : Type}

/-- The items that the guard yields for the items of the upstream. -/
def ensureTerminalFrom (marker : TerminalEvent) :
    List (Except E Bytes) → List (Except (IoError E) Bytes)
  | [] => if marker.done then [] else [.error .unterminated]
  | .ok bytes :: inner => .ok bytes :: ensureTerminalFrom (marker.feed bytes) inner
  | .error err :: _ => [.error (.upstream err)]

def ensureTerminal (inner : List (Except E Bytes)) (terminal : TerminalField) :
    List (Except (IoError E) Bytes) := ensureTerminalFrom (.new terminal) inner

def ensureTerminated (inner : List (Except E Bytes)) : List (Except (IoError E) Bytes) :=
  ensureTerminal inner .dataDone

/-- The bytes that a stream yields. -/
def yielded {ε : Type} (items : List (Except ε Bytes)) : Bytes :=
  (items.filterMap Except.toOption).flatten

/-- The stream ends without an error. -/
def EndsCleanly {ε : Type} (items : List (Except ε Bytes)) : Prop :=
  ∀ err, .error err ∉ items

/-- The chunks of a stream that ends without an error. -/
def whole {ε : Type} (chunks : List Bytes) : List (Except ε Bytes) := chunks.map .ok

variable {marker : TerminalEvent} {terminal : TerminalField} {chunks : List Bytes}

/-- The guard of an upstream that ends: its chunks, and an error when nothing ended it. -/
theorem ensureTerminalFrom_whole (marker : TerminalEvent) (chunks : List Bytes) :
    ensureTerminalFrom (E := E) marker (whole chunks) =
      whole chunks ++ if (marker.feed chunks.flatten).done then [] else [.error .unterminated] := by
  induction chunks generalizing marker with
  | nil => rfl
  | cons chunk rest ih =>
    have hrest := ih (marker.feed chunk)
    simp only [whole] at hrest
    simp only [whole, List.map_cons, ensureTerminalFrom, hrest, List.flatten_cons,
      List.cons_append, TerminalEvent.feed_append]

@[simp] theorem yielded_whole {ε : Type} (chunks : List Bytes) :
    yielded (whole (ε := ε) chunks) = chunks.flatten := by
  simp [whole, yielded, List.filterMap_map, Function.comp_def, Except.toOption]

theorem yielded_append {ε : Type} (items more : List (Except ε Bytes)) :
    yielded (items ++ more) = yielded items ++ yielded more := by
  simp [yielded]

theorem endsCleanly_whole {ε : Type} (chunks : List Bytes) :
    EndsCleanly (whole (ε := ε) chunks) := by
  simp [whole, EndsCleanly]

/-- Whatever the chunks, their bytes pass, and the end is clean exactly when a complete block of
them ends the stream. -/
theorem ensureTerminal_whole (hshort : terminal.Short) (chunks : List Bytes) :
    yielded (ensureTerminal (E := E) (whole chunks) terminal) = chunks.flatten ∧
      (EndsCleanly (ensureTerminal (E := E) (whole chunks) terminal) ↔
        Terminated terminal chunks.flatten) := by
  rw [ensureTerminal, ensureTerminalFrom_whole, ← feed_new_iff hshort]
  cases ((TerminalEvent.new terminal).feed chunks.flatten).done with
  | true => simp [endsCleanly_whole]
  | false =>
    have hnothing : yielded [Except.error (IoError.unterminated : IoError E)] = [] := rfl
    refine ⟨by simp [yielded_append, hnothing], ?_⟩
    simp only [Bool.false_eq_true, if_false, iff_false]
    exact fun h => h _ (List.mem_append_right _ (List.mem_singleton_self _))

theorem terminated_dataDone (bytes : Bytes) :
    Terminated .dataDone bytes ↔ ascii "[DONE]" ∈ dispatched bytes := by
  simp [Terminated, TerminalField.ends, dispatched, List.mem_filterMap]

/-- The guarded stream has the bytes of the upstream, and ends without an error exactly when the
event parser dispatches an event whose data is the end mark. -/
theorem ensureTerminated_exact (chunks : List Bytes) :
    yielded (ensureTerminated (E := E) (whole chunks)) = chunks.flatten ∧
      (EndsCleanly (ensureTerminated (E := E) (whole chunks)) ↔
        ascii "[DONE]" ∈ dispatched chunks.flatten) := by
  rw [← terminated_dataDone]
  have hshort : TerminalField.dataDone.Short := trivial
  exact ensureTerminal_whole hshort chunks

end Guard

end Proxy
