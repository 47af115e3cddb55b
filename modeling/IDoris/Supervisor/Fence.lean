import IDoris.Supervisor.Types

/-!
# The durable load fence

A marker file that outlives the process. Its presence is the state; a fault says
where an operation on it fails and with which error, before the change or after.
-/
namespace Supervisor

structure LoadFence where
  path : String

inductive DiskFault where
  | none
  | before (error : BackendError)
  | after (error : BackendError)

namespace LoadFence

def present (fence : LoadFence) : BackendError :=
  .internal ("durable load fence is present at " ++ fence.path)

def alreadyExists (fence : LoadFence) : BackendError :=
  .internal ("creating load fence at " ++ fence.path ++ ": File exists (os error 17)")

/-- An error whenever the marker exists or its state cannot be determined. -/
def checkClear (fence : LoadFence) (fault : DiskFault) (marker : Bool) : Except BackendError Unit :=
  match fault with
  | .before error => .error error
  | _ => if marker then .error fence.present else .ok ()

/-- Create the marker before a load can be issued; an existing one refuses. -/
def begin (fence : LoadFence) (fault : DiskFault) (marker : Bool) :
    Except BackendError Unit × Bool :=
  match fault with
  | .before error => (.error error, marker)
  | .after error => if marker then (.error fence.alreadyExists, true) else (.error error, true)
  | .none => if marker then (.error fence.alreadyExists, true) else (.ok (), true)

/-- Remove the marker; a missing one is fine. -/
def clear (fault : DiskFault) (marker : Bool) : Except BackendError Unit × Bool :=
  match fault with
  | .before error => (.error error, marker)
  | .after error => if marker then (.error error, false) else (.ok (), false)
  | .none => (.ok (), false)

variable {fence : LoadFence} {fault : DiskFault} {marker : Bool}

/-- A marker that is there stays, and refuses a second load. -/
theorem begin_present : (fence.begin fault true).2 = true ∧
    ∃ error, (fence.begin fault true).1 = .error error := by
  cases fault <;> exact ⟨rfl, _, rfl⟩

/-- A load that begins has its marker. -/
theorem begin_ok (h : (fence.begin fault marker).1 = .ok ()) :
    marker = false ∧ (fence.begin fault marker).2 = true := by
  cases fault <;> cases marker <;> first | exact ⟨rfl, rfl⟩ | cases h

end LoadFence

end Supervisor
