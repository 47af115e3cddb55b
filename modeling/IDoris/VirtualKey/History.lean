import IDoris.Library.System
import IDoris.VirtualKey.Store

/-!
# What the store remembers

Keys are issued and revoked by several processes that share the table. The rows at any time are
the keys that were issued, in that order, each with its first revocation.
-/
namespace VirtualKey

open Bounded Transaction Transition

/-- A statement that was sent to the table, and its answer. -/
inductive Call (H : Type) where
  | insertActive (keyId : String) (hash : H) (scope : VirtualKeyScope)
    (answer : Except VirtualKeyStoreError Unit)
  | revoke (keyId : String) (atMs : I64) (answer : Except VirtualKeyStoreError Bool)

variable {H : Type} [DecidableEq H]

/-- A statement takes effect as a whole; one that the database fails takes none. -/
inductive Step : VirtualKeyStore H → Call H → VirtualKeyStore H → Prop where
  | inserted {store store' : VirtualKeyStore H} {keyId : String} {hash : H}
    {scope : VirtualKeyScope} (h : store.insertActive keyId hash scope = .ok store') :
    Step store (.insertActive keyId hash scope (.ok ())) store'
  | notInserted (store : VirtualKeyStore H) (keyId : String) (hash : H) (scope : VirtualKeyScope)
    (e : VirtualKeyStoreError) : Step store (.insertActive keyId hash scope (.error e)) store
  | revoked {store store' : VirtualKeyStore H} {keyId : String} {atMs : I64} {changed : Bool}
    (h : store.revoke keyId atMs = .ok (changed, store')) :
    Step store (.revoke keyId atMs (.ok changed)) store'
  | notRevoked (store : VirtualKeyStore H) (keyId : String) (atMs : I64)
    (e : VirtualKeyStoreError) : Step store (.revoke keyId atMs (.error e)) store

def table (H : Type) [DecidableEq H] : System (VirtualKeyStore H) (Call H) := ⟨Step⟩

section Histories

/-- A key that was issued. -/
structure Issue (H : Type) where
  keyId : String
  keyHash : H
  scope : VirtualKeyScope

def Call.issue : Call H → Option (Issue H)
  | .insertActive keyId hash scope (.ok ()) => some ⟨keyId, hash, scope⟩
  | _ => none

/-- The instant at which the call revoked this key. -/
def Call.revocation (keyId : String) : Call H → Option I64
  | .revoke id atMs (.ok true) => if id = keyId then some atMs else none
  | _ => none

def issued (calls : List (Call H)) : List (Issue H) := calls.filterMap Call.issue

def revocation (calls : List (Call H)) (keyId : String) : Option I64 :=
  calls.findSome? (Call.revocation keyId)

def Issue.status (calls : List (Call H)) (issue : Issue H) : Status :=
  match revocation calls issue.keyId with
  | none => .active
  | some atMs => .revoked atMs

def Issue.row (calls : List (Call H)) (issue : Issue H) : Row H :=
  ⟨issue.keyId, issue.keyHash, issue.scope, issue.status calls⟩

end Histories

section Recorded

variable {H : Type} {calls rest : List (Call H)} {store store' : VirtualKeyStore H}
  {keyId : String} {call : Call H} {issue : Issue H} {atMs : I64} {changed : Bool}

theorem revocation_snoc (calls : List (Call H)) (call : Call H) (keyId : String) :
    revocation (calls ++ [call]) keyId =
      (revocation calls keyId).or (Call.revocation keyId call) := by
  simp [revocation, List.findSome?_append]

theorem issued_snoc (calls : List (Call H)) (call : Call H) :
    issued (calls ++ [call]) = issued calls ++ call.issue.toList := by
  cases h : call.issue <;> simp [issued, h]

theorem revocation_of_revoked :
    revocation (calls ++ .revoke keyId atMs (.ok true) :: rest) keyId ≠ none := by
  simp [revocation, List.findSome?_append, Call.revocation]

theorem mem_issued_append (h : issue ∈ issued calls) :
    issue ∈ issued (calls ++ rest) := by
  rw [issued, List.filterMap_append]
  exact List.mem_append_left _ h

/-- A call that revokes nothing leaves every issued key as it is. -/
theorem Issue.row_snoc (h : Call.revocation issue.keyId call = none) :
    issue.row (calls ++ [call]) = issue.row calls := by
  simp [Issue.row, Issue.status, revocation_snoc, h]

/-- A revocation changes a row that was active, and only the first one counts. -/
theorem Issue.row_revoked (hid : issue.keyId = keyId)
    (hchanged : issue.status calls = .active → changed = true) :
    (issue.row calls).revoke atMs =
      issue.row (calls ++ [.revoke keyId atMs (.ok changed)]) := by
  subst hid
  cases hfirst : revocation calls issue.keyId with
  | none =>
    have hactive : issue.status calls = .active := by simp [Issue.status, hfirst]
    rw [hchanged hactive]
    simp [Issue.row, Issue.status, Row.revoke, revocation_snoc, hfirst, Call.revocation]
  | some first =>
    simp [Issue.row, Issue.status, Row.revoke, revocation_snoc, hfirst]

/-- The table against its history. -/
structure Recorded (calls : List (Call H)) (store : VirtualKeyStore H) : Prop where
  rows : store.rows = (issued calls).map (Issue.row calls)
  known : ∀ keyId, revocation calls keyId ≠ none → keyId ∈ (issued calls).map Issue.keyId

theorem Recorded.ids (h : Recorded calls store) :
    store.rows.map Row.keyId = (issued calls).map Issue.keyId := by
  rw [h.rows, List.map_map]
  rfl

/-- A call that neither issues nor revokes keeps the record. -/
theorem Recorded.idle (h : Recorded calls store) (hissue : call.issue = none)
    (hrevocation : ∀ keyId, Call.revocation keyId call = none) :
    Recorded (calls ++ [call]) store := by
  have hsame : issued (calls ++ [call]) = issued calls := by simp [issued_snoc, hissue]
  constructor
  · rw [hsame, h.rows]
    exact List.map_congr_left fun issue _ => (Issue.row_snoc (hrevocation issue.keyId)).symm
  · intro keyId hne
    rw [hsame]
    exact h.known keyId (by simpa [revocation_snoc, hrevocation] using hne)

theorem Recorded.inserted [DecidableEq H] {hash : H} {scope : VirtualKeyScope} (h : Recorded calls store)
    (hinsert : store.insertActive keyId hash scope = .ok store') :
    Recorded (calls ++ [.insertActive keyId hash scope (.ok ())]) store' := by
  obtain ⟨hrows, hid, -⟩ := VirtualKeyStore.insertActive_ok hinsert
  have hnone : ∀ id, Call.revocation id (.insertActive keyId hash scope (.ok ()) : Call H) = none :=
    fun _ => rfl
  have hfresh : revocation calls keyId = none := by
    by_contra hne
    exact hid (h.ids ▸ h.known keyId hne)
  have hissued : issued (calls ++ [.insertActive keyId hash scope (.ok ())]) =
      issued calls ++ [⟨keyId, hash, scope⟩] := by simp [issued_snoc, Call.issue]
  constructor
  · rw [hissued, hrows, h.rows, List.map_append]
    congr 1
    · exact List.map_congr_left fun issue _ => (Issue.row_snoc (hnone issue.keyId)).symm
    · simp [Issue.row, Issue.status, revocation_snoc, hnone, hfresh]
  · intro id hne
    rw [hissued, List.map_append]
    exact List.mem_append_left _ (h.known id (by simpa [revocation_snoc, hnone] using hne))

theorem Recorded.revoked (h : Recorded calls store)
    (hrevoke : store.revoke keyId atMs = .ok (changed, store')) :
    Recorded (calls ++ [.revoke keyId atMs (.ok changed)]) store' := by
  obtain ⟨rfl, hchanged⟩ := VirtualKeyStore.revoke_ok hrevoke
  have hsame : issued (calls ++ [.revoke keyId atMs (.ok changed)]) = issued calls := by
    simp [issued_snoc, Call.issue]
  constructor
  · rw [hsame, VirtualKeyStore.revokeRow_rows, h.rows, List.map_map]
    apply List.map_congr_left
    intro issue hissue
    have hrow : issue.row calls ∈ store.rows := h.rows ▸ List.mem_map_of_mem hissue
    simp only [Function.comp]
    split
    · rename_i hid
      exact Issue.row_revoked hid fun hactive => hchanged.mpr ⟨_, hrow, hid, hactive⟩
    · rename_i hid
      have hne : ¬keyId = issue.keyId := fun heq => hid heq.symm
      have hother : Call.revocation issue.keyId (.revoke keyId atMs (.ok changed) : Call H) =
          none := by
        cases changed <;> simp [Call.revocation, hne]
      exact (Issue.row_snoc hother).symm
  · intro id hne
    rw [hsame]
    by_cases hbefore : revocation calls id = none
    · rw [revocation_snoc, hbefore, Option.none_or] at hne
      have hcall : changed = true ∧ keyId = id := by
        cases changed <;> simp_all [Call.revocation]
      obtain ⟨row, hrow, hid, -⟩ := hchanged.mp hcall.1
      rw [← h.ids, ← hcall.2, ← hid]
      exact List.mem_map_of_mem hrow
    · exact h.known id hbefore

/-- Whatever the order of the calls, the rows are the issued keys with their revocations. -/
theorem recorded [DecidableEq H] (h : (table H).Run .empty calls store) : Recorded calls store := by
  apply h.history Recorded
  · intro calls store call store' hrecorded hstep
    cases hstep with
    | inserted hinsert => exact hrecorded.inserted hinsert
    | notInserted => exact hrecorded.idle rfl fun _ => rfl
    | revoked hrevoke => exact hrecorded.revoked hrevoke
    | notRevoked => exact hrecorded.idle rfl fun _ => rfl
  · exact ⟨rfl, fun _ hne => absurd rfl hne⟩

/-- A live row is a key that was issued, was not revoked and has not expired. -/
theorem Recorded.live {nowMs : I64} {row : Row H} (h : Recorded calls store) :
    row ∈ store.rows ∧ row.isLive nowMs = true ↔
      ∃ issue ∈ issued calls, revocation calls issue.keyId = none ∧
        issue.scope.isCurrent nowMs = true ∧ row = issue.row calls := by
  rw [h.rows, List.mem_map]
  constructor
  · rintro ⟨⟨issue, hissue, rfl⟩, hlive⟩
    simp only [Row.isLive, Issue.row, Bool.and_eq_true] at hlive
    cases hrevoked : revocation calls issue.keyId with
    | none => exact ⟨issue, hissue, hrevoked, hlive.2, rfl⟩
    | some atMs => simp [Issue.status, hrevoked] at hlive
  · rintro ⟨issue, hissue, hrevoked, hcurrent, rfl⟩
    exact ⟨⟨issue, hissue, rfl⟩, by simp [Row.isLive, Issue.row, Issue.status, hrevoked, hcurrent]⟩

end Recorded

end VirtualKey
