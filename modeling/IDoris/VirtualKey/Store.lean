import IDoris.EventLog.Store
import IDoris.Library.Table
import IDoris.Proxy.Types

/-!
# The store of virtual keys

The store keeps the hash of a key, never the key. A row is written once and may be revoked once.
It is never deleted, so that its identifier and its hash stay taken.
-/
namespace VirtualKey

open Bounded EventLog Proxy Text Transaction

section Secret

def virtualKeyPrefix : String := "idk_"

def virtualKeyLen : Nat := 68

def isLowerHex (c : Char) : Bool := c.isDigit || decide ('a' ≤ c ∧ c ≤ 'f')

/-- `idk_` and 64 lower case hexadecimal digits. -/
def isSecretText (raw : String) : Bool :=
  decide (raw.utf8ByteSize = virtualKeyLen) &&
    (stripPrefix raw virtualKeyPrefix).any fun payload => payload.toList.all isLowerHex

structure VirtualKeySecret where
  text : String
  canonical : isSecretText text = true

inductive VirtualKeyError where
  | invalidFormat
  deriving DecidableEq

def VirtualKeySecret.parse (raw : String) : Except VirtualKeyError VirtualKeySecret :=
  if h : isSecretText raw = true then .ok ⟨raw, h⟩ else .error .invalidFormat

end Secret

section Scope

structure VirtualKeyScope where
  owner : String
  tenantId : Option String
  allowedPrivacy : List PrivacyClass
  allowedRoles : List String
  budgetRef : Option String
  expiresAtMs : Option I64
  adminScopes : List String
  deriving DecidableEq

structure AuthenticatedVirtualKey where
  keyId : String
  scope : VirtualKeyScope
  deriving DecidableEq

inductive VirtualKeyStoreError where
  | invalidMetadata
  | sql
  deriving DecidableEq

def isUsableTenant (tenant : String) : Bool :=
  tenant ≠ "" && decide (tenant.utf8ByteSize ≤ 128) && trim tenant = tenant &&
    !tenant.toList.any isControl

def validateMetadata (keyId : String) (scope : VirtualKeyScope) : Bool :=
  !isBlank keyId && !isBlank scope.owner && scope.tenantId.all isUsableTenant &&
    !scope.allowedPrivacy.isEmpty &&
    (scope.allowedRoles ++ scope.adminScopes).all (fun value => !isBlank value) &&
    scope.budgetRef.all (fun value => !isBlank value) &&
    scope.expiresAtMs.all fun expires => decide (0 < expires.val)

/-- Not yet expired at an instant. -/
def VirtualKeyScope.isCurrent (scope : VirtualKeyScope) (nowMs : I64) : Bool :=
  scope.expiresAtMs.all fun expires => decide (nowMs.val < expires.val)

end Scope

section Rows

/-- A revoked row has the instant of its revocation, an active one has none. -/
inductive Status where
  | active
  | revoked (atMs : I64)
  deriving DecidableEq

variable {H : Type}

structure Row (H : Type) where
  keyId : String
  keyHash : H
  scope : VirtualKeyScope
  status : Status

def Row.identity (row : Row H) : AuthenticatedVirtualKey := ⟨row.keyId, row.scope⟩

def Row.isLive (row : Row H) (nowMs : I64) : Bool :=
  row.status = .active && row.scope.isCurrent nowMs

def Row.revoke (atMs : I64) (row : Row H) : Row H :=
  match row.status with
  | .active => { row with status := .revoked atMs }
  | .revoked _ => row

@[simp] theorem Row.revoke_keyId (atMs : I64) (row : Row H) : (row.revoke atMs).keyId = row.keyId := by
  cases h : row.status <;> simp [Row.revoke, h]

@[simp] theorem Row.revoke_keyHash (atMs : I64) (row : Row H) :
    (row.revoke atMs).keyHash = row.keyHash := by
  cases h : row.status <;> simp [Row.revoke, h]

@[simp] theorem Row.revoke_scope (atMs : I64) (row : Row H) : (row.revoke atMs).scope = row.scope := by
  cases h : row.status <;> simp [Row.revoke, h]

/-- The rows in the order of their insertion. Identifiers and hashes are unique. -/
structure VirtualKeyStore (H : Type) where
  rows : List (Row H)
  ids : (rows.map Row.keyId).Nodup
  hashes : (rows.map Row.keyHash).Nodup
  metadata : ∀ row ∈ rows, validateMetadata row.keyId row.scope = true

end Rows

namespace VirtualKeyStore

section Operations

variable {H : Type}

def empty : VirtualKeyStore H :=
  ⟨[], List.nodup_nil, List.nodup_nil, fun _ h => absurd h List.not_mem_nil⟩

def append (store : VirtualKeyStore H) (row : Row H)
    (hmetadata : validateMetadata row.keyId row.scope = true)
    (hid : row.keyId ∉ store.rows.map Row.keyId) (hhash : row.keyHash ∉ store.rows.map Row.keyHash) :
    VirtualKeyStore H where
  rows := store.rows ++ [row]
  ids := by
    rw [List.map_append, List.nodup_append']
    exact ⟨store.ids, List.nodup_singleton _, by simpa using hid⟩
  hashes := by
    rw [List.map_append, List.nodup_append']
    exact ⟨store.hashes, List.nodup_singleton _, by simpa using hhash⟩
  metadata := by
    intro r hr
    cases List.mem_append.mp hr with
    | inl hr => exact store.metadata r hr
    | inr hr => rw [List.mem_singleton.mp hr]; exact hmetadata

/-- The row of an identifier is revoked, unless it is already. -/
def revokeRow (store : VirtualKeyStore H) (keyId : String) (atMs : I64) : VirtualKeyStore H where
  rows := Table.update Row.keyId keyId (Row.revoke atMs) store.rows
  ids := by
    rw [Table.map_update (Row.revoke_keyId atMs)]
    exact store.ids
  hashes := by
    rw [Table.map_update (Row.revoke_keyHash atMs)]
    exact store.hashes
  metadata := by
    intro row hrow
    obtain ⟨old, hold, rfl⟩ := Table.mem_update.mp hrow
    have hvalid := store.metadata old hold
    split
    · simpa using hvalid
    · exact hvalid

/-- A taken identifier or hash breaks a constraint of the table. -/
def insertActive [DecidableEq H] (store : VirtualKeyStore H) (keyId : String) (hash : H)
    (scope : VirtualKeyScope) : Except VirtualKeyStoreError (VirtualKeyStore H) :=
  if hmetadata : validateMetadata keyId scope = true then
    if hfree : keyId ∉ store.rows.map Row.keyId ∧ hash ∉ store.rows.map Row.keyHash then
      .ok (store.append ⟨keyId, hash, scope, .active⟩ hmetadata hfree.1 hfree.2)
    else .error .sql
  else .error .invalidMetadata

/-- An unknown, a revoked and an expired key all give the same answer. -/
def authenticate [DecidableEq H] (hash : VirtualKeySecret → H) (store : VirtualKeyStore H)
    (secret : VirtualKeySecret) (nowMs : I64) :
    Except VirtualKeyStoreError (Option AuthenticatedVirtualKey) := do
  refuseIf (nowMs.val < 0) .invalidMetadata
  return (store.rows.find? fun row => row.keyHash = hash secret && row.isLive nowMs).map
    Row.identity

/-- Whether a row changed, and the store afterwards. -/
def revoke (store : VirtualKeyStore H) (keyId : String) (revokedAtMs : I64) :
    Except VirtualKeyStoreError (Bool × VirtualKeyStore H) := do
  refuseIf (isBlank keyId = true ∨ revokedAtMs.val ≤ 0) .invalidMetadata
  return (store.rows.any fun row => row.keyId = keyId && row.status = .active,
    store.revokeRow keyId revokedAtMs)

end Operations

section Facts

variable {H : Type} {store store' : VirtualKeyStore H} {keyId : String} {scope : VirtualKeyScope}
  {row other : Row H} {atMs nowMs : I64}

theorem revokeRow_rows : (store.revokeRow keyId atMs).rows =
    store.rows.map fun row => if row.keyId = keyId then row.revoke atMs else row := rfl

/-- A row that was revoked already stays as it is. -/
theorem revokeRow_of_not_active
    (h : ∀ row ∈ store.rows, row.keyId = keyId → row.status ≠ .active) :
    (store.revokeRow keyId atMs).rows = store.rows := by
  rw [revokeRow_rows]
  apply (List.map_congr_left _).trans (List.map_id _)
  intro row hrow
  split
  · rename_i hid
    cases hstatus : row.status with
    | active => exact absurd hstatus (h row hrow hid)
    | revoked first => simp [Row.revoke, hstatus]
  · rfl

theorem eq_of_keyId (hrow : row ∈ store.rows) (hother : other ∈ store.rows)
    (h : row.keyId = other.keyId) : row = other :=
  List.inj_on_of_nodup_map store.ids hrow hother h

theorem eq_of_keyHash (hrow : row ∈ store.rows) (hother : other ∈ store.rows)
    (h : row.keyHash = other.keyHash) : row = other :=
  List.inj_on_of_nodup_map store.hashes hrow hother h

theorem revoke_valid (hid : isBlank keyId = false) (hat : 0 < atMs.val) :
    store.revoke keyId atMs =
      .ok (store.rows.any fun row => row.keyId = keyId && row.status = .active,
        store.revokeRow keyId atMs) := by
  rw [revoke, refuseIf, if_neg (by simp [hid, hat])]
  rfl

theorem revoke_ok {changed : Bool} (h : store.revoke keyId atMs = .ok (changed, store')) :
    store' = store.revokeRow keyId atMs ∧
      (changed = true ↔ ∃ row ∈ store.rows, row.keyId = keyId ∧ row.status = .active) := by
  simp only [revoke, bind_eq_ok, refuseIf_eq_ok, pure_eq_ok, Prod.mk.injEq] at h
  obtain ⟨_, -, rfl, rfl⟩ := h
  exact ⟨rfl, by simp⟩

variable [DecidableEq H] {hash : H}

theorem insertActive_free (hmetadata : validateMetadata keyId scope = true)
    (hid : keyId ∉ store.rows.map Row.keyId) (hhash : hash ∉ store.rows.map Row.keyHash) :
    store.insertActive keyId hash scope =
      .ok (store.append ⟨keyId, hash, scope, .active⟩ hmetadata hid hhash) := by
  rw [insertActive, dif_pos hmetadata, dif_pos ⟨hid, hhash⟩]

theorem insertActive_ok (h : store.insertActive keyId hash scope = .ok store') :
    store'.rows = store.rows ++ [⟨keyId, hash, scope, .active⟩] ∧
      keyId ∉ store.rows.map Row.keyId ∧ hash ∉ store.rows.map Row.keyHash := by
  unfold insertActive at h
  split at h
  · split at h
    · rename_i hfree
      cases h
      exact ⟨rfl, hfree⟩
    · cases h
  · cases h

/-- A secret is accepted through the one live row that has its hash. -/
theorem authenticate_some {digest : VirtualKeySecret → H} {secret : VirtualKeySecret}
    {identity : AuthenticatedVirtualKey} :
    store.authenticate digest secret nowMs = .ok (some identity) ↔
      0 ≤ nowMs.val ∧ ∃ row ∈ store.rows, row.keyHash = digest secret ∧ row.isLive nowMs = true ∧
        row.identity = identity := by
  simp only [authenticate, bind_eq_ok, refuseIf_eq_ok, pure_eq_ok, not_lt, Option.map_eq_some_iff,
    exists_and_left, exists_const]
  apply and_congr_right
  intro _
  constructor
  · rintro ⟨row, hfind, hidentity⟩
    have hmatch := List.find?_some hfind
    simp only [Bool.and_eq_true, decide_eq_true_eq] at hmatch
    exact ⟨row, List.mem_of_find?_eq_some hfind, hmatch.1, hmatch.2, hidentity⟩
  · rintro ⟨row, hrow, hhash, hlive, hidentity⟩
    have hsome : (store.rows.find? fun row =>
        row.keyHash = digest secret && row.isLive nowMs).isSome = true :=
      List.find?_isSome.mpr ⟨row, hrow, by simp [hhash, hlive]⟩
    obtain ⟨found, hfound⟩ := Option.isSome_iff_exists.mp hsome
    have hmatch := List.find?_some hfound
    simp only [Bool.and_eq_true, decide_eq_true_eq] at hmatch
    have heq : found = row :=
      eq_of_keyHash (List.mem_of_find?_eq_some hfound) hrow (hmatch.1.trans hhash.symm)
    exact ⟨found, hfound, heq ▸ hidentity⟩

end Facts

end VirtualKeyStore

end VirtualKey
