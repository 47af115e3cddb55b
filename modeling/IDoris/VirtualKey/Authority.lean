import IDoris.Dispatch.Select
import IDoris.Library.Headers
import IDoris.VirtualKey.History

/-!
# The authority of a virtual key

The identity of a caller comes from the bearer token alone. Its scope is a ceiling over the
profile of a request: it can refuse the request and changes nothing in it.
-/
namespace VirtualKey

open Bounded Dispatch Http Policy Text Transaction Transition

inductive VirtualKeyAuthError where
  | unauthorized | unavailable
  deriving DecidableEq

inductive VirtualKeyScopeError where
  | tenantForbidden | privacyForbidden | roleForbidden | fallbackForbidden
  deriving DecidableEq

section Bearer

def bearerToken (raw : String) : Except VirtualKeyAuthError VirtualKeySecret :=
  match splitAsciiWhitespace raw with
  | [scheme, token] => do
    refuseIf (eqIgnoreAsciiCase scheme "bearer" = false) .unauthorized
    (VirtualKeySecret.parse token).mapError fun _ => .unauthorized
  | _ => .error .unauthorized

def bearerSecret (headers : HeaderMap) : Except VirtualKeyAuthError VirtualKeySecret :=
  match headers.getAll "authorization" with
  | [value] => do
    let raw ← orRefuse (toStr value) .unauthorized
    bearerToken raw
  | _ => .error .unauthorized

/-- The one authorization header holds this secret. -/
def Presents (headers : HeaderMap) (secret : VirtualKeySecret) : Prop :=
  ∃ value raw scheme, headers.getAll "authorization" = [value] ∧ toStr value = some raw ∧
    splitAsciiWhitespace raw = [scheme, secret.text] ∧ eqIgnoreAsciiCase scheme "bearer" = true

theorem parse_ok {raw : String} {secret : VirtualKeySecret} :
    VirtualKeySecret.parse raw = .ok secret ↔ raw = secret.text := by
  unfold VirtualKeySecret.parse
  split
  · constructor
    · intro h
      cases h
      rfl
    · rintro rfl
      rfl
  · rename_i hbad
    constructor
    · rintro ⟨⟩
    · rintro rfl
      exact absurd secret.canonical hbad

theorem mapError_eq_ok {ε ε' α : Type} {f : ε → ε'} {x : Except ε α} {a : α} :
    x.mapError f = .ok a ↔ x = .ok a := by
  cases x <;> simp [Except.mapError]

theorem bearerToken_ok {raw : String} {secret : VirtualKeySecret} :
    bearerToken raw = .ok secret ↔ ∃ scheme, splitAsciiWhitespace raw = [scheme, secret.text] ∧
      eqIgnoreAsciiCase scheme "bearer" = true := by
  unfold bearerToken
  split
  · rename_i scheme token hparts
    simp only [bind_eq_ok, refuseIf_eq_ok, mapError_eq_ok, parse_ok, Bool.not_eq_false, hparts]
    constructor
    · rintro ⟨_, hscheme, rfl⟩
      exact ⟨scheme, rfl, hscheme⟩
    · rintro ⟨_, hsame, hscheme⟩
      cases hsame
      exact ⟨(), hscheme, rfl⟩
  · rename_i hparts
    constructor
    · rintro ⟨⟩
    · rintro ⟨scheme, h, -⟩
      exact absurd h (hparts scheme secret.text)

theorem bearerSecret_ok {headers : HeaderMap} {secret : VirtualKeySecret} :
    bearerSecret headers = .ok secret ↔ Presents headers secret := by
  unfold bearerSecret Presents
  split
  · rename_i value hvalues
    simp only [bind_eq_ok, orRefuse_eq_ok, bearerToken_ok, hvalues, List.cons.injEq, and_true]
    constructor
    · rintro ⟨raw, hraw, scheme, hparts, hscheme⟩
      exact ⟨value, raw, scheme, rfl, hraw, hparts, hscheme⟩
    · rintro ⟨_, raw, scheme, rfl, hraw, hparts, hscheme⟩
      exact ⟨raw, hraw, scheme, hparts, hscheme⟩
  · rename_i hvalues
    constructor
    · rintro ⟨⟩
    · rintro ⟨value, _, _, h, -⟩
      exact absurd h (hvalues value)

end Bearer

section Authenticator

/-- What surrounds one authentication: the blocking task, the lock, the clock and the file. -/
structure Attempt where
  joined : Bool
  poisoned : Bool
  readable : Bool
  lookupNow : Option I64
  decisionNow : Option I64

variable {H : Type} [DecidableEq H]

/-- The clock is read again after the lookup: a key that expired meanwhile is refused. -/
def authenticateSecretWithClock (hash : VirtualKeySecret → H) (attempt : Attempt)
    (store : VirtualKeyStore H) (secret : VirtualKeySecret) :
    Except VirtualKeyAuthError AuthenticatedVirtualKey := do
  refuseIf (attempt.poisoned = true) .unavailable
  let lookupNow ← orRefuse attempt.lookupNow .unavailable
  refuseIf (attempt.readable = false) .unavailable
  let found ← (store.authenticate hash secret lookupNow).mapError fun _ => .unavailable
  let identity ← orRefuse found .unauthorized
  let decisionNow ← orRefuse attempt.decisionNow .unavailable
  refuseIf (decisionNow.val < lookupNow.val) .unavailable
  refuseIf (identity.scope.isCurrent decisionNow = false) .unauthorized
  return identity

def authenticate (hash : VirtualKeySecret → H) (attempt : Attempt) (store : VirtualKeyStore H)
    (headers : HeaderMap) : Except VirtualKeyAuthError AuthenticatedVirtualKey := do
  let secret ← bearerSecret headers
  refuseIf (attempt.joined = false) .unavailable
  authenticateSecretWithClock hash attempt store secret

variable {hash : VirtualKeySecret → H} {attempt : Attempt} {store : VirtualKeyStore H}
  {headers : HeaderMap} {identity : AuthenticatedVirtualKey} {calls : List (Call H)}

/-- The surroundings let the attempt through, and the clock does not go back during it. -/
structure Attempt.Served (attempt : Attempt) (lookupNow decisionNow : I64) : Prop where
  joined : attempt.joined = true
  unpoisoned : attempt.poisoned = false
  readable : attempt.readable = true
  lookup : attempt.lookupNow = some lookupNow
  decision : attempt.decisionNow = some decisionNow
  positive : 0 ≤ lookupNow.val
  ordered : lookupNow.val ≤ decisionNow.val

theorem isCurrent_mono {scope : VirtualKeyScope} {first later : I64} (h : first.val ≤ later.val)
    (hlater : scope.isCurrent later = true) : scope.isCurrent first = true := by
  unfold VirtualKeyScope.isCurrent at *
  cases hexpires : scope.expiresAtMs with
  | none => rfl
  | some expires =>
    simp only [hexpires, Option.all_some, decide_eq_true_eq] at hlater ⊢
    omega

theorem authenticateSecret_ok {secret : VirtualKeySecret} (hjoined : attempt.joined = true) :
    authenticateSecretWithClock hash attempt store secret = .ok identity ↔
      ∃ lookupNow decisionNow, attempt.Served lookupNow decisionNow ∧
        identity.scope.isCurrent decisionNow = true ∧ ∃ row ∈ store.rows,
          row.keyHash = hash secret ∧ row.isLive lookupNow = true ∧ row.identity = identity := by
  simp only [authenticateSecretWithClock, bind_eq_ok, refuseIf_eq_ok, orRefuse_eq_ok, pure_eq_ok,
    mapError_eq_ok]
  constructor
  · rintro ⟨_, hpoisoned, lookupNow, hlookup, _, hreadable, found, hfound, _, rfl, decisionNow,
      hdecision, _, hordered, _, hcurrent, rfl⟩
    obtain ⟨hpositive, hrow⟩ := VirtualKeyStore.authenticate_some.mp hfound
    refine ⟨lookupNow, decisionNow, ⟨hjoined, by simpa using hpoisoned, by simpa using hreadable,
      hlookup, hdecision, hpositive, by omega⟩, by simpa using hcurrent, hrow⟩
  · rintro ⟨lookupNow, decisionNow, hserved, hcurrent, hrow⟩
    have hfound := VirtualKeyStore.authenticate_some.mpr ⟨hserved.positive, hrow⟩
    have hordered := hserved.ordered
    exact ⟨(), by simp [hserved.unpoisoned], lookupNow, hserved.lookup, (),
      by simp [hserved.readable], some identity, hfound, identity, rfl, decisionNow,
      hserved.decision, (), by omega, (), by simp [hcurrent], rfl⟩

/-- What the history of a table lets a caller be: a key it was issued for, still valid. -/
structure Holds (hash : VirtualKeySecret → H) (calls : List (Call H)) (secret : VirtualKeySecret)
    (decisionNow : I64) (identity : AuthenticatedVirtualKey) : Prop where
  issued : ⟨identity.keyId, hash secret, identity.scope⟩ ∈ issued calls
  unrevoked : revocation calls identity.keyId = none
  current : identity.scope.isCurrent decisionNow = true

/-- Who is taken for a key holds it. -/
theorem holds_of_authenticate (h : (table H).Run .empty calls store)
    (hidentity : authenticate hash attempt store headers = .ok identity) :
    ∃ secret lookupNow decisionNow, Presents headers secret ∧
      attempt.Served lookupNow decisionNow ∧ Holds hash calls secret decisionNow identity := by
  simp only [authenticate, bind_eq_ok, refuseIf_eq_ok, bearerSecret_ok, Bool.not_eq_false]
    at hidentity
  obtain ⟨secret, hpresents, _, hjoined, hsecret⟩ := hidentity
  obtain ⟨lookupNow, decisionNow, hserved, hcurrent, row, hrow, hhash, hlive, hrow'⟩ :=
    (authenticateSecret_ok hjoined).mp hsecret
  obtain ⟨issue, hissue, hrevoked, -, rfl⟩ := (recorded h).live.mp ⟨hrow, hlive⟩
  subst hrow'
  refine ⟨secret, lookupNow, decisionNow, hpresents, hserved, ?_, hrevoked, hcurrent⟩
  rw [← hhash]
  exact hissue

theorem authenticate_of_holds (h : (table H).Run .empty calls store) {secret : VirtualKeySecret}
    {lookupNow decisionNow : I64} (hpresents : Presents headers secret)
    (hserved : attempt.Served lookupNow decisionNow)
    (hholds : Holds hash calls secret decisionNow identity) :
    authenticate hash attempt store headers = .ok identity := by
  have hcurrent := isCurrent_mono hserved.ordered hholds.current
  have hlive := (recorded h).live.mpr ⟨_, hholds.issued, hholds.unrevoked, hcurrent, rfl⟩
  simp only [authenticate, bind_eq_ok, refuseIf_eq_ok, bearerSecret_ok, Bool.not_eq_false]
  exact ⟨secret, hpresents, (), hserved.joined, (authenticateSecret_ok hserved.joined).mpr
    ⟨lookupNow, decisionNow, hserved, hholds.current, _, hlive.1, rfl, hlive.2, rfl⟩⟩

/-- After any calls, a request is taken for a key exactly if it presents a secret for which that
key was issued, the key was never revoked and the second reading of the clock is before its
expiry. -/
theorem authenticate_iff_issued (h : (table H).Run .empty calls store) :
    authenticate hash attempt store headers = .ok identity ↔
      ∃ secret lookupNow decisionNow, Presents headers secret ∧
        attempt.Served lookupNow decisionNow ∧ Holds hash calls secret decisionNow identity := by
  constructor
  · exact holds_of_authenticate h
  · rintro ⟨secret, lookupNow, decisionNow, hpresents, hserved, hholds⟩
    exact authenticate_of_holds h hpresents hserved hholds

theorem Presents.unique {first second : VirtualKeySecret} (h : Presents headers first)
    (h' : Presents headers second) : first = second :=
  Except.ok.inj ((bearerSecret_ok.mpr h).symm.trans (bearerSecret_ok.mpr h'))

/-- What is left of a key once it is revoked. -/
structure Retired (hash : VirtualKeySecret → H) (store : VirtualKeyStore H) (issue : Issue H) :
    Prop where
  nobody : ∀ attempt headers identity, authenticate hash attempt store headers = .ok identity →
    identity.keyId ≠ issue.keyId
  unusable : ∀ secret, hash secret = issue.keyHash → ∀ attempt headers, Presents headers secret →
    ∀ identity, authenticate hash attempt store headers ≠ .ok identity
  final : ∀ atMs changed store', store.revoke issue.keyId atMs = .ok (changed, store') →
    changed = false ∧ store'.rows = store.rows
  taken : ∀ keyId keyHash scope store', store.insertActive keyId keyHash scope = .ok store' →
    keyId ≠ issue.keyId ∧ keyHash ≠ issue.keyHash

/-- A revocation is for good: whatever is called afterwards, nobody is taken for the key, its
secret opens nothing, and neither its identifier nor its hash is given away again. -/
theorem revoked_for_good {rest : List (Call H)} {issue : Issue H} {atMs : I64}
    (h : (table H).Run .empty (calls ++ .revoke issue.keyId atMs (.ok true) :: rest) store)
    (hissue : issue ∈ issued calls) : Retired hash store issue := by
  have hrecorded := recorded h
  have hrevoked : revocation (calls ++ .revoke issue.keyId atMs (.ok true) :: rest) issue.keyId ≠
      none := revocation_of_revoked
  have hmem : issue ∈ issued (calls ++ .revoke issue.keyId atMs (.ok true) :: rest) :=
    mem_issued_append hissue
  have hrow : issue.row _ ∈ store.rows := hrecorded.rows ▸ List.mem_map_of_mem hmem
  constructor
  · intro attempt headers identity hidentity hsame
    obtain ⟨_, _, _, -, -, hholds⟩ := holds_of_authenticate h hidentity
    exact hrevoked (hsame ▸ hholds.unrevoked)
  · intro secret hhash attempt headers hpresents identity hidentity
    obtain ⟨other, _, _, hother, -, hholds⟩ := holds_of_authenticate h hidentity
    have hsame := hholds.issued
    rw [hother.unique hpresents, hhash] at hsame
    have hfound := hrecorded.rows ▸ List.mem_map_of_mem hsame
    have heq := VirtualKeyStore.eq_of_keyHash hfound hrow rfl
    have hid : identity.keyId = issue.keyId := congrArg Row.keyId heq
    exact hrevoked (hid ▸ hholds.unrevoked)
  · intro atMs' changed store' hrevoke
    obtain ⟨rfl, hchanged⟩ := VirtualKeyStore.revoke_ok hrevoke
    have hdone : ∀ row ∈ store.rows, row.keyId = issue.keyId → row.status ≠ .active := by
      intro row hother hid hactive
      rw [VirtualKeyStore.eq_of_keyId hother hrow hid] at hactive
      cases hfirst : revocation (calls ++ .revoke issue.keyId atMs (.ok true) :: rest)
          issue.keyId with
      | none => exact hrevoked hfirst
      | some first => simp [Issue.row, Issue.status, hfirst] at hactive
    constructor
    · rw [← Bool.not_eq_true, hchanged]
      rintro ⟨row, hother, hid, hactive⟩
      exact hdone row hother hid hactive
    · exact VirtualKeyStore.revokeRow_of_not_active hdone
  · intro keyId keyHash scope store' hinsert
    obtain ⟨-, hid, hhash⟩ := VirtualKeyStore.insertActive_ok hinsert
    constructor
    · rintro rfl
      exact hid (List.mem_map_of_mem hrow)
    · rintro rfl
      exact hhash (List.mem_map_of_mem hrow)

end Authenticator

section Ceiling

def allowsRole (identity : AuthenticatedVirtualKey) (role : Role) : Bool :=
  identity.scope.allowedRoles.any fun allowed => allowed = roleText role

def fullRoleAuthority (identity : AuthenticatedVirtualKey) : Bool :=
  roles.all (allowsRole identity)

/-- Without a role, or with a fallback across roles, every role must be allowed. -/
def enforceScope (identity : AuthenticatedVirtualKey) (profile : ParsedProfile) :
    Except VirtualKeyScopeError Unit := do
  refuseIf (!identity.scope.allowedPrivacy.contains (profile.task.privacy.getD .localOnly))
    .privacyForbidden
  refuseIf (profile.task.fallback = some .nextInChain ∧ fullRoleAuthority identity = false)
    .fallbackForbidden
  match profile.role with
  | none => refuseIf (fullRoleAuthority identity = false) .roleForbidden
  | some role => refuseIf (allowsRole identity role = false) .roleForbidden

/-- A scope admits a request whose privacy it allows and whose every possible role it allows. -/
structure Admits (identity : AuthenticatedVirtualKey) (profile : ParsedProfile) : Prop where
  privacy : profile.task.privacy.getD .localOnly ∈ identity.scope.allowedPrivacy
  asked : ∀ role, profile.role = some role → roleText role ∈ identity.scope.allowedRoles
  openEnded : profile.role = none ∨ profile.task.fallback = some .nextInChain →
    ∀ role, roleText role ∈ identity.scope.allowedRoles

theorem allowsRole_iff {identity : AuthenticatedVirtualKey} {role : Role} :
    allowsRole identity role = true ↔ roleText role ∈ identity.scope.allowedRoles := by
  simp [allowsRole]

theorem fullRoleAuthority_iff {identity : AuthenticatedVirtualKey} :
    fullRoleAuthority identity = true ↔
      ∀ role, roleText role ∈ identity.scope.allowedRoles := by
  simp only [fullRoleAuthority, List.all_eq_true, allowsRole_iff]
  exact ⟨fun h role => h role (mem_roles role), fun h role _ => h role⟩

theorem enforceScope_ok {identity : AuthenticatedVirtualKey} {profile : ParsedProfile} :
    enforceScope identity profile = .ok () ↔ Admits identity profile := by
  have hprivacy : ¬(!identity.scope.allowedPrivacy.contains
      (profile.task.privacy.getD .localOnly)) = true ↔
      profile.task.privacy.getD .localOnly ∈ identity.scope.allowedPrivacy := by simp
  simp only [enforceScope, bind_eq_ok, refuseIf_eq_ok, hprivacy, not_and, Bool.not_eq_false,
    fullRoleAuthority_iff]
  cases hrole : profile.role with
  | none =>
    simp only [refuseIf_eq_ok, Bool.not_eq_false, fullRoleAuthority_iff]
    constructor
    · rintro ⟨_, hallowed, _, -, hall⟩
      exact ⟨hallowed, by simp [hrole], fun _ => hall⟩
    · intro h
      exact ⟨(), h.privacy, (), fun _ => h.openEnded (.inl hrole), h.openEnded (.inl hrole)⟩
  | some role =>
    simp only [refuseIf_eq_ok, Bool.not_eq_false, allowsRole_iff]
    constructor
    · rintro ⟨_, hallowed, _, hfallback, hasked⟩
      refine ⟨hallowed, ?_, ?_⟩
      · intro other hother
        rw [hrole] at hother
        cases hother
        exact hasked
      · rintro (hnone | hnext)
        · rw [hrole] at hnone
          cases hnone
        · exact hfallback hnext
    · intro h
      exact ⟨(), h.privacy, (), fun hnext => h.openEnded (.inr hnext), h.asked role hrole⟩

end Ceiling

section Sample

def zeroSecretText : String := "idk_0000000000000000000000000000000000000000000000000000000000000000"

theorem zeroSecret_canonical : isSecretText zeroSecretText = true := by decide +kernel

def zeroSecret : VirtualKeySecret := ⟨zeroSecretText, zeroSecret_canonical⟩

def opsScope : VirtualKeyScope :=
  ⟨"ops", none, [.localOnly], ["fast"], none, some (.lit 100), []⟩

def opsIssue : Issue String := ⟨"vk_1", zeroSecretText, opsScope⟩

def opsInsert : Call String := .insertActive "vk_1" zeroSecretText opsScope (.ok ())

def bearerHeaders : HeaderMap :=
  [("authorization", ("bearer " ++ zeroSecretText).toList.map fun c => UInt8.ofNat c.toNat)]

def promptAttempt : Attempt := ⟨true, false, true, some (.lit 10), some (.lit 11)⟩

theorem presents_zeroSecret : Presents bearerHeaders zeroSecret :=
  ⟨_, "bearer " ++ zeroSecretText, "bearer", rfl, by decide +kernel, by decide +kernel, by decide⟩

theorem run_opsInsert : ∃ store, (table String).Run .empty [opsInsert] store :=
  ⟨_, .single (.inserted (VirtualKeyStore.insertActive_free (by decide +kernel)
    List.not_mem_nil List.not_mem_nil))⟩

theorem served_promptAttempt : promptAttempt.Served (.lit 10) (.lit 11) :=
  ⟨rfl, rfl, rfl, rfl, rfl, by decide, by decide⟩

theorem holds_ops : Holds VirtualKeySecret.text [opsInsert] zeroSecret (.lit 11)
    ⟨"vk_1", opsScope⟩ :=
  ⟨List.mem_singleton_self _, rfl, by decide⟩

theorem authenticate_iff_issued_ops : ∃ store, (table String).Run .empty [opsInsert] store ∧
    authenticate VirtualKeySecret.text promptAttempt store bearerHeaders =
      .ok ⟨"vk_1", opsScope⟩ := by
  obtain ⟨store, hrun⟩ := run_opsInsert
  exact ⟨store, hrun, (authenticate_iff_issued hrun).mpr
    ⟨zeroSecret, .lit 10, .lit 11, presents_zeroSecret, served_promptAttempt, holds_ops⟩⟩

theorem revoked_for_good_ops : ∃ store,
    (table String).Run .empty [opsInsert, .revoke "vk_1" (.lit 50) (.ok true)] store ∧
      Retired VirtualKeySecret.text store opsIssue := by
  obtain ⟨store, hrun⟩ := run_opsInsert
  have hchanged : (store.rows.any fun row => row.keyId = "vk_1" && row.status = .active) = true := by
    rw [(recorded hrun).rows]
    decide +kernel
  have hrevoke : store.revoke "vk_1" (.lit 50) =
      .ok (true, store.revokeRow "vk_1" (.lit 50)) := by
    rw [VirtualKeyStore.revoke_valid (by decide) (by decide), hchanged]
  have hall : (table String).Run .empty
      ([opsInsert] ++ .revoke opsIssue.keyId (.lit 50) (.ok true) :: []) _ :=
    hrun.append (.single (.revoked hrevoke))
  exact ⟨_, hall, revoked_for_good hall (List.mem_singleton_self _)⟩

end Sample

end VirtualKey
