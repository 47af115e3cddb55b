import IDoris.Subscription.Steps

/-!
# The active set and the waits

The active set has exactly the requests between their admission and their removal, and a shutdown
that waits unheard has an active request, or a task about to call the notifier.
-/
namespace Subscription

open Slots Transition

namespace Stage

/-- The id under which a request is in the active set. -/
def active : Stage → Option Nat
  | .admitted id | .spawned id | .running id | .ended id _ | .unbridged id _ => some id
  | _ => none

def accepted : Stage → Bool
  | .calling | .refused | .gone => false
  | _ => true

def isRemoved : Stage → Bool
  | .removed _ _ | .notified _ | .finished _ => true
  | _ => false

/-- The result of the relay's run, once the run has ended. -/
def result : Stage → Option (Except ErrorCode String)
  | .ended _ result | .unbridged _ result | .removed _ result | .notified result
  | .finished result => some result
  | _ => none

theorem accepted_of_active {stage : Stage} {id : Nat} (h : stage.active = some id) :
    stage.accepted = true := by
  cases stage <;> first | rfl | cases h

theorem active_or_removed {stage : Stage} (h : stage.accepted = true) :
    (∃ id, stage.active = some id) ∨ stage.isRemoved = true := by
  cases stage <;> first | exact .inl ⟨_, rfl⟩ | exact .inr rfl | cases h

end Stage

/-- The lock has been taken, and the call has not been dropped. -/
def ShutdownStage.entered : ShutdownStage → Bool
  | .calling | .dropped => false
  | _ => true

def Service.issued (w : Service) : Nat := w.requests.countP fun r => r.stage.accepted

/-- What the shutdown's own place says of the service. -/
structure Shutdown.Agrees (w : Service) (s : Shutdown) : Prop where
  closed : s.stage.entered = true → w.accepting = false
  drained : s.stage = .returned (.ok ()) → w.active.entries = []
  took : ∀ token ∈ s.tokens, ∃ r, w.requests[token]? = some r ∧ r.stage.accepted = true
  told : ∀ token ∈ s.tokens, w.cancelled token = true ∨
    ∃ left, s.stage = .cancelling left ∧ token ∈ left
  awaited : s.stage = .waiting false → w.active.entries ≠ [] ∨
    ∃ i : Nat, ∃ r, w.requests[i]? = some r ∧ ∃ result, r.stage = .removed true result

/-- The last of the tokens has been cancelled. -/
theorem Shutdown.Agrees.all_told {w : Service} {s : Shutdown} (h : s.Agrees w) (hs : ∀ left, s.stage ≠ .cancelling left) :
    ∀ token ∈ s.tokens, w.cancelled token = true := by
  intro token htoken
  obtain htold | ⟨left, hleft, -⟩ := h.told token htoken
  · exact htold
  · exact absurd hleft (hs left)

structure Service.Sound (w : Service) : Prop where
  owned : ∀ id i, w.active.get id = some i ↔
    ∃ r, w.requests[i]? = some r ∧ r.stage.active = some id
  bounded : ∀ (i : Nat) (r : Request) (id : Nat),
    w.requests[i]? = some r → r.stage.active = some id → id ≤ w.issued
  fresh : w.issued + 1 < 2 ^ 64 → w.nextId = w.issued + 1
  removedOnce : w.removals.Nodup
  removed : ∀ i, i ∈ w.removals ↔ ∃ r, w.requests[i]? = some r ∧ r.stage.isRemoved = true
  waits : ∀ s ∈ w.shutdowns, s.Agrees w

namespace Service

variable {w w' : Service} {i j id : Nat} {r r' : Request} {s s' : Shutdown}
  {result : Except ErrorCode String}

theorem sound_new : new.Sound where
  owned id i := by simp [new]
  bounded i r id h := by simp [new] at h
  fresh _ := rfl
  removedOnce := List.nodup_nil
  removed i := by simp [new]
  waits s h := by simp [new] at h

theorem issued_set (hi : w.requests[i]? = some r) (r' : Request) :
    (w.setRequest i r').issued + (if r.stage.accepted then 1 else 0) =
      w.issued + if r'.stage.accepted then 1 else 0 := by
  obtain ⟨hlt, rfl⟩ := List.getElem?_eq_some_iff.mp hi
  have hpos : (if w.requests[i].stage.accepted then 1 else 0) ≤ w.issued := by
    split
    · next haccepted =>
      exact List.countP_pos_iff.mpr ⟨_, List.getElem_mem hlt, haccepted⟩
    · exact Nat.zero_le _
  have hset := List.countP_set (p := fun r : Request => r.stage.accepted) (a := r') hlt
  simp only [issued, setRequest] at hset hpos ⊢
  omega

theorem issued_lt (hi : w.requests[i]? = some r) (hr : r.stage.accepted = false) :
    w.issued < w.requests.length := by
  apply Nat.lt_of_le_of_ne List.countP_le_length
  intro hall
  have haccepted := List.countP_eq_length.mp hall r (List.mem_of_getElem? hi)
  rw [hr] at haccepted
  cases haccepted

/-- A request moves on within the part it is in. -/
structure Moves (w : Service) (r r' : Request) : Prop where
  active : r'.stage.active = r.stage.active
  accepted : r'.stage.accepted = r.stage.accepted
  isRemoved : r'.stage.isRemoved = r.stage.isRemoved
  empty : ∀ result, r.stage = .removed true result → (∃ result', r'.stage = .removed true result') ∨
    ∀ s ∈ w.shutdowns, s.stage ≠ .waiting false

theorem Sound.setRequest (h : w.Sound) (hi : w.requests[i]? = some r) (hmoves : Moves w r r') :
    (w.setRequest i r').Sound := by
  have hissued : (w.setRequest i r').issued = w.issued := by
    have hset := issued_set hi r'
    rw [hmoves.accepted] at hset
    omega
  constructor
  · intro id k
    rw [show (w.setRequest i r').active = w.active from rfl, h.owned id k]
    exact (holds_set_same hi (by rw [hmoves.active])).symm
  · intro k q id hk hid
    rw [hissued]
    obtain ⟨rfl, rfl⟩ | ⟨-, hk⟩ := get_set hk
    · exact h.bounded k r id hi (hmoves.active.symm.trans hid)
    · exact h.bounded k q id hk hid
  · rw [hissued]
    exact h.fresh
  · exact h.removedOnce
  · intro k
    rw [show (w.setRequest i r').removals = w.removals from rfl, h.removed k]
    exact (holds_set_same hi (by rw [hmoves.isRemoved])).symm
  · intro s hs
    have hagrees := h.waits s hs
    refine ⟨hagrees.closed, hagrees.drained, ?_, hagrees.told, ?_⟩
    · intro token htoken
      exact (holds_set_same hi (by rw [hmoves.accepted])).mpr (hagrees.took token htoken)
    · intro hwaiting
      obtain hnonempty | ⟨k, q, hk, result, hempty⟩ := hagrees.awaited hwaiting
      · exact .inl hnonempty
      · by_cases hki : k = i
        · subst hki
          rw [hi] at hk
          cases hk
          obtain hstill | hnone := hmoves.empty result hempty
          · exact .inr ⟨k, r', get_set_self hi, hstill⟩
          · exact absurd hwaiting (hnone s hs)
        · exact .inr ⟨k, q, (get_set_of_ne hki).trans hk, result, hempty⟩

theorem Sound.setShutdown (h : w.Sound) (hs' : s'.Agrees w) : (w.setShutdown j s').Sound := by
  refine ⟨h.owned, h.bounded, h.fresh, h.removedOnce, h.removed, ?_⟩
  intro s hs
  obtain rfl | ⟨k, -, hk⟩ := mem_set hs
  · exact ⟨hs'.closed, hs'.drained, hs'.took, hs'.told, hs'.awaited⟩
  · have hagrees := h.waits s (List.mem_of_getElem? hk)
    exact ⟨hagrees.closed, hagrees.drained, hagrees.took, hagrees.told, hagrees.awaited⟩

theorem Sound.cancelToken (h : w.Sound) : (w.cancelToken i).Sound := by
  refine ⟨h.owned, h.bounded, h.fresh, h.removedOnce, h.removed, ?_⟩
  intro s hs
  have hagrees := h.waits s hs
  refine ⟨hagrees.closed, hagrees.drained, hagrees.took, ?_, hagrees.awaited⟩
  intro token htoken
  by_cases heq : token = i
  · subst heq
    exact .inl (Function.update_self ..)
  · have hsame : (w.cancelToken i).cancelled token = w.cancelled token :=
      Function.update_of_ne heq ..
    rw [hsame]
    exact hagrees.told token htoken

theorem Sound.notifyWaiters (h : w.Sound) : w.notifyWaiters.Sound := by
  refine ⟨h.owned, h.bounded, h.fresh, h.removedOnce, h.removed, ?_⟩
  intro s' hs'
  obtain ⟨s, hs, rfl⟩ := List.mem_map.mp hs'
  have hagrees := h.waits s hs
  constructor
  · intro hentered
    apply hagrees.closed
    revert hentered
    cases s.stage <;> exact id
  · intro hok
    apply hagrees.drained
    revert hok
    cases s.stage <;> first | exact id | exact nofun
  · exact hagrees.took
  · intro token htoken
    obtain htold | ⟨left, hleft, hmem⟩ := hagrees.told token htoken
    · exact .inl htold
    · exact .inr ⟨left, by simp only [hleft, ShutdownStage.hear], hmem⟩
  · intro hwaiting
    exfalso
    revert hwaiting
    cases s.stage <;> exact nofun

theorem not_waiting_of_notify : ∀ s ∈ w.notifyWaiters.shutdowns, s.stage ≠ .waiting false := by
  intro s' hs'
  obtain ⟨s, -, rfl⟩ := List.mem_map.mp hs'
  cases s.stage <;> simp [ShutdownStage.hear]

theorem Sound.rehash {n : Nat} (h : w.Sound) :
    Service.Sound { w with active := w.active.exchange n } := by
  have hempty : (w.active.exchange n).entries = [] ↔ w.active.entries = [] :=
    ⟨fun he => List.Perm.eq_nil (he ▸ (Keyed.swapAt_perm n w.active.entries).symm),
      fun he => List.Perm.eq_nil (he ▸ Keyed.swapAt_perm n w.active.entries)⟩
  refine ⟨fun id k => by rw [Keyed.Map.get_exchange]; exact h.owned id k, h.bounded, h.fresh,
    h.removedOnce, h.removed, ?_⟩
  intro s hs
  have hagrees := h.waits s hs
  exact ⟨hagrees.closed, fun hok => hempty.mpr (hagrees.drained hok), hagrees.took, hagrees.told,
    fun hwaiting => (hagrees.awaited hwaiting).imp (mt hempty.mp) id⟩

theorem Sound.call (h : w.Sound) :
    Service.Sound { w with requests := w.requests ++ [⟨.calling, .waiting, false⟩] } := by
  have hissued : Service.issued { w with requests := w.requests ++ [⟨.calling, .waiting, false⟩] } =
      w.issued := by
    simp [issued, Stage.accepted]
  constructor
  · intro id k
    rw [h.owned id k]
    exact (holds_concat nofun).symm
  · intro k q id hk hid
    rw [hissued]
    obtain ⟨-, rfl⟩ | hk := get_concat hk
    · cases hid
    · exact h.bounded k q id hk hid
  · rw [hissued]
    exact h.fresh
  · exact h.removedOnce
  · intro k
    rw [h.removed k]
    exact (holds_concat nofun).symm
  · intro s hs
    have hagrees := h.waits s hs
    refine ⟨hagrees.closed, hagrees.drained, ?_, hagrees.told, ?_⟩
    · exact fun token htoken => (holds_concat nofun).mpr (hagrees.took token htoken)
    · intro hwaiting
      obtain hnonempty | ⟨k, hk⟩ := hagrees.awaited hwaiting
      · exact .inl hnonempty
      · exact .inr ⟨k, (holds_concat nofun).mpr hk⟩

theorem Sound.shutdown (h : w.Sound) :
    Service.Sound { w with shutdowns := w.shutdowns ++ [⟨.calling, []⟩] } := by
  refine ⟨h.owned, h.bounded, h.fresh, h.removedOnce, h.removed, ?_⟩
  intro s hs
  obtain hs | hs := List.mem_append.mp hs
  · have hagrees := h.waits s hs
    exact ⟨hagrees.closed, hagrees.drained, hagrees.took, hagrees.told, hagrees.awaited⟩
  · obtain rfl := List.mem_singleton.mp hs
    exact ⟨nofun, nofun, nofun, nofun, nofun⟩

/-- A new id is not in use, as long as fewer than `2 ^ 64` requests came. -/
theorem Sound.unused (h : w.Sound) (hi : w.requests[i]? = some r) (hr : r.stage = .calling)
    (hfew : w.requests.length < 2 ^ 64) :
    w.nextId = w.issued + 1 ∧ w.active.get w.nextId = none := by
  have hlt := issued_lt hi (by rw [hr]; rfl)
  have hnext : w.nextId = w.issued + 1 := h.fresh (by omega)
  refine ⟨hnext, ?_⟩
  cases hget : w.active.get w.nextId with
  | none => rfl
  | some k =>
    obtain ⟨q, hk, hid⟩ := (h.owned _ _).mp hget
    have hle := h.bounded k q _ hk hid
    omega

theorem Sound.admission (h : w.Sound) (hi : w.requests[i]? = some r) (hr : r.stage = .calling)
    (hfew : w.requests.length < 2 ^ 64) : (w.admission i r).Sound := by
  unfold Service.admission
  split
  · next haccepting =>
    obtain ⟨hnext, hunused⟩ := h.unused hi hr hfew
    have hissued := issued_set hi { r with stage := .admitted w.nextId }
    simp only [hr, Stage.accepted, Bool.false_eq_true, if_false, if_true, Nat.add_zero] at hissued
    have hlt := issued_lt hi (by rw [hr]; rfl)
    constructor
    · intro id k
      simp only [Keyed.Map.get_insert]
      split
      · next hid =>
        subst hid
        refine Iff.trans ?_ (holds_set_new hi (by rfl)).symm
        rw [← h.owned, hunused]
        simp [eq_comm]
      · next hid =>
        rw [h.owned]
        refine (holds_set_same hi ?_).symm
        simp [Stage.active, hr, hid]
    · intro k q id hk hid
      refine Nat.le_trans ?_ (Nat.le_of_eq hissued.symm)
      obtain ⟨rfl, rfl⟩ | ⟨-, hk⟩ := get_set hk
      · obtain rfl := Option.some.inj hid
        exact Nat.le_of_eq hnext
      · exact Nat.le_succ_of_le (h.bounded k q id hk hid)
    · change (w.setRequest i _).issued + 1 < 2 ^ 64 → _ = (w.setRequest i _).issued + 1
      rw [hissued]
      intro hmore
      simp only [followingId, hnext]
      rw [Nat.mod_eq_of_lt hmore]
      omega
    · exact h.removedOnce
    · intro k
      rw [h.removed k]
      refine (holds_set_same hi ?_).symm
      simp [Stage.isRemoved, hr]
    · intro s hs
      have hagrees := h.waits s hs
      constructor
      · exact hagrees.closed
      · intro hok
        have hclosed := hagrees.closed (by rw [hok]; rfl)
        rw [hclosed] at haccepting
        cases haccepting
      · exact fun token htoken => by
          obtain ⟨q, hq, haccepted⟩ := hagrees.took token htoken
          by_cases heq : token = i
          · exact ⟨_, by rw [heq]; exact get_set_self hi, rfl⟩
          · exact ⟨q, (get_set_of_ne heq).trans hq, haccepted⟩
      · intro token htoken
        have hne : token ≠ i := by
          rintro rfl
          obtain ⟨q, hq, haccepted⟩ := hagrees.took token htoken
          rw [hi] at hq
          cases hq
          rw [hr] at haccepted
          cases haccepted
        simp only [Function.update_of_ne hne]
        exact hagrees.told token htoken
      · intro _
        refine .inl fun hempty => ?_
        have hmem := Keyed.Map.mem_entries.mpr (Keyed.Map.get_insert_self (m := w.active)
          (k := w.nextId) (v := i))
        rw [hempty] at hmem
        cases hmem
  · apply h.setRequest hi
    exact ⟨by rw [hr]; rfl, by rw [hr]; rfl, by rw [hr]; rfl, by rw [hr]; exact nofun⟩

theorem Sound.finishRequest (h : w.Sound) (hi : w.requests[i]? = some r)
    (hr : r.stage = .unbridged id result) : (w.finishRequest i r id result).Sound := by
  have hactive : r.stage.active = some id := by rw [hr]; rfl
  have hget : w.active.get id = some i := (h.owned id i).mpr ⟨r, hi, hactive⟩
  have hnot : i ∉ w.removals := by
    intro hmem
    obtain ⟨q, hq, hremoved⟩ := (h.removed i).mp hmem
    rw [hi] at hq
    cases hq
    rw [hr] at hremoved
    cases hremoved
  unfold Service.finishRequest
  simp only [hget, Option.isSome_some, Bool.true_and, Option.toList_some]
  have hissued := issued_set hi { r with
    stage := .removed (w.active.remove id).entries.isEmpty result }
  simp only [hr, Stage.accepted, if_true, Nat.add_right_cancel_iff] at hissued
  constructor
  · intro id' k
    by_cases hid : id' = id
    · subst hid
      refine Iff.trans ?_ (holds_set_lost hi (by rintro ⟨⟩)).symm
      rw [Keyed.Map.get_remove_self, ← h.owned, hget]
      simp [eq_comm]
    · rw [Keyed.Map.get_remove_of_ne hid, h.owned]
      refine (holds_set_same hi ?_).symm
      simp [Stage.active, hr, Ne.symm hid]
  · intro k q id' hk hid
    refine Nat.le_trans ?_ (Nat.le_of_eq hissued.symm)
    obtain ⟨-, rfl⟩ | ⟨-, hk⟩ := get_set hk
    · cases hid
    · exact h.bounded k q id' hk hid
  · change (w.setRequest i _).issued + 1 < 2 ^ 64 → _ = (w.setRequest i _).issued + 1
    rw [hissued]
    exact h.fresh
  · exact List.nodup_append.mpr ⟨h.removedOnce, List.nodup_singleton i, by
      rintro k hk _ hi' rfl
      rw [List.mem_singleton] at hi'
      exact hnot (hi' ▸ hk)⟩
  · intro k
    refine Iff.trans ?_ (holds_set_new hi (by rfl)).symm
    rw [List.mem_append, List.mem_singleton, h.removed k, or_comm]
  · intro s hs
    have hagrees := h.waits s hs
    constructor
    · exact hagrees.closed
    · intro hok
      simp only [Keyed.Map.remove, hagrees.drained hok, List.filter_nil]
    · exact fun token htoken => (holds_set_same hi (by rw [hr]; rfl)).mpr (hagrees.took token htoken)
    · exact hagrees.told
    · intro _
      cases hempty : (w.active.remove id).entries with
      | nil => exact .inr ⟨i, _, get_set_self hi, result, rfl⟩
      | cons e rest => exact .inl (by rintro ⟨⟩)

/-- The stage as it was, whatever is new about the caller. -/
theorem Moves.of_stage (h : r'.stage = r.stage) : Moves w r r' :=
  ⟨by rw [h], by rw [h], by rw [h], fun result hempty => .inl ⟨result, h.trans hempty⟩⟩

theorem Sound.turn (h : w.Sound) (hi : w.requests[i]? = some r)
    (hfew : w.requests.length < 2 ^ 64) (hturn : w.turn i r result = some w') : w'.Sound := by
  unfold Service.turn at hturn
  cases hstage : r.stage with
  | calling =>
    simp only [hstage, Option.some.injEq] at hturn
    exact hturn ▸ h.admission hi hstage hfew
  | unbridged id result =>
    simp only [hstage, Option.some.injEq] at hturn
    exact hturn ▸ h.finishRequest hi hstage
  | removed empty result =>
    simp only [hstage, Option.some.injEq] at hturn
    subst hturn
    cases empty with
    | true =>
      refine h.notifyWaiters.setRequest (by exact hi) ⟨?_, ?_, ?_, fun _ _ => .inr ?_⟩
      · rw [hstage]; rfl
      · rw [hstage]; rfl
      · rw [hstage]; rfl
      · exact not_waiting_of_notify
    | false =>
      apply h.setRequest hi
      exact ⟨by rw [hstage]; rfl, by rw [hstage]; rfl, by rw [hstage]; rfl, by rw [hstage]; exact nofun⟩
  | refused => simp only [hstage, reduceCtorEq] at hturn
  | gone => simp only [hstage, reduceCtorEq] at hturn
  | finished result => simp only [hstage, reduceCtorEq] at hturn
  | admitted id | spawned id | running id | ended id result | notified result =>
    simp only [hstage, Option.some.injEq] at hturn
    subst hturn
    apply h.setRequest hi
    exact ⟨by rw [hstage]; rfl, by rw [hstage]; rfl, by rw [hstage]; rfl, by rw [hstage]; exact nofun⟩

theorem Sound.bridge (h : w.Sound) (hbridge : w.bridge i r = some w') : w'.Sound := by
  unfold Service.bridge at hbridge
  split at hbridge
  all_goals first
    | cases hbridge
    | split at hbridge
      · cases hbridge
        exact h.cancelToken
      · cases hbridge

theorem Sound.dropCaller (h : w.Sound) (hi : w.requests[i]? = some r)
    (hdrop : w.dropCaller i r = some w') : w'.Sound := by
  unfold Service.dropCaller at hdrop
  split at hdrop
  · next hstage _ =>
    cases hdrop
    apply h.setRequest hi
    exact ⟨by rw [hstage]; rfl, by rw [hstage]; rfl, by rw [hstage]; rfl, by rw [hstage]; exact nofun⟩
  · cases hdrop
  · cases hdrop
    exact h.setRequest hi (.of_stage rfl)
  · cases hdrop

/-- The shutdown takes the lock, and with it the tokens of all that is active. -/
theorem Sound.close (h : w.Sound) : ({ w with accepting := false }.setShutdown j
    ⟨.cancelling w.active.values, w.active.values⟩).Sound := by
  have hclosed : Service.Sound { w with accepting := false } := by
    refine ⟨h.owned, h.bounded, h.fresh, h.removedOnce, h.removed, ?_⟩
    intro s hs
    have hagrees := h.waits s hs
    exact ⟨fun _ => rfl, hagrees.drained, hagrees.took, hagrees.told, hagrees.awaited⟩
  apply hclosed.setShutdown
  refine ⟨fun _ => rfl, nofun, ?_, fun token htoken => .inr ⟨_, rfl, htoken⟩, nofun⟩
  intro token htoken
  obtain ⟨id, hid⟩ := Keyed.Map.mem_values.mp htoken
  obtain ⟨r, hr, hactive⟩ := (h.owned id token).mp hid
  exact ⟨r, hr, Stage.accepted_of_active hactive⟩

theorem Sound.moveShutdown {stage : ShutdownStage} (h : w.Sound) (hj : w.shutdowns[j]? = some s)
    (hs : ∀ left, s.stage ≠ .cancelling left)
    (hclosed : stage.entered = true → w.accepting = false)
    (hok : stage = .returned (.ok ()) → w.active.entries = [])
    (hwait : stage = .waiting false → w.active.entries ≠ []) :
    (w.setShutdown j { s with stage := stage }).Sound := by
  have hagrees := h.waits s (List.mem_of_getElem? hj)
  apply h.setShutdown
  exact ⟨hclosed, hok, hagrees.took, fun token htoken => .inl (hagrees.all_told hs token htoken),
    fun hwaiting => .inl (hwait hwaiting)⟩

theorem Sound.shutdownTurn (h : w.Sound) (hj : w.shutdowns[j]? = some s)
    (hturn : w.shutdownTurn j s = some w') : w'.Sound := by
  have hagrees := h.waits s (List.mem_of_getElem? hj)
  unfold Service.shutdownTurn at hturn
  split at hturn
  · cases hturn
    exact h.close
  · next hstage =>
    cases hturn
    apply h.setShutdown
    refine ⟨fun _ => hagrees.closed (by rw [hstage]; rfl), nofun, hagrees.took, ?_, nofun⟩
    intro token htoken
    obtain htold | ⟨left, hleft, hmem⟩ := hagrees.told token htoken
    · exact .inl htold
    · rw [hstage] at hleft
      cases hleft
      cases hmem
  · next token rest hstage =>
    cases hturn
    apply h.cancelToken.setShutdown
    refine ⟨fun _ => hagrees.closed (by rw [hstage]; rfl), nofun, hagrees.took, ?_, nofun⟩
    intro other hother
    by_cases heq : other = token
    · exact .inl (by rw [heq]; exact Function.update_self ..)
    · obtain htold | ⟨left, hleft, hmem⟩ := hagrees.told other hother
      · exact .inl ((Function.update_of_ne heq ..).trans htold)
      · rw [hstage] at hleft
        cases hleft
        obtain heq' | hmem := List.mem_cons.mp hmem
        · exact absurd heq' heq
        · exact .inr ⟨rest, rfl, hmem⟩
  · next hstage =>
    cases hturn
    exact h.moveShutdown hj (by rw [hstage]; exact nofun)
      (fun _ => hagrees.closed (by rw [hstage]; rfl)) nofun nofun
  · next heard hstage =>
    cases hturn
    have hclosed := hagrees.closed (by rw [hstage]; rfl)
    split
    · next hempty =>
      exact h.moveShutdown hj (by rw [hstage]; exact nofun) (fun _ => hclosed)
        (fun _ => List.isEmpty_iff.mp hempty) nofun
    · next hempty =>
      exact h.moveShutdown hj (by rw [hstage]; exact nofun) (fun _ => hclosed) nofun
        (fun _ => mt List.isEmpty_iff.mpr hempty)
  · next hstage =>
    cases hturn
    exact h.moveShutdown hj (by rw [hstage]; exact nofun)
      (fun _ => hagrees.closed (by rw [hstage]; rfl)) nofun nofun
  all_goals cases hturn

theorem Sound.timeout (h : w.Sound) (hj : w.shutdowns[j]? = some s)
    (htimeout : w.timeout j s = some w') : w'.Sound := by
  have hagrees := h.waits s (List.mem_of_getElem? hj)
  unfold Service.timeout at htimeout
  cases hstage : s.stage with
  | checking heard =>
    simp only [hstage, Option.some.injEq] at htimeout
    exact htimeout ▸ h.moveShutdown hj (by rw [hstage]; exact nofun)
      (fun _ => hagrees.closed (by rw [hstage]; rfl)) nofun nofun
  | waiting heard =>
    cases heard with
    | false =>
      simp only [hstage, Option.some.injEq] at htimeout
      exact htimeout ▸ h.moveShutdown hj (by rw [hstage]; exact nofun)
        (fun _ => hagrees.closed (by rw [hstage]; rfl)) nofun nofun
    | true => simp only [hstage, reduceCtorEq] at htimeout
  | calling => simp only [hstage, reduceCtorEq] at htimeout
  | cancelling left => simp only [hstage, reduceCtorEq] at htimeout
  | looping => simp only [hstage, reduceCtorEq] at htimeout
  | returned result => simp only [hstage, reduceCtorEq] at htimeout
  | dropped => simp only [hstage, reduceCtorEq] at htimeout

theorem Sound.dropShutdown (h : w.Sound) (hj : w.shutdowns[j]? = some s)
    (hdrop : w.dropShutdown j s = some w') : w'.Sound := by
  have hs : ∀ left, s.stage ≠ .cancelling left := by
    intro left hleft
    simp only [Service.dropShutdown, hleft, reduceCtorEq] at hdrop
  unfold Service.dropShutdown at hdrop
  split at hdrop
  all_goals first
    | cases hdrop; exact h.moveShutdown hj hs nofun nofun nofun
    | cases hdrop

theorem Sound.step {e : ServiceEvent} (h : w.Sound) (hfew : w.requests.length < 2 ^ 64)
    (hstep : w.step e = some w') : w'.Sound := by
  cases e with
  | call => exact Option.some.inj hstep ▸ h.call
  | turn i result =>
    obtain ⟨r, hi, hturn⟩ := Option.bind_eq_some_iff.mp hstep
    exact h.turn hi hfew hturn
  | cancel i =>
    obtain ⟨r, hi, rfl⟩ := Option.map_eq_some_iff.mp hstep
    exact h.setRequest hi (.of_stage rfl)
  | bridge i =>
    obtain ⟨r, -, hbridge⟩ := Option.bind_eq_some_iff.mp hstep
    exact h.bridge hbridge
  | dropCaller i =>
    obtain ⟨r, hi, hdrop⟩ := Option.bind_eq_some_iff.mp hstep
    exact h.dropCaller hi hdrop
  | shutdown => exact Option.some.inj hstep ▸ h.shutdown
  | shutdownTurn j =>
    obtain ⟨s, hj, hturn⟩ := Option.bind_eq_some_iff.mp hstep
    exact h.shutdownTurn hj hturn
  | timeout j =>
    obtain ⟨s, hj, htimeout⟩ := Option.bind_eq_some_iff.mp hstep
    exact h.timeout hj htimeout
  | dropShutdown j =>
    obtain ⟨s, hj, hdrop⟩ := Option.bind_eq_some_iff.mp hstep
    exact h.dropShutdown hj hdrop
  | rehash n => exact Option.some.inj hstep ▸ h.rehash

/-- Every run of fewer than `2 ^ 64` requests keeps the active set and the waits in step. -/
theorem sound_of_run {labels : List ServiceEvent} (h : system.Run new labels w)
    (hfew : w.requests.length < 2 ^ 64) : w.Sound := by
  have hall := h.invariant (fun w => w.requests.length < 2 ^ 64 → w.Sound)
    (fun t e u ht hstep hu =>
      have hle := step_length hstep
      Sound.step (ht (by omega)) (by omega) hstep) fun _ => sound_new
  exact hall hfew

end Service

end Subscription
