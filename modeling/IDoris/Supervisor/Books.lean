import IDoris.Supervisor.Stage

/-!
# Callers, replies and deliveries

Every caller of a load or an unload is either answered once or held by the active
operation, and every spawned operation is either delivered once or still out.
-/
namespace Supervisor

section Register

variable {G : Type} {callers : List (Request G)} {q : Request G}

theorem getElem?_register {c : Nat} {r : Request G} (h : callers[c]? = some r) :
    (callers ++ [q])[c]? = some r := by
  rw [List.getElem?_append_left (List.getElem?_eq_some_iff.mp h).1]
  exact h

/-- One more caller, counted once. -/
theorem count_register (c : Nat) :
    (if c < callers.length then 1 else 0) + [callers.length].count c =
      if c < (callers ++ [q]).length then 1 else 0 := by
  rw [List.length_append, List.length_singleton, List.count_singleton]
  by_cases h : c < callers.length
  · have hne : (callers.length == c) = false := by simpa using Nat.ne_of_gt h
    rw [if_pos h, if_pos (Nat.lt_succ_of_lt h), hne]
    rfl
  · by_cases he : c = callers.length
    · subst he
      simp
    · have hne : (callers.length == c) = false := by simpa using Ne.symm he
      rw [if_neg h, hne, if_neg (show ¬c < callers.length + 1 by omega)]
      rfl

end Register

variable {G : Type} [Gigabytes G]

def waitersOf (activeOp : Option (ActiveOp G)) : List Nat :=
  (activeOp.map fun op => op.kind.waiters).getD []

structure Books (activeOp : Option (ActiveOp G)) (tasks : List (OpTask G))
    (callers : List (Request G)) (waited : List Nat) (replies : List (Reply G)) (delivered : List (Delivery G))
    (started : List Nat) (nextSerial : Nat) : Prop where
  once : ∀ c, (replies.map (·.caller)).count c + (waitersOf activeOp).count c =
    if c < callers.length then 1 else 0
  held : ∀ op, activeOp = some op → ∀ c ∈ op.kind.waiters,
    ∃ q, callers[c]? = some q ∧ Served q op.request
  caused : ∀ r ∈ replies, ∀ d, r.cause = some d → d ∈ delivered ∧ r.result = d.result ∧
    ∃ q, callers[r.caller]? = some q ∧ Served q d.request
  early : ∀ r ∈ replies, r.cause = none → r.caller ∉ waited
  known : ∀ c ∈ waited, c < callers.length
  deliveries : started = delivered.map (·.serial) ++ tasks.map (·.serial)
  distinct : started.Nodup
  fresh : ∀ n ∈ started, n < nextSerial
  unstarted : ∀ op, activeOp = some op → op.serial < nextSerial ∧
    (op.waiting = true → op.serial ∉ started)

namespace Books

variable {activeOp : Option (ActiveOp G)} {tasks tasks' : List (OpTask G)}
  {callers : List (Request G)} {waited : List Nat} {replies : List (Reply G)}
  {delivered : List (Delivery G)} {started : List Nat} {nextSerial next : Nat} {q : Request G} {op op' : ActiveOp G} {t : OpTask G}
  {result : Except BackendError Unit}

theorem start : Books (none : Option (ActiveOp G)) [] [] [] [] [] [] 0 where
  once c := by simp [waitersOf]
  held op h := by cases h
  caused r h := by cases h
  early r h := by cases h
  known c h := by cases h
  deliveries := rfl
  distinct := List.nodup_nil
  fresh n h := by cases h
  unstarted op h := by cases h

theorem advance (h : Books activeOp tasks callers waited replies delivered started nextSerial)
    (hle : nextSerial ≤ next) : Books activeOp tasks callers waited replies delivered started next :=
  { h with
    fresh := fun n hn => (h.fresh n hn).trans_le hle
    unstarted := fun op hop => ⟨(h.unstarted op hop).1.trans_le hle, (h.unstarted op hop).2⟩ }

theorem tasks_congr (h : Books activeOp tasks callers waited replies delivered started nextSerial)
    (htasks : tasks'.map (·.serial) = tasks.map (·.serial)) :
    Books activeOp tasks' callers waited replies delivered started nextSerial :=
  { h with deliveries := by rw [htasks]; exact h.deliveries }

theorem held_register (h : Books activeOp tasks callers waited replies delivered started nextSerial)
    (hop : activeOp = some op) {c : Nat} (hc : c ∈ op.kind.waiters) :
    ∃ r, (callers ++ [q])[c]? = some r ∧ Served r op.request := by
  obtain ⟨r, hr, hserved⟩ := h.held op hop c hc
  exact ⟨r, getElem?_register hr, hserved⟩

theorem caused_register (h : Books activeOp tasks callers waited replies delivered started nextSerial)
    {r : Reply G} (hr : r ∈ replies) {d : Delivery G} (hd : r.cause = some d) :
    d ∈ delivered ∧ r.result = d.result ∧
      ∃ p, (callers ++ [q])[r.caller]? = some p ∧ Served p d.request := by
  obtain ⟨hmem, hresult, p, hp, hserved⟩ := h.caused r hr d hd
  exact ⟨hmem, hresult, p, getElem?_register hp, hserved⟩

/-- Only a registered caller has a reply. -/
theorem answered_lt (h : Books activeOp tasks callers waited replies delivered started nextSerial)
    {r : Reply G} (hr : r ∈ replies) : r.caller < callers.length := by
  have hpos : 0 < (replies.map (·.caller)).count r.caller :=
    List.count_pos_iff.mpr (List.mem_map_of_mem hr)
  have honce := h.once r.caller
  split at honce
  · assumption
  · omega

theorem early_wait (h : Books activeOp tasks callers waited replies delivered started nextSerial)
    {r : Reply G} (hr : r ∈ replies) (hcause : r.cause = none) :
    r.caller ∉ waited ++ [callers.length] := by
  rw [List.mem_append, not_or]
  refine ⟨h.early r hr hcause, fun hc => ?_⟩
  exact Nat.ne_of_lt (h.answered_lt hr) (List.mem_singleton.mp hc)

theorem known_register
    (h : Books activeOp tasks callers waited replies delivered started nextSerial) {c : Nat}
    (hc : c ∈ waited ++ [callers.length]) : c < (callers ++ [q]).length := by
  rw [List.length_append, List.length_singleton]
  rcases List.mem_append.mp hc with hc | hc
  · exact Nat.lt_succ_of_lt (h.known c hc)
  · rw [List.mem_singleton.mp hc]
    exact Nat.lt_succ_self _

/-- A new caller is answered at once. -/
theorem answer (h : Books activeOp tasks callers waited replies delivered started nextSerial) :
    Books activeOp tasks (callers ++ [q]) waited (replies ++ [⟨callers.length, result, none⟩]) delivered
      started nextSerial :=
  { h with
    once := by
      intro c
      rw [← count_register, ← h.once c, List.map_append, List.count_append]
      simp only [List.map_cons, List.map_nil]
      omega
    held := fun op hop c hc => h.held_register hop hc
    caused := by
      intro r hr d hd
      rcases List.mem_append.mp hr with hr | hr
      · exact h.caused_register hr hd
      · rw [List.mem_singleton.mp hr] at hd
        cases hd
    early := by
      intro r hr hcause
      rcases List.mem_append.mp hr with hr | hr
      · exact h.early r hr hcause
      · rw [List.mem_singleton.mp hr]
        exact fun hc => Nat.lt_irrefl _ (h.known _ hc)
    known := fun c hc => h.known_register (List.mem_append_left _ hc) }

/-- A new caller joins the operation that serves its request. -/
theorem join (h : Books (some op) tasks callers waited replies delivered started nextSerial)
    (hserved : Served q op.request) :
    Books (some (op.join callers.length)) tasks (callers ++ [q]) (waited ++ [callers.length])
      replies delivered started nextSerial :=
  { h with
    once := by
      intro c
      rw [← count_register, ← h.once c]
      simp only [waitersOf, Option.map_some, Option.getD_some, ActiveOp.join_waiters,
        List.count_append]
      omega
    held := by
      rintro _ ⟨⟩ c hc
      rw [ActiveOp.join_waiters, List.mem_append] at hc
      rw [ActiveOp.join_request]
      rcases hc with hc | hc
      · exact h.held_register rfl hc
      · rw [List.mem_singleton.mp hc]
        exact ⟨q, by simp, hserved⟩
    caused := fun r hr d hd => h.caused_register hr hd
    early := fun r hr hcause => h.early_wait hr hcause
    known := fun c hc => h.known_register hc
    unstarted := by
      rintro _ ⟨⟩
      rw [ActiveOp.join_serial, ActiveOp.join_waiting]
      exact h.unstarted op rfl }

/-- A new caller's operation takes the mutex, and is spawned unless it waits for chats. -/
theorem install {spawned : Option (OpTask G)}
    (h : Books none tasks callers waited replies delivered started nextSerial)
    (hwaiters : op.kind.waiters = [callers.length]) (hserved : Served q op.request)
    (hserial : op.serial = nextSerial) (hspawned : ∀ t, spawned = some t → t.serial = nextSerial)
    (hwaiting : op.waiting = true → spawned = none) (hidle : tasks = []) :
    Books (some op) (tasks ++ spawned.toList) (callers ++ [q]) (waited ++ [callers.length]) replies
      delivered (started ++ spawned.toList.map (·.serial)) (nextSerial + 1) where
  once c := by
    rw [← count_register, ← h.once c]
    simp only [waitersOf, Option.map_some, Option.getD_some, hwaiters, Option.map_none,
      Option.getD_none, List.count_nil, Nat.add_zero]
  held := by
    rintro _ ⟨⟩ c hc
    rw [hwaiters] at hc
    rw [List.mem_singleton.mp hc]
    exact ⟨q, by simp, hserved⟩
  caused r hr d hd := h.caused_register hr hd
  early r hr hcause := h.early_wait hr hcause
  known c hc := h.known_register hc
  deliveries := by
    rw [h.deliveries, hidle]
    simp
  distinct := by
    cases spawned with
    | none => simpa using h.distinct
    | some t =>
      have hnew : nextSerial ∉ started := fun hn => Nat.lt_irrefl _ (h.fresh _ hn)
      rw [List.nodup_append]
      refine ⟨h.distinct, List.nodup_singleton _, ?_⟩
      rintro n hn m hm rfl
      have hm : n = nextSerial := (List.mem_singleton.mp hm).trans (hspawned t rfl)
      exact hnew (hm ▸ hn)
  fresh n hn := by
    rcases List.mem_append.mp hn with hn | hn
    · exact Nat.lt_succ_of_lt (h.fresh n hn)
    · obtain ⟨t, ht, rfl⟩ := List.mem_map.mp hn
      rw [hspawned t (Option.mem_toList.mp ht)]
      exact Nat.lt_succ_self _
  unstarted := by
    rintro _ ⟨⟩
    refine ⟨by omega, fun hw hn => ?_⟩
    rw [hwaiting hw, Option.toList_none, List.map_nil, List.append_nil] at hn
    have := h.fresh _ hn
    omega

/-- The unload that waited for chats is spawned under its own serial number. -/
theorem spawn (h : Books (some op) [] callers waited replies delivered started nextSerial)
    (hwaiting : op.waiting = true) (hserial : op'.serial = op.serial)
    (hwaiters : op'.kind.waiters = op.kind.waiters) (hrequest : op'.request = op.request)
    (hspawned : op'.waiting = false) (ht : t.serial = op.serial) :
    Books (some op') [t] callers waited replies delivered (started ++ [t.serial]) nextSerial where
  once c := by
    rw [← h.once c]
    simp only [waitersOf, Option.map_some, Option.getD_some, hwaiters]
  held := by
    rintro _ ⟨⟩
    rw [hwaiters, hrequest]
    exact h.held op rfl
  caused := h.caused
  early := h.early
  known := h.known
  deliveries := by
    rw [h.deliveries]
    simp
  distinct := by
    have hnew := (h.unstarted op rfl).2 hwaiting
    rw [List.nodup_append]
    refine ⟨h.distinct, List.nodup_singleton _, ?_⟩
    rintro n hn m hm rfl
    rw [List.mem_singleton.mp hm, ht] at hn
    exact hnew hn
  fresh n hn := by
    rcases List.mem_append.mp hn with hn | hn
    · exact h.fresh n hn
    · rw [List.mem_singleton.mp hn, ht]
      exact (h.unstarted op rfl).1
  unstarted := by
    rintro _ ⟨⟩
    rw [hserial]
    exact ⟨(h.unstarted op rfl).1, fun hw => by rw [hspawned] at hw; cases hw⟩

/-- The one report of the operation answers everyone it holds. -/
theorem deliver (h : Books (some op) [t] callers waited replies delivered started nextSerial)
    (hrequest : t.request = op.request) :
    Books none [] callers waited
      (replies ++ op.kind.waiters.map fun c => ⟨c, result, some ⟨t.serial, t.request, result⟩⟩)
      (delivered ++ [⟨t.serial, t.request, result⟩]) started nextSerial where
  once c := by
    rw [← h.once c]
    simp [waitersOf, Function.comp_def]
  held op hop := by cases hop
  caused r hr d hd := by
    rcases List.mem_append.mp hr with hr | hr
    · obtain ⟨hmem, hrest⟩ := h.caused r hr d hd
      exact ⟨List.mem_append_left _ hmem, hrest⟩
    · obtain ⟨c, hc, rfl⟩ := List.mem_map.mp hr
      cases hd
      obtain ⟨q, hq, hserved⟩ := h.held op rfl c hc
      exact ⟨List.mem_append_right _ (List.mem_singleton.mpr rfl), rfl, q, hq,
        hrequest ▸ hserved⟩
  early r hr hcause := by
    rcases List.mem_append.mp hr with hr | hr
    · exact h.early r hr hcause
    · obtain ⟨c, -, rfl⟩ := List.mem_map.mp hr
      cases hcause
  known := h.known
  deliveries := by
    rw [h.deliveries]
    simp
  distinct := h.distinct
  fresh := h.fresh
  unstarted op hop := by cases hop

end Books

end Supervisor
