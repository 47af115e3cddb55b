import IDoris.Supervisor.Fenced

/-!
# Successive supervisors over one fence path

Supervisors start, stop and are killed at any point; the marker and the engine's
loads outlive them. The owner lock belongs to the supervisor that claimed it for as
long as anything of it still runs.
-/
namespace Supervisor

variable {G : Type}

/-- One supervisor: its run, whether its actor still takes messages, and whether it claimed
the fence. -/
structure Supervised (G : Type) where
  world : World G
  opened : Bool
  claimed : Bool

structure Site (G : Type) where
  host : Host
  supervisors : List (Supervised G)

/-- `refused`: what a claim is told while another supervisor holds the lock. -/
inductive SiteEvent (G : Type) where
  | start (boot : Boot G) (refused : BackendError)
  | act (i : Nat) (event : Event G)
  | close (i : Nat)
  | kill (i : Nat)

/-- Every spawned task keeps the fence, with its lock, to its end. -/
def Supervised.holdsLock (s : Supervised G) : Bool :=
  s.claimed && (s.opened || !s.world.tasks.isEmpty || !s.world.chats.isEmpty)

def Supervised.close (s : Supervised G) : Supervised G := { s with opened := false }

def Supervised.kill (s : Supervised G) : Supervised G :=
  { s with opened := false, world := { s.world with tasks := [], chats := [] } }

namespace World

/-- A finished operation has nobody to report to. -/
def leave (w : World G) (serial : Nat) : World G :=
  match w.task serial with
  | none => w
  | some t =>
    match t.finished with
    | none => w
    | some _ => { w with tasks := w.tasks.filter fun other => other.serial ≠ t.serial }

def chatLeaves (w : World G) (chat : ChatTask) : World G :=
  if chat ∈ w.chats ∧ chat.returned = true then { w with chats := w.chats.erase chat } else w

/-- What goes on after the actor is gone. -/
def linger (w : World G) : Event G → World G
  | .issue serial => w.issue serial
  | .respond serial responses => w.respond serial responses
  | .panic serial message => w.panic serial message
  | .opDone serial => w.leave serial
  | .chatReturns chat result => w.chatReturns chat result
  | .chatDone chat => w.chatLeaves chat
  | _ => w

end World

section Site

/-- A claim fails while another supervisor holds the lock. -/
def Boot.claiming (boot : Boot G) (locked : Bool) (refused : BackendError) : Boot G :=
  match boot.fence with
  | .error _ => boot
  | .ok _ => if locked then { boot with fence := .error refused } else boot

def Site.locked (site : Site G) : Bool := site.supervisors.any (·.holdsLock)

def Site.put (site : Site G) (i : Nat) (host : Host) (s : Supervised G) : Site G :=
  ⟨host, site.supervisors.set i s⟩

variable [Gigabytes G]

def Supervised.act (s : Supervised G) (host : Host) (event : Event G) : Supervised G :=
  let w := { s.world with host := host }
  { s with world := if s.opened then w.step event else w.linger event }

def Boot.supervised (boot : Boot G) (host : Host) : Supervised G where
  world := boot.world host
  opened := true
  claimed := boot.fence.toBool

namespace Site

def step (site : Site G) : SiteEvent G → Site G
  | .start boot refused =>
    let boot := boot.claiming site.locked refused
    { site with supervisors := site.supervisors ++ [boot.supervised site.host] }
  | .act i event =>
    match site.supervisors[i]? with
    | none => site
    | some s => site.put i (s.act site.host event).world.host (s.act site.host event)
  | .close i =>
    match site.supervisors[i]? with
    | none => site
    | some s => site.put i site.host s.close
  | .kill i =>
    match site.supervisors[i]? with
    | none => site
    | some s => site.put i site.host s.kill

def run (site : Site G) (events : List (SiteEvent G)) : Site G := events.foldl step site

end Site

end Site

section Inert

/-- A supervisor that runs nothing and will not start anything. -/
structure Supervised.Inert (s : Supervised G) : Prop where
  tasks : s.world.tasks = []
  chats : s.world.chats = []
  refuses : s.opened = true → s.world.actor.env.startupError.isSome = true

variable {s : Supervised G} {host : Host}

theorem Supervised.Inert.of_unlocked (h : s.holdsLock = false) (hclaimed : s.claimed = true) :
    s.Inert := by
  simp only [holdsLock, hclaimed, Bool.true_and, Bool.or_eq_false_iff, Bool.not_eq_false',
    List.isEmpty_iff] at h
  exact ⟨h.1.2, h.2, fun ho => by rw [h.1.1] at ho; cases ho⟩

theorem World.linger_inert {w : World G} (event : Event G) (htasks : w.tasks = [])
    (hchats : w.chats = []) : w.linger event = w := by
  cases event with
  | issue serial => simp [World.linger, World.issue, World.task, htasks]
  | respond serial r => simp [World.linger, World.respond, World.task, htasks]
  | panic serial message => simp [World.linger, World.panic, World.task, htasks]
  | opDone serial => simp [World.linger, World.leave, World.task, htasks]
  | chatReturns chat result => simp [World.linger, World.chatReturns, hchats]
  | chatDone chat => simp [World.linger, World.chatLeaves, hchats]
  | load req faults => rfl
  | unload id => rfl
  | chat model permit => rfl
  | rehashModels n => rfl
  | rehashCovered n => rfl
  | peer key allocation => rfl

theorem World.refusal_of_startupError {actor : Actor G}
    (h : actor.env.startupError.isSome = true) : ∃ err, World.refusal actor = some err := by
  unfold World.refusal
  split
  · exact ⟨_, rfl⟩
  · exact Option.isSome_iff_exists.mp h

/-- A claim succeeds only while nobody holds the lock. -/
theorem Boot.claiming_locked {site : Site G} {boot : Boot G} {refused : BackendError}
    (h : (boot.claiming site.locked refused).fence.toBool = true) : site.locked = false := by
  cases hfence : boot.fence with
  | error err => simp [Boot.claiming, hfence, Except.toBool] at h
  | ok fence =>
    by_contra hlocked
    rw [Bool.not_eq_false] at hlocked
    simp [Boot.claiming, hfence, hlocked, Except.toBool] at h

/-- What is left of a closed supervisor keeps its loads under the marker. -/
theorem Fenced.linger {w : World G} (h : Fenced w.host w.tasks) (event : Event G) :
    Fenced (w.linger event).host (w.linger event).tasks := by
  cases event with
  | issue serial => exact h.issue serial
  | respond serial r => exact h.respond serial r
  | panic serial message => exact h.panic serial message
  | opDone serial =>
    simp only [World.linger, World.leave]
    split
    · exact h
    · rename_i ht
      split
      · exact h
      · exact h.left ht
  | chatReturns chat result =>
    simp only [World.linger, World.chatReturns]
    split <;> exact h
  | chatDone chat =>
    simp only [World.linger, World.chatLeaves]
    split <;> exact h
  | load req faults => exact h
  | unload id => exact h
  | chat model permit => exact h
  | rehashModels n => exact h
  | rehashCovered n => exact h
  | peer key allocation => exact h

variable [Gigabytes G]

/-- A supervisor that failed to start answers with an error and does nothing else. -/
theorem World.step_inert {w : World G} (event : Event G) (htasks : w.tasks = [])
    (hchats : w.chats = []) (hrefuses : w.actor.env.startupError.isSome = true) :
    (w.step event).host = w.host ∧ (w.step event).tasks = [] ∧ (w.step event).chats = [] ∧
      (w.step event).actor.env.startupError.isSome = true := by
  obtain ⟨err, herr⟩ := World.refusal_of_startupError hrefuses
  have hsame : w.tasks = [] ∧ w.chats = [] ∧ w.actor.env.startupError.isSome = true :=
    ⟨htasks, hchats, hrefuses⟩
  cases event with
  | load req faults => simpa [World.step, World.load, World.answer, World.register, herr] using hsame
  | unload id => simpa [World.step, World.unload, World.answer, World.register, herr] using hsame
  | chat model permit => simpa [World.step, World.chat, herr] using hsame
  | issue serial => simpa [World.step, World.issue, World.task, htasks] using hsame.2
  | respond serial r => simpa [World.step, World.respond, World.task, htasks] using hsame.2
  | panic serial message => simpa [World.step, World.panic, World.task, htasks] using hsame.2
  | opDone serial => simpa [World.step, World.opDone, World.task, htasks] using hsame.2
  | chatReturns chat result => simpa [World.step, World.chatReturns, hchats] using ⟨htasks, hrefuses⟩
  | chatDone chat => simpa [World.step, World.chatDone, hchats] using ⟨htasks, hrefuses⟩
  | rehashModels n => exact ⟨rfl, hsame⟩
  | rehashCovered n => exact ⟨rfl, hsame⟩
  | peer key allocation =>
    simp only [World.step, World.peer]
    split
    · exact ⟨rfl, hsame⟩
    · split <;> exact ⟨rfl, hsame⟩

theorem Supervised.Inert.act (h : s.Inert) (event : Event G) :
    (s.act host event).Inert ∧ (s.act host event).world.host = host := by
  cases hopened : s.opened with
  | true =>
    obtain ⟨hhost, htasks, hchats, hrefuses⟩ :=
      @World.step_inert G _ { s.world with host := host } event h.tasks h.chats (h.refuses hopened)
    simp only [Supervised.act, hopened, if_true]
    exact ⟨⟨htasks, hchats, fun _ => hrefuses⟩, hhost⟩
  | false =>
    have hsame := @World.linger_inert G { s.world with host := host } event h.tasks h.chats
    have hact : s.act host event = { s with world := { s.world with host := host } } := by
      simp only [Supervised.act, hopened, Bool.false_eq_true, if_false, hsame]
    rw [hact]
    exact ⟨⟨h.tasks, h.chats, h.refuses⟩, rfl⟩

/-- Without the fence a supervisor never starts. -/
theorem Boot.supervised_inert {boot : Boot G} (h : boot.fence.toBool = false) :
    (boot.supervised host).Inert := by
  refine ⟨rfl, rfl, fun _ => ?_⟩
  cases hfence : boot.fence with
  | ok fence => rw [hfence] at h; cases h
  | error err => simp [Boot.supervised, Boot.world, Boot.actor, Boot.fenceError, hfence]

end Inert

section Owner

variable [Gigabytes G] {site : Site G} {s s' : Supervised G} {host : Host} {j : Nat}

/-- The one supervisor that may still do anything. -/
structure Supervised.Owns (s : Supervised G) (host : Host) : Prop where
  fenced : Fenced host s.world.tasks
  coherent : s.opened = true → Coherent s.world

theorem Supervised.Owns.act (h : s.Owns host) (event : Event G) :
    (s.act host event).Owns (s.act host event).world.host := by
  have hfenced : Fenced ({ s.world with host := host } : World G).host
      ({ s.world with host := host } : World G).tasks := h.fenced
  cases hopened : s.opened with
  | true =>
    have hcoherent : Coherent ({ s.world with host := host } : World G) :=
      { h.coherent hopened with }
    simp only [Supervised.act, hopened, if_true]
    exact ⟨hfenced.step hcoherent event, fun _ => hcoherent.step event⟩
  | false =>
    simp only [Supervised.act, hopened, Bool.false_eq_true, if_false]
    exact ⟨hfenced.linger event, nofun⟩

theorem Supervised.Owns.close (h : s.Owns host) : s.close.Owns host := ⟨h.fenced, nofun⟩

/-- What a killed supervisor left running on the engine is left to the marker. -/
theorem Supervised.Owns.kill (h : s.Owns host) : s.kill.Owns host := ⟨.quiet h.fenced.sound, nofun⟩

/-- All but one supervisor are inert, among them all that could not claim the fence. -/
structure Site.Guarded (site : Site G) : Prop where
  sound : site.host.Sound
  barred : ∀ s ∈ site.supervisors, s.claimed = false → s.Inert
  owner : ∃ i : Nat, ∀ (j : Nat) (s : Supervised G), site.supervisors[j]? = some s →
    s.Inert ∨ j = i ∧ s.Owns site.host

namespace Site.Guarded

/-- One supervisor moves; an inert one stays inert and leaves the host alone. -/
theorem put (h : site.Guarded) (hj : site.supervisors[j]? = some s)
    (hclaimed : s'.claimed = s.claimed) (hinert : s.Inert → s'.Inert ∧ host = site.host)
    (howns : s.Owns site.host → s'.Owns host) : (site.put j host s').Guarded := by
  have hbarred : ∀ t ∈ site.supervisors.set j s', t.claimed = false → t.Inert := by
    intro t ht hc
    rcases List.mem_or_eq_of_mem_set ht with ht | rfl
    · exact h.barred t ht hc
    · exact (hinert (h.barred s (List.mem_of_getElem? hj) (hclaimed ▸ hc))).1
  have hset : ∀ k t, (site.supervisors.set j s')[k]? = some t →
      k = j ∧ t = s' ∨ k ≠ j ∧ site.supervisors[k]? = some t := by
    intro k t ht
    by_cases hk : k = j
    · subst hk
      rw [List.getElem?_set_self (List.getElem?_eq_some_iff.mp hj).1] at ht
      exact .inl ⟨rfl, (Option.some.inj ht).symm⟩
    · rw [List.getElem?_set_ne (Ne.symm hk)] at ht
      exact .inr ⟨hk, ht⟩
  obtain ⟨i, howner⟩ := h.owner
  rcases howner j s hj with hs | ⟨rfl, hs⟩
  · obtain ⟨hs', rfl⟩ := hinert hs
    refine ⟨h.sound, hbarred, i, fun k t ht => ?_⟩
    rcases hset k t ht with ⟨-, rfl⟩ | ⟨-, ht⟩
    · exact .inl hs'
    · exact howner k t ht
  · refine ⟨(howns hs).fenced.sound, hbarred, j, fun k t ht => ?_⟩
    rcases hset k t ht with ⟨rfl, rfl⟩ | ⟨hk, ht⟩
    · exact .inr ⟨rfl, howns hs⟩
    · exact .inl ((howner k t ht).resolve_right fun hi => hk hi.1)

theorem act (h : site.Guarded) (j : Nat) (event : Event G) : (site.step (.act j event)).Guarded := by
  simp only [Site.step]
  split
  · exact h
  · rename_i s hj
    exact h.put hj rfl (fun hs => hs.act event) fun hs => hs.act event

theorem close (h : site.Guarded) (j : Nat) : (site.step (.close j)).Guarded := by
  simp only [Site.step]
  split
  · exact h
  · rename_i s hj
    exact h.put hj rfl (fun hs => ⟨⟨hs.tasks, hs.chats, nofun⟩, rfl⟩) Supervised.Owns.close

theorem kill (h : site.Guarded) (j : Nat) : (site.step (.kill j)).Guarded := by
  simp only [Site.step]
  split
  · exact h
  · rename_i s hj
    exact h.put hj rfl (fun _ => ⟨⟨rfl, rfl, nofun⟩, rfl⟩) Supervised.Owns.kill

/-- While nobody holds the lock, every supervisor is inert. -/
theorem inert_of_unlocked (h : site.Guarded) (hfree : site.locked = false)
    (hs : s ∈ site.supervisors) : s.Inert := by
  have hs' : s.holdsLock = false := by simpa using List.any_eq_false.mp hfree s hs
  cases hclaimed : s.claimed with
  | false => exact h.barred s hs hclaimed
  | true => exact .of_unlocked hs' hclaimed

theorem start (h : site.Guarded) (boot : Boot G) (refused : BackendError) :
    (site.step (.start boot refused)).Guarded := by
  simp only [Site.step]
  generalize hboot : boot.claiming site.locked refused = claiming
  have happend : ∀ k t, (site.supervisors ++ [claiming.supervised site.host])[k]? = some t →
      site.supervisors[k]? = some t ∨
        k = site.supervisors.length ∧ t = claiming.supervised site.host := by
    intro k t ht
    rcases Nat.lt_or_ge k site.supervisors.length with hk | hk
    · rw [List.getElem?_append_left hk] at ht
      exact .inl ht
    · rw [List.getElem?_append_right hk] at ht
      obtain ⟨hlt, rfl⟩ := List.getElem?_eq_some_iff.mp ht
      rw [List.length_singleton] at hlt
      exact .inr ⟨by omega, by simp⟩
  cases hclaimed : claiming.fence.toBool with
  | false =>
    have hinert : (claiming.supervised site.host).Inert := Boot.supervised_inert hclaimed
    obtain ⟨i, howner⟩ := h.owner
    refine ⟨h.sound, fun t ht hc => ?_, i, fun k t ht => ?_⟩
    · rcases List.mem_append.mp ht with ht | ht
      · exact h.barred t ht hc
      · rw [List.mem_singleton.mp ht]
        exact hinert
    · rcases happend k t ht with ht | ⟨-, rfl⟩
      · exact howner k t ht
      · exact .inl hinert
  | true =>
    have hfree := @Boot.claiming_locked G site boot refused (hboot ▸ hclaimed)
    refine ⟨h.sound, fun t ht hc => ?_, site.supervisors.length, fun k t ht => ?_⟩
    · rcases List.mem_append.mp ht with ht | ht
      · exact h.inert_of_unlocked hfree ht
      · rw [List.mem_singleton.mp ht] at hc
        rw [Boot.supervised, hclaimed] at hc
        cases hc
    · rcases happend k t ht with ht | ⟨hk, rfl⟩
      · exact .inl (h.inert_of_unlocked hfree (List.mem_of_getElem? ht))
      · exact .inr ⟨hk, .quiet h.sound, fun _ => coherent_start claiming site.host⟩

theorem step (h : site.Guarded) (event : SiteEvent G) : (site.step event).Guarded := by
  cases event with
  | start boot refused => exact h.start boot refused
  | act i event => exact h.act i event
  | close i => exact h.close i
  | kill i => exact h.kill i

theorem run (h : site.Guarded) (events : List (SiteEvent G)) : (site.run events).Guarded := by
  induction events generalizing site with
  | nil => exact h
  | cons event rest ih => exact ih (h.step event)

end Site.Guarded

/-- What the fence promises about loads that may still run on the engine. -/
structure Site.FenceSafe (site : Site G) : Prop where
  covered : site.host.unconfirmed ≠ [] → site.host.marker = true
  single : site.host.unconfirmed.length ≤ 1
  /-- A load is only asked for while no earlier one may still run. -/
  alone : ∀ s ∈ site.supervisors, ∀ t ∈ s.world.tasks, ∀ id policy,
    t.pending = some (.load id policy) → site.host.unconfirmed = []

theorem Site.Guarded.fenceSafe (h : site.Guarded) : site.FenceSafe where
  covered := h.sound.covered
  single := h.sound.single
  alone s hs t ht id policy hp := by
    obtain ⟨i, howner⟩ := h.owner
    obtain ⟨j, hj⟩ := List.mem_iff_getElem?.mp hs
    rcases howner j s hj with hinert | ⟨-, howns⟩
    · rw [hinert.tasks] at ht
      cases ht
    · have hfenced := howns.fenced
      cases htasks : s.world.tasks with
      | nil =>
        rw [htasks] at ht
        cases ht
      | cons head rest =>
        rw [htasks] at ht hfenced
        cases hfenced with
        | task head hcovered =>
          rw [List.mem_singleton.mp ht] at hp
          exact (hcovered.pending_load hp).2.2

/-- Whatever supervisors start, stop or die over one fence path, and whatever the adapter
answers, loads that may still run are covered by the marker and never doubled. -/
theorem fence_discipline (marker : Bool) (events : List (SiteEvent G)) :
    (Site.run ⟨⟨marker, 0, []⟩, []⟩ events).FenceSafe := by
  have hstart : Site.Guarded (⟨⟨marker, 0, []⟩, []⟩ : Site G) := {
    sound := .of_none rfl
    barred := fun s hs => by cases hs
    owner := ⟨0, fun j s hj => by cases hj⟩ }
  exact (hstart.run events).fenceSafe

end Owner

end Supervisor
