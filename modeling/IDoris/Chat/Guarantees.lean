import IDoris.Chat.Confined

/-!
# What a completion guarantees

Whatever its surroundings answer, a request leaves the machine only if nothing in it speaks
against that, acts only with the authority of its caller, and is on record before it is executed.
-/
namespace Chat

open Dispatch Http Interaction Json Policy Text Transaction VirtualKey
open Inspect (Entropy)
open Proxy (PrivacyClass)

section Traces

variable {F R : Type}

/-- The backend that a question reaches. -/
def Op.selected : Op F → Option (Selected F)
  | .relay selected _ => some selected
  | .chatViaProxy selected _ _ => some selected
  | .dispatchLocal request => some request.selected
  | _ => none

/-- The profile that goes to a backend. -/
def Op.profile : Op F → Option ParsedProfile
  | .chatViaProxy _ profile _ => some profile
  | .dispatchLocal request => some request.profile
  | _ => none

theorem not_authenticate {op : Op F} {selected : Selected F} (h : op.selected = some selected) :
    op ≠ .authenticate := by
  rintro rfl
  cases h

theorem not_leads_ret {reply : Reply R} {trace : List (Exchange (Op F) (Op.Answer R))} {op : Op F}
    {next : op.Answer R → Completion F R} (h : Leads (.ret reply) trace (.ask op next)) : False := by
  cases h.of_ret.2

/-- Content goes to a backend that is not a trusted local one, or to a remote detector. -/
def LeavesHost (state : AppState F) (op : Op F) : Prop :=
  (∃ selected, op.selected = some selected ∧ trustedLocal selected.card = false) ∨
    (∃ messages, op = .detect messages) ∧ state.detector = .remote

def storedEvents (trace : List (Exchange (Op F) (Op.Answer R))) : List (String × Event F) :=
  trace.filterMap fun e => storedEvent e.1 e.2

/-- The request, as the handler reads it. -/
structure Read (state : AppState F) (request : Request) (fields : Fields) (declared : Profile) :
    Prop where
  json : request.json = some (.object fields)
  parsed : parseProfile request.headers ((fields.lookup "model").bind Value.asStr)
    state.deployMode = .ok declared

variable {trace : List (Exchange (Op F) (Op.Answer R))} {w : Watch F}

/-- What an observer remembers, in terms of the exchanges. -/
structure Remembers (trace : List (Exchange (Op F) (Op.Answer R))) (w : Watch F) : Prop where
  identity : ∀ key, w.identity = some key → ∃ e ∈ trace, identified e.1 e.2 = some key
  stored : w.stored = storedEvents trace
  refused : w.refused = false → ∀ e ∈ trace, refuses e.1 e.2 = false
  killSwitch : ∀ on, w.killSwitch = some on → ∃ e ∈ trace, switched e.1 e.2 = some on
  unscanned : w.unscanned = false → ∀ e ∈ trace, abandons e.1 e.2 = false

theorem Remembers.start : Remembers ([] : List (Exchange (Op F) (Op.Answer R))) .start := by
  constructor
  · intro key h
    cases h
  · rfl
  · exact fun _ e he => absurd he List.not_mem_nil
  · intro on h
    cases h
  · exact fun _ e he => absurd he List.not_mem_nil

theorem storedEvents_snoc (e : Exchange (Op F) (Op.Answer R)) :
    storedEvents (trace ++ [e]) = storedEvents trace ++ (storedEvent e.1 e.2).toList := by
  cases h : storedEvent e.1 e.2 <;> simp [storedEvents, h]

/-- A value that is found in the last exchange or was known before is found in some exchange. -/
theorem exists_snoc {α : Type} {f : Exchange (Op F) (Op.Answer R) → Option α}
    {known : Option α} {value : α} (hknown : known = some value → ∃ e ∈ trace, f e = some value)
    {e : Exchange (Op F) (Op.Answer R)}
    (h : (f e).elim known some = some value) : ∃ e' ∈ trace ++ [e], f e' = some value := by
  cases hfind : f e with
  | some found =>
    rw [hfind] at h
    exact ⟨e, List.mem_append_right _ List.mem_cons_self, hfind.trans h⟩
  | none =>
    rw [hfind] at h
    obtain ⟨e', he', hvalue⟩ := hknown h
    exact ⟨e', List.mem_append_left _ he', hvalue⟩

theorem forall_snoc {p : Exchange (Op F) (Op.Answer R) → Bool} {failed : Bool}
    (hclean : failed = false → ∀ e ∈ trace, p e = false)
    {e : Exchange (Op F) (Op.Answer R)} (h : (p e || failed) = false) :
    ∀ e' ∈ trace ++ [e], p e' = false := by
  rw [Bool.or_eq_false_iff] at h
  intro e' he'
  obtain he' | he' := List.mem_append.mp he'
  · exact hclean h.2 e' he'
  · rw [List.mem_singleton.mp he']
    exact h.1

theorem Remembers.step (h : Remembers trace w) (e : Exchange (Op F) (Op.Answer R)) :
    Remembers (trace ++ [e]) (w.next e.1 e.2) where
  identity key := exists_snoc (f := fun e => identified e.1 e.2) (h.identity key)
  stored := by
    rw [storedEvents_snoc, ← h.stored, Watch.next]
    cases storedEvent e.1 e.2 <;> simp
  refused := forall_snoc (p := fun e => refuses e.1 e.2) h.refused
  killSwitch on := exists_snoc (f := fun e => switched e.1 e.2) (h.killSwitch on)
  unscanned := forall_snoc (p := fun e => abandons e.1 e.2) h.unscanned

theorem Remembers.follow {M : Monitor (Op F) (Op.Answer R) (Watch F)} (hM : M.next = Watch.next)
    (trace : List (Exchange (Op F) (Op.Answer R))) : Remembers trace (M.follow .start trace) := by
  induction trace using List.reverseRecOn with
  | nil => exact .start
  | append_singleton trace e ih =>
    rw [Monitor.follow, List.foldl_append, hM]
    rw [Monitor.follow, hM] at ih
    exact ih.step e

theorem authenticated_of_identified {e : Exchange (Op F) (Op.Answer R)}
    {key : AuthenticatedVirtualKey} (h : identified e.1 e.2 = some key) :
    e = ⟨.authenticate, .ok key⟩ := by
  obtain ⟨op, answer⟩ := e
  cases op with
  | authenticate =>
    cases answer with
    | error error => cases h
    | ok other =>
      cases h
      rfl
  | _ => cases h

theorem read_of_switched {e : Exchange (Op F) (Op.Answer R)} {on : Bool}
    (h : switched e.1 e.2 = some on) : e = ⟨.readKillSwitch, on⟩ := by
  obtain ⟨op, answer⟩ := e
  cases op with
  | readKillSwitch =>
    cases h
    rfl
  | _ => cases h

end Traces

section Facts

variable {F R : Type} [Quotes F] [Entropy] {state : AppState F} {request : Request}
  {trace : List (Exchange (Op F) (Op.Answer R))} {op : Op F}
  {next : op.Answer R → Completion F R}

/-- What lies behind a question of the handler that is not the first one. -/
structure Behind (state : AppState F) (request : Request)
    (trace : List (Exchange (Op F) (Op.Answer R))) (op : Op F) (job : Job F) (declared : Profile)
    (identity : Option AuthenticatedVirtualKey) (events : List (Event F))
    (killSwitch : Option Bool) (unscanned : Bool) : Prop where
  state : job.state = state
  request : job.request = request
  standing : Standing job declared identity
  lifecycle : Lifecycle events
  due : Due job declared events killSwitch unscanned op
  remembers : Remembers trace (job.watch identity events killSwitch unscanned)

theorem behind (h : Leads (chatCompletions state request) trace (.ask op next))
    (hop : op ≠ .authenticate) : ∃ job declared identity events killSwitch unscanned,
    Behind state request trace op job declared identity events killSwitch unscanned := by
  have hallowed := (watched_completions.leads h).1
  have hremembers := Remembers.follow (M := observer R state request) rfl trace
  generalize (observer R state request).follow .start trace = w at hallowed hremembers
  cases op with
  | authenticate => exact absurd rfl hop
  | _ =>
    obtain ⟨job, declared, identity, events, killSwitch, unscanned, hstate, hrequest, hstanding,
      rfl, hlife, hdue⟩ := hallowed
    exact ⟨job, declared, identity, events, killSwitch, unscanned, hstate, hrequest, hstanding,
      hlife, hdue, hremembers⟩

theorem Behind.read {job : Job F} {declared : Profile}
    {identity : Option AuthenticatedVirtualKey} {events : List (Event F)}
    {killSwitch : Option Bool} {unscanned : Bool}
    (h : Behind state request trace op job declared identity events killSwitch unscanned) :
    Read state request job.fields declared := by
  obtain ⟨rfl, rfl, hstanding, -, -, -⟩ := h
  exact ⟨hstanding.json, hstanding.parsed⟩

omit [Quotes F] [Entropy] in
theorem Read.unique {fields fields' : Fields} {declared declared' : Profile}
    (h : Read state request fields declared) (h' : Read state request fields' declared') :
    fields = fields' ∧ declared = declared' := by
  have hjson := h.json.symm.trans h'.json
  simp only [Option.some.injEq, Value.object.injEq] at hjson
  subst hjson
  exact ⟨rfl, Except.ok.inj (h.parsed.symm.trans h'.parsed)⟩

/-- A kill switch that was read is not read again. -/
theorem switched_kept {p q : Completion F R} {w : Watch F} {on : Bool} {Q : Reply R → Watch F → Prop}
    (h : Safe (observer R state request) Q p w) (hleads : Leads p trace q)
    (hw : w.killSwitch = some on) : ∀ e ∈ trace, switched e.1 e.2 = none := by
  induction hleads generalizing w with
  | refl p => exact fun _ he => absurd he List.not_mem_nil
  | @ask op next answer trace q hrest ih =>
    have hnone : ∀ answer : op.Answer R, switched op answer = none := by
      cases op with
      | readKillSwitch =>
        obtain ⟨job, declared, identity, events, killSwitch, unscanned, -, -, -, rfl, -, hdue⟩ := h.1
        obtain rfl : killSwitch = none := hdue
        cases hw
      | _ => exact fun _ => rfl
    have hnext : (w.next op answer).killSwitch = some on := by
      simp only [Watch.next, hnone answer, Option.elim_none, hw]
    intro e he
    cases he with
    | head => exact hnone answer
    | tail _ he => exact ih (h.2 answer) hnext e he

/-- The kill switch is read once. -/
theorem switched_once {p q : Completion F R} {w : Watch F} {a b : Bool}
    {Q : Reply R → Watch F → Prop} (h : Safe (observer R state request) Q p w)
    (hleads : Leads p trace q) {e e' : Exchange (Op F) (Op.Answer R)} (he : e ∈ trace)
    (he' : e' ∈ trace) (ha : switched e.1 e.2 = some a) (hb : switched e'.1 e'.2 = some b) :
    a = b := by
  induction hleads generalizing w with
  | refl p => cases he
  | @ask op next answer trace q hrest ih =>
    cases hswitched : switched op answer with
    | none =>
      have hlater : ∀ {x c}, x ∈ (⟨op, answer⟩ : Exchange (Op F) (Op.Answer R)) :: trace →
          switched x.1 x.2 = some c → x ∈ trace := by
        intro x c hx hc
        cases hx with
        | head =>
          rw [hswitched] at hc
          cases hc
        | tail _ hx => exact hx
      exact ih (h.2 answer) (hlater he ha) (hlater he' hb)
    | some c =>
      have hnext : (w.next op answer).killSwitch = some c := by
        simp only [Watch.next, hswitched, Option.elim_some]
      have hsame : ∀ {x d}, x ∈ (⟨op, answer⟩ : Exchange (Op F) (Op.Answer R)) :: trace →
          switched x.1 x.2 = some d → d = c := by
        intro x d hx hd
        cases hx with
        | head => exact Option.some.inj (hd.symm.trans hswitched)
        | tail _ hx =>
          rw [switched_kept (h.2 answer) hrest hnext x hx] at hd
          cases hd
      exact (hsame he ha).trans (hsame he' hb).symm

theorem reached_of_selected {job : Job F} {declared : Profile} {events : List (Event F)}
    {killSwitch : Option Bool} {unscanned : Bool} {selected : Selected F}
    (hdue : Due job declared events killSwitch unscanned op) (h : op.selected = some selected) :
    ∃ profile, Reached job declared events killSwitch unscanned selected profile ∧
      ∀ other, op.profile = some other → other = profile := by
  cases op with
  | relay backend chat =>
    obtain rfl := Option.some.inj h
    obtain ⟨profile, hreached, -⟩ := hdue
    exact ⟨profile, hreached, fun other hother => by cases hother⟩
  | chatViaProxy backend profile body =>
    obtain rfl := Option.some.inj h
    exact ⟨profile, hdue, fun other hother => (Option.some.inj hother).symm⟩
  | dispatchLocal run =>
    obtain rfl := Option.some.inj h
    exact ⟨run.profile, hdue, fun other hother => (Option.some.inj hother).symm⟩
  | _ => cases h

omit [Quotes F] in
/-- An inspection that leaves `any` was not a failed one. -/
theorem Heard.cleared {job : Job F} {declared : Profile} {killSwitch : Option Bool}
    {unscanned : Bool} {inspection : Inspection}
    (h : Heard job declared killSwitch unscanned inspection) (hany : inspection.effective = .any) :
    declared.privacy = .any ∧ Cleared (.object job.fields) .any false ∧
      killSwitch = some false ∧ unscanned = false := by
  obtain ⟨on, rfl, ⟨hscan, rfl⟩ | rfl⟩ := h
  · have hclear := cleared_of_any hscan hany
    obtain rfl := hclear.remote
    have hdeclared := hclear.declared
    rw [hdeclared] at hclear
    exact ⟨hdeclared, hclear, rfl, rfl⟩
  · cases hany

omit [Entropy] in
/-- A request that is local only gets a trusted local card. -/
theorem Chosen.trusted {job : Job F} {declared final : Profile} {inspection : Inspection}
    {selected : Selected F} (h : Chosen job declared inspection final selected)
    (hlocal : inspection.effective = .localOnly) : trustedLocal selected.card = true := by
  apply h.serves.2.admissible
  have hprivacy : final.parsed.task.privacy.getD .localOnly = .localOnly :=
    h.settled.privacy.trans hlocal
  cases htight : (inspection.tightened && !inspection.killed) with
  | true => rfl
  | false =>
    simp only [RequestProfile.effectivePrivacy, requestProfile, Bool.false_eq_true, if_false,
      effectivePrivacy_none]
    exact hprivacy

theorem settled_of_profile {job : Job F} {declared : Profile} {events : List (Event F)}
    {killSwitch : Option Bool} {unscanned : Bool} {profile : ParsedProfile}
    (hdue : Due job declared events killSwitch unscanned op) (h : op.profile = some profile) :
    ∃ inspection final, Heard job declared killSwitch unscanned inspection ∧
      Settled declared inspection final ∧ profile = final.parsed := by
  have hselected : ∃ selected, op.selected = some selected := by
    cases op with
    | chatViaProxy selected _ _ => exact ⟨selected, rfl⟩
    | dispatchLocal run => exact ⟨run.selected, rfl⟩
    | _ => cases h
  obtain ⟨selected, hselected⟩ := hselected
  obtain ⟨_, ⟨_, inspection, final, hheard, hchosen, rfl, -⟩, hsame⟩ :=
    reached_of_selected hdue hselected
  exact ⟨inspection, final, hheard, hchosen.settled, hsame profile h⟩

/-- What leaves the machine has an inspection behind it that left the request `any`. -/
theorem heard_of_leaves (h : Leads (chatCompletions state request) trace (.ask op next))
    (hleaves : LeavesHost state op) : ∃ job declared identity events killSwitch unscanned inspection,
      Behind state request trace op job declared identity events killSwitch unscanned ∧
      Heard job declared killSwitch unscanned inspection ∧ inspection.effective = .any := by
  have hop : op ≠ .authenticate := by
    rintro rfl
    obtain ⟨_, hselected, -⟩ | ⟨⟨_, hdetect⟩, -⟩ := hleaves
    · cases hselected
    · cases hdetect
  obtain ⟨job, declared, identity, events, killSwitch, unscanned, hbehind⟩ := behind h hop
  obtain ⟨selected, hselected, huntrusted⟩ | ⟨⟨messages, rfl⟩, hremote⟩ := hleaves
  · obtain ⟨_, ⟨_, inspection, final, hheard, hchosen, -⟩, -⟩ :=
      reached_of_selected hbehind.due hselected
    refine ⟨job, declared, identity, events, killSwitch, unscanned, inspection, hbehind, hheard, ?_⟩
    cases heffective : inspection.effective with
    | any => rfl
    | localOnly =>
      rw [hchosen.trusted heffective] at huntrusted
      cases huntrusted
  · obtain ⟨inspection, hheard, hdetector⟩ := hbehind.due
    exact ⟨job, declared, identity, events, killSwitch, unscanned, inspection, hbehind, hheard,
      hdetector (hbehind.state ▸ hremote)⟩

theorem Behind.switched {job : Job F} {declared : Profile}
    {identity : Option AuthenticatedVirtualKey} {events : List (Event F)} {on unscanned : Bool}
    (h : Behind state request trace op job declared identity events (some on) unscanned) :
    ⟨.readKillSwitch, on⟩ ∈ trace := by
  obtain ⟨e, he, hswitched⟩ := h.remembers.killSwitch on rfl
  exact read_of_switched hswitched ▸ he

/-- Nothing of a request leaves the machine unless it was declared to be allowed to, remote
providers were not switched off, and the whole body was scanned, readable and allowed. -/
theorem leaves_only_any (h : Leads (chatCompletions state request) trace (.ask op next))
    (hleaves : LeavesHost state op) : ∃ fields declared, Read state request fields declared ∧
      declared.privacy = .any ∧ Cleared (.object fields) .any false ∧
      ⟨.readKillSwitch, false⟩ ∈ trace ∧ ⟨.scanOffWorker, false⟩ ∉ trace := by
  obtain ⟨job, declared, identity, events, killSwitch, unscanned, inspection, hbehind, hheard,
    heffective⟩ := heard_of_leaves h hleaves
  obtain ⟨hdeclared, hcleared, rfl, rfl⟩ := hheard.cleared heffective
  refine ⟨job.fields, declared, hbehind.read, hdeclared, hcleared, hbehind.switched, fun hmem => ?_⟩
  cases hbehind.remembers.unscanned rfl _ hmem

/-- The request may not leave the machine: it was declared so, the kill switch was on, or the
inspection of its body was not finished or does not leave it `any`. -/
inductive Pinned (fields : Fields) (declared : Profile)
    (trace : List (Exchange (Op F) (Op.Answer R))) : Prop where
  | declared (h : declared.privacy = .localOnly)
  | switchedOff (h : ⟨.readKillSwitch, true⟩ ∈ trace)
  | unscanned (h : ⟨.scanOffWorker, false⟩ ∈ trace)
  | inspected (on : Bool) (hread : ⟨.readKillSwitch, on⟩ ∈ trace)
      (h : ∀ inspection, inspectBody (.object fields) declared.privacy on = some inspection →
        inspection.effective ≠ .any)

theorem Pinned.not_leaves {fields : Fields} {declared : Profile} (hpinned : Pinned fields declared trace)
    (h : Leads (chatCompletions state request) trace (.ask op next))
    (hread : Read state request fields declared) : ¬LeavesHost state op := by
  intro hleaves
  obtain ⟨job, _, identity, events, killSwitch, unscanned, inspection, hbehind, hheard,
    heffective⟩ := heard_of_leaves h hleaves
  obtain ⟨rfl, rfl⟩ := hread.unique hbehind.read
  obtain ⟨hany, -, rfl, rfl⟩ := hheard.cleared heffective
  have honce : ∀ on, ⟨.readKillSwitch, on⟩ ∈ trace → on = false := fun on hmem =>
    switched_once watched_completions h hmem hbehind.switched rfl rfl
  cases hpinned with
  | declared hlocal =>
    rw [hany] at hlocal
    cases hlocal
  | switchedOff hmem => cases honce true hmem
  | unscanned hmem => cases hbehind.remembers.unscanned rfl _ hmem
  | inspected on hmem hinspected =>
    obtain rfl := honce on hmem
    obtain ⟨_, hon, ⟨hscan, -⟩ | rfl⟩ := hheard
    · cases hon
      exact hinspected inspection hscan heffective
    · cases heffective

/-- Whatever the surroundings answer, a request that may not leave the machine is only given to
trusted local cards, and a remote detector never sees it. -/
theorem pinned_stays {fields : Fields} {declared : Profile}
    (h : Leads (chatCompletions state request) trace (.ask op next))
    (hread : Read state request fields declared) (hpinned : Pinned fields declared trace) :
    (∀ selected, op.selected = some selected → trustedLocal selected.card = true) ∧
      ∀ messages, op = .detect messages → state.detector = .loopback := by
  have hstays := hpinned.not_leaves h hread
  constructor
  · intro selected hselected
    by_contra huntrusted
    exact hstays (.inl ⟨selected, hselected, Bool.eq_false_iff.mpr huntrusted⟩)
  · intro messages hdetect
    cases hdetector : state.detector with
    | loopback => rfl
    | remote => exact absurd (.inr ⟨⟨messages, hdetect⟩, hdetector⟩) hstays

/-- Nothing is asked once an event could not be stored. -/
theorem unrefused (h : Leads (chatCompletions state request) trace (.ask op next)) :
    ∀ e ∈ trace, refuses e.1 e.2 = false := by
  have hallowed := (watched_completions.leads h).1
  have hremembers := Remembers.follow (M := observer R state request) rfl trace
  generalize (observer R state request).follow .start trace = w at hallowed hremembers
  by_cases hop : op = .authenticate
  · subst hop
    obtain rfl : w = .start := hallowed
    exact hremembers.refused rfl
  · obtain ⟨_, _, _, _, _, _, hbehind⟩ := behind h hop
    exact hbehind.remembers.refused rfl

/-- The events of a request are stored in the order of its life, all for one tenant, and nothing
is asked once one of them could not be stored. A backend is reached only with all four stored,
the last one naming the provider. -/
theorem events_in_order (h : Leads (chatCompletions state request) trace (.ask op next)) :
    (∀ e ∈ trace, refuses e.1 e.2 = false) ∧ (op ≠ .authenticate →
      ∃ tenantId events, storedEvents trace = events.map (Prod.mk tenantId) ∧ Lifecycle events ∧
        (∀ tenant correlation event, op = .append tenant correlation event →
          tenant = tenantId ∧ Lifecycle (events ++ [event])) ∧
        (∀ selected, op.selected = some selected → state.eventLog = true →
          ∃ requestId inspection profile route, events = [.requestReceived requestId,
            .inspected inspection, .profiled profile, .decided route (some selected) none])) := by
  refine ⟨unrefused h, fun hop => ?_⟩
  obtain ⟨job, declared, identity, events, killSwitch, unscanned, hbehind⟩ := behind h hop
  have hstored : job.log events = storedEvents trace := hbehind.remembers.stored
  cases htenant : job.tenantId with
  | some tenantId =>
    refine ⟨tenantId, events, ?_, hbehind.lifecycle, ?_, ?_⟩
    · rw [← hstored, Job.log, htenant]
    · rintro tenant correlation event rfl
      obtain ⟨hsame, hlater⟩ := hbehind.due
      rw [htenant] at hsame
      exact ⟨(Option.some.inj hsame).symm, hlater⟩
    · intro selected hselected _
      obtain ⟨_, ⟨requestId, inspection, final, -, -, -, -, hevents⟩, -⟩ :=
        reached_of_selected hbehind.due hselected
      exact ⟨requestId, inspection, final, _, hevents⟩
  | none =>
    refine ⟨personalTenantId, [], ?_, .fresh, ?_, ?_⟩
    · rw [← hstored, Job.log, htenant]
      rfl
    · rintro tenant correlation event rfl
      obtain ⟨hsame, -⟩ := hbehind.due
      rw [htenant] at hsame
      cases hsame
    · intro selected hselected hlog
      have hnone := hbehind.standing.tenant
      rw [htenant, hbehind.state, eventTenant, hlog, if_pos rfl] at hnone
      cases hmode : state.deployMode with
      | personal =>
        rw [hmode] at hnone
        cases hnone
      | tenant =>
        rw [hmode] at hnone
        cases hparsed : declared.parsed.tenantId <;> rw [hparsed] at hnone <;> cases hnone

/-- A request without a key stays on this host and costs nothing. -/
theorem dev_request_free (h : Leads (chatCompletions state request) trace (.ask op next))
    {selected : Selected F} (hselected : op.selected = some selected)
    (hdev : isDevNoKeyRequest state request = true) :
    trustedLocal selected.card = true ∧ selected.servedLocality = .loopback ∧
      Quotes.isZero selected.card.provider.cost.inputPerM = true ∧
      Quotes.isZero selected.card.provider.cost.outputPerM = true := by
  obtain ⟨job, declared, identity, events, killSwitch, unscanned, hbehind⟩ :=
    behind h (not_authenticate hselected)
  obtain ⟨_, ⟨_, inspection, final, hheard, hchosen, -, hfree, -⟩, -⟩ :=
    reached_of_selected hbehind.due hselected
  have hkey : job.devNoKeyRequest = true := by
    rw [hbehind.standing.dev, hbehind.state, hbehind.request]
    exact hdev
  have houtside := hfree hkey
  simp only [outsideDevScope, Bool.or_eq_false_iff, decide_eq_false_iff_not, not_not,
    Bool.not_eq_false'] at houtside
  refine ⟨hchosen.trusted ?_, houtside.1.1, houtside.1.2, houtside.2⟩
  cases heffective : inspection.effective with
  | localOnly => rfl
  | any =>
    have hdeclared := (hheard.cleared heffective).1
    have hauthorized := hbehind.standing.authorized
    rw [hbehind.state, hbehind.request] at hauthorized
    obtain ⟨-, hlocal⟩ | ⟨hkeyed, -⟩ | ⟨-, hdisabled⟩ := hauthorized
    · rw [hdeclared] at hlocal
      cases hlocal
    · rw [hdev] at hkeyed
      cases hkeyed
    · simp [isDevNoKeyRequest, hdisabled] at hdev

/-- A command line tool is run only for a client of this host, for a request that may leave it,
and only for the card of the subscription. -/
theorem relay_from_loopback {selected : Selected F} {chat : ChatRequest}
    {next : Op.Answer R (.relay selected chat) → Completion F R}
    (h : Leads (chatCompletions state request) trace (.ask (.relay selected chat) next)) :
    selected.card.provider.id = subscriptionProviderId ∧
      (∃ peer, request.peer = some peer ∧ peer.isLoopback = true) ∧
      ∃ fields declared, Read state request fields declared ∧ declared.privacy = .any ∧
        Cleared (.object fields) .any false := by
  obtain ⟨job, declared, identity, events, killSwitch, unscanned, hbehind⟩ :=
    behind h (not_authenticate rfl)
  obtain ⟨_, ⟨_, inspection, final, hheard, hchosen, rfl, -⟩, hid, hany, peer, hpeer, hloopback⟩ :=
    hbehind.due
  obtain ⟨hdeclared, hcleared, -⟩ := hheard.cleared (hchosen.settled.privacy ▸ hany)
  exact ⟨hid, ⟨peer, hbehind.request ▸ hpeer, hloopback⟩, job.fields, declared, hbehind.read,
    hdeclared, hcleared⟩

end Facts

section Tenant

theorem queryScopeHeader_of_present {headers : HeaderMap} {value : String}
    (h : headerState headers "x-idoris-tenant" = .present value) :
    queryScopeHeader headers = some value := by
  unfold headerState at h
  unfold queryScopeHeader
  split at h
  · cases h
  · rename_i first hfirst
    rw [hfirst]
    cases hraw : toStr first with
    | none =>
      rw [hraw] at h
      cases h
    | some raw =>
      rw [hraw] at h
      simp only at h
      split at h
      · cases h
      · rename_i hblank
        cases h
        simp [hraw, hblank]
  · cases h

theorem parseProfile_tenant {headers : HeaderMap} {model : Option String} {profile : Profile}
    (h : parseProfile headers model .tenant = .ok profile) :
    ∃ tenantId, profile.parsed.tenantId = some tenantId ∧
      queryScopeHeader headers = some tenantId := by
  simp only [parseProfile, bind_eq_ok, pure_eq_ok] at h
  obtain ⟨_, -, _, -, _, -, _, -, _, -, _, -, _, -, tenantId, htenant, rfl⟩ := h
  unfold parseTenantId parseTenant at htenant
  cases hstate : headerState headers "x-idoris-tenant" with
  | present value =>
    rw [hstate] at htenant
    cases hvalid : validEventIdentifier value with
    | false =>
      simp only [hvalid, refuseIf, if_true] at htenant
      cases htenant
    | true =>
      simp only [hvalid, refuseIf] at htenant
      cases htenant
      exact ⟨value, rfl, queryScopeHeader_of_present hstate⟩
  | _ =>
    rw [hstate] at htenant
    cases htenant

theorem eventTenant_tenant {F : Type} {state : AppState F} {declared : Profile} {tenantId : String}
    (hmode : state.deployMode = .tenant) (h : eventTenant state declared = .ok (some tenantId)) :
    declared.parsed.tenantId = some tenantId := by
  unfold eventTenant at h
  split at h
  · rw [hmode] at h
    cases hparsed : declared.parsed.tenantId with
    | none =>
      rw [hparsed] at h
      cases h
    | some parsed =>
      rw [hparsed] at h
      cases h
      rfl
  · cases h

theorem boundTenant_ok {headers : HeaderMap} {key : AuthenticatedVirtualKey} {tenantId : String}
    (h : boundTenant .tenant headers key = .ok ()) (hnamed : queryScopeHeader headers = some tenantId) :
    key.scope.tenantId = some tenantId := by
  have hpresent : headers.containsKey "x-idoris-tenant" = true := by
    unfold queryScopeHeader HeaderMap.getAll at hnamed
    split at hnamed
    · rename_i first hfirst
      have hmem : first ∈ (headers.filter fun header => header.1 = "x-idoris-tenant").map Prod.snd := by
        rw [hfirst]
        exact List.mem_cons_self
      obtain ⟨header, hheader, -⟩ := List.mem_map.mp hmem
      obtain ⟨hlisted, hname⟩ := List.mem_filter.mp hheader
      exact List.any_eq_true.mpr ⟨header, hlisted, hname⟩
    · cases hnamed
  simp only [boundTenant, hpresent, if_true, bind_eq_ok, orRefuse_eq_ok, refuseIf_eq_ok, hnamed]
    at h
  obtain ⟨_, hsame, _, -, hbound⟩ := h
  cases hsame
  exact not_not.mp hbound

end Tenant

section Authority

variable {F R H : Type} [Quotes F] [Entropy] [DecidableEq H] {hash : VirtualKeySecret → H}
  {calls : List (Call H)} {store : VirtualKeyStore H} {state : AppState F} {request : Request}
  {trace : List (Exchange (Op F) (Op.Answer R))} {op : Op F}
  {next : op.Answer R → Completion F R}

/-- Who the caller is was looked up in this table of keys. -/
def FromTable (hash : VirtualKeySecret → H) (store : VirtualKeyStore H) (request : Request)
    (trace : List (Exchange (Op F) (Op.Answer R))) : Prop :=
  ∀ answer, ⟨.authenticate, answer⟩ ∈ trace → ∃ attempt,
    authenticate hash attempt store request.headers = answer

/-- Nothing is done for a request but what its caller may ask for: the request is local and needs
no key, or it was authenticated by the secret of a key that the history of the table issued and
did not revoke and whose scope admits the request, or no key is asked for. The backend gets the
role, the fallback and the tenant that were admitted, and no wider a privacy. -/
theorem acts_with_authority (hrun : (table H).Run .empty calls store)
    (h : Leads (chatCompletions state request) trace (.ask op next))
    (hop : op ≠ .authenticate) (htable : FromTable hash store request trace) :
    ∃ fields declared, Read state request fields declared ∧
      (isDevNoKeyRequest state request = true ∧ declared.privacy = .localOnly ∨
        (∃ key secret decisionNow, ⟨.authenticate, .ok key⟩ ∈ trace ∧
          Presents request.headers secret ∧ Holds hash calls secret decisionNow key ∧
          Admits key declared.parsed) ∨
        state.authenticator = false ∧ state.devNoKeyEnabled = false) ∧
      ∀ profile, op.profile = some profile → profile.role = declared.parsed.role ∧
        profile.task.fallback = declared.parsed.task.fallback ∧
        profile.tenantId = declared.parsed.tenantId ∧
        (profile.task.privacy.getD .localOnly = .any → declared.privacy = .any) := by
  obtain ⟨job, declared, identity, events, killSwitch, unscanned, hbehind⟩ := behind h hop
  refine ⟨job.fields, declared, hbehind.read, ?_, ?_⟩
  · have hauthorized := hbehind.standing.authorized
    rw [hbehind.state, hbehind.request] at hauthorized
    obtain hlocal | ⟨-, key, rfl, hadmits⟩ | hopen := hauthorized
    · exact .inl hlocal
    · obtain ⟨e, he, hidentified⟩ := hbehind.remembers.identity key rfl
      have hasked := authenticated_of_identified hidentified ▸ he
      obtain ⟨attempt, hkey⟩ := htable (.ok key) hasked
      obtain ⟨secret, _, decisionNow, hpresents, -, hholds⟩ := holds_of_authenticate hrun hkey
      exact .inr (.inl ⟨key, secret, decisionNow, hasked, hpresents, hholds, hadmits⟩)
    · exact .inr (.inr hopen)
  · intro profile hprofile
    obtain ⟨inspection, final, hheard, hsettled, rfl⟩ := settled_of_profile hbehind.due hprofile
    exact ⟨hsettled.role, hsettled.fallback, hsettled.tenant,
      fun hany => (hheard.cleared (hsettled.privacy ▸ hany)).1⟩

/-- In a tenant deployment the handler runs only behind a key that is bound to the tenant that
the request names. -/
theorem leads_tenant (h : Leads (serveChat state request) trace (.ask op next))
    (hop : op ≠ .authenticate) (hmode : state.deployMode = .tenant)
    (hpath : request.path = "/v1/chat/completions") : ∃ key rest,
      trace = ⟨.authenticate, .ok key⟩ :: rest ∧
      boundTenant .tenant request.headers key = .ok () ∧
      Leads (chatCompletions state request) rest (.ask op next) := by
  have hguarded : guardedPaths.contains "/v1/chat/completions" = true := by decide
  have hhealth : ("/v1/chat/completions" = "/health") = False := by decide
  unfold serveChat remoteBindAuth at h
  simp only [hpath, hmode, hguarded, hhealth, decide_true, Bool.true_and, Bool.not_true,
    Bool.and_false, Bool.or_true, if_false, Bool.false_eq_true, if_true] at h
  split at h
  · exact (not_leads_ret h).elim
  · split at h
    · cases h with
      | refl => exact absurd rfl hop
      | @ask _ _ answer rest _ h =>
        cases answer with
        | error error => exact (not_leads_ret h).elim
        | ok key =>
          dsimp only at h
          cases hbound : boundTenant .tenant request.headers key with
          | error envelope =>
            rw [hbound] at h
            exact (not_leads_ret h).elim
          | ok _ =>
            rw [hbound] at h
            exact ⟨key, rest, rfl, hbound, h⟩
    · exact (not_leads_ret h).elim

/-- In a tenant deployment everything is done, and recorded, for the one tenant that the request
names, and a key of the caller is bound to it. -/
theorem tenant_bound (h : Leads (serveChat state request) trace (.ask op next))
    (hop : op ≠ .authenticate) (hmode : state.deployMode = .tenant)
    (hpath : request.path = "/v1/chat/completions") : ∃ key tenantId,
      queryScopeHeader request.headers = some tenantId ∧
      ⟨.authenticate, .ok key⟩ ∈ trace ∧ key.scope.tenantId = some tenantId ∧
      (∀ entry ∈ storedEvents trace, entry.1 = tenantId) ∧
      (∀ tenant correlation event, op = .append tenant correlation event → tenant = tenantId) ∧
      ∀ profile, op.profile = some profile → profile.tenantId = some tenantId := by
  obtain ⟨key, rest, rfl, hbound, hleads⟩ := leads_tenant h hop hmode hpath
  obtain ⟨job, declared, identity, events, killSwitch, unscanned, hbehind⟩ := behind hleads hop
  have hparsed := hbehind.read.parsed
  rw [hmode] at hparsed
  obtain ⟨tenantId, htenant, hnamed⟩ := parseProfile_tenant hparsed
  have hevents : ∀ tenant, job.tenantId = some tenant → tenant = tenantId := by
    intro tenant hjob
    have hevent := hbehind.standing.tenant
    rw [hjob, hbehind.state] at hevent
    have hsame := eventTenant_tenant hmode hevent
    rw [htenant] at hsame
    exact (Option.some.inj hsame).symm
  refine ⟨key, tenantId, hnamed, List.mem_cons_self, boundTenant_ok hbound hnamed, ?_, ?_, ?_⟩
  · intro entry hentry
    have hstored : job.log events = storedEvents rest := hbehind.remembers.stored
    have hlogged : entry ∈ job.log events := hstored ▸ hentry
    unfold Job.log at hlogged
    cases hjob : job.tenantId with
    | none =>
      rw [hjob] at hlogged
      cases hlogged
    | some tenant =>
      rw [hjob] at hlogged
      obtain ⟨event, -, rfl⟩ := List.mem_map.mp hlogged
      exact hevents tenant hjob
  · rintro tenant correlation event rfl
    exact hevents tenant hbehind.due.1
  · intro profile hprofile
    obtain ⟨_, _, -, hsettled, rfl⟩ := settled_of_profile hbehind.due hprofile
    rw [hsettled.tenant, htenant]

end Authority

section Sample

/-- The subscription card of an operator, for anything that may leave the host. -/
def relayCard : ComponentCard Pricing.Rate where
  provider := ⟨"subscription", .remote, [.chat], .any, ⟨.finite 0, .finite 0⟩, .remote⟩
  form := .spawnCli
  endpoint := subscriptionEndpoint
  privacyClass := .any
  allowedEgress := [.internet]
  loadPolicy := none
  extensions := none

def relayState : AppState Pricing.Rate where
  deployMode := .personal
  devNoKeyEnabled := false
  remoteBindRequiresAuth := false
  authenticator := false
  eventLog := true
  cards := [relayCard]
  routingPolicy := ⟨[], ⟨some [.remote], none, none, none⟩⟩
  subscriptions := [("subscription", "claude")]
  detector := .loopback

def headerBytes (value : String) : List UInt8 := value.toList.map fun c => UInt8.ofNat c.toNat

def relayRequest : Request where
  headers := [("x-idoris-privacy", headerBytes "any"), ("x-idoris-intent", headerBytes "chat")]
  path := "/v1/chat/completions"
  recordId := "record"
  rawLen := 60
  json := some helloBody
  peer := some (.v4 127 0 0 1)

/-- Everything is stored and open, and nobody holds a key. -/
def openOracle : (op : Op Pricing.Rate) → op.Answer Unit
  | .authenticate => .error .unauthorized
  | .append _ _ _ => true
  | .readKillSwitch => false
  | .scanOffWorker => true
  | .detect _ => .ok none
  | .exactReadyProviders _ => []
  | .blockedCards _ _ _ => fun _ => false
  | .relay _ _ => .error .timeout
  | .chatViaProxy _ _ _ => ()
  | .dispatchLocal _ => .error .eventLogUnavailable

def asksRelay : Completion Pricing.Rate Unit → Bool
  | .ask (.relay selected _) _ => !trustedLocal selected.card
  | _ => false

theorem exists_relay : ∃ trace selected chat next,
    Leads (chatCompletions (R := Unit) relayState relayRequest) trace
      (.ask (.relay selected chat) next) ∧ trustedLocal selected.card = false := by
  have hleads := leads_replay openOracle 6 (chatCompletions relayState relayRequest)
  have hasked : asksRelay (replay openOracle 6 (chatCompletions relayState relayRequest)).2 =
      true := by
    decide +kernel
  generalize replay openOracle 6 (chatCompletions relayState relayRequest) = run at hleads hasked
  obtain ⟨trace, p⟩ := run
  cases p with
  | ret reply => cases hasked
  | ask op next =>
    cases op with
    | relay selected chat => exact ⟨trace, selected, chat, next, hleads, by simpa [asksRelay] using hasked⟩
    | _ => cases hasked

theorem leaves_only_any_relay : ∃ (trace : List (Exchange (Op Pricing.Rate) (Op.Answer Unit)))
    (op : Op Pricing.Rate), LeavesHost relayState op ∧
      ∃ fields declared, Read relayState relayRequest fields declared ∧ declared.privacy = .any ∧
        Cleared (.object fields) .any false ∧ ⟨.readKillSwitch, false⟩ ∈ trace ∧
        ⟨.scanOffWorker, false⟩ ∉ trace := by
  obtain ⟨trace, selected, chat, next, hleads, huntrusted⟩ := exists_relay
  have hleaves : LeavesHost relayState (.relay selected chat) := .inl ⟨selected, rfl, huntrusted⟩
  exact ⟨trace, _, hleaves, leaves_only_any hleads hleaves⟩

theorem relay_from_loopback_claude : ∃ selected : Selected Pricing.Rate,
    selected.card.provider.id = subscriptionProviderId ∧
      (∃ peer, relayRequest.peer = some peer ∧ peer.isLoopback = true) ∧
      ∃ fields declared, Read relayState relayRequest fields declared ∧ declared.privacy = .any ∧
        Cleared (.object fields) .any false := by
  obtain ⟨trace, selected, chat, next, hleads, -⟩ := exists_relay
  exact ⟨selected, relay_from_loopback hleads⟩

theorem events_in_order_relay : ∃ (trace : List (Exchange (Op Pricing.Rate) (Op.Answer Unit)))
    (selected : Selected Pricing.Rate) (tenantId requestId : String) (inspection : Inspection)
    (profile : Profile) (route : RouteDecision), storedEvents trace =
      [(tenantId, .requestReceived requestId), (tenantId, .inspected inspection),
        (tenantId, .profiled profile), (tenantId, .decided route (some selected) none)] := by
  obtain ⟨trace, selected, chat, next, hleads, -⟩ := exists_relay
  obtain ⟨-, hordered⟩ := events_in_order hleads
  obtain ⟨tenantId, events, hstored, -, -, hbackend⟩ := hordered (not_authenticate rfl)
  obtain ⟨requestId, inspection, profile, route, rfl⟩ := hbackend selected rfl rfl
  exact ⟨trace, selected, tenantId, requestId, inspection, profile, route, hstored⟩

/-- A resident service of this host that is free. -/
def freeCard : ComponentCard Pricing.Rate where
  provider := ⟨"omlx", .local, [.chat], .localOnly, ⟨.finite 0, .finite 0⟩, .loopback⟩
  form := .httpService
  endpoint := "http://127.0.0.1:8740"
  privacyClass := .localOnly
  allowedEgress := [.loopback]
  loadPolicy := some ⟨.resident, .pinned true, .coexist⟩
  extensions := none

def devState : AppState Pricing.Rate :=
  { relayState with
    devNoKeyEnabled := true
    eventLog := false
    cards := [freeCard]
    routingPolicy := ⟨[], ⟨none, none, none, none⟩⟩ }

def devRequest : Request := { relayRequest with headers := [] }

def asksBackend : Completion Pricing.Rate Unit → Bool
  | .ask op _ => op.selected.isSome
  | .ret _ => false

theorem dev_request_free_omlx : ∃ selected : Selected Pricing.Rate,
    trustedLocal selected.card = true ∧ selected.servedLocality = .loopback ∧
      Quotes.isZero selected.card.provider.cost.inputPerM = true ∧
      Quotes.isZero selected.card.provider.cost.outputPerM = true := by
  have hleads := leads_replay openOracle 3 (chatCompletions devState devRequest)
  have hasked : asksBackend (replay openOracle 3 (chatCompletions devState devRequest)).2 =
      true := by
    decide +kernel
  generalize replay openOracle 3 (chatCompletions devState devRequest) = run at hleads hasked
  obtain ⟨trace, p⟩ := run
  cases p with
  | ret reply => cases hasked
  | ask op next =>
    obtain ⟨selected, hselected⟩ := Option.isSome_iff_exists.mp hasked
    exact ⟨selected, dev_request_free hleads hselected (by decide)⟩

/-- A free card of this host beside the subscription. -/
def mixedState : AppState Pricing.Rate :=
  { devState with
    devNoKeyEnabled := false
    cards := [relayCard, freeCard] }

def switchedOffOracle : (op : Op Pricing.Rate) → op.Answer Unit
  | .readKillSwitch => true
  | op => openOracle op

theorem read_relayRequest : ∃ fields declared, Read mixedState relayRequest fields declared ∧
    declared.privacy = .any := by
  obtain ⟨declared, hparsed, hany⟩ : ∃ declared, parseProfile relayRequest.headers none
      mixedState.deployMode = .ok declared ∧ declared.privacy = .any := ⟨_, rfl, rfl⟩
  exact ⟨_, declared, ⟨rfl, hparsed⟩, hany⟩

/-- The request was declared to be allowed to leave the host, but the kill switch is on. -/
theorem pinned_stays_switchedOff : ∃ (selected : Selected Pricing.Rate) (fields : Fields)
    (declared : Profile), Read mixedState relayRequest fields declared ∧ declared.privacy = .any ∧
      trustedLocal selected.card = true := by
  have hleads := leads_replay switchedOffOracle 2 (chatCompletions mixedState relayRequest)
  have hasked : asksBackend (replay switchedOffOracle 2 (chatCompletions mixedState relayRequest)).2 =
      true := by
    decide +kernel
  have hoff : (replay switchedOffOracle 2 (chatCompletions mixedState relayRequest)).1.any
      (fun e => switched e.1 e.2 == some true) = true := by
    decide +kernel
  generalize replay switchedOffOracle 2 (chatCompletions mixedState relayRequest) = run
    at hleads hasked hoff
  obtain ⟨trace, p⟩ := run
  obtain ⟨e, he, hon⟩ := List.any_eq_true.mp hoff
  have hmem : ⟨.readKillSwitch, true⟩ ∈ trace := read_of_switched (eq_of_beq hon) ▸ he
  obtain ⟨fields, declared, hread, hany⟩ := read_relayRequest
  cases p with
  | ret reply => cases hasked
  | ask op next =>
    obtain ⟨selected, hselected⟩ := Option.isSome_iff_exists.mp hasked
    exact ⟨selected, fields, declared, hread, hany,
      (pinned_stays hleads hread (.switchedOff hmem)).1 selected hselected⟩

/-- The bearer of a key for one role asks for that role. -/
def keyRequest : Request where
  headers := bearerHeaders
  path := "/v1/chat/completions"
  recordId := "record"
  rawLen := 60
  json := some (.object [("model", .string "idoris/fast")])
  peer := none

def keyState : AppState Pricing.Rate := { devState with authenticator := true }

def keyOracle (key : AuthenticatedVirtualKey) : (op : Op Pricing.Rate) → op.Answer Unit
  | .authenticate => .ok key
  | op => openOracle op

theorem fromTable_keyOracle {store : VirtualKeyStore String}
    (hrun : (table String).Run .empty [opsInsert] store) (n : Nat) :
    FromTable VirtualKeySecret.text store keyRequest
      (replay (keyOracle ⟨"vk_1", opsScope⟩) n (chatCompletions keyState keyRequest)).1 := by
  intro answer hanswer
  have hkey : answer = .ok ⟨"vk_1", opsScope⟩ := answer_of_mem_replay hanswer
  rw [hkey]
  exact ⟨promptAttempt,
    authenticate_of_holds hrun presents_zeroSecret served_promptAttempt holds_ops⟩

def asksBody : Completion Pricing.Rate Unit → Bool
  | .ask .readKillSwitch _ => true
  | _ => false

theorem acts_with_authority_fast : ∃ fields declared key secret decisionNow,
    Read keyState keyRequest fields declared ∧ Presents keyRequest.headers secret ∧
      Holds VirtualKeySecret.text [opsInsert] secret decisionNow key ∧
      Admits key declared.parsed := by
  obtain ⟨store, hrun⟩ := run_opsInsert
  have hleads := leads_replay (keyOracle ⟨"vk_1", opsScope⟩) 1
    (chatCompletions keyState keyRequest)
  have htable := fromTable_keyOracle hrun 1
  have hasked : asksBody (replay (keyOracle ⟨"vk_1", opsScope⟩) 1
      (chatCompletions keyState keyRequest)).2 = true := by
    decide +kernel
  generalize replay (keyOracle ⟨"vk_1", opsScope⟩) 1 (chatCompletions keyState keyRequest) = run
    at hleads htable hasked
  obtain ⟨trace, p⟩ := run
  cases p with
  | ret reply => cases hasked
  | ask op next =>
    have hop : op ≠ .authenticate := by
      rintro rfl
      cases hasked
    obtain ⟨fields, declared, hread, hauthority, -⟩ := acts_with_authority hrun hleads hop htable
    obtain ⟨hlocal, -⟩ | ⟨key, secret, decisionNow, -, hheld⟩ | ⟨hopen, -⟩ := hauthority
    · exact absurd hlocal (by decide)
    · exact ⟨fields, declared, key, secret, decisionNow, hread, hheld⟩
    · cases hopen

def tenantState : AppState Pricing.Rate :=
  { keyState with
    deployMode := .tenant
    eventLog := true }

def tenantRequest : Request :=
  { keyRequest with
    headers := ("x-idoris-tenant", headerBytes "acme") :: bearerHeaders
    json := some helloBody }

/-- A key of one tenant for every role. -/
def acmeKey : AuthenticatedVirtualKey :=
  ⟨"vk_1", { opsScope with tenantId := some "acme", allowedRoles := roles.map roleText }⟩

def asksProxy : Completion Pricing.Rate Unit → Bool
  | .ask (.chatViaProxy _ _ _) _ => true
  | _ => false

theorem tenant_bound_acme : ∃ trace selected profile body next,
    Leads (serveChat (R := Unit) tenantState tenantRequest) trace
      (.ask (.chatViaProxy selected profile body) next) ∧ profile.tenantId = some "acme" ∧
      (∀ entry ∈ storedEvents trace, entry.1 = "acme") ∧
      ∃ key, ⟨.authenticate, .ok key⟩ ∈ trace ∧ key.scope.tenantId = some "acme" := by
  have hleads := leads_replay (keyOracle acmeKey) 9 (serveChat tenantState tenantRequest)
  have hasked : asksProxy (replay (keyOracle acmeKey) 9 (serveChat tenantState tenantRequest)).2 =
      true := by
    decide +kernel
  generalize replay (keyOracle acmeKey) 9 (serveChat tenantState tenantRequest) = run
    at hleads hasked
  obtain ⟨trace, p⟩ := run
  cases p with
  | ret reply => cases hasked
  | ask op next =>
    cases op with
    | chatViaProxy selected profile body =>
      obtain ⟨key, tenantId, hnamed, hmem, hkey, hstored, -, hprofile⟩ :=
        tenant_bound hleads (not_authenticate rfl) rfl rfl
      have hacme : queryScopeHeader tenantRequest.headers = some "acme" := by decide +kernel
      obtain rfl := Option.some.inj (hacme.symm.trans hnamed)
      exact ⟨trace, selected, profile, body, next, hleads, hprofile profile rfl, hstored, key, hmem,
        hkey⟩
    | _ => cases hasked

end Sample

end Chat
