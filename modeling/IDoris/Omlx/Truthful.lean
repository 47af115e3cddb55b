import IDoris.Omlx.Adapter

/-!
# What a load's answer is worth

An observer of the requests and answers of one load, and what each result says of them.
-/
namespace Omlx

open Interaction Json Program Supervisor

variable {N : Type}

/-- The answer to the load's POST, the status bodies read after it, and the answers to the PUTs. -/
structure Seen (N : Type) where
  posted : Option (Answer N)
  bodies : List (Value N)
  puts : List (Answer N)

namespace Seen

def start : Seen N := ⟨none, [], []⟩

/-- A status body counts where its answer is a success and comes after the POST's. -/
def readBody (s : Seen N) : Answer N → Seen N
  | .answered response =>
    if isSuccess response.status && s.posted.isSome then
      { s with bodies := s.bodies ++ response.body.toList }
    else s
  | _ => s

/-- The engine has accepted the load. -/
def Accepted (s : Seen N) : Prop :=
  ∃ response, s.posted = some (.answered response) ∧ isSuccess response.status = true

/-- A status body with exactly one entry for the id, which says that it is loaded. -/
def Loaded (s : Seen N) (id : String) (pinned : Bool → Prop) : Prop :=
  ∃ body ∈ s.bodies, ∃ models entry, body.get "models" = some (.array models) ∧
    entries models id = [entry] ∧ entry.get "loaded" = some (.bool true) ∧
    ∃ b, entry.get "pinned" = some (.bool b) ∧ pinned b

/-- No PUT yet, or one that was answered 401. -/
def MayPut (s : Seen N) : Prop :=
  s.puts = [] ∨ ∃ response, s.puts = [.answered response] ∧ response.status = 401

/-- The part of an answer that a verification leaves in place. -/
structure Keeps (s t : Seen N) : Prop where
  posted : t.posted = s.posted
  bodies : s.bodies ⊆ t.bodies

theorem Keeps.refl (s : Seen N) : s.Keeps s := ⟨rfl, List.Subset.refl _⟩

theorem Keeps.trans {s t u : Seen N} (h : s.Keeps t) (h' : t.Keeps u) : s.Keeps u :=
  ⟨h'.posted.trans h.posted, List.Subset.trans h.bodies h'.bodies⟩

theorem Accepted.of_keeps {s t : Seen N} (h : s.Accepted) (hkeeps : s.Keeps t) : t.Accepted := by
  obtain ⟨response, hposted, hsuccess⟩ := h
  exact ⟨response, hkeeps.posted.trans hposted, hsuccess⟩

end Seen

section Watch

variable (adapter : OmlxAdapter) (id : String)

/-- What the answer to a request to this adapter's engine adds. -/
def Seen.hear (s : Seen N) (request : HttpRequest N) (answer : Answer N) : Seen N :=
  match request.method with
  | .get => if request.url = adapter.baseUrl ++ OmlxAdapter.statusPath then s.readBody answer else s
  | .post =>
    if request.url = adapter.baseUrl ++ OmlxAdapter.loadPath id then { s with posted := some answer }
    else s
  | .put => { s with puts := s.puts ++ [answer] }

/-- A PUT is sent only to set the model's pin, and only where it may be sent. -/
def watch (N : Type) : Monitor (Op N) Op.Ans (Seen N) where
  allowed s
    | .send request => request.method = .put →
      request.url = adapter.baseUrl ++ OmlxAdapter.settingsPath id ∧ s.MayPut
    | _ => True
  next s
    | .send request, answer => s.hear adapter id request answer
    | _, _ => s

end Watch

/-- What a load's result says of what was asked and answered. -/
def Truthful (id : String) (policy : Option LoadPolicy) (result : Except BackendError Unit)
    (s : Seen N) : Prop :=
  match result with
  | .ok () => s.Accepted ∧
    s.Loaded id fun pinned => pinned = decide (policy.map LoadPolicy.mode = some .resident)
  | .error (.loadPostconditionFailed _ _) => s.Accepted ∧ s.Loaded id fun _ => True
  | .error (.loadUnconfirmed _ _) => True
  | .error _ => ∃ response, s.posted = some (.answered response) ∧
    400 ≤ response.status ∧ response.status < 500 ∧ response.status ≠ 408

theorem parseModelState_ok {raw : Value N} {id : String} {state : ModelState}
    (h : parseModelState raw id = .ok state) :
    ∃ models entry, raw.get "models" = some (.array models) ∧ entries models id = [entry] ∧
      entry.get "loaded" = some (.bool true) ∧ entry.get "pinned" = some (.bool state.pinned) := by
  unfold parseModelState at h
  split at h
  · cases h
  · next models hmodels =>
    obtain ⟨value, hvalue, harray⟩ := Option.bind_eq_some_iff.mp hmodels
    obtain rfl := Value.asArray_eq_some harray
    split at h
    · cases h
    · cases h
    · next entry hentries =>
      split at h
      · cases h
      · cases h
      · next hloaded =>
        obtain ⟨loaded, hget, hloaded⟩ := Option.bind_eq_some_iff.mp hloaded
        obtain rfl := Value.asBool_eq_some hloaded
        split at h
        · cases h
        · next pinned hpinned =>
          cases h
          obtain ⟨value, hget', hpinned⟩ := Option.bind_eq_some_iff.mp hpinned
          obtain rfl := Value.asBool_eq_some hpinned
          exact ⟨models, entry, hvalue, hentries, hget, hget'⟩

theorem parseModelState_error {raw : Value N} {id : String} {err : BackendError}
    (h : parseModelState raw id = .error err) : ∃ text, err = .upstream text := by
  unfold parseModelState at h
  simp only at h
  split at h
  · exact ⟨_, (Except.error.inj h).symm⟩
  · split at h
    · exact ⟨_, (Except.error.inj h).symm⟩
    · exact ⟨_, (Except.error.inj h).symm⟩
    · split at h
      · exact ⟨_, (Except.error.inj h).symm⟩
      · exact ⟨_, (Except.error.inj h).symm⟩
      · split at h
        · exact ⟨_, (Except.error.inj h).symm⟩
        · cases h

section Rules

variable {adapter : OmlxAdapter} {id : String} {s : Seen N}

theorem safe_send {request : HttpRequest N} {Q : Answer N → Seen N → Prop}
    (hput : request.method = .put → request.url = adapter.baseUrl ++ OmlxAdapter.settingsPath id ∧
      s.MayPut) (h : ∀ answer, Q answer (s.hear adapter id request answer)) :
    Safe (watch adapter id N) Q (sendRequest request) s :=
  ⟨hput, h⟩

/-- What the read of the status gives. -/
structure Reads (s : Seen N) (result : Except BackendError (Value N)) (t : Seen N) : Prop where
  keeps : s.Keeps t
  ok : ∀ raw, result = .ok raw → raw ∈ t.bodies
  failed : ∀ err, result = .error err → ∃ text, err = .upstream text

theorem safe_readStatus (hposted : s.posted.isSome = true) :
    Safe (watch adapter id N) (Reads s)
      (adapter.sendAndParse .get OmlxAdapter.statusPath) s := by
  apply Safe.bind (Q := fun answer t => t = s.readBody answer)
  · apply safe_send
    · exact nofun
    · intro answer
      simp only [Seen.hear, OmlxAdapter.request, if_true]
  · rintro answer t rfl
    cases answer with
    | elapsed => exact ⟨.refl s, nofun, fun _ herr => ⟨_, (Except.error.inj herr).symm⟩⟩
    | failed failure => exact ⟨.refl s, nofun, fun _ herr => ⟨_, (Except.error.inj herr).symm⟩⟩
    | answered response =>
      by_cases hsuccess : isSuccess response.status = true
      · have hread : s.readBody (.answered response) =
            { s with bodies := s.bodies ++ response.body.toList } := by
          simp only [Seen.readBody, hsuccess, hposted, Bool.and_self, if_true]
        have hkeeps : s.Keeps { s with bodies := s.bodies ++ response.body.toList } :=
          ⟨rfl, List.subset_append_left _ _⟩
        simp only [checkStatus, hsuccess, if_true, hread]
        cases hbody : response.body with
        | none =>
          exact ⟨hbody ▸ hkeeps, nofun, fun _ herr => ⟨_, (Except.error.inj herr).symm⟩⟩
        | some body =>
          refine ⟨hbody ▸ hkeeps, ?_, nofun⟩
          rintro raw ⟨⟩
          exact List.mem_append_right _ List.mem_cons_self
      · have hread : s.readBody (.answered response) = s := by
          simp only [Seen.readBody, hsuccess, Bool.false_and, if_false, Bool.false_eq_true]
        simp only [checkStatus, hsuccess, if_false, hread, Bool.false_eq_true]
        exact ⟨.refl s, nofun, fun _ herr => ⟨_, (Except.error.inj herr).symm⟩⟩

/-- What the verification gives. -/
structure Verifies (s : Seen N) (id : String) (result : Except BackendError ModelState)
    (t : Seen N) : Prop where
  keeps : s.Keeps t
  ok : ∀ state, result = .ok state → t.Loaded id (· = state.pinned)
  failed : ∀ err, result = .error err → ∃ text, err = .upstream text

theorem safe_verifyModelState (hposted : s.posted.isSome = true) :
    Safe (watch adapter id N) (Verifies s id) (adapter.verifyModelState id) s := by
  apply (safe_readStatus hposted).bind
  rintro (err | raw) t hread
  · refine ⟨hread.keeps, nofun, ?_⟩
    rintro _ ⟨⟩
    exact hread.failed err rfl
  · refine ⟨hread.keeps, fun state hstate => ?_, fun err herr => parseModelState_error herr⟩
    obtain ⟨models, entry, hmodels, hentries, hloaded, hpinned⟩ := parseModelState_ok hstate
    exact ⟨raw, hread.ok raw rfl, models, entry, hmodels, hentries, hloaded, _, hpinned, rfl⟩

theorem login_ne_load : adapter.baseUrl ++ OmlxAdapter.loginPath ≠
    adapter.baseUrl ++ OmlxAdapter.loadPath id := by
  intro h
  have hpath := congrArg String.toList h
  simp only [String.toList_append, List.append_cancel_left_eq, OmlxAdapter.loginPath,
    OmlxAdapter.loadPath, encodedPath] at hpath
  have hsecond := congrArg (·[1]?) hpath
  simp at hsecond

/-- Neither a login nor the session is part of what the observer remembers. -/
theorem safe_adminLogin :
    Safe (watch adapter id N) (fun _ t => t = s) adapter.adminLogin s := by
  unfold OmlxAdapter.adminLogin
  cases adapter.apiKey with
  | none => rfl
  | some key =>
    apply Safe.bind (Q := fun _ t => t = s)
    · apply safe_send
      · exact nofun
      · intro answer
        simp only [Seen.hear, OmlxAdapter.loginRequest, login_ne_load, if_false]
    · rintro answer t rfl
      cases answer with
      | elapsed => rfl
      | failed failure => rfl
      | answered response =>
        simp only
        split
        · rfl
        · rfl
        · rfl
        · split
          · rfl
          · rfl

theorem safe_adminCookie (session : Option String) :
    Safe (watch adapter id N) (fun _ t => t = s) (adapter.adminCookie session) s := by
  cases session with
  | some cookie => rfl
  | none =>
    apply safe_adminLogin.bind
    rintro (err | cookie) t rfl
    · rfl
    · exact ⟨trivial, fun _ => rfl⟩

/-- One attempt at the setting; another follows only on a 401 of the first. -/
theorem safe_adminAttempt {body : Option (Value N)} {attempt : Nat} {rest : List Nat}
    {session : Option String} (hmay : s.MayPut)
    (hrest : attempt = 0 → ∀ response : Response N, response.status = 401 →
      Safe (watch adapter id N) (fun _ t => s.Keeps t)
        (adapter.adminAttempts .put (OmlxAdapter.settingsPath id) body rest none)
        { s with puts := s.puts ++ [.answered response] }) :
    Safe (watch adapter id N) (fun _ t => s.Keeps t)
      (adapter.adminAttempts .put (OmlxAdapter.settingsPath id) body (attempt :: rest) session)
      s := by
  apply (safe_adminCookie session).bind
  rintro (err | cookie) t rfl
  · exact .refl t
  · have hkeeps : ∀ answer, t.Keeps { t with puts := t.puts ++ [answer] } :=
      fun _ => ⟨rfl, List.Subset.refl _⟩
    apply Safe.bind (Q := fun answer u => u = { t with puts := t.puts ++ [answer] })
    · apply safe_send
      · exact fun _ => ⟨rfl, hmay⟩
      · exact fun answer => rfl
    · rintro answer u rfl
      cases answer with
      | elapsed => exact hkeeps _
      | failed failure => exact hkeeps _
      | answered response =>
        simp only
        split
        · next hunauthorized =>
          refine ⟨trivial, fun _ => ?_⟩
          split
          · next hfirst => exact hrest hfirst response hunauthorized
          · exact hkeeps _
        · exact hkeeps _

theorem safe_adminRequest {body : Option (Value N)} (hputs : s.puts = []) :
    Safe (watch adapter id N) (fun _ t => s.Keeps t)
      (adapter.adminRequestClassified .put (OmlxAdapter.settingsPath id) body) s := by
  refine ⟨trivial, fun session => ?_⟩
  apply safe_adminAttempt (.inl hputs)
  intro _ response hunauthorized
  have hsecond : Safe (watch adapter id N)
      (fun _ t => Seen.Keeps { s with puts := s.puts ++ [.answered response] } t)
      (adapter.adminAttempts .put (OmlxAdapter.settingsPath id) body [1] none)
      { s with puts := s.puts ++ [.answered response] } := by
    apply safe_adminAttempt
    · exact .inr ⟨response, by rw [hputs]; rfl, hunauthorized⟩
    · exact nofun
  exact hsecond.mono fun _ t ht => ⟨ht.posted, ht.bodies⟩

/-- What the confirmation after the POST gives. -/
structure Confirmed (s : Seen N) (id : String) (resident : Bool)
    (result : Except BackendError Unit) (t : Seen N) : Prop where
  keeps : s.Keeps t
  ok : result = .ok () → t.Loaded id (· = resident)
  failed : ∀ modelId message, result = .error (.loadPostconditionFailed modelId message) →
    t.Loaded id fun _ => True

theorem Seen.Loaded.weaken {pinned : Bool → Prop} (h : s.Loaded id pinned) :
    s.Loaded id fun _ => True := by
  obtain ⟨body, hbody, models, entry, hmodels, hentries, hloaded, b, hb, -⟩ := h
  exact ⟨body, hbody, models, entry, hmodels, hentries, hloaded, b, hb, trivial⟩

theorem safe_pin (hposted : s.posted.isSome = true) (hputs : s.puts = []) :
    Safe (watch adapter id N) (Confirmed s id true) (adapter.pin id) s := by
  apply (safe_adminRequest hputs).bind
  intro result t hkeeps
  have hposted' : t.posted.isSome = true := by rw [hkeeps.posted]; exact hposted
  have hverify : Safe (watch adapter id N) (Verifies t id) (adapter.verifyModelState id) t :=
    safe_verifyModelState hposted'
  match result with
  | .error (.unknown err) => exact ⟨hkeeps, nofun, nofun⟩
  | .error (.definite err) =>
    apply hverify.bind
    rintro (verifyErr | state) u ⟨hkeeps', hloaded, -⟩
    · exact ⟨hkeeps.trans hkeeps', nofun, nofun⟩
    · exact ⟨hkeeps.trans hkeeps', nofun, fun _ _ _ => (hloaded state rfl).weaken⟩
  | .ok value =>
    apply hverify.bind
    rintro (err | state) u ⟨hkeeps', hloaded, -⟩
    · exact ⟨hkeeps.trans hkeeps', nofun, nofun⟩
    · have hstate := hloaded state rfl
      cases hpinned : state.pinned with
      | true =>
        simp only [hpinned, if_true]
        exact ⟨hkeeps.trans hkeeps', fun _ => hpinned ▸ hstate, nofun⟩
      | false =>
        simp only [hpinned, Bool.false_eq_true, if_false]
        exact ⟨hkeeps.trans hkeeps', nofun, fun _ _ _ => hstate.weaken⟩

theorem safe_checkNotUnexpectedlyPinned (hposted : s.posted.isSome = true) :
    Safe (watch adapter id N) (Confirmed s id false) (adapter.checkNotUnexpectedlyPinned id) s := by
  apply (safe_verifyModelState hposted).bind
  rintro (err | state) t ⟨hkeeps, hloaded, hfailed⟩
  · refine ⟨hkeeps, nofun, ?_⟩
    rintro modelId message ⟨⟩
    obtain ⟨text, htext⟩ := hfailed _ rfl
    cases htext
  · have hstate := hloaded state rfl
    cases hpinned : state.pinned with
    | true =>
      simp only [hpinned, if_true]
      exact ⟨hkeeps, nofun, fun _ _ _ => hstate.weaken⟩
    | false =>
      simp only [hpinned, Bool.false_eq_true, if_false]
      exact ⟨hkeeps, fun _ => hpinned ▸ hstate, nofun⟩

/-- The POST is over: the engine has accepted, or has rejected, or nothing is known. -/
theorem safe_post : Safe (watch adapter id N) (fun result t => match result with
      | .ok () => t.Accepted ∧ t.puts = s.puts
      | .error err => ∀ policy, Truthful id policy (.error err) t)
    (adapter.sendAndDiscard .post (OmlxAdapter.loadPath id) (some id)) s := by
  apply Safe.bind (Q := fun answer t => t = { s with posted := some answer })
  · apply safe_send
    · exact nofun
    · intro answer
      simp only [Seen.hear, OmlxAdapter.request, if_true]
  · rintro answer t rfl
    cases answer with
    | elapsed => exact fun _ => trivial
    | failed failure => exact fun _ => trivial
    | answered response =>
      by_cases hsuccess : isSuccess response.status = true
      · simp only [checkStatus, hsuccess, if_true]
        have haccepted : Seen.Accepted { s with posted := some (.answered response) } :=
          ⟨response, rfl, hsuccess⟩
        split
        · exact ⟨haccepted, rfl⟩
        · exact ⟨haccepted, rfl⟩
      · simp only [checkStatus, hsuccess, if_false, Bool.false_eq_true]
        split
        · next hrejected =>
          simp only [isClientError, Bool.and_eq_true, decide_eq_true_eq] at hrejected
          exact fun _ => ⟨response, rfl, hrejected.1.1, hrejected.1.2, hrejected.2⟩
        · exact fun _ => trivial

end Rules

/-- Whatever the engine answers, a load's result says no more than was answered, and the setting
is sent at most twice, the second time on a 401. -/
theorem load_truthful (adapter : OmlxAdapter) (id : String) (policy : Option LoadPolicy) :
    Safe (watch adapter id N) (Truthful id policy) (adapter.load id policy) .start := by
  apply safe_post.bind
  rintro (err | ⟨⟩) s hpost
  · exact hpost policy
  · obtain ⟨haccepted, hputs⟩ := hpost
    have hposted : s.posted.isSome = true := by
      obtain ⟨response, hposted, -⟩ := haccepted
      rw [hposted]
      rfl
    apply Safe.bind (Q := Confirmed s id (decide (policy.map LoadPolicy.mode = some .resident)))
    · unfold OmlxAdapter.confirm
      split
      · next hresident =>
        rw [decide_eq_true hresident]
        exact safe_pin hposted hputs
      · next hresident =>
        rw [decide_eq_false hresident]
        exact safe_checkNotUnexpectedlyPinned hposted
    · rintro (err | ⟨⟩) t hconfirmed
      · have haccepted' := haccepted.of_keeps hconfirmed.keeps
        cases err with
        | loadPostconditionFailed modelId message =>
          exact ⟨haccepted', hconfirmed.failed modelId message rfl⟩
        | _ => trivial
      · exact ⟨haccepted.of_keeps hconfirmed.keeps, hconfirmed.ok rfl⟩

end Omlx
