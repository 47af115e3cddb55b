import IDoris.Library.Lockstep
import IDoris.Redact.Restored

/-!
# What the restorer holds

The source keeps as many characters of the normalized text as the longest name has. Beside it
runs a restorer that keeps the whole text since the last placeholder.
-/
namespace Redact.Memory

open Lockstep

section Pushing

variable (r : Redaction) (retain : List Char → List Char)

/-- Chunk after chunk, whether or not a push fails. -/
def pushes (s : StreamRestorer) :
    List (List Char) → List (Except RestoreError (List Char)) × StreamRestorer
  | [] => ([], s)
  | chunk :: rest =>
    let (result, s) := s.push r retain chunk
    let (results, s) := pushes s rest
    (result :: results, s)

end Pushing

section Truncated

variable (r : Redaction) {s w : Scan} {token : Token}

/-- The state that keeps a suffix beside the state that keeps the whole text. -/
structure Tracks (s w : Scan) : Prop where
  token : s.token = w.token
  seen : s.seen = w.seen
  normalized : s.normalized = w.normalized.rtake r.maxName
  held : ∀ token, s.token = some token → byteLength token.spelling < r.limit

/-- Between brackets. -/
structure Idle (s w : Scan) : Prop extends Tracks r s w where
  idle : s.token = none

/-- The same error; the character that completes a name may be one too many. -/
structure Leaves (left whole : RestoreError × Scan) : Prop where
  error : left.1 = whole.1
  seen : left.2.seen = whole.2.seen
  token : left.2.token = none
  normalized : left.2.normalized.length ≤ r.maxName + 1

/-- States that go on together, after the same text. -/
def Goes (results : Scan → Scan → Prop) (a b : Scan × List Char) : Prop :=
  results a.1 b.1 ∧ a.2 = b.2

variable {r}

theorem Tracks.taken (h : Tracks r s w) :
    Idle r { s with token := none } { w with token := none } where
  token := rfl
  seen := h.seen
  normalized := h.normalized
  held := nofun
  idle := rfl

theorem Idle.opened (h : Idle r s w) (htoken : byteLength token.spelling < r.limit) :
    Tracks r { s with token := some token } { w with token := some token } where
  token := rfl
  seen := h.seen
  normalized := h.normalized
  held := by
    rintro _ ⟨⟩
    exact htoken

theorem Idle.leaves (h : Idle r s w) (error : RestoreError) : Leaves r (error, s) (error, w) where
  error := rfl
  seen := h.seen
  token := h.idle
  normalized := by
    rw [h.normalized, length_rtake]
    omega

theorem Goes.idle {a b : Scan × List Char} (h : Goes (Idle r) a b) : Goes (Tracks r) a b :=
  ⟨h.1.toTracks, h.2⟩

/-- The suffix shows the names that the whole text shows. -/
theorem trackFrom_coupled (literal : Bool) (inside : Nat) (cs : List Char) (h : Idle r s w) :
    Coupled (Leaves r) (Idle r) (trackFrom r r.drain literal inside s cs)
      (trackFrom r id literal inside w cs) := by
  induction cs generalizing inside s w with
  | nil => exact .ok h
  | cons c cs ih =>
    simp only [trackFrom]
    refine Coupled.ite ?_ (fun _ => .error ?_) (fun _ => ih _ ?_)
    · simp only [List.any_eq_true, Bool.and_eq_true, List.isSuffixOf_iff_suffix]
      refine exists_congr fun name => and_congr_right fun hname => and_congr_left fun _ => ?_
      rw [h.normalized]
      exact suffix_rtake_concat (length_le_maxName hname) c
    · refine ⟨rfl, h.seen, h.idle, ?_⟩
      rw [List.length_append, h.normalized, length_rtake]
      simp only [List.length_singleton]
      omega
    · refine ⟨⟨h.token, h.seen, ?_, fun token htoken => h.held token htoken⟩, h.idle⟩
      rw [h.normalized]
      exact rtake_rtake_concat _ _ _

theorem plain_coupled (text : List Char) (h : Idle r s w) :
    Coupled (Leaves r) (Goes (Idle r)) (plain r r.drain s text) (plain r id w text) :=
  (trackFrom_coupled false 0 (normalize text) h).bind fun _ _ hnext => .ok ⟨hnext, rfl⟩

theorem close_coupled (token : Token) (h : Idle r s w) :
    Coupled (Leaves r) (Goes (Idle r)) (close r r.drain s token) (close r id w token) := by
  refine Coupled.ite Iff.rfl (fun _ => ?_) (fun _ => ?_)
  · exact (trackFrom_coupled true 0 _ h).bind fun _ _ hnext => .ok ⟨hnext, rfl⟩
  · split
    · refine .ok ⟨⟨⟨h.token, ?_, ?_, h.held⟩, h.idle⟩, rfl⟩
      · simp only [h.seen]
      · exact (List.rtake_nil _).symm
    · refine Coupled.ite Iff.rfl (fun _ => .error (h.leaves _)) (fun _ => plain_coupled _ h)

theorem word_coupled (token : Token) (c : Char) (h : Idle r s w) :
    Coupled (Leaves r) (Goes (Tracks r)) (word r r.drain s token c) (word r id w token c) := by
  refine Coupled.ite Iff.rfl (fun hfits => ?_) (fun _ => ?_)
  · simp only [Bool.and_eq_true, decide_eq_true_eq] at hfits
    refine .ok ⟨h.opened ?_, rfl⟩
    rw [byteLength_concat]
    exact hfits.2
  · have hheld : Coupled (Leaves r) (Goes (Idle r)) (overflow r r.drain s (token.advance c))
        (overflow r id w (token.advance c)) :=
      Coupled.ite Iff.rfl (fun _ => .ok ⟨h, rfl⟩) (fun _ => plain_coupled _ h)
    refine hheld.bind fun a b hab => (plain_coupled [c] hab.1).bind fun a' b' hab' => .ok ⟨?_, ?_⟩
    · exact hab'.1.opened (Nat.lt_of_le_of_lt (Nat.zero_le 1) (one_lt_limit r))
    · simp only [hab.2, hab'.2]

theorem release_coupled (h : Tracks r s w) :
    Coupled (Leaves r) (Goes (Idle r)) (release r r.drain s) (release r id w) := by
  unfold release
  rw [← h.token]
  cases htoken : s.token with
  | none => exact .ok ⟨⟨h, htoken⟩, rfl⟩
  | some token => exact plain_coupled _ h.taken

theorem other_coupled (c : Char) (h : Tracks r s w) :
    Coupled (Leaves r) (Goes (Tracks r)) (other r r.drain s c) (other r id w c) := by
  refine (release_coupled h).bind fun a b hab => Coupled.ite Iff.rfl (fun _ => .ok ⟨?_, ?_⟩) fun _ =>
    (plain_coupled [c] hab.1).bind fun a' b' hab' => .ok ⟨hab'.1.toTracks, ?_⟩
  · exact hab.1.opened (one_lt_limit r)
  · exact hab.2
  · simp only [hab.2, hab'.2]

/-- One character keeps the two scanners in step. -/
theorem step_coupled (c : Char) (h : Tracks r s w) :
    Coupled (Leaves r) (Goes (Tracks r)) (step r r.drain s c) (step r id w c) := by
  unfold step
  rw [← h.token]
  cases htoken : s.token with
  | none => exact other_coupled c h
  | some token =>
    refine Coupled.ite Iff.rfl (fun _ => ?_) fun _ => Coupled.ite Iff.rfl (fun _ => ?_) fun _ => ?_
    · exact (close_coupled token h.taken).mono fun _ _ => Goes.idle
    · exact word_coupled token c h.taken
    · exact other_coupled c h

theorem scan_coupled (cs : List Char) (h : Tracks r s w) :
    Coupled (Leaves r) (Goes (Tracks r)) (scan r r.drain s cs) (scan r id w cs) := by
  induction cs generalizing s w with
  | nil => exact .ok ⟨h, rfl⟩
  | cons c cs ih =>
    refine (step_coupled c h).bind fun a b hab => (ih hab.1).bind fun a' b' hab' => .ok ⟨hab'.1, ?_⟩
    simp only [hab.2, hab'.2]

end Truncated

section Pushes

variable {r : Redaction} {kept whole : StreamRestorer}

/-- The restorer beside one that keeps the whole text since the last placeholder. -/
structure Follows (r : Redaction) (kept whole : StreamRestorer) : Prop where
  failed : kept.failed = whole.failed
  seen : kept.state.seen = whole.state.seen
  running : kept.failed = none → Tracks r kept.state whole.state
  poisoned : kept.failed ≠ none →
    kept.state.token = none ∧ kept.state.normalized.length ≤ r.maxName + 1

theorem push_follows (h : Follows r kept whole) (chunk : List Char) :
    (kept.push r r.drain chunk).1 = (whole.push r id chunk).1 ∧
      Follows r (kept.push r r.drain chunk).2 (whole.push r id chunk).2 := by
  unfold StreamRestorer.push
  rw [← h.failed]
  cases hfailed : kept.failed with
  | some error => exact ⟨rfl, h⟩
  | none =>
    have hscan := scan_coupled chunk (h.running hfailed)
    cases hkept : scan r r.drain kept.state chunk with
    | ok found =>
      obtain ⟨other, hwhole, hgoes, htext⟩ := (hkept ▸ hscan).ok_left
      simp only [hwhole, htext, true_and]
      exact ⟨rfl, hgoes.seen, fun _ => hgoes, fun hne => absurd rfl hne⟩
    | error left =>
      obtain ⟨other, hwhole, hleaves⟩ := (hkept ▸ hscan).error_left
      simp only [hwhole, hleaves.error, true_and]
      exact ⟨rfl, hleaves.seen, nofun, fun _ => ⟨hleaves.token, hleaves.normalized⟩⟩

theorem pushes_follows (chunks : List (List Char)) (h : Follows r kept whole) :
    (pushes r r.drain kept chunks).1 = (pushes r id whole chunks).1 ∧
      Follows r (pushes r r.drain kept chunks).2 (pushes r id whole chunks).2 := by
  induction chunks generalizing kept whole with
  | nil => exact ⟨rfl, h⟩
  | cons chunk rest ih =>
    obtain ⟨hresult, hnext⟩ := push_follows h chunk
    obtain ⟨hresults, hlast⟩ := ih hnext
    exact ⟨by simp only [pushes, hresult, hresults], hlast⟩

theorem stream_follows (r : Redaction) : Follows r r.stream r.stream where
  failed := rfl
  seen := rfl
  running _ := ⟨rfl, rfl, (List.rtake_nil _).symm, nofun⟩
  poisoned h := absurd rfl h

/-- What is held is as long as the limit at most, and the suffix as the longest name. -/
structure Bounded (r : Redaction) (s : StreamRestorer) : Prop where
  held : ∀ token, s.state.token = some token → byteLength token.spelling ≤ r.limit
  normalized : s.state.normalized.length ≤ r.maxName

/-- After any pushes what is held is bounded, up to the character a failed push stopped at, and
everything is as if the whole text since the last placeholder had been kept. -/
theorem stream_bounded (r : Redaction) (chunks : List (List Char)) :
    let kept := pushes r r.drain r.stream chunks
    let whole := pushes r id r.stream chunks
    kept.1 = whole.1 ∧ kept.2.failed = whole.2.failed ∧
      kept.2.state.seen = whole.2.state.seen ∧
      (kept.2.failed = none → Bounded r kept.2 ∧ kept.2.state.token = whole.2.state.token ∧
        ∀ name ∈ r.names, ∀ c, name <:+ kept.2.state.normalized ++ [c] ↔
          name <:+ whole.2.state.normalized ++ [c]) ∧
      (kept.2.failed ≠ none →
        kept.2.state.token = none ∧ kept.2.state.normalized.length ≤ r.maxName + 1) := by
  obtain ⟨hresults, hfollows⟩ := pushes_follows chunks (stream_follows r)
  refine ⟨hresults, hfollows.failed, hfollows.seen, fun hrunning => ?_, hfollows.poisoned⟩
  have htracks := hfollows.running hrunning
  refine ⟨⟨fun token htoken => (htracks.held token htoken).le, ?_⟩, htracks.token,
    fun name hname c => ?_⟩
  · rw [htracks.normalized, length_rtake]
    exact Nat.min_le_left _ _
  · rw [htracks.normalized]
    exact suffix_rtake_concat (length_le_maxName hname) c

/-- A placeholder's name without its brackets, after another letter. -/
theorem suffix_overruns : Yields (redact "13812345678"
    ⟨.s2, [⟨.cnMobile, some ⟨0, 11⟩⟩], .redact⟩ ⟨.any, true, true, Inspect.defaultMaxInputUtf16⟩)
      mobileRedaction ∧
    ¬Bounded mobileRedaction
      (pushes mobileRedaction mobileRedaction.drain mobileRedaction.stream
        ["XCNMOBILE1".toList]).2 := by
  refine ⟨yields_mobile, fun h => absurd h.normalized ?_⟩
  decide +kernel

end Pushes

end Redact.Memory
