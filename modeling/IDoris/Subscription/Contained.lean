import IDoris.Subscription.Relay

/-!
# A relay's answer is truthful and contained

The readers keep the first bytes that the shared counter admits, so they keep everything
when the limit was not exceeded. What the call does after the cleanup finds the group gone.
-/
namespace Subscription

open ProcessGroup Transition

namespace Reader

variable {r : Reader} {limit previous : Nat} {chunk : Bytes}

/-- A reader's bytes are accounted for, and a finished reader has seen the whole pipe. -/
structure Sound (r : Reader) : Prop where
  written : r.written = r.counted ++ r.pending ++ r.unread
  done : r.pc = .done → r.unread = [] ∧ r.closed = true

@[simp] theorem count_counted : (r.count limit previous chunk).counted = r.counted ++ chunk := by
  by_cases h : limit ≤ previous <;> simp [count, h]

@[simp] theorem count_written : (r.count limit previous chunk).written = r.written := by
  by_cases h : limit ≤ previous <;> simp [count, h]

@[simp] theorem count_unread : (r.count limit previous chunk).unread = r.unread := by
  by_cases h : limit ≤ previous <;> simp [count, h]

theorem count_pc : (r.count limit previous chunk).pc =
    if limit < previous + chunk.length ∨ limit ≤ previous then .marking else .reading := by
  by_cases h : limit ≤ previous
  · simp [count, h]
  · have hkeep : min chunk.length (limit - previous) < chunk.length ↔
        limit < previous + chunk.length := by omega
    simp [count, h, hkeep]

theorem count_kept_length : (r.count limit previous chunk).kept.length =
    r.kept.length + min chunk.length (limit - previous) := by
  by_cases h : limit ≤ previous
  · simp [count, h]
  · simp [count, h]

theorem count_kept_whole (h : previous + chunk.length ≤ limit) :
    (r.count limit previous chunk).kept = r.kept ++ chunk := by
  by_cases hfull : limit ≤ previous
  · have hempty : chunk = [] := List.length_eq_zero_iff.mp (by omega)
    simp [count, hfull, hempty]
  · simp only [count, hfull, if_false]
    rw [List.take_of_length_le (by omega)]

theorem Sound.count (h : r.Sound) (hpc : r.pc = .counting chunk) :
    (r.count limit previous chunk).Sound := by
  have hpending : (r.count limit previous chunk).pending = [] := by
    rw [pending, count_pc]
    split_ifs <;> rfl
  constructor
  · have hwritten := h.written
    rw [count_written, count_counted, count_unread, hpending, List.append_nil, hwritten, pending,
      hpc]
  · rw [count_pc]
    split_ifs <;> exact nofun

end Reader

namespace Relay

variable {s t : Relay} {limit : Nat} {e : Event} {out : Output} {r : Reader} {chunk : Bytes}
  {labels : List Event}

section Counting

/-- The readers keep what the counter admits. -/
structure Counted (limit : Nat) (s : Relay) : Prop where
  reader : ∀ out, Reader.Sound (s.readers out)
  total : s.total = (s.readers .stdout).counted.length + (s.readers .stderr).counted.length
  kept : (s.readers .stdout).kept.length + (s.readers .stderr).kept.length = min s.total limit
  whole : s.total ≤ limit → ∀ out, (s.readers out).kept = (s.readers out).counted
  exceeded : limit < s.total → s.exceeded = true ∨ ∃ out, (s.readers out).pc = .marking

theorem counted_start (limit : Nat) : Counted limit start := by
  constructor
  · exact fun _ => ⟨rfl, nofun⟩
  · rfl
  · exact (Nat.zero_min limit).symm
  · exact fun _ _ => rfl
  · intro h
    exact absurd h (Nat.not_lt_zero limit)

/-- Steps that move no counted byte. -/
theorem Counted.of_same (h : Counted limit s) (hreader : ∀ out, Reader.Sound (t.readers out))
    (htotal : t.total = s.total)
    (hcounted : ∀ out, (t.readers out).counted = (s.readers out).counted)
    (hkept : ∀ out, (t.readers out).kept = (s.readers out).kept)
    (hmarking : s.exceeded = true ∨ (∃ out, (s.readers out).pc = .marking) →
      t.exceeded = true ∨ ∃ out, (t.readers out).pc = .marking) : Counted limit t := by
  refine ⟨hreader, ?_, ?_, ?_, ?_⟩
  · simp only [htotal, hcounted, h.total]
  · simp only [htotal, hkept, h.kept]
  · intro hle out
    rw [hkept, hcounted]
    exact h.whole (htotal ▸ hle) out
  · intro hlt
    exact hmarking (h.exceeded (htotal ▸ hlt))

/-- One reader goes on, without a byte counted. -/
theorem Counted.setReader (h : Counted limit s) (hsound : Reader.Sound r)
    (hcounted : r.counted = (s.readers out).counted) (hkept : r.kept = (s.readers out).kept)
    (hmarking : s.exceeded = true ∨ ((s.readers out).pc = .marking → r.pc = .marking)) :
    Counted limit (s.setReader out r) := by
  refine h.of_same (fun out' => ?_) rfl (fun out' => ?_) (fun out' => ?_) ?_
  · by_cases heq : out' = out
    · subst heq
      simpa [Relay.setReader] using hsound
    · simpa [Relay.setReader, heq] using h.reader out'
  · by_cases heq : out' = out
    · subst heq
      simpa [Relay.setReader] using hcounted
    · simp [Relay.setReader, heq]
  · by_cases heq : out' = out
    · subst heq
      simpa [Relay.setReader] using hkept
    · simp [Relay.setReader, heq]
  · rintro (hexceeded | ⟨out', hpc⟩)
    · exact .inl hexceeded
    · obtain hexceeded | hmarking := hmarking
      · exact .inl hexceeded
      · refine .inr ⟨out', ?_⟩
        by_cases heq : out' = out
        · subst heq
          simpa [Relay.setReader] using hmarking hpc
        · simpa [Relay.setReader, heq] using hpc

/-- A chunk is counted, and kept as far as the limit admits. -/
theorem Counted.count (h : Counted limit s) (hpc : (s.readers out).pc = .counting chunk) :
    Counted limit { s.setReader out ((s.readers out).count limit s.total chunk) with
      total := s.total + chunk.length } := by
  obtain ⟨hreader, htotal, hkept, hwhole, -⟩ := h
  refine ⟨fun out' => ?_, ?_, ?_, fun hle out' => ?_, fun hlt => .inr ⟨out, ?_⟩⟩
  · by_cases heq : out' = out
    · subst heq
      simpa [Relay.setReader] using (hreader out').count hpc
    · simpa [Relay.setReader, heq] using hreader out'
  · cases out <;> simp [Relay.setReader, htotal] <;> omega
  · cases out <;> simp [Relay.setReader, Reader.count_kept_length] <;> omega
  · have hle' : s.total + chunk.length ≤ limit := hle
    have hbefore := hwhole (by omega) out'
    by_cases heq : out' = out
    · subst heq
      simpa [Relay.setReader, Reader.count_kept_whole hle'] using hbefore
    · simpa [Relay.setReader, heq] using hbefore
  · have hlt' : limit < s.total + chunk.length := hlt
    simp [Relay.setReader, Reader.count_pc, hlt']

end Counting

section Tasks

theorem task_counted (h : Counted limit s) (hs : s.task limit e = some t) : Counted limit t := by
  cases e with
  | read out n =>
    simp only [task, Option.ite_none_right_eq_some, Option.some.injEq] at hs
    obtain ⟨⟨-, hpc, -⟩, rfl⟩ := hs
    have hsound := h.reader out
    refine h.setReader ⟨?_, nofun⟩ rfl rfl (.inr (by simp [hpc]))
    have hwritten := hsound.written
    simp only [Reader.pending, hpc, List.append_nil] at hwritten
    simp [Reader.pending, hwritten]
  | endOfFile out =>
    simp only [task, Option.ite_none_right_eq_some, Option.some.injEq] at hs
    obtain ⟨⟨-, hpc, hunread, hclosed⟩, rfl⟩ := hs
    refine h.setReader ⟨?_, fun _ => ⟨hunread, hclosed⟩⟩ rfl rfl (.inr (by simp [hpc]))
    simpa [Reader.pending, hpc] using (h.reader out).written
  | readFails out =>
    simp only [task, Option.ite_none_right_eq_some, Option.some.injEq] at hs
    obtain ⟨⟨-, hpc⟩, rfl⟩ := hs
    refine h.setReader ⟨?_, nofun⟩ rfl rfl (.inr (by simp [hpc]))
    simpa [Reader.pending, hpc] using (h.reader out).written
  | count out =>
    cases hpc : (s.readers out).pc <;> simp only [task, hpc, reduceCtorEq, Option.some.injEq] at hs
    subst hs
    exact h.count hpc
  | mark out =>
    simp only [task, Option.ite_none_right_eq_some, Option.some.injEq] at hs
    obtain ⟨hpc, rfl⟩ := hs
    have hmarked : Counted limit { s with exceeded := true } :=
      h.of_same h.reader rfl (fun _ => rfl) (fun _ => rfl) fun _ => .inl rfl
    have hsound : Reader.Sound { s.readers out with pc := .cancelling } := by
      refine ⟨?_, nofun⟩
      simpa [Reader.pending, hpc] using (h.reader out).written
    exact hmarked.setReader hsound rfl rfl (.inl rfl)
  | cancelLimit out =>
    simp only [task, Option.ite_none_right_eq_some, Option.some.injEq] at hs
    obtain ⟨hpc, rfl⟩ := hs
    have hread : Counted limit (s.setReader out { s.readers out with pc := .reading }) := by
      refine h.setReader ⟨?_, nofun⟩ rfl rfl (.inr (by simp [hpc]))
      simpa [Reader.pending, hpc] using (h.reader out).written
    exact hread.of_same hread.reader rfl (fun _ => rfl) (fun _ => rfl) id
  | writerEnds ok =>
    simp only [task, Option.ite_none_right_eq_some, Option.some.injEq] at hs
    obtain ⟨-, rfl⟩ := hs
    exact h.of_same h.reader rfl (fun _ => rfl) (fun _ => rfl) id
  | _ => cases hs

theorem environment_counted (h : Counted limit s) (hs : s.environment e = some t) :
    Counted limit t := by
  cases e with
  | requestCancel =>
    simp only [environment, Option.some.injEq] at hs
    subst hs
    exact h.of_same h.reader rfl (fun _ => rfl) (fun _ => rfl) id
  | write out bytes =>
    simp only [environment, Option.ite_none_right_eq_some, Option.some.injEq] at hs
    obtain ⟨⟨-, hopen⟩, rfl⟩ := hs
    have hsound := h.reader out
    refine h.setReader ⟨?_, fun hdone => ?_⟩ rfl rfl (.inr id)
    · simp [hsound.written, Reader.pending]
    · exact absurd ((hsound.done hdone).2) (by simp [hopen])
  | close out =>
    simp only [environment, Option.ite_none_right_eq_some, Option.some.injEq] at hs
    obtain ⟨-, rfl⟩ := hs
    have hsound := h.reader out
    exact h.setReader ⟨hsound.written, fun hdone => ⟨(hsound.done hdone).1, rfl⟩⟩ rfl rfl (.inr id)
  | writeFile file =>
    simp only [environment, Option.ite_none_right_eq_some, Option.some.injEq] at hs
    obtain ⟨-, rfl⟩ := hs
    exact h.of_same h.reader rfl (fun _ => rfl) (fun _ => rfl) id
  | change c =>
    simp only [environment, Option.map_eq_some_iff] at hs
    obtain ⟨group, -, rfl⟩ := hs
    exact h.of_same h.reader rfl (fun _ => rfl) (fun _ => rfl) id
  | _ => cases hs

end Tasks

section Answer

/-- The trimmed text of a result file that is not blank, or else the trimmed standard output. -/
def Selected (file : ResultFile) (stdout : Bytes) (content : String) : Prop :=
  content ≠ "" ∧
    ((∃ bytes text, file = .regular bytes ∧ Text.decode bytes = some text ∧
        content = Text.trim text) ∨
      (file = .missing ∨ ∃ bytes text, file = .regular bytes ∧ Text.decode bytes = some text ∧
        Text.trim text = "") ∧
        ∃ text, Text.decode stdout = some text ∧ content = Text.trim text)

/-- What an answer with this content says. -/
structure Truthful (limit : Nat) (s : Relay) (content : String) : Prop where
  leader : s.group.leader = .reaped (some 0)
  gone : ¬s.group.Present
  limited : (s.readers .stdout).written.length + (s.readers .stderr).written.length ≤ limit
  selected : Selected s.file (s.readers .stdout).written content

theorem nonEmpty_ok {value content : String} (h : nonEmpty value = .ok content) :
    content ≠ "" ∧ content = Text.trim value := by
  unfold nonEmpty at h
  split at h
  · cases h
  · rename_i hblank
    obtain rfl := Except.ok.inj h
    exact ⟨hblank, rfl⟩

theorem selectOutput_ok {file : ResultFile} {stdout : Bytes} {text content : String}
    {code : Option Int} (hdecode : Text.decode stdout = some text)
    (h : selectOutput file text code = .ok content) :
    code = some 0 ∧ Selected file stdout content := by
  unfold selectOutput at h
  split at h
  · cases h
  · rename_i hcode
    refine ⟨not_not.mp hcode, ?_⟩
    cases file with
    | missing =>
      obtain ⟨hblank, hcontent⟩ := nonEmpty_ok h
      exact ⟨hblank, .inr ⟨.inl rfl, text, hdecode, hcontent⟩⟩
    | unreadable => cases h
    | regular bytes =>
      simp only at h
      split at h
      · cases h
      · cases hfile : Text.decode bytes with
        | none => simp [hfile] at h
        | some fromFile =>
          simp only [hfile] at h
          split at h
          · rename_i hempty
            obtain ⟨hblank, hcontent⟩ := nonEmpty_ok h
            exact ⟨hblank, .inr ⟨.inr ⟨bytes, fromFile, rfl, hfile, hempty⟩, text, hdecode, hcontent⟩⟩
          · rename_i hblank
            obtain rfl := Except.ok.inj h
            exact ⟨hblank, .inl ⟨bytes, fromFile, rfl, hfile, rfl⟩⟩

/-- The group is gone, and its leader was reaped with this code. -/
def Gone (s : Relay) (code : Option Int) : Prop :=
  s.group.leader = .reaped code ∧ ¬s.group.Present

/-- What holds where the call is. -/
def placed (limit : Nat) (s : Relay) : Prop :=
  match s.pc with
  | .creating | .starting => s.removed = false ∧ ¬s.group.Present
  | .selecting | .terminating _ | .termWait _ | .killing _ | .killWait _ | .dropped =>
    s.removed = false
  | .probing ending | .sweepTerm ending | .sweepWait ending | .sweepKill ending
  | .sweepKillWait ending => s.removed = false ∧ s.group.leader = .reaped ending.code
  | .joiningStdin ending => s.removed = false ∧ s.Gone ending.code
  | .draining ending stdout stderr => s.removed = false ∧ s.Gone ending.code ∧
      (stdout = .kept → (s.readers .stdout).pc = .done) ∧
      (stderr = .kept → (s.readers .stderr).pc = .done)
  | .collecting code => s.removed = false ∧ s.Gone code ∧
      (s.readers .stdout).pc = .done ∧ (s.readers .stderr).pc = .done
  | .cleaning result => ¬s.group.Present ∧ s.removed = false ∧
      ∀ content, result = .ok content → Truthful limit s content
  | .returned result => (s.removed = true → ¬s.group.Present) ∧
      ∀ content, result = .ok content → Truthful limit s content

structure Sound (limit : Nat) (s : Relay) : Prop where
  counted : Counted limit s
  placed : s.placed limit

theorem sound_start (limit : Nat) : Sound limit start :=
  ⟨counted_start limit, rfl, by decide⟩

theorem Counted.congr (h : Counted limit s) (hreaders : t.readers = s.readers)
    (htotal : t.total = s.total) (hexceeded : t.exceeded = s.exceeded) : Counted limit t :=
  h.of_same (hreaders ▸ h.reader) htotal (by simp [hreaders]) (by simp [hreaders])
    (by simp [hreaders, hexceeded])

/-- When both readers are finished and the limit was not exceeded, nothing was cut off. -/
theorem Counted.whole_of_done (h : Counted limit s) (hexceeded : s.exceeded = false)
    (hdone : ∀ out, (s.readers out).pc = .done) :
    s.total ≤ limit ∧ ∀ out, (s.readers out).kept = (s.readers out).written ∧
      (s.readers out).counted = (s.readers out).written := by
  have hle : s.total ≤ limit := by
    by_contra hlt
    obtain htrue | ⟨out, hpc⟩ := h.exceeded (by omega)
    · rw [hexceeded] at htrue
      cases htrue
    · rw [hdone out] at hpc
      cases hpc
  refine ⟨hle, fun out => ?_⟩
  have hwritten := (h.reader out).written
  have hunread := ((h.reader out).done (hdone out)).1
  simp only [Reader.pending, hdone out, hunread, List.append_nil] at hwritten
  exact ⟨(h.whole hle out).trans hwritten.symm, hwritten.symm⟩

end Answer

section Call

/-- The end of the call, with an error or a result. -/
theorem sound_finish (h : Counted limit s) {result : Except ErrorCode String}
    (hremoved : s.removed = false)
    (hgone : result ≠ .error .cleanupFailed → ¬s.group.Present)
    (htruth : ∀ content, result = .ok content → Truthful limit s content) :
    Sound limit (s.finish result) := by
  unfold Relay.finish
  split
  · refine ⟨h.congr rfl rfl rfl, ?_, nofun⟩
    intro htrue
    have hfalse : s.removed = true := htrue
    rw [hremoved] at hfalse
    cases hfalse
  · rename_i hresult
    exact ⟨h.congr rfl rfl rfl, hgone hresult, hremoved, fun content hok =>
      let ⟨h₁, h₂, h₃, h₄⟩ := htruth content hok
      ⟨h₁, h₂, h₃, h₄⟩⟩

theorem sound_fail (h : Counted limit s) {code : ErrorCode} (hremoved : s.removed = false)
    (hgone : code ≠ .cleanupFailed → ¬s.group.Present) : Sound limit (s.fail code) :=
  sound_finish h hremoved (fun hne => hgone fun heq => hne (heq ▸ rfl)) nofun

theorem sound_collectOutput (h : Counted limit s) {code : Option Int} (hremoved : s.removed = false)
    (hgone : s.Gone code) (hdone : ∀ out, (s.readers out).pc = .done) :
    Sound limit (s.collectOutput code) := by
  have hfail : ∀ code, Sound limit (s.fail code) :=
    fun code => sound_fail h hremoved fun _ => hgone.2
  unfold Relay.collectOutput
  split
  · exact hfail _
  · rename_i hexceeded
    obtain ⟨hle, hwhole⟩ := h.whole_of_done (by simpa using hexceeded) hdone
    split
    · rename_i stdout stderr hstdout hstderr
      split
      · exact hfail _
      · rename_i hcode
        refine sound_finish h hremoved (fun _ => hgone.2) fun content hok => ?_
        rw [(hwhole .stdout).1] at hstdout
        obtain ⟨hzero, hselected⟩ := selectOutput_ok hstdout hok
        refine ⟨by rw [hgone.1, hzero], hgone.2, ?_, hselected⟩
        rw [← (hwhole .stdout).2, ← (hwhole .stderr).2, ← h.total]
        exact hle
    · exact hfail _

/-- A cleanup that cannot be confirmed leaves the workspace behind. -/
theorem sound_cleanupFailed (h : Counted limit s) (hremoved : s.removed = false) :
    Sound limit (s.fail .cleanupFailed) :=
  sound_fail h hremoved fun hne => absurd rfl hne

theorem sound_awaitLeader (h : Counted limit s) {result : Wait} {reason : Reason}
    {timedOut : Relay} (hremoved : s.removed = false) (htimedOut : Sound limit timedOut)
    (hs : s.awaitLeader result reason timedOut = some t) : Sound limit t := by
  cases result with
  | failed =>
    obtain rfl := Option.some.inj hs
    exact sound_cleanupFailed h hremoved
  | timedOut =>
    obtain rfl := Option.some.inj hs
    exact htimedOut
  | reaped =>
    cases hleader : s.group.leader with
    | exited code =>
      simp only [awaitLeader, hleader, Group.reap, Option.some.injEq] at hs
      subst hs
      exact ⟨h.congr rfl rfl rfl, hremoved, rfl⟩
    | running => simp [awaitLeader, hleader] at hs
    | reaped code => simp [awaitLeader, hleader] at hs

theorem sound_lookFor (h : Counted limit s) {gone : Option Bool} {ending : Ending} {present : Relay}
    (hremoved : s.removed = false) (hleader : s.group.leader = .reaped ending.code)
    (hpresent : Sound limit present) (hs : s.lookFor gone ending present = some t) :
    Sound limit t := by
  cases gone with
  | none =>
    obtain rfl := Option.some.inj hs
    exact sound_cleanupFailed h hremoved
  | some gone =>
    cases gone with
    | false =>
      obtain rfl := Option.some.inj hs
      exact hpresent
    | true =>
      simp only [lookFor, Option.ite_none_left_eq_some, Option.some.injEq] at hs
      obtain ⟨hgone, rfl⟩ := hs
      exact ⟨h.congr rfl rfl rfl, hremoved, hleader, hgone⟩

theorem sound_drained (h : Counted limit s) {ending : Ending} {stdout stderr : Drain}
    (hremoved : s.removed = false) (hgone : s.Gone ending.code)
    (hstdout : stdout = .kept → (s.readers .stdout).pc = .done)
    (hstderr : stderr = .kept → (s.readers .stderr).pc = .done)
    (hs : s.drained ending stdout stderr = some t) : Sound limit t := by
  have hfail : ∀ code, Sound limit (s.fail code) := fun code => sound_fail h hremoved fun _ => hgone.2
  cases hreason : ending.reason.error with
  | some code =>
    cases stdout <;> cases stderr <;>
      simp only [drained, hreason, reduceCtorEq, Option.some.injEq] at hs
    all_goals exact hs ▸ hfail code
  | none =>
    cases stdout <;> cases stderr <;>
      simp only [drained, hreason, reduceCtorEq, Option.some.injEq] at hs
    case kept.kept =>
      subst hs
      exact ⟨h.congr rfl rfl rfl, hremoved, hgone, hstdout rfl, hstderr rfl⟩
    all_goals exact hs ▸ hfail _

/-- A reader that is drained has finished, and the other one is not touched. -/
theorem drainReader_cases {timedOut : Bool} {drain : Drain} (h : Counted limit s)
    (hs : s.drainReader out timedOut = some (t, drain)) :
    Counted limit t ∧ t.removed = s.removed ∧ t.group = s.group ∧
      (drain = .kept → (t.readers out).pc = .done) ∧
      ∀ other, other ≠ out → t.readers other = s.readers other := by
  cases timedOut with
  | false =>
    cases hpc : (s.readers out).pc <;>
      simp only [drainReader, hpc, reduceCtorEq, Option.some.injEq, Prod.mk.injEq] at hs
    all_goals
      obtain ⟨rfl, rfl⟩ := hs
      exact ⟨h, rfl, rfl, by simp [hpc], fun _ _ => rfl⟩
  | true =>
    cases hpc : (s.readers out).pc <;>
      simp only [drainReader, hpc, reduceCtorEq, Option.some.injEq, Prod.mk.injEq] at hs
    obtain ⟨rfl, rfl⟩ := hs
    refine ⟨h.setReader ⟨?_, nofun⟩ rfl rfl (.inr (by simp [hpc])), rfl, rfl, nofun, ?_⟩
    · simpa [Reader.pending, hpc] using (h.reader out).written
    · exact fun other hne => by simp [Relay.setReader, hne]

theorem advance_sound (h : Sound limit s) (hs : s.advance e = some t) : Sound limit t := by
  have hcounted := h.counted
  have hplaced := h.placed
  cases e with
  | create result =>
    cases hpc : s.pc <;> simp only [advance, hpc, reduceCtorEq] at hs
    simp only [Relay.placed, hpc] at hplaced
    cases result with
    | failed =>
      obtain rfl := Option.some.inj hs
      exact sound_cleanupFailed hcounted hplaced.1
    | unnamed =>
      obtain rfl := Option.some.inj hs
      exact ⟨hcounted.congr rfl rfl rfl, fun _ => hplaced.2, nofun⟩
    | made =>
      obtain rfl := Option.some.inj hs
      exact ⟨hcounted.congr rfl rfl rfl, hplaced⟩
  | spawn owned =>
    cases hpc : s.pc <;> simp only [advance, hpc, reduceCtorEq] at hs
    simp only [Relay.placed, hpc] at hplaced
    by_cases hcancel : s.cancel = true
    · simp only [hcancel, if_true, Option.some.injEq] at hs
      subst hs
      exact sound_fail hcounted hplaced.1 fun _ => hplaced.2
    · simp only [hcancel, Bool.false_eq_true, if_false] at hs
      cases owned with
      | none =>
        obtain rfl := Option.some.inj hs
        exact sound_fail hcounted hplaced.1 fun _ => hplaced.2
      | some owned =>
        cases owned with
        | false =>
          obtain rfl := Option.some.inj hs
          exact sound_cleanupFailed (hcounted.congr rfl rfl rfl) hplaced.1
        | true =>
          obtain rfl := Option.some.inj hs
          exact ⟨hcounted.congr rfl rfl rfl, hplaced.1⟩
  | exits ok =>
    cases hpc : s.pc <;> simp only [advance, hpc, reduceCtorEq] at hs
    simp only [Relay.placed, hpc] at hplaced
    exact sound_awaitLeader hcounted hplaced h hs
  | seesCancel =>
    cases hpc : s.pc <;> simp only [advance, hpc, reduceCtorEq] at hs
    simp only [Relay.placed, hpc] at hplaced
    obtain ⟨-, hs⟩ := Option.ite_none_right_eq_some.mp hs
    obtain rfl := Option.some.inj hs
    exact ⟨hcounted.congr rfl rfl rfl, hplaced⟩
  | timesOut =>
    cases hpc : s.pc <;> simp only [advance, hpc, reduceCtorEq] at hs
    simp only [Relay.placed, hpc] at hplaced
    obtain rfl := Option.some.inj hs
    exact ⟨hcounted.congr rfl rfl rfl, hplaced⟩
  | seesLimit =>
    cases hpc : s.pc <;> simp only [advance, hpc, reduceCtorEq] at hs
    simp only [Relay.placed, hpc] at hplaced
    obtain ⟨-, hs⟩ := Option.ite_none_right_eq_some.mp hs
    obtain rfl := Option.some.inj hs
    exact ⟨hcounted.congr rfl rfl rfl, hplaced⟩
  | signal ok =>
    cases hpc : s.pc <;> simp only [advance, hpc, reduceCtorEq, Option.some.injEq] at hs
    case terminating reason =>
      simp only [Relay.placed, hpc] at hplaced
      subst hs
      cases ok with
      | true => exact ⟨hcounted.congr rfl rfl rfl, hplaced⟩
      | false => exact sound_cleanupFailed hcounted hplaced
    case killing reason =>
      simp only [Relay.placed, hpc] at hplaced
      subst hs
      cases ok with
      | true => exact ⟨hcounted.congr rfl rfl rfl, hplaced⟩
      | false => exact sound_cleanupFailed hcounted hplaced
    case sweepTerm ending =>
      simp only [Relay.placed, hpc] at hplaced
      subst hs
      cases ok with
      | true => exact ⟨hcounted.congr rfl rfl rfl, hplaced⟩
      | false => exact sound_cleanupFailed hcounted hplaced.1
    case sweepKill ending =>
      simp only [Relay.placed, hpc] at hplaced
      subst hs
      cases ok with
      | true => exact ⟨hcounted.congr rfl rfl rfl, hplaced⟩
      | false => exact sound_cleanupFailed hcounted hplaced.1
  | wait result =>
    cases hpc : s.pc <;> simp only [advance, hpc, reduceCtorEq] at hs
    case termWait reason =>
      simp only [Relay.placed, hpc] at hplaced
      have hkilling : Sound limit (s.goto (.killing reason)) :=
        ⟨hcounted.congr rfl rfl rfl, hplaced⟩
      exact sound_awaitLeader hcounted hplaced hkilling hs
    case killWait reason =>
      simp only [Relay.placed, hpc] at hplaced
      exact sound_awaitLeader hcounted hplaced (sound_cleanupFailed hcounted hplaced) hs
  | probe gone =>
    cases hpc : s.pc <;> simp only [advance, hpc, reduceCtorEq] at hs
    case probing ending =>
      simp only [Relay.placed, hpc] at hplaced
      have hpresent : Sound limit (s.goto (.sweepTerm ending)) :=
        ⟨hcounted.congr rfl rfl rfl, hplaced⟩
      exact sound_lookFor hcounted hplaced.1 hplaced.2 hpresent hs
    case sweepWait ending =>
      simp only [Relay.placed, hpc] at hplaced
      have hpresent : Sound limit (s.goto (.sweepKill ending)) :=
        ⟨hcounted.congr rfl rfl rfl, hplaced⟩
      exact sound_lookFor hcounted hplaced.1 hplaced.2 hpresent hs
    case sweepKillWait ending =>
      simp only [Relay.placed, hpc] at hplaced
      exact sound_lookFor hcounted hplaced.1 hplaced.2 (sound_cleanupFailed hcounted hplaced.1) hs
  | joinStdin timedOut =>
    cases hpc : s.pc <;> simp only [advance, hpc, reduceCtorEq] at hs
    rename_i ending
    simp only [Relay.placed, hpc] at hplaced
    obtain ⟨hremoved, hgone⟩ := hplaced
    have hdraining : ∀ writer, Sound limit
        { s with writer := writer, pc := .draining ending .pending .pending } :=
      fun _ => ⟨hcounted.congr rfl rfl rfl, hremoved, hgone, nofun, nofun⟩
    by_cases hexited : ending.reason = .exited
    · simp only [hexited, if_true] at hs
      cases timedOut with
      | false =>
        cases hwriter : s.writer <;> simp only [hwriter, reduceCtorEq, Option.some.injEq] at hs
        case done => exact hs ▸ hdraining s.writer
        case failed => exact hs ▸ sound_fail hcounted hremoved fun _ => hgone.2
      | true =>
        cases hwriter : s.writer <;> simp only [hwriter, reduceCtorEq, Option.some.injEq] at hs
        subst hs
        exact sound_cleanupFailed (hcounted.congr rfl rfl rfl) hremoved
    · simp only [hexited, if_false, Option.some.injEq] at hs
      exact hs ▸ hdraining .aborted
  | drain out timedOut =>
    cases hpc : s.pc <;> simp only [advance, hpc, reduceCtorEq] at hs
    rename_i ending stdout stderr
    simp only [Relay.placed, hpc] at hplaced
    obtain ⟨hremoved, hgone, hstdout, hstderr⟩ := hplaced
    cases out with
    | stdout =>
      cases stdout <;> simp only [reduceCtorEq, Option.map_eq_some_iff] at hs
      obtain ⟨⟨after, drain⟩, hdrain, rfl⟩ := hs
      obtain ⟨hafter, hsame, hgroup, hdone, hother⟩ := drainReader_cases hcounted hdrain
      refine ⟨hafter.congr rfl rfl rfl, hsame.trans hremoved, ?_, hdone, fun hkept => ?_⟩
      · simpa only [Gone, Relay.goto, hgroup] using hgone
      · rw [← hstderr hkept, ← hother .stderr nofun]
        rfl
    | stderr =>
      cases stderr <;> simp only [reduceCtorEq, Option.map_eq_some_iff] at hs
      obtain ⟨⟨after, drain⟩, hdrain, rfl⟩ := hs
      obtain ⟨hafter, hsame, hgroup, hdone, hother⟩ := drainReader_cases hcounted hdrain
      refine ⟨hafter.congr rfl rfl rfl, hsame.trans hremoved, ?_, fun hkept => ?_, hdone⟩
      · simpa only [Gone, Relay.goto, hgroup] using hgone
      · rw [← hstdout hkept, ← hother .stdout nofun]
        rfl
  | finishDrains =>
    cases hpc : s.pc <;> simp only [advance, hpc, reduceCtorEq] at hs
    simp only [Relay.placed, hpc] at hplaced
    obtain ⟨hremoved, hgone, hstdout, hstderr⟩ := hplaced
    exact sound_drained hcounted hremoved hgone hstdout hstderr hs
  | collect =>
    cases hpc : s.pc <;> simp only [advance, hpc, reduceCtorEq, Option.some.injEq] at hs
    simp only [Relay.placed, hpc] at hplaced
    obtain ⟨hremoved, hgone, hstdout, hstderr⟩ := hplaced
    subst hs
    exact sound_collectOutput hcounted hremoved hgone fun out => by cases out <;> assumption
  | cleanup ok =>
    cases hpc : s.pc <;> simp only [advance, hpc, reduceCtorEq, Option.some.injEq] at hs
    simp only [Relay.placed, hpc] at hplaced
    obtain ⟨hgone, -, htruth⟩ := hplaced
    subst hs
    refine ⟨hcounted.congr rfl rfl rfl, fun _ => hgone, fun content hok => ?_⟩
    cases ok with
    | false => cases hok
    | true =>
      obtain ⟨hleader, hpresent, hlimited, hselected⟩ := htruth content hok
      exact ⟨hleader, hpresent, hlimited, hselected⟩
  | drop =>
    have hremoved : (∀ result, s.pc ≠ .returned result) → s.removed = false := by
      intro hpc
      cases hplace : s.pc <;> simp_all [Relay.placed]
    cases hpc : s.pc <;> simp only [advance, hpc, reduceCtorEq, Option.some.injEq] at hs
    all_goals
      subst hs
      exact ⟨hcounted.congr rfl rfl rfl, hremoved (by simp [hpc])⟩
  | _ => cases hs

end Call

section Others

/-- What the steps of the tasks leave alone. -/
structure Frame (s t : Relay) : Prop where
  pc : t.pc = s.pc
  group : t.group = s.group
  removed : t.removed = s.removed
  file : t.file = s.file
  written : ∀ out, (t.readers out).written = (s.readers out).written
  done : ∀ out, (s.readers out).pc = .done → (t.readers out).pc = .done

/-- A step of one reader. -/
theorem frame_update (hreaders : t.readers = Function.update s.readers out r)
    (hsame : t.pc = s.pc ∧ t.group = s.group ∧ t.removed = s.removed ∧ t.file = s.file)
    (hwritten : r.written = (s.readers out).written)
    (hdone : (s.readers out).pc = .done → r.pc = .done) : Frame s t := by
  obtain ⟨hpc, hgroup, hremoved, hfile⟩ := hsame
  refine ⟨hpc, hgroup, hremoved, hfile, fun out' => ?_, fun out' hout => ?_⟩
  · by_cases heq : out' = out
    · subst heq
      simpa [hreaders] using hwritten
    · simp [hreaders, heq]
  · by_cases heq : out' = out
    · subst heq
      simpa [hreaders] using hdone hout
    · simpa [hreaders, heq] using hout

theorem task_frame (hs : s.task limit e = some t) : Frame s t := by
  cases e with
  | read out n =>
    simp only [task, Option.ite_none_right_eq_some, Option.some.injEq] at hs
    obtain ⟨⟨-, hpc, -⟩, rfl⟩ := hs
    exact frame_update rfl ⟨rfl, rfl, rfl, rfl⟩ rfl (by simp [hpc])
  | endOfFile out =>
    simp only [task, Option.ite_none_right_eq_some, Option.some.injEq] at hs
    obtain ⟨⟨-, hpc, -⟩, rfl⟩ := hs
    exact frame_update rfl ⟨rfl, rfl, rfl, rfl⟩ rfl (by simp [hpc])
  | readFails out =>
    simp only [task, Option.ite_none_right_eq_some, Option.some.injEq] at hs
    obtain ⟨⟨-, hpc⟩, rfl⟩ := hs
    exact frame_update rfl ⟨rfl, rfl, rfl, rfl⟩ rfl (by simp [hpc])
  | count out =>
    cases hpc : (s.readers out).pc <;> simp only [task, hpc, reduceCtorEq, Option.some.injEq] at hs
    subst hs
    exact frame_update rfl ⟨rfl, rfl, rfl, rfl⟩ Reader.count_written (by simp [hpc])
  | mark out =>
    simp only [task, Option.ite_none_right_eq_some, Option.some.injEq] at hs
    obtain ⟨hpc, rfl⟩ := hs
    exact frame_update rfl ⟨rfl, rfl, rfl, rfl⟩ rfl (by simp [hpc])
  | cancelLimit out =>
    simp only [task, Option.ite_none_right_eq_some, Option.some.injEq] at hs
    obtain ⟨hpc, rfl⟩ := hs
    exact frame_update rfl ⟨rfl, rfl, rfl, rfl⟩ rfl (by simp [hpc])
  | writerEnds ok =>
    simp only [task, Option.ite_none_right_eq_some, Option.some.injEq] at hs
    obtain ⟨-, rfl⟩ := hs
    exact ⟨rfl, rfl, rfl, rfl, fun _ => rfl, fun _ => id⟩
  | _ => cases hs

theorem Truthful.of_frame {content : String} (h : Truthful limit s content) (hframe : Frame s t) :
    Truthful limit t content := by
  obtain ⟨hleader, hgone, hlimited, hselected⟩ := h
  refine ⟨hframe.group ▸ hleader, hframe.group ▸ hgone, ?_, ?_⟩
  · simpa only [hframe.written] using hlimited
  · simpa only [hframe.written, hframe.file] using hselected

theorem placed_of_frame (h : s.placed limit) (hframe : Frame s t) : t.placed limit := by
  have hgone : ∀ code, s.Gone code → t.Gone code := fun code hcode => by
    rwa [Gone, hframe.group]
  rw [placed, hframe.pc]
  cases hpc : s.pc <;> simp only [placed, hpc] at h ⊢
  all_goals simp only [hframe.removed, hframe.group]
  case joiningStdin => exact ⟨h.1, hgone _ h.2⟩
  case draining =>
    exact ⟨h.1, hgone _ h.2.1, fun hkept => hframe.done _ (h.2.2.1 hkept),
      fun hkept => hframe.done _ (h.2.2.2 hkept)⟩
  case collecting =>
    exact ⟨h.1, hgone _ h.2.1, hframe.done _ h.2.2.1, hframe.done _ h.2.2.2⟩
  case cleaning => exact ⟨h.1, h.2.1, fun content hok => (h.2.2 content hok).of_frame hframe⟩
  case returned => exact ⟨h.1, fun content hok => (h.2 content hok).of_frame hframe⟩
  all_goals exact h

/-- While a member of the group is left, the call has concluded nothing from its end. -/
theorem placed_of_present (h : s.placed limit) (hpresent : s.group.Present) (hpc : t.pc = s.pc)
    (hremoved : t.removed = s.removed)
    (hleader : ∀ code, s.group.leader = .reaped code → t.group.leader = .reaped code) :
    t.placed limit := by
  rw [placed, hpc]
  cases hplace : s.pc <;> simp only [placed, hplace, Gone] at h ⊢
  all_goals simp only [hremoved]
  case creating => exact absurd hpresent h.2
  case starting => exact absurd hpresent h.2
  case joiningStdin => exact absurd hpresent h.2.2
  case draining => exact absurd hpresent h.2.1.2
  case collecting => exact absurd hpresent h.2.1.2
  case cleaning => exact absurd hpresent h.1
  case returned =>
    exact ⟨fun htrue => absurd hpresent (h.1 htrue), fun content hok =>
      absurd hpresent (h.2 content hok).gone⟩
  case probing => exact ⟨h.1, hleader _ h.2⟩
  case sweepTerm => exact ⟨h.1, hleader _ h.2⟩
  case sweepWait => exact ⟨h.1, hleader _ h.2⟩
  case sweepKill => exact ⟨h.1, hleader _ h.2⟩
  case sweepKillWait => exact ⟨h.1, hleader _ h.2⟩
  all_goals exact h

theorem environment_placed (h : s.placed limit) (hs : s.environment e = some t) :
    t.placed limit := by
  cases e with
  | requestCancel =>
    obtain rfl := Option.some.inj hs
    exact placed_of_frame h ⟨rfl, rfl, rfl, rfl, fun _ => rfl, fun _ => id⟩
  | write out bytes =>
    simp only [environment, Option.ite_none_right_eq_some, Option.some.injEq] at hs
    obtain ⟨⟨hlive, -⟩, rfl⟩ := hs
    exact placed_of_present h hlive.present rfl rfl fun _ => id
  | close out =>
    simp only [environment, Option.ite_none_right_eq_some, Option.some.injEq] at hs
    obtain ⟨-, rfl⟩ := hs
    exact placed_of_frame h (frame_update rfl ⟨rfl, rfl, rfl, rfl⟩ rfl id)
  | writeFile file =>
    simp only [environment, Option.ite_none_right_eq_some, Option.some.injEq] at hs
    obtain ⟨hlive, rfl⟩ := hs
    exact placed_of_present h hlive.present rfl rfl fun _ => id
  | change c =>
    simp only [environment, Option.map_eq_some_iff] at hs
    obtain ⟨group, hchange, rfl⟩ := hs
    exact placed_of_present h (Group.present_of_change hchange) rfl rfl
      fun _ => Group.leader_of_change hchange
  | _ => cases hs

end Others

theorem Sound.step (h : Sound limit s) (hs : s.step limit e = some t) : Sound limit t := by
  rw [Relay.step, Option.or_eq_some_iff, Option.or_eq_some_iff] at hs
  obtain (hadvance | ⟨-, htask⟩) | ⟨-, henvironment⟩ := hs
  · exact advance_sound h hadvance
  · exact ⟨task_counted h.counted htask, placed_of_frame h.placed (task_frame htask)⟩
  · exact ⟨environment_counted h.counted henvironment, environment_placed h.placed henvironment⟩

theorem sound_of_run (h : (interleaving limit).Run start labels s) : Sound limit s :=
  h.invariant (Sound limit) (fun _ _ _ hsound hstep => hsound.step hstep) (sound_start limit)

/-- Whatever the tool does and however the tasks interleave, an answer with content means that
the tool exited with code 0, left no process and stayed within the limit, and the content
is the selected output; the readers never keep more than the limit; and the workspace is
removed only when the group is gone. -/
theorem relay_truthful_contained (limit : Nat) (labels : List Event) (s : Relay)
    (h : (interleaving limit).Run start labels s) :
    (∀ content, s.pc = .returned (.ok content) → Truthful limit s content) ∧
      (s.readers .stdout).kept.length + (s.readers .stderr).kept.length ≤ limit ∧
      (s.removed = true → ¬s.group.Present) := by
  have hsound := sound_of_run h
  refine ⟨fun content hpc => ?_, ?_, fun hremoved => ?_⟩
  · have hplaced := hsound.placed
    simp only [placed, hpc] at hplaced
    exact hplaced.2 content rfl
  · rw [hsound.counted.kept]
    exact Nat.min_le_right _ _
  · have hplaced := hsound.placed
    cases hpc : s.pc <;> simp only [placed, hpc, hremoved, Bool.true_eq_false, false_and,
      and_false] at hplaced
    exact hplaced.1 trivial

/-- A tool that prints a word and exits. -/
def printed : List Event :=
  [.create .made, .spawn (some true), .write .stdout [0x68, 0x69, 0x0a], .read .stdout 3,
    .count .stdout, .writerEnds true, .change (.leaderExits (some 0)), .close .stdout,
    .close .stderr, .exits true, .probe (some true), .joinStdin false, .endOfFile .stdout,
    .endOfFile .stderr, .drain .stderr false, .drain .stdout false, .finishDrains, .collect,
    .cleanup true]

theorem relay_truthful_contained_printed :
    ∃ s, (interleaving 16).Run start printed s ∧ s.pc = .returned (.ok "hi") ∧
      Truthful 16 s "hi" := by
  obtain ⟨s, hs, hpc⟩ : ∃ s, printed.foldlM (fun s e => s.step 16 e) start = some s ∧
      s.pc = .returned (.ok "hi") := ⟨_, rfl, rfl⟩
  have hrun : (interleaving 16).Run start printed s := System.run_of_foldlM (fun _ _ _ h => h) hs
  exact ⟨s, hrun, hpc, (relay_truthful_contained 16 printed s hrun).1 "hi" hpc⟩

end Relay

end Subscription
