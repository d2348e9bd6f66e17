import TroofAI.History.Exact
import TroofAI.Trust.Honest

/-!
What `verifyResponse` tells whom.

A call that runs alone either refuses the answer and changes nothing, or gives one verdict,
which stands in the participant's row, in the audit log, in the message to the dashboards and in
the reply (`OneVerdict`). `verify_outputs` says when which happens.
-/

namespace TroofAI.Hub

open TroofAI.Await ChallengeService

variable {env : Env} {cfg : HubConfig} {challengeId deviceId signature : String}
  {record : ChallengeRecord}

/-- In the world `w` an answer is not judged: there is no such challenge, it was issued to
another device, or the device has no row. -/
def Unjudged (env : Env) (w : World) (challengeId deviceId : String) : Prop :=
  w.redis.get (env.clock w.steps) (.challenge challengeId) = none ∨
    ∃ record, w.redis.get (env.clock w.steps) (.challenge challengeId) = some record ∧
      (record.deviceId ≠ deviceId ∨ w.devices.find? deviceId = none)

theorem not_unjudged {w : World}
    (hget : w.redis.get (env.clock w.steps) (.challenge challengeId) = some record)
    (hdevice : record.deviceId = deviceId) (hfound : (w.devices.find? deviceId).isSome) :
    ¬ Unjudged env w challengeId deviceId := by
  rintro (hnone | ⟨record', hget', hother | hnone⟩)
  · rw [hget] at hnone
    cases hnone
  · rw [hget] at hget'
    cases hget'
    exact hother hdevice
  · rw [hnone] at hfound
    cases hfound

/-- Between the worlds `w` and `w'` the verdict has been written to the participant of the
challenge `record`, and no other row has changed. -/
structure RowVerdict (w w' : World) (record : ChallengeRecord) (status : TrustStatus)
    (reason : String) : Prop where
  row : ∃ row t, w.participants.find? record.participantId = some row ∧
    w'.participants.find? record.participantId = some
      { row with trustStatus := status, statusReason := some reason, lastChallengeAt := some t }
  others : ∀ p, p ≠ record.participantId → w'.participants.find? p = w.participants.find? p

/-- Between the worlds `w` and `w'` the challenge `record` has been used up by one verdict, and
nothing else has changed. -/
structure OneVerdict (w w' : World) (challengeId : String) (record : ChallengeRecord)
    (status : TrustStatus) (reason : String) : Prop
    extends RowVerdict w w' record status reason where
  redis : w'.redis = w.redis.del (.challenge challengeId)
  audit : ∃ event, w'.audit = w.audit ++ [event] ∧ event.tenantId = record.tenantId ∧
    event.meetingId = some record.meetingId ∧
    event.eventType = (if status = .verified then .challengePassed else .challengeFailed) ∧
    ("status", .str status.text) ∈ event.details ∧ ("reason", .str reason) ∈ event.details
  gateway : w'.gateway =
    w.gateway.emitMeetingUpdate record.meetingId ⟨record.participantId, status, reason⟩
  tenants : w'.tenants = w.tenants
  devices : w'.devices = w.devices
  meetings : w'.meetings = w.meetings

/-- The rows that a live challenge names are there. -/
theorem live_rows (reach : Reachable env cfg) {now : Date}
    (hget : cfg.store.redis.get now (.challenge challengeId) = some record) :
    (cfg.store.participants.find? record.participantId).isSome ∧
      (cfg.store.tenants.find? record.tenantId).isSome ∧
      (cfg.store.meetings.find? record.meetingId).isSome ∧ record.meetingId ≠ "" := by
  obtain ⟨deadline, hentry, -⟩ := Expiring.get_eq_some.mp hget
  obtain ⟨since, s, earlier, ht, hstored⟩ := redis_stored reach hentry
  obtain ⟨ttl, hs, -⟩ := hstored.ev
  obtain ⟨htenant, hmeeting⟩ := issued_rows reach ht hs
  obtain ⟨d, row, hrow, -⟩ := bound_stays reach ht (stored_bound reach ht hs)
  obtain ⟨meeting, hfound⟩ := Option.isSome_iff_exists.mp hmeeting
  obtain ⟨n, hn⟩ := meeting_drawn reach hfound
  refine ⟨?_, htenant, hmeeting, hn ▸ env.uuid_ne_empty n⟩
  rw [hrow]
  rfl

/-- What a judged answer leaves is one verdict. -/
theorem answerStore_oneVerdict {w : World} {device : Device}
    (hrow : (w.participants.find? record.participantId).isSome) (hmeeting : record.meetingId ≠ "") :
    OneVerdict w (answerStore env w challengeId deviceId signature record device) challengeId record
      (answerResult env w record device signature).status
      (answerResult env w record device signature).reason where
  redis := rfl
  row := by
    obtain ⟨row, hrow⟩ := Option.isSome_iff_exists.mp hrow
    refine ⟨row, env.clock (w.steps + 5), hrow, ?_⟩
    simp only [answerStore, Table.find?_modify, ↓reduceIte, hrow]
    rfl
  others := by
    intro p hp
    simp only [answerStore, Table.find?_modify, if_neg hp]
  audit := by
    have hmeetingId : (AuditService.row (verdictLog challengeId deviceId record device
        (responseValid env record device signature)
        (answerResult env w record device signature))).meetingId = some record.meetingId :=
      AuditService.row_meetingId.mpr ⟨rfl, hmeeting⟩
    refine ⟨_, rfl, rfl, hmeetingId, rfl, ?_, ?_⟩
    · simp [AuditCreate.event, AuditService.row, verdictLog]
    · simp [AuditCreate.event, AuditService.row, verdictLog]
  gateway := rfl
  tenants := rfl
  devices := rfl
  meetings := rfl

/-- A verdict leaves its mark. -/
theorem OneVerdict.audit_ne {w w' : World} {status : TrustStatus} {reason : String}
    (h : OneVerdict w w' challengeId record status reason) : w'.audit ≠ w.audit := by
  obtain ⟨event, haudit, -⟩ := h.audit
  rw [haudit]
  simp

/-- An answer that is not judged is refused. -/
theorem unjudged_ends {w : World} {R : VerifyResult → World → Prop} {E : HubError → World → Prop}
    (h : Undisturbed env w) (hunjudged : Unjudged env w challengeId deviceId) :
    ∃ reason n, Prog.Ends (exec env) R E (verifyResponse env challengeId deviceId signature) w ↔
      R ⟨false, .failed, reason⟩ { w with steps := w.steps + n } := by
  rcases hunjudged with hget | ⟨record, hget, hrecord⟩
  · exact ⟨_, 1, verify_absent_ends (h 0) hget⟩
  · by_cases hdevice : record.deviceId = deviceId
    · have hnone := hrecord.resolve_left (not_not.mpr hdevice)
      exact ⟨_, 3, verify_unknown_ends (h 0) (h 2) hget hdevice hnone⟩
    · exact ⟨_, 2, verify_mismatch_ends (h 0) hget hdevice⟩

/-- An answer that is handled alone, while the stores answer, is refused with FAILED and changes
nothing exactly if the challenge is absent, names another device or the device has no row; and
otherwise it gets one verdict, the same in all places. -/
theorem verify_outputs (reach : Reachable env cfg) (h : Undisturbed env cfg.store)
    (challengeId deviceId signature : String) :
    let w := cfg.store
    let w' := aloneStore env (.verifyResponse challengeId deviceId signature) w
    let reply := aloneResult env (.verifyResponse challengeId deviceId signature) w
    (Unjudged env w challengeId deviceId ↔
      (∃ reason, reply = .ok (.verified ⟨false, .failed, reason⟩)) ∧
        w.Untouched w') ∧
    (¬ Unjudged env w challengeId deviceId ↔
      ∃ record valid status reason,
        w.redis.get (env.clock w.steps) (.challenge challengeId) = some record ∧
        reply = .ok (.verified ⟨valid, status, reason⟩) ∧
        OneVerdict w w' challengeId record status reason) := by
  intro w w' reply
  have hexclusive : ∀ {record status reason}, w.Untouched w' →
      ¬ OneVerdict w w' challengeId record status reason :=
    fun hsame hone => hone.audit_ne hsame.audit_eq
  have hrefused : Unjudged env w challengeId deviceId →
      (∃ reason, reply = .ok (.verified ⟨false, .failed, reason⟩)) ∧ w.Untouched w' := by
    intro hunjudged
    refine (alone_ends (P := fun reply w' =>
      (∃ reason, reply = .ok (.verified ⟨false, .failed, reason⟩)) ∧ w.Untouched w') rfl).mpr ?_
    obtain ⟨reason, n, hends⟩ := unjudged_ends h hunjudged
    exact hends.mpr ⟨⟨reason, rfl⟩, World.untouched_of_eq rfl⟩
  have hjudged : ¬ Unjudged env w challengeId deviceId → ∃ record valid status reason,
      w.redis.get (env.clock w.steps) (.challenge challengeId) = some record ∧
      reply = .ok (.verified ⟨valid, status, reason⟩) ∧
      OneVerdict w w' challengeId record status reason := by
    intro hnot
    obtain ⟨hlive, hmatch⟩ := not_or.mp hnot
    obtain ⟨record, hget⟩ := Option.ne_none_iff_exists'.mp hlive
    obtain ⟨hdevice, hfound⟩ := not_or.mp (not_exists.mp hmatch record ⟨hget, ·⟩)
    obtain ⟨device, hfound⟩ := Option.ne_none_iff_exists'.mp hfound
    obtain ⟨hrow, htenant, hmeeting, hne⟩ := live_rows reach hget
    have hanswers : AnswersAlone env w challengeId deviceId record device :=
      ⟨hget, not_not.mp hdevice, hfound, hrow, fun k _ => h k⟩
    refine (alone_ends (P := fun reply w' => ∃ record valid status reason,
      w.redis.get (env.clock w.steps) (.challenge challengeId) = some record ∧
      reply = .ok (.verified ⟨valid, status, reason⟩) ∧
      OneVerdict w w' challengeId record status reason) rfl).mpr ?_
    refine (verify_ends hanswers (h 7) htenant hmeeting).mpr ?_
    exact ⟨record, _, _, _, hget, rfl, answerStore_oneVerdict hrow hne⟩
  refine ⟨⟨hrefused, ?_⟩, ⟨hjudged, ?_⟩⟩
  · rintro ⟨-, hsame⟩
    by_contra hnot
    obtain ⟨_, _, _, _, -, -, hone⟩ := hjudged hnot
    exact hexclusive hsame hone
  · rintro ⟨_, _, _, _, -, -, hone⟩ hrefuse
    exact hexclusive (hrefused hrefuse).2 hone

section Sample

/-- A challenge to alice's device: a forged answer is judged, and one in the name of another
device is refused. -/
theorem verify_outputs_sample : ∃ cfg, Reachable (Sample.env 0 0) cfg ∧
    (∃ record valid status reason,
      cfg.store.redis.get ((Sample.env 0 0).clock cfg.store.steps) (.challenge (Sample.uuid 22)) =
        some record ∧
      aloneResult (Sample.env 0 0) (.verifyResponse (Sample.uuid 22) "laptop-1" "forged")
        cfg.store = .ok (.verified ⟨valid, status, reason⟩) ∧
      OneVerdict cfg.store
        (aloneStore (Sample.env 0 0) (.verifyResponse (Sample.uuid 22) "laptop-1" "forged")
          cfg.store) (Sample.uuid 22) record status reason) ∧
    ∃ reason, aloneResult (Sample.env 0 0)
      (.verifyResponse (Sample.uuid 22) "laptop-2" "forged") cfg.store =
        .ok (.verified ⟨false, .failed, reason⟩) := by
  have hrun := Sample.run_reachable (Sample.env 0 0) (Sample.challenged (Sample.env 0 0))
  have hlive : ((Sample.run (Sample.env 0 0) (Sample.challenged (Sample.env 0 0))).store.redis.get
      ((Sample.env 0 0).clock
        (Sample.run (Sample.env 0 0) (Sample.challenged (Sample.env 0 0))).store.steps)
      (.challenge (Sample.uuid 22))).any (·.deviceId = "laptop-1") = true := by decide +kernel
  have hfound : ((Sample.run (Sample.env 0 0) (Sample.challenged
      (Sample.env 0 0))).store.devices.find? "laptop-1").isSome = true := by decide +kernel
  generalize Sample.run (Sample.env 0 0) (Sample.challenged (Sample.env 0 0)) = cfg
    at hrun hlive hfound
  have hquiet : Undisturbed (Sample.env 0 0) cfg.store := fun _ => rfl
  obtain ⟨record, hget, hdevice⟩ := (Option.any_eq_true _ _).mp hlive
  have hdevice : record.deviceId = "laptop-1" := of_decide_eq_true hdevice
  have hother : record.deviceId ≠ "laptop-2" := by
    rw [hdevice]
    decide
  exact ⟨cfg, hrun,
    (verify_outputs hrun hquiet _ _ "forged").2.mp (not_unjudged hget hdevice hfound),
    ((verify_outputs hrun hquiet _ _ "forged").1.mp (.inr ⟨record, hget, .inl hother⟩)).1⟩

end Sample

end TroofAI.Hub
