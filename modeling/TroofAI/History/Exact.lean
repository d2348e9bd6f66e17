import TroofAI.Base.Triple
import TroofAI.History.Alone

/-!
What a call that runs alone leaves behind, exactly.

`exec_accepted` gives the answer and the world after an operation that is not rejected, and
`ends_call` goes on from there. So where it is known which store calls are rejected, a
postcondition holds of a service exactly if it holds of one result and one world. The services
are taken apart at their branches: `enroll_written_ends` and `tenantLog_ends`,
`bind_accepted_ends` and `logBind_ends`, the two turns of `issueOne`, `verify_ends` and the
early exits before it.
-/

namespace TroofAI.Hub

open TroofAI.Await MeetingService ChallengeService

/-- From the world `w` on no store call is rejected. -/
def Undisturbed (env : Env) (w : World) : Prop := ∀ k, env.rejects (w.steps + k) = false

variable {env : Env} {w w' : World} {α : Type} {R : α → World → Prop} {E : HubError → World → Prop}

theorem Undisturbed.later {k : Nat} (h : Undisturbed env w) (hsteps : w'.steps = w.steps + k) :
    Undisturbed env w' := by
  intro j
  rw [hsteps, Nat.add_assoc]
  exact h (k + j)

/-- The two worlds differ in nothing but the number of steps. -/
def World.Untouched (w w' : World) : Prop := w' = { w with steps := w'.steps }

theorem World.untouched_of_eq {n : Nat} (h : w' = { w with steps := n }) : w.Untouched w' := by
  subst h
  rfl

theorem World.Untouched.audit_eq (h : w.Untouched w') : w'.audit = w.audit := by
  unfold World.Untouched at h
  exact (congrArg World.audit h).trans rfl

/-! ### One operation -/

/-- An operation that is not rejected, then the rest. -/
theorem ends_call {op : Op} {f : op.Resp → Service α} {a : op.Resp}
    (hacc : op.awaited = false ∨ env.rejects w.steps = false)
    (heff : effect env w op = (.ok a, w')) :
    Prog.Ends (exec env) R E (call op >>= f) w ↔ Prog.Ends (exec env) R E (f a) w'.tick := by
  apply Prog.ends_ok_bind
  rw [exec_accepted hacc, heff]

/-- An operation that is rejected. -/
theorem ends_rejected {op : Op} {f : op.Resp → Service α} (hop : op.awaited = true)
    (h : env.rejects w.steps = true) :
    Prog.Ends (exec env) R E (call op >>= f) w ↔ E .rejected w.tick := by
  apply Prog.ends_error_bind
  unfold exec
  simp [hop, h]

/-- An operation at the end, whatever it answers. -/
theorem ends_last_call (op : Op) {K : World → Prop} (h : K (exec env op w).2) :
    Prog.Ends (exec env) (fun _ => K) (fun _ => K) (call op) w :=
  Prog.ends_perform.mpr ⟨fun _ _ => h, fun _ _ => h⟩

/-- What holds of the end of a service holds of the reply and the world that its call leaves. -/
theorem alone_ends {c : Call} {p : Service α} {f : α → Reply}
    {P : Except HubError Reply → World → Prop}
    (hbody : c.body env = p >>= fun a => pure (f a)) :
    P (aloneResult env c w) (aloneStore env c w) ↔
      Prog.Ends (exec env) (fun a => P (.ok (f a))) (fun e => P (.error e)) p w := by
  unfold aloneResult aloneStore
  rw [hbody]
  exact (Prog.ends_result (P := P)).symm.trans Prog.ends_map

/-! ### enroll -/

section Enroll

open DeviceService

variable {dto : EnrollDeviceDto} {input : AuditLogInput} {a : α}

/-- An event of no meeting is logged as the last thing. -/
theorem tenantLog_ends (hmeeting : input.meetingId = none) (h : env.rejects w.steps = false)
    (htenant : (w.tenants.find? input.tenantId).isSome) :
    Prog.Ends (exec env) R E (AuditService.log input >>= fun _ => pure a) w ↔
      R a { w with
        steps := w.steps + 1
        audit := w.audit ++ [(AuditService.row input).event env w.steps] } := by
  refine .trans (ends_call (.inr h) (effect_auditCreate htenant ?_)) Iff.rfl
  intro m hm
  rw [(AuditService.row_meetingId.mp hm).1] at hmeeting
  cases hmeeting

/-- Or it cannot be. -/
theorem tenantLog_failed_ends
    (h : ¬ (env.rejects w.steps = false ∧ (w.tenants.find? input.tenantId).isSome)) :
    ∃ e, Prog.Ends (exec env) R E (AuditService.log input >>= fun _ => pure a) w ↔
      E e { w with steps := w.steps + 1 } := by
  cases hrejects : env.rejects w.steps with
  | true => exact ⟨.rejected, ends_rejected rfl hrejects⟩
  | false =>
    refine ⟨.foreignKey, Prog.ends_error_bind ?_⟩
    have htenant : (w.tenants.find? input.tenantId).isNone = true := by
      simpa [hrejects] using h
    simp [exec, hrejects, effect, World.createAudit, AuditService.row, htenant, World.tick]

/-- An enrolment gets as far as writing the device. -/
structure EnrollWrites (env : Env) (w : World) (dto : EnrollDeviceDto) : Prop where
  found : env.rejects w.steps = false
  written : env.rejects (w.steps + 2) = false
  tenant : w.devices.find? dto.deviceId = none → (w.tenants.find? dto.tenantId).isSome

/-- The row it writes over `existing`. -/
def enrolledRow (env : Env) (w : World) (dto : EnrollDeviceDto) : Option Device → Device
  | some row => (reEnrollData dto (env.clock (w.steps + 1))).apply row
  | none => (enrollData dto (env.clock (w.steps + 1))).row (env.clock (w.steps + 2))

/-- The event it logs then. -/
def enrolledLog (dto : EnrollDeviceDto) : Option Device → AuditLogInput
  | some _ => reEnrollLog dto
  | none => enrollLog dto

theorem enroll_stopped_ends {R : Device → World → Prop} (h : ¬ EnrollWrites env w dto) :
    ∃ e n, Prog.Ends (exec env) R E (enroll dto) w ↔ E e { w with steps := w.steps + n } := by
  unfold enroll
  cases hfound : env.rejects w.steps with
  | true => exact ⟨.rejected, 1, ends_rejected rfl hfound⟩
  | false =>
    rw [ends_call (.inr hfound) rfl]
    cases hwritten : env.rejects (w.steps + 2) with
    | true =>
      cases hrow : w.devices.find? dto.deviceId with
      | some row =>
        simp only
        rw [ends_call (.inl rfl) rfl]
        exact ⟨.rejected, 3, ends_rejected rfl hwritten⟩
      | none =>
        simp only
        rw [ends_call (.inl rfl) rfl]
        exact ⟨.rejected, 3, ends_rejected rfl hwritten⟩
    | false =>
      have hnone : w.devices.find? dto.deviceId = none ∧
          (w.tenants.find? dto.tenantId).isNone = true := by
        by_contra hsome
        refine h ⟨hfound, hwritten, fun hnone => ?_⟩
        rw [Option.isSome_iff_ne_none]
        exact fun htenant => hsome ⟨hnone, Option.isNone_iff_eq_none.mpr htenant⟩
      simp only [hnone.1]
      rw [ends_call (.inl rfl) rfl]
      refine ⟨.foreignKey, 3, Prog.ends_error_bind ?_⟩
      simp [exec, World.tick, hwritten, effect, World.createDevice, DeviceCreate.row, enrollData,
        hnone.2]

/-- Once the device is written, what is left to do is to log it. -/
theorem enroll_written_ends {R : Device → World → Prop} (h : EnrollWrites env w dto) :
    let existing := w.devices.find? dto.deviceId
    ∃ devices : Table Device.id,
      (∀ id, devices.find? id =
        if id = dto.deviceId then some (enrolledRow env w dto existing) else w.devices.find? id) ∧
      (existing = some (enrolledRow env w dto existing) → devices = w.devices) ∧
      (Prog.Ends (exec env) R E (enroll dto) w ↔
        Prog.Ends (exec env) R E
          (AuditService.log (enrolledLog dto existing) >>= fun _ =>
            pure (enrolledRow env w dto existing))
          { w with steps := w.steps + 3, devices }) := by
  unfold enroll
  rw [ends_call (.inr h.found) rfl]
  cases hrow : w.devices.find? dto.deviceId with
  | some row =>
    simp only
    rw [ends_call (.inl rfl) rfl]
    have heff := @effect_deviceUpdate env { w with steps := w.steps + 2 } dto.deviceId
      (reEnrollData dto (env.clock (w.steps + 1))) row hrow
    refine ⟨_, fun id => ?_, fun hsame => ?_, (ends_call (.inr h.written) heff).trans Iff.rfl⟩
    · rw [Table.find?_modify]
      split
      · next hid =>
        rw [hid, hrow]
        rfl
      · rfl
    · have hkept : ∀ r, w.devices.find? dto.deviceId = some r →
          (reEnrollData dto (env.clock (w.steps + 1))).apply r = r := by
        intro r hr
        rw [hrow] at hr
        cases hr
        exact (Option.some.inj hsame).symm
      exact Table.modify_self (DeviceUpdate.apply_id _) hkept
  | none =>
    simp only
    rw [ends_call (.inl rfl) rfl]
    obtain ⟨devices, hinsert, heff⟩ := @effect_deviceCreate env { w with steps := w.steps + 2 }
      (enrollData dto (env.clock (w.steps + 1))) hrow (h.tenant hrow)
    refine ⟨devices, fun id => ?_, fun hsame => ?_,
      (ends_call (.inr h.written) heff).trans Iff.rfl⟩
    · rw [Table.find?_insert? hinsert]
      exact if_congr eq_comm rfl rfl
    · cases hsame

end Enroll

/-! ### bindDevice -/

section Bind

variable {meetingId joinToken deviceId signature : String} {parsed : JoinToken} {device : Device}
  {row : Participant} {R : Participant → World → Prop}

/-- A bind that is refused changes nothing. -/
theorem bind_refused_ends (h : env.rejects w.steps = false) (h₁ : env.rejects (w.steps + 1) = false)
    (hrefused : ∀ parsed device,
      w.redis.get (env.clock w.steps) (.joinToken joinToken) = some parsed →
      parsed.meetingId = meetingId → w.devices.find? deviceId = some device →
      bindValid env meetingId joinToken deviceId signature parsed device = false) :
    ∃ e n, Prog.Ends (exec env) R E (bindDevice env meetingId joinToken deviceId signature) w ↔
      E (.badRequest e) { w with steps := w.steps + n } := by
  unfold bindDevice
  rw [ends_call (.inr h) rfl]
  cases hget : w.redis.get (env.clock w.steps) (.joinToken joinToken) with
  | none => exact ⟨_, 1, Iff.rfl⟩
  | some parsed =>
    by_cases hmeeting : parsed.meetingId = meetingId
    · simp only [hmeeting, ne_eq, not_true_eq_false, ↓reduceIte]
      rw [ends_call (.inr h₁) rfl]
      cases hfound : w.devices.find? deviceId with
      | none =>
        simp only [World.tick, hfound]
        exact ⟨_, 2, Iff.rfl⟩
      | some device =>
        simp only [World.tick, hfound, hrefused parsed device hget hmeeting hfound, ↓reduceIte]
        exact ⟨_, 2, Iff.rfl⟩
    · simp only [ne_eq, hmeeting, not_false_eq_true, ↓reduceIte]
      exact ⟨_, 1, Iff.rfl⟩

/-- The world in which an accepted bind looks up its meeting: the token is deleted and the
participant's row written. -/
def bindStore (env : Env) (w : World) (joinToken deviceId : String) (parsed : JoinToken)
    (device : Device) : World :=
  let data := bindData deviceId device (env.clock (w.steps + 3))
  { w with
    steps := w.steps + 5
    redis := w.redis.del (.joinToken joinToken)
    participants := w.participants.modify parsed.participantId data.apply data.apply_id }

/-- What is left to do then. -/
def logBind (meetingId deviceId : String) (parsed : JoinToken) (device : Device)
    (participant : Participant) : Service Participant := do
  let meeting? ← call (.meetingFindUnique meetingId)
  match meeting? with
  | none => Prog.throw .typeError
  | some meeting =>
      let _ ← AuditService.log (boundLog meeting meetingId deviceId parsed device)
      return participant

theorem bind_accepted_ends
    (h : BindsAlone env w meetingId joinToken deviceId signature parsed device)
    (hrow : w.participants.find? parsed.participantId = some row) :
    Prog.Ends (exec env) R E (bindDevice env meetingId joinToken deviceId signature) w ↔
      Prog.Ends (exec env) R E (logBind meetingId deviceId parsed device
          ((bindData deviceId device (env.clock (w.steps + 3))).apply row))
        (bindStore env w joinToken deviceId parsed device) := by
  unfold bindDevice
  rw [ends_call (.inr (h.accepted 0 (by simp))) rfl]
  simp only [h.live, h.meeting, ne_eq, not_true_eq_false, ↓reduceIte]
  rw [ends_call (.inr (h.accepted 1 (by simp))) rfl]
  simp only [World.tick, h.found, h.valid, Bool.true_eq_false, ↓reduceIte]
  rw [ends_call (.inr (h.accepted 2 (by simp))) rfl, ends_call (.inl rfl) rfl]
  dsimp only
  refine .trans (ends_call (.inr (h.accepted 4 (by simp))) (effect_participantUpdate hrow ?_)) ?_
  · rintro d ⟨⟩
    show (w.devices.find? deviceId).isSome = true
    rw [h.found]
    rfl
  exact Iff.rfl

/-- The meeting of the token does not exist. -/
theorem logBind_missing_ends {participant : Participant} (h : env.rejects w.steps = false)
    (hmeeting : w.meetings.find? meetingId = none) :
    Prog.Ends (exec env) R E (logBind meetingId deviceId parsed device participant) w ↔
      E .typeError { w with steps := w.steps + 1 } := by
  unfold logBind
  rw [ends_call (.inr h) rfl]
  simp only [hmeeting]
  exact Iff.rfl

/-- It exists, in a tenant that exists. -/
theorem logBind_ends {participant : Participant} {meeting : Meeting}
    (h : env.rejects w.steps = false) (h₁ : env.rejects (w.steps + 1) = false)
    (hmeeting : w.meetings.find? meetingId = some meeting)
    (htenant : (w.tenants.find? meeting.tenantId).isSome) :
    Prog.Ends (exec env) R E (logBind meetingId deviceId parsed device participant) w ↔
      R participant { w with
        steps := w.steps + 2
        audit := w.audit ++ [(AuditService.row
          (boundLog meeting meetingId deviceId parsed device)).event env (w.steps + 1)] } := by
  unfold logBind AuditService.log
  rw [ends_call (.inr h) rfl]
  simp only [World.tick, hmeeting]
  refine .trans (ends_call (.inr h₁) (effect_auditCreate htenant ?_)) Iff.rfl
  intro m hm
  cases (AuditService.row_meetingId.mp hm).1
  show (w.meetings.find? meetingId).isSome = true
  rw [hmeeting]
  rfl

end Bind

/-! ### issueChallenge -/

section Issue

variable {meeting : Meeting} {meetingId deviceId : String} {row : Participant × Option Device}
  {R : IssueResult → World → Prop}

/-- The world after the turn of a participant without a device. -/
def noDeviceStore (env : Env) (w : World) (meeting : Meeting) (meetingId : String)
    (participant : Participant) : World :=
  let data := noDeviceData (env.clock w.steps)
  { w with
    steps := w.steps + 4
    participants := w.participants.modify participant.id data.apply data.apply_id
    audit := w.audit ++ [(AuditService.row
      (noDeviceLog meeting meetingId participant)).event env (w.steps + 2)]
    gateway := w.gateway.emitMeetingUpdate meetingId
      ⟨participant.id, .failed, "No device binding — cannot verify"⟩ }

theorem issueOne_noDevice_ends (h : Undisturbed env w)
    (htenant : (w.tenants.find? meeting.tenantId).isSome)
    (hmeeting : (w.meetings.find? meetingId).isSome)
    (hrow : w.participants.find? row.1.id = some row.1) (hbound : boundDevice row = none) :
    Prog.Ends (exec env) R E (issueOne meeting meetingId row) w ↔
      R (.failed row.1.id row.1.displayName "No device binding")
        (noDeviceStore env w meeting meetingId row.1) := by
  unfold issueOne AuditService.log
  simp only [hbound]
  rw [ends_call (.inl rfl) rfl]
  refine .trans (ends_call (.inr (h 1)) (effect_participantUpdate hrow ?_)) ?_
  · rintro d ⟨⟩
  refine .trans (ends_call (.inr (h 2)) (effect_auditCreate htenant ?_)) ?_
  · intro m hm
    cases (AuditService.row_meetingId.mp hm).1
    exact hmeeting
  exact .trans (ends_call (.inl rfl) rfl) Iff.rfl

/-- The record of the challenge that a turn draws in the world `w`. -/
def drawnChallenge (env : Env) (w : World) (meeting : Meeting) (meetingId : String)
    (participant : Participant) (deviceId : String) : ChallengeRecord :=
  challengeRecord meeting meetingId participant deviceId (env.uuid w.steps)
    (env.nonce (w.steps + 1)) (env.clock (w.steps + 2)) (env.clock (w.steps + 3))

/-- The world after the turn of a participant with a device. -/
def challengedStore (env : Env) (w : World) (meeting : Meeting) (meetingId : String)
    (participant : Participant) (deviceId : String) : World :=
  let record := drawnChallenge env w meeting meetingId participant deviceId
  { w with
    steps := w.steps + 7
    redis := w.redis.set (.challenge record.challengeId) record
      (env.clock (w.steps + 4) + 15 * 1000)
    audit := w.audit ++ [(AuditService.row
      (issuedLog meeting meetingId participant deviceId record.challengeId)).event env
        (w.steps + 6)]
    gateway := w.gateway.emitChallengeToDevice deviceId record.toChallengePayload }

theorem issueOne_challenged_ends (h : Undisturbed env w)
    (htenant : (w.tenants.find? meeting.tenantId).isSome)
    (hmeeting : (w.meetings.find? meetingId).isSome) (hbound : boundDevice row = some deviceId) :
    Prog.Ends (exec env) R E (issueOne meeting meetingId row) w ↔
      R (.challengeSent row.1.id row.1.displayName (env.uuid w.steps))
        (challengedStore env w meeting meetingId row.1 deviceId) := by
  unfold issueOne AuditService.log
  simp only [hbound]
  rw [ends_call (.inl rfl) rfl, ends_call (.inl rfl) rfl, ends_call (.inl rfl) rfl,
    ends_call (.inl rfl) rfl, ends_call (.inr (h 4)) rfl, ends_call (.inl rfl) rfl]
  refine .trans (ends_call (.inr (h 6)) (effect_auditCreate htenant ?_)) Iff.rfl
  intro m hm
  cases (AuditService.row_meetingId.mp hm).1
  exact hmeeting

end Issue

/-! ### verifyResponse -/

section Verify

variable {challengeId deviceId signature : String} {challenge : ChallengeRecord} {device : Device}
  {R : VerifyResult → World → Prop}

/-- The challenge is gone. -/
theorem verify_absent_ends (h : env.rejects w.steps = false)
    (hget : w.redis.get (env.clock w.steps) (.challenge challengeId) = none) :
    Prog.Ends (exec env) R E (verifyResponse env challengeId deviceId signature) w ↔
      R ⟨false, .failed, "Challenge expired or not found"⟩ { w with steps := w.steps + 1 } := by
  unfold verifyResponse
  rw [ends_call (.inr h) rfl]
  simp only [hget]
  exact Iff.rfl

/-- It was issued to another device. -/
theorem verify_mismatch_ends (h : env.rejects w.steps = false)
    (hget : w.redis.get (env.clock w.steps) (.challenge challengeId) = some challenge)
    (hdevice : challenge.deviceId ≠ deviceId) :
    Prog.Ends (exec env) R E (verifyResponse env challengeId deviceId signature) w ↔
      R ⟨false, .failed, "Device ID mismatch"⟩ { w with steps := w.steps + 2 } := by
  unfold verifyResponse
  rw [ends_call (.inr h) rfl]
  simp only [hget]
  rw [ends_call (.inl rfl) rfl]
  simp only [ne_eq, hdevice, not_false_eq_true, ↓reduceIte]
  exact Iff.rfl

/-- Or the device could not be looked up. -/
theorem verify_find_rejected_ends (h : env.rejects w.steps = false)
    (hget : w.redis.get (env.clock w.steps) (.challenge challengeId) = some challenge)
    (hdevice : challenge.deviceId = deviceId) (h₂ : env.rejects (w.steps + 2) = true) :
    Prog.Ends (exec env) R E (verifyResponse env challengeId deviceId signature) w ↔
      E .rejected { w with steps := w.steps + 3 } := by
  unfold verifyResponse DeviceService.findById
  rw [ends_call (.inr h) rfl]
  simp only [hget]
  rw [ends_call (.inl rfl) rfl]
  simp only [hdevice, ne_eq, not_true_eq_false, ↓reduceIte]
  exact ends_rejected rfl h₂

/-- Or the challenge could not be deleted. -/
theorem verify_del_rejected_ends (h : env.rejects w.steps = false)
    (h₂ : env.rejects (w.steps + 2) = false)
    (hget : w.redis.get (env.clock w.steps) (.challenge challengeId) = some challenge)
    (hdevice : challenge.deviceId = deviceId) (hfound : w.devices.find? deviceId = some device)
    (h₃ : env.rejects (w.steps + 3) = true) :
    Prog.Ends (exec env) R E (verifyResponse env challengeId deviceId signature) w ↔
      E .rejected { w with steps := w.steps + 4 } := by
  unfold verifyResponse DeviceService.findById
  rw [ends_call (.inr h) rfl]
  simp only [hget]
  rw [ends_call (.inl rfl) rfl]
  simp only [hdevice, ne_eq, not_true_eq_false, ↓reduceIte]
  rw [ends_call (.inr h₂) rfl]
  simp only [World.tick, hfound]
  exact ends_rejected rfl h₃

/-- The device has no row. -/
theorem verify_unknown_ends (h : env.rejects w.steps = false)
    (h₂ : env.rejects (w.steps + 2) = false)
    (hget : w.redis.get (env.clock w.steps) (.challenge challengeId) = some challenge)
    (hdevice : challenge.deviceId = deviceId) (hfind : w.devices.find? deviceId = none) :
    Prog.Ends (exec env) R E (verifyResponse env challengeId deviceId signature) w ↔
      R ⟨false, .failed, "Device not found"⟩ { w with steps := w.steps + 3 } := by
  unfold verifyResponse DeviceService.findById
  rw [ends_call (.inr h) rfl]
  simp only [hget]
  rw [ends_call (.inl rfl) rfl]
  simp only [hdevice, ne_eq, not_true_eq_false, ↓reduceIte]
  rw [ends_call (.inr h₂) rfl]
  simp only [World.tick, hfind]
  exact Iff.rfl

/-- The world a judged answer leaves: the challenge deleted, the verdict in the participant's
row, in the audit log and emitted. -/
def answerStore (env : Env) (w : World) (challengeId deviceId signature : String)
    (challenge : ChallengeRecord) (device : Device) : World :=
  let result := answerResult env w challenge device signature
  let data := verdictData result (env.clock (w.steps + 5))
  let log := verdictLog challengeId deviceId challenge device
    (responseValid env challenge device signature) result
  { w with
    steps := w.steps + 9
    redis := w.redis.del (.challenge challengeId)
    participants := w.participants.modify challenge.participantId data.apply data.apply_id
    audit := w.audit ++ [(AuditService.row log).event env (w.steps + 7)]
    gateway := w.gateway.emitMeetingUpdate challenge.meetingId
      ⟨challenge.participantId, result.status, result.reason⟩ }

/-- What is left to do once the challenge is deleted and the answer judged: the verdict is
written, logged and emitted. -/
def recordVerdict (challengeId deviceId : String) (challenge : ChallengeRecord) (device : Device)
    (isValid : Bool) (result : PolicyResult) (now : Date) : Service VerifyResult := do
  let _ ← call (.participantUpdate challenge.participantId (verdictData result now))
  let _ ← AuditService.log (verdictLog challengeId deviceId challenge device isValid result)
  call (verdictEmit challenge result)
  return ⟨isValid, result.status, result.reason⟩

/-- Otherwise the answer is judged. -/
theorem verify_judged_ends
    (hget : w.redis.get (env.clock w.steps) (.challenge challengeId) = some challenge)
    (hdevice : challenge.deviceId = deviceId) (hfound : w.devices.find? deviceId = some device)
    (hacc : ∀ k ∈ [0, 2, 3], env.rejects (w.steps + k) = false) :
    Prog.Ends (exec env) R E (verifyResponse env challengeId deviceId signature) w ↔
      Prog.Ends (exec env) R E (recordVerdict challengeId deviceId challenge device
          (responseValid env challenge device signature)
          (answerResult env w challenge device signature) (env.clock (w.steps + 5)))
        { w with steps := w.steps + 6, redis := w.redis.del (.challenge challengeId) } := by
  unfold verifyResponse DeviceService.findById
  rw [ends_call (.inr (hacc 0 (by simp))) rfl]
  simp only [hget]
  rw [ends_call (.inl rfl) rfl]
  simp only [hdevice, ne_eq, not_true_eq_false, ↓reduceIte]
  rw [ends_call (.inr (hacc 2 (by simp))) rfl]
  simp only [World.tick, hfound]
  rw [ends_call (.inr (hacc 3 (by simp))) rfl, ends_call (.inl rfl) rfl]
  dsimp only
  rw [ends_call (.inl rfl) rfl]
  exact Iff.rfl

/-- And recorded, where the stores answer to the end. -/
theorem verify_ends (h : AnswersAlone env w challengeId deviceId challenge device)
    (hlog : env.rejects (w.steps + 7) = false)
    (htenant : (w.tenants.find? challenge.tenantId).isSome)
    (hmeeting : (w.meetings.find? challenge.meetingId).isSome) :
    Prog.Ends (exec env) R E (verifyResponse env challengeId deviceId signature) w ↔
      R ⟨responseValid env challenge device signature,
          (answerResult env w challenge device signature).status,
          (answerResult env w challenge device signature).reason⟩
        (answerStore env w challengeId deviceId signature challenge device) := by
  obtain ⟨row, hrow⟩ := Option.isSome_iff_exists.mp h.row
  rw [verify_judged_ends h.live h.device_eq h.found fun k hk => h.accepted k (by
    simp only [List.mem_cons, List.not_mem_nil, or_false] at hk ⊢
    omega)]
  unfold recordVerdict AuditService.log
  refine .trans (ends_call (.inr (h.accepted 6 (by simp))) (effect_participantUpdate hrow ?_)) ?_
  · rintro d ⟨⟩
  refine .trans (ends_call (.inr hlog) (effect_auditCreate htenant ?_)) ?_
  · intro m hm
    cases (AuditService.row_meetingId.mp hm).1
    exact hmeeting
  exact .trans (ends_call (.inl rfl) rfl) Iff.rfl

/-- And the reply is the verdict. -/
theorem answer_reply (signature : String)
    (h : AnswersAlone env w challengeId deviceId challenge device)
    (hlog : env.rejects (w.steps + 7) = false)
    (htenant : (w.tenants.find? challenge.tenantId).isSome)
    (hmeeting : (w.meetings.find? challenge.meetingId).isSome) :
    aloneResult env (.verifyResponse challengeId deviceId signature) w =
      .ok (.verified ⟨responseValid env challenge device signature,
        (answerResult env w challenge device signature).status,
        (answerResult env w challenge device signature).reason⟩) := by
  refine (alone_ends (P := fun reply _ => reply = .ok (.verified _)) rfl).mpr ?_
  exact (verify_ends h hlog htenant hmeeting).mpr rfl

end Verify

end TroofAI.Hub
