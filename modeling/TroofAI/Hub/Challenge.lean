import TroofAI.Hub.Meeting
import TroofAI.Hub.Policy

/-!
`ChallengeService`: challenges to the participants of a meeting, and the judgement of
the devices' answers (SPEC.md section 4).

`issueChallenge` walks through the participants it read at the start. `IssueLoop` is
what every turn of that loop knows: the two reads, and that the participant at hand
is one of those read.
-/

namespace TroofAI.Hub

open TroofAI.Await

namespace ChallengeService

/-! ### issueChallenge -/

/-- An entry of the list `issueChallenge` returns. -/
inductive IssueResult where
  | failed (participantId displayName reason : String)
  | challengeSent (participantId displayName challengeId : String)
deriving DecidableEq, Repr

/-- The device a participant is challenged on; `none` is the branch
`!participant.deviceId || !participant.device`. -/
def boundDevice (row : Participant × Option Device) : Option String :=
  match row.2 with
  | some _ => row.1.deviceId.filter (· ≠ "")
  | none => none

def noDeviceData (now : Date) : ParticipantUpdate where
  trustStatus := some .failed
  statusReason := some "No device binding — cannot verify"
  lastChallengeAt := some now

def noDeviceLog (meeting : Meeting) (meetingId : String) (participant : Participant) :
    AuditLogInput where
  tenantId := meeting.tenantId
  meetingId := some meetingId
  eventType := .challengeNoDevice
  actor := participant.userId
  details := [("participant_id", .str participant.id),
    ("display_name", .str participant.displayName), ("reason", .str "No device binding")]

/-- What is stored in Redis for a challenge to `participant` on `deviceId`. -/
def challengeRecord (meeting : Meeting) (meetingId : String) (participant : Participant)
    (deviceId challengeId nonce : String) (issuedAt now : Date) : ChallengeRecord where
  challengeId := challengeId
  nonce := nonce
  meetingId := meetingId
  participantId := participant.id
  issuedAt := issuedAt
  expiresAt := now + 10000
  tenantId := meeting.tenantId
  deviceId := deviceId
  userId := participant.userId

def issuedLog (meeting : Meeting) (meetingId : String) (participant : Participant)
    (deviceId challengeId : String) : AuditLogInput where
  tenantId := meeting.tenantId
  meetingId := some meetingId
  eventType := .challengeIssued
  actor := "system"
  details := [("challenge_id", .str challengeId), ("participant_id", .str participant.id),
    ("display_name", .str participant.displayName), ("device_id", .str deviceId)]

/-- One turn of the loop of `issueChallenge`. -/
def issueOne (meeting : Meeting) (meetingId : String) (row : Participant × Option Device) :
    Service IssueResult :=
  match boundDevice row with
  | none => do
      let now ← call .now
      let _ ← call (.participantUpdate row.1.id (noDeviceData now))
      let _ ← AuditService.log (noDeviceLog meeting meetingId row.1)
      call (.emitMeetingUpdate meetingId
        ⟨row.1.id, .failed, "No device binding — cannot verify"⟩)
      return .failed row.1.id row.1.displayName "No device binding"
  | some deviceId => do
      let challengeId ← call .randomUUID
      let nonce ← call .randomBytes
      let issuedAt ← call .now
      let now ← call .now
      let record := challengeRecord meeting meetingId row.1 deviceId challengeId nonce issuedAt now
      call (.redisSet (.challenge challengeId) record 15)
      call (.emitChallengeToDevice deviceId record.toChallengePayload)
      let _ ← AuditService.log (issuedLog meeting meetingId row.1 deviceId challengeId)
      return .challengeSent row.1.id row.1.displayName challengeId

def issueChallenge (meetingId : String) : Service (List IssueResult) := do
  let meeting? ← call (.meetingFindUnique meetingId)
  match meeting? with
  | none => return []
  | some meeting => do
      let participants ← call (.participantFindMany meetingId)
      Prog.collect (issueOne meeting meetingId) participants

/-! ### verifyResponse -/

/-- The string a device signs to answer a challenge, SPEC.md section 4b. -/
def signedMaterial (challenge : ChallengeRecord) : String :=
  joinLines ["troofai-v1", challenge.challengeId, challenge.tenantId, challenge.deviceId,
    challenge.userId, challenge.meetingId, challenge.participantId, challenge.nonce,
    toISOString challenge.issuedAt, toISOString challenge.expiresAt]

/-- The signature check of `verifyResponse` with the device's row as it was read. -/
def responseValid (env : Env) (challenge : ChallengeRecord) (device : Device)
    (signature : String) : Bool :=
  checkSignature env device.publicKeyPem (signedMaterial challenge) signature

/-- The verdict, with the expiry check at `checkedAt` and the policy run at `now`. -/
def verdict (env : Env) (challenge : ChallengeRecord) (device : Device) (signature : String)
    (checkedAt now : Date) : PolicyResult :=
  PolicyService.evaluate
    { device := ⟨device.status, device.lastHeartbeat, device.hardwareBound⟩
      signatureValid := responseValid env challenge device signature
      challengeExpired := checkedAt > challenge.expiresAt
      hasMeetingBinding := true } now

def verdictData (result : PolicyResult) (now : Date) : ParticipantUpdate where
  trustStatus := some result.status
  statusReason := some result.reason
  lastChallengeAt := some now

def verdictLog (challengeId deviceId : String) (challenge : ChallengeRecord) (device : Device)
    (isValid : Bool) (result : PolicyResult) : AuditLogInput where
  tenantId := challenge.tenantId
  meetingId := some challenge.meetingId
  eventType := if result.status = .verified then .challengePassed else .challengeFailed
  actor := challenge.userId
  details := [("challenge_id", .str challengeId),
    ("participant_id", .str challenge.participantId), ("device_id", .str deviceId),
    ("status", .str result.status.text), ("reason", .str result.reason),
    ("hardware_bound", .bool device.hardwareBound), ("signature_valid", .bool isValid)]

def verdictEmit (challenge : ChallengeRecord) (result : PolicyResult) : Op :=
  .emitMeetingUpdate challenge.meetingId
    ⟨challenge.participantId, result.status, result.reason⟩

structure VerifyResult where
  valid : Bool
  status : TrustStatus
  reason : String
deriving DecidableEq, Repr

def verifyResponse (env : Env) (challengeId deviceId signature : String) :
    Service VerifyResult := do
  let challengeData ← call (.redisGet (.challenge challengeId))
  match challengeData with
  | none => return ⟨false, .failed, "Challenge expired or not found"⟩
  | some challenge => do
    let checkedAt ← call .now
    if challenge.deviceId ≠ deviceId then return ⟨false, .failed, "Device ID mismatch"⟩
    else do
      let device? ← DeviceService.findById deviceId
      match device? with
      | none => return ⟨false, .failed, "Device not found"⟩
      | some device => do
        call (.redisDel (.challenge challengeId))
        -- the policy reads the clock only in rule 5; here it is read in any case
        let now ← call .now
        let result := verdict env challenge device signature checkedAt now
        let lastChallengeAt ← call .now
        let _ ← call (.participantUpdate challenge.participantId
          (verdictData result lastChallengeAt))
        let isValid := responseValid env challenge device signature
        let _ ← AuditService.log (verdictLog challengeId deviceId challenge device isValid result)
        call (verdictEmit challenge result)
        return ⟨isValid, result.status, result.reason⟩

/-! ### The points of the calls -/

/-- A history of `issueChallenge` in its loop: it read the meeting `m` and the
participants `rows`, and went through some of them. -/
def IssueLoop (meetingId : String) (m : Meeting) (rows : List (Participant × Option Device))
    (past : List Event) : Prop :=
  ∃ turns, past = turns ++ [⟨.participantFindMany meetingId, .ok rows⟩,
    ⟨.meetingFindUnique meetingId, .ok (some m)⟩]

/-- The awaits of `issueOne` on `row`, when its turn begins after the events `past`. -/
inductive TurnPoint (m : Meeting) (meetingId : String) (row : Participant × Option Device)
    (past : List Event) : List Event → Op → Prop where
  | noDeviceClock : boundDevice row = none → TurnPoint m meetingId row past past .now
  | noDevice {t} : boundDevice row = none →
      TurnPoint m meetingId row past (⟨.now, .ok t⟩ :: past)
        (.participantUpdate row.1.id (noDeviceData t))
  | noDeviceLog {t p} : boundDevice row = none →
      TurnPoint m meetingId row past
        (⟨.participantUpdate row.1.id (noDeviceData t), .ok p⟩ :: ⟨.now, .ok t⟩ :: past)
        (.auditCreate (AuditService.row (noDeviceLog m meetingId row.1)))
  | noDeviceEmit {t p e} : boundDevice row = none →
      TurnPoint m meetingId row past
        (⟨.auditCreate (AuditService.row (noDeviceLog m meetingId row.1)), .ok e⟩ ::
          ⟨.participantUpdate row.1.id (noDeviceData t), .ok p⟩ :: ⟨.now, .ok t⟩ :: past)
        (.emitMeetingUpdate meetingId ⟨row.1.id, .failed, "No device binding — cannot verify"⟩)
  | drawId {deviceId} : boundDevice row = some deviceId →
      TurnPoint m meetingId row past past .randomUUID
  | drawNonce {deviceId cid} : boundDevice row = some deviceId →
      TurnPoint m meetingId row past (⟨.randomUUID, .ok cid⟩ :: past) .randomBytes
  | issuedAt {deviceId cid nonce} : boundDevice row = some deviceId →
      TurnPoint m meetingId row past
        (⟨.randomBytes, .ok nonce⟩ :: ⟨.randomUUID, .ok cid⟩ :: past) .now
  | clock {deviceId cid nonce t} : boundDevice row = some deviceId →
      TurnPoint m meetingId row past
        (⟨.now, .ok t⟩ :: ⟨.randomBytes, .ok nonce⟩ :: ⟨.randomUUID, .ok cid⟩ :: past) .now
  | store {deviceId cid nonce t t'} : boundDevice row = some deviceId →
      TurnPoint m meetingId row past
        (⟨.now, .ok t'⟩ :: ⟨.now, .ok t⟩ :: ⟨.randomBytes, .ok nonce⟩ ::
          ⟨.randomUUID, .ok cid⟩ :: past)
        (.redisSet (.challenge cid) (challengeRecord m meetingId row.1 deviceId cid nonce t t') 15)
  | send {deviceId cid nonce t t'} : boundDevice row = some deviceId →
      TurnPoint m meetingId row past
        (⟨.redisSet (.challenge cid)
              (challengeRecord m meetingId row.1 deviceId cid nonce t t') 15, .ok ()⟩ ::
          ⟨.now, .ok t'⟩ :: ⟨.now, .ok t⟩ :: ⟨.randomBytes, .ok nonce⟩ ::
          ⟨.randomUUID, .ok cid⟩ :: past)
        (.emitChallengeToDevice deviceId
          (challengeRecord m meetingId row.1 deviceId cid nonce t t').toChallengePayload)
  | log {deviceId cid nonce t t'} : boundDevice row = some deviceId →
      TurnPoint m meetingId row past
        (⟨.emitChallengeToDevice deviceId
              (challengeRecord m meetingId row.1 deviceId cid nonce t t').toChallengePayload,
            .ok ()⟩ ::
          ⟨.redisSet (.challenge cid)
              (challengeRecord m meetingId row.1 deviceId cid nonce t t') 15, .ok ()⟩ ::
          ⟨.now, .ok t'⟩ :: ⟨.now, .ok t⟩ :: ⟨.randomBytes, .ok nonce⟩ ::
          ⟨.randomUUID, .ok cid⟩ :: past)
        (.auditCreate (AuditService.row (issuedLog m meetingId row.1 deviceId cid)))

/-- The awaits of `issueChallenge`. -/
inductive IssuePoint (meetingId : String) : List Event → Op → Prop where
  | find : IssuePoint meetingId [] (.meetingFindUnique meetingId)
  | findMany {m} :
      IssuePoint meetingId [⟨.meetingFindUnique meetingId, .ok (some m)⟩]
        (.participantFindMany meetingId)
  | turn {m rows row start past op} : IssueLoop meetingId m rows start → row ∈ rows →
      TurnPoint m meetingId row start past op → IssuePoint meetingId past op

theorem issueOne_obeys {m : Meeting} {meetingId : String}
    {rows : List (Participant × Option Device)} {row : Participant × Option Device}
    {past : List Event} (hrow : row ∈ rows) (hloop : IssueLoop meetingId m rows past) :
    Prog.Obeys (IssuePoint meetingId) (fun past' _ => IssueLoop meetingId m rows past') past
      (issueOne m meetingId row) := by
  have hmore : ∀ events, IssueLoop meetingId m rows (events ++ past) := by
    obtain ⟨turns, rfl⟩ := hloop
    exact fun events => ⟨events ++ turns, (List.append_assoc ..).symm⟩
  have hpoint : ∀ {events op}, TurnPoint m meetingId row past events op →
      IssuePoint meetingId events op := .turn hloop hrow
  unfold issueOne
  cases hbound : boundDevice row with
  | none =>
    refine Prog.obeys_perform_bind.mpr ⟨hpoint (.noDeviceClock hbound), fun t => ?_⟩
    refine Prog.obeys_perform_bind.mpr ⟨hpoint (.noDevice hbound), fun p => ?_⟩
    refine Prog.obeys_perform_bind.mpr ⟨hpoint (.noDeviceLog hbound), fun e => ?_⟩
    refine Prog.obeys_perform_bind.mpr ⟨hpoint (.noDeviceEmit hbound), fun _ => ?_⟩
    exact hmore [_, _, _, _]
  | some deviceId =>
    refine Prog.obeys_perform_bind.mpr ⟨hpoint (.drawId hbound), fun cid => ?_⟩
    refine Prog.obeys_perform_bind.mpr ⟨hpoint (.drawNonce hbound), fun nonce => ?_⟩
    refine Prog.obeys_perform_bind.mpr ⟨hpoint (.issuedAt hbound), fun t => ?_⟩
    refine Prog.obeys_perform_bind.mpr ⟨hpoint (.clock hbound), fun t' => ?_⟩
    refine Prog.obeys_perform_bind.mpr ⟨hpoint (.store hbound), fun _ => ?_⟩
    refine Prog.obeys_perform_bind.mpr ⟨hpoint (.send hbound), fun _ => ?_⟩
    refine Prog.obeys_perform_bind.mpr ⟨hpoint (.log hbound), fun _ => ?_⟩
    exact hmore [_, _, _, _, _, _, _]

theorem issueChallenge_obeys (meetingId : String) :
    Prog.Obeys (IssuePoint meetingId) (fun _ _ => True) [] (issueChallenge meetingId) := by
  refine Prog.obeys_perform_bind.mpr ⟨.find, fun meeting? => ?_⟩
  cases meeting? with
  | none => trivial
  | some m =>
    refine Prog.obeys_perform_bind.mpr ⟨.findMany, fun rows => ?_⟩
    refine .mono (fun _ _ hop => hop) (fun _ _ _ => trivial)
      (Prog.obeys_collect (I := IssueLoop meetingId m rows) ?_ ⟨[], rfl⟩)
    exact fun row hrow past hloop => issueOne_obeys hrow hloop

/-- What `verifyResponse` has established once it deletes the challenge: the history of
its reads, and that the challenge was issued to the device that answers. -/
structure AnswerAccepted (challengeId deviceId : String) (challenge : ChallengeRecord)
    (device : Device) (checkedAt : Date) (past : List Event) : Prop where
  device_eq : challenge.deviceId = deviceId
  past_eq : past = [⟨.deviceFindUnique deviceId, .ok (some device)⟩, ⟨.now, .ok checkedAt⟩,
    ⟨.redisGet (.challenge challengeId), .ok (some challenge)⟩]

/-- The awaits of `verifyResponse`. -/
inductive VerifyPoint (env : Env) (challengeId deviceId signature : String) :
    List Event → Op → Prop where
  | get : VerifyPoint env challengeId deviceId signature [] (.redisGet (.challenge challengeId))
  | clock {challenge} :
      VerifyPoint env challengeId deviceId signature
        [⟨.redisGet (.challenge challengeId), .ok (some challenge)⟩] .now
  | find {challenge t} : challenge.deviceId = deviceId →
      VerifyPoint env challengeId deviceId signature
        [⟨.now, .ok t⟩, ⟨.redisGet (.challenge challengeId), .ok (some challenge)⟩]
        (.deviceFindUnique deviceId)
  | del {challenge device t past} :
      AnswerAccepted challengeId deviceId challenge device t past →
      VerifyPoint env challengeId deviceId signature past (.redisDel (.challenge challengeId))
  | policyClock {challenge device t past} :
      AnswerAccepted challengeId deviceId challenge device t past →
      VerifyPoint env challengeId deviceId signature
        (⟨.redisDel (.challenge challengeId), .ok ()⟩ :: past) .now
  | writeClock {challenge device t past now} :
      AnswerAccepted challengeId deviceId challenge device t past →
      VerifyPoint env challengeId deviceId signature
        (⟨.now, .ok now⟩ :: ⟨.redisDel (.challenge challengeId), .ok ()⟩ :: past) .now
  | write {challenge device t past now t'} :
      AnswerAccepted challengeId deviceId challenge device t past →
      VerifyPoint env challengeId deviceId signature
        (⟨.now, .ok t'⟩ :: ⟨.now, .ok now⟩ :: ⟨.redisDel (.challenge challengeId), .ok ()⟩ :: past)
        (.participantUpdate challenge.participantId
          (verdictData (verdict env challenge device signature t now) t'))
  | log {challenge device t past now t' p} :
      AnswerAccepted challengeId deviceId challenge device t past →
      VerifyPoint env challengeId deviceId signature
        (⟨.participantUpdate challenge.participantId
              (verdictData (verdict env challenge device signature t now) t'), .ok p⟩ ::
          ⟨.now, .ok t'⟩ :: ⟨.now, .ok now⟩ :: ⟨.redisDel (.challenge challengeId), .ok ()⟩ :: past)
        (.auditCreate (AuditService.row (verdictLog challengeId deviceId challenge device
          (responseValid env challenge device signature)
          (verdict env challenge device signature t now))))
  | emit {challenge device t past now t' p e} :
      AnswerAccepted challengeId deviceId challenge device t past →
      VerifyPoint env challengeId deviceId signature
        (⟨.auditCreate (AuditService.row (verdictLog challengeId deviceId challenge device
              (responseValid env challenge device signature)
              (verdict env challenge device signature t now))), .ok e⟩ ::
          ⟨.participantUpdate challenge.participantId
              (verdictData (verdict env challenge device signature t now) t'), .ok p⟩ ::
          ⟨.now, .ok t'⟩ :: ⟨.now, .ok now⟩ :: ⟨.redisDel (.challenge challengeId), .ok ()⟩ :: past)
        (verdictEmit challenge (verdict env challenge device signature t now))

/-- The operations by which a verdict takes effect, with the number of events before each. -/
def verdictStage : Op → Option Nat
  | .participantUpdate _ _ => some 6
  | .auditCreate _ => some 7
  | .emitMeetingUpdate _ _ => some 8
  | _ => none

/-- A verdict takes effect after the challenge has been deleted. -/
theorem VerifyPoint.stage {env : Env} {challengeId deviceId signature : String}
    {past : List Event} {op : Op} {n : Nat}
    (h : VerifyPoint env challengeId deviceId signature past op) (hn : verdictStage op = some n) :
    past.length = n ∧ ⟨.redisDel (.challenge challengeId), .ok ()⟩ ∈ past := by
  cases h with
  | get | clock | find | del | policyClock | writeClock => cases hn
  | write hacc | log hacc | emit hacc =>
    cases hn
    rw [hacc.past_eq]
    simp

theorem verifyResponse_obeys (env : Env) (challengeId deviceId signature : String) :
    Prog.Obeys (VerifyPoint env challengeId deviceId signature) (fun _ _ => True) []
      (verifyResponse env challengeId deviceId signature) := by
  refine Prog.obeys_perform_bind.mpr ⟨.get, fun challengeData => ?_⟩
  cases challengeData with
  | none => trivial
  | some challenge =>
    refine Prog.obeys_perform_bind.mpr ⟨.clock, fun t => ?_⟩
    split
    · trivial
    next hdevice =>
    have hdevice : challenge.deviceId = deviceId := not_not.mp hdevice
    refine Prog.obeys_perform_bind.mpr ⟨.find hdevice, fun device? => ?_⟩
    cases device? with
    | none => trivial
    | some device =>
      have hacc : AnswerAccepted challengeId deviceId challenge device t _ := ⟨hdevice, rfl⟩
      refine Prog.obeys_perform_bind.mpr ⟨.del hacc, fun _ => ?_⟩
      refine Prog.obeys_perform_bind.mpr ⟨.policyClock hacc, fun now => ?_⟩
      refine Prog.obeys_perform_bind.mpr ⟨.writeClock hacc, fun t' => ?_⟩
      refine Prog.obeys_perform_bind.mpr ⟨.write hacc, fun p => ?_⟩
      refine Prog.obeys_perform_bind.mpr ⟨.log hacc, fun e => ?_⟩
      exact Prog.obeys_perform_bind.mpr ⟨.emit hacc, fun _ => trivial⟩

end ChallengeService

end TroofAI.Hub
