import TroofAI.Base.Lines
import TroofAI.Hub.Device

/-!
`MeetingService`: meetings, their participants, and the binding of a participant to a
device by a join token that the device has signed.
-/

namespace TroofAI.Hub

open TroofAI.Await

/-- `verifier.verify(publicKeyPem, Buffer.from(signature, 'base64'))`; a thrown error
counts as an invalid signature. -/
def checkSignature (env : Env) (publicKeyPem signedMaterial signature : String) : Bool :=
  match env.verify publicKeyPem signedMaterial signature with
  | .ok isValid => isValid
  | .error _ => false

namespace MeetingService

def create (tenantId name : String) : Service Meeting := do
  let meeting ← call (.meetingCreate tenantId name)
  let _ ← AuditService.log
    { tenantId, meetingId := some meeting.id, eventType := .meetingCreated, actor := "system"
      details := [("name", .str name)] }
  return meeting

def addParticipant (meetingId userId displayName : String) : Service Participant := do
  let meeting? ← call (.meetingFindUnique meetingId)
  match meeting? with
  | none => Prog.throw (.notFound "Meeting not found")
  | some meeting =>
      let participant ← call (.participantCreate
        { meetingId, userId, displayName, trustStatus := .unknown })
      let _ ← AuditService.log
        { tenantId := meeting.tenantId, meetingId := some meetingId
          eventType := .participantJoined, actor := userId
          details := [("display_name", .str displayName),
            ("participant_id", .str participant.id)] }
      return participant

structure IssuedToken where
  joinToken : String
  meetingId : String
  participantId : String
  expiresAt : Date
deriving DecidableEq, Repr

def issueJoinToken (meetingId participantId : String) : Service IssuedToken := do
  let participant? ← call (.participantFindUnique participantId)
  match participant? with
  | none => Prog.throw (.notFound "Participant not found")
  | some _ =>
      let joinToken ← call .randomUUID
      let now ← call .now
      let expiresAt := now + 30000
      call (.redisSet (.joinToken joinToken) ⟨meetingId, participantId, expiresAt⟩ 30)
      return ⟨joinToken, meetingId, participantId, expiresAt⟩

/-- The string a device signs to be bound. -/
def signedMaterial (joinToken meetingId participantId deviceId expiresAt : String) : String :=
  joinLines [joinToken, meetingId, participantId, deviceId, expiresAt]

/-- The signature check of `bindDevice` against the token it read and the device's row. -/
def bindValid (env : Env) (meetingId joinToken deviceId signature : String) (parsed : JoinToken)
    (device : Device) : Bool :=
  checkSignature env device.publicKeyPem
    (signedMaterial joinToken meetingId parsed.participantId deviceId
      (toISOString parsed.expiresAt)) signature

/-- The `data` of a bind. -/
def bindData (deviceId : String) (device : Device) (now : Date) : ParticipantUpdate where
  deviceId := some deviceId
  boundAt := some now
  trustStatus := some .verified
  statusReason := some ("Device bound and enrolled" ++
    if device.hardwareBound then " (hardware-backed)" else "")

def boundLog (meeting : Meeting) (meetingId deviceId : String) (parsed : JoinToken)
    (device : Device) : AuditLogInput where
  tenantId := meeting.tenantId
  meetingId := some meetingId
  eventType := .deviceBound
  actor := device.userId
  details := [("participant_id", .str parsed.participantId), ("device_id", .str deviceId),
    ("hardware_bound", .bool device.hardwareBound)]

def bindDevice (env : Env) (meetingId joinToken deviceId signature : String) :
    Service Participant := do
  let tokenData ← call (.redisGet (.joinToken joinToken))
  match tokenData with
  | none => Prog.throw (.badRequest "Join token expired or invalid")
  | some parsed =>
    if parsed.meetingId ≠ meetingId then Prog.throw (.badRequest "Meeting ID mismatch")
    else do
      let device? ← call (.deviceFindUnique deviceId)
      match device? with
      | none => Prog.throw (.badRequest "Device not found — not enrolled")
      | some device =>
        if bindValid env meetingId joinToken deviceId signature parsed device = false then
          Prog.throw (.badRequest "Invalid binding signature")
        else do
          call (.redisDel (.joinToken joinToken))
          let boundAt ← call .now
          let participant ← call
            (.participantUpdate parsed.participantId (bindData deviceId device boundAt))
          let meeting? ← call (.meetingFindUnique meetingId)
          match meeting? with
          | none => Prog.throw .typeError -- `meeting.tenantId` of `null`
          | some meeting =>
              let _ ← AuditService.log (boundLog meeting meetingId deviceId parsed device)
              return participant

/-! ### The points of the calls -/

/-- The awaits of `create`. -/
inductive CreatePoint (tenantId name : String) : List Event → Op → Prop where
  | create : CreatePoint tenantId name [] (.meetingCreate tenantId name)
  | log {meeting : Meeting} :
      CreatePoint tenantId name [⟨.meetingCreate tenantId name, .ok meeting⟩]
        (.auditCreate (AuditService.row
          { tenantId, meetingId := some meeting.id, eventType := .meetingCreated
            actor := "system", details := [("name", .str name)] }))

/-- The history of a `create` call that returned the row `meeting`. -/
inductive CreateDone (tenantId name : String) : List Event → Meeting → Prop where
  | mk {meeting : Meeting} {event} :
      CreateDone tenantId name
        [⟨.auditCreate (AuditService.row
            { tenantId, meetingId := some meeting.id, eventType := .meetingCreated
              actor := "system", details := [("name", .str name)] }), .ok event⟩,
          ⟨.meetingCreate tenantId name, .ok meeting⟩] meeting

theorem create_obeys (tenantId name : String) :
    Prog.Obeys (CreatePoint tenantId name) (CreateDone tenantId name) []
      (create tenantId name) := by
  refine Prog.obeys_perform_bind.mpr ⟨.create, fun meeting => ?_⟩
  exact Prog.obeys_perform_bind.mpr ⟨.log, fun _ => .mk⟩

/-- The awaits of `addParticipant`. -/
inductive AddPoint (meetingId userId displayName : String) : List Event → Op → Prop where
  | find : AddPoint meetingId userId displayName [] (.meetingFindUnique meetingId)
  | create {meeting} :
      AddPoint meetingId userId displayName [⟨.meetingFindUnique meetingId, .ok (some meeting)⟩]
        (.participantCreate ⟨meetingId, userId, displayName, .unknown⟩)
  | log {meeting participant} :
      AddPoint meetingId userId displayName
        [⟨.participantCreate ⟨meetingId, userId, displayName, .unknown⟩, .ok participant⟩,
          ⟨.meetingFindUnique meetingId, .ok (some meeting)⟩]
        (.auditCreate (AuditService.row
          { tenantId := meeting.tenantId, meetingId := some meetingId
            eventType := .participantJoined, actor := userId
            details := [("display_name", .str displayName),
              ("participant_id", .str participant.id)] }))

/-- The history of an `addParticipant` call that returned the row `participant`. -/
inductive AddDone (meetingId userId displayName : String) : List Event → Participant → Prop where
  | mk {meeting participant event} :
      AddDone meetingId userId displayName
        [⟨.auditCreate (AuditService.row
            { tenantId := meeting.tenantId, meetingId := some meetingId
              eventType := .participantJoined, actor := userId
              details := [("display_name", .str displayName),
                ("participant_id", .str participant.id)] }), .ok event⟩,
          ⟨.participantCreate ⟨meetingId, userId, displayName, .unknown⟩, .ok participant⟩,
          ⟨.meetingFindUnique meetingId, .ok (some meeting)⟩] participant

theorem addParticipant_obeys (meetingId userId displayName : String) :
    Prog.Obeys (AddPoint meetingId userId displayName) (AddDone meetingId userId displayName) []
      (addParticipant meetingId userId displayName) := by
  refine Prog.obeys_perform_bind.mpr ⟨.find, fun meeting? => ?_⟩
  cases meeting? with
  | none => trivial
  | some meeting =>
    refine Prog.obeys_perform_bind.mpr ⟨.create, fun participant => ?_⟩
    exact Prog.obeys_perform_bind.mpr ⟨.log, fun _ => .mk⟩

/-- The awaits of `issueJoinToken`. -/
inductive TokenPoint (meetingId participantId : String) : List Event → Op → Prop where
  | find : TokenPoint meetingId participantId [] (.participantFindUnique participantId)
  | draw {p} :
      TokenPoint meetingId participantId [⟨.participantFindUnique participantId, .ok (some p)⟩]
        .randomUUID
  | clock {p token} :
      TokenPoint meetingId participantId
        [⟨.randomUUID, .ok token⟩, ⟨.participantFindUnique participantId, .ok (some p)⟩] .now
  | set {p token t} :
      TokenPoint meetingId participantId
        [⟨.now, .ok t⟩, ⟨.randomUUID, .ok token⟩,
          ⟨.participantFindUnique participantId, .ok (some p)⟩]
        (.redisSet (.joinToken token) ⟨meetingId, participantId, t + 30000⟩ 30)

theorem issueJoinToken_obeys (meetingId participantId : String) :
    Prog.Obeys (TokenPoint meetingId participantId) (fun _ _ => True) []
      (issueJoinToken meetingId participantId) := by
  refine Prog.obeys_perform_bind.mpr ⟨.find, fun participant? => ?_⟩
  cases participant? with
  | none => trivial
  | some p =>
    refine Prog.obeys_perform_bind.mpr ⟨.draw, fun token => ?_⟩
    refine Prog.obeys_perform_bind.mpr ⟨.clock, fun t => ?_⟩
    exact Prog.obeys_perform_bind.mpr ⟨.set, fun _ => trivial⟩

/-- What `bindDevice` has established once it deletes the token: the history of its
reads, the token's meeting is the one of the call, and the signature is valid. -/
structure BindAccepted (env : Env) (meetingId joinToken deviceId signature : String)
    (parsed : JoinToken) (device : Device) (past : List Event) : Prop where
  meeting : parsed.meetingId = meetingId
  valid : bindValid env meetingId joinToken deviceId signature parsed device = true
  past_eq : past = [⟨.deviceFindUnique deviceId, .ok (some device)⟩,
    ⟨.redisGet (.joinToken joinToken), .ok (some parsed)⟩]

/-- The awaits of `bindDevice`. -/
inductive BindPoint (env : Env) (meetingId joinToken deviceId signature : String) :
    List Event → Op → Prop where
  | get : BindPoint env meetingId joinToken deviceId signature []
      (.redisGet (.joinToken joinToken))
  | find {parsed} : parsed.meetingId = meetingId →
      BindPoint env meetingId joinToken deviceId signature
        [⟨.redisGet (.joinToken joinToken), .ok (some parsed)⟩] (.deviceFindUnique deviceId)
  | del {parsed device past} :
      BindAccepted env meetingId joinToken deviceId signature parsed device past →
      BindPoint env meetingId joinToken deviceId signature past (.redisDel (.joinToken joinToken))
  | clock {parsed device past} :
      BindAccepted env meetingId joinToken deviceId signature parsed device past →
      BindPoint env meetingId joinToken deviceId signature
        (⟨.redisDel (.joinToken joinToken), .ok ()⟩ :: past) .now
  | bind {parsed device past t} :
      BindAccepted env meetingId joinToken deviceId signature parsed device past →
      BindPoint env meetingId joinToken deviceId signature
        (⟨.now, .ok t⟩ :: ⟨.redisDel (.joinToken joinToken), .ok ()⟩ :: past)
        (.participantUpdate parsed.participantId (bindData deviceId device t))
  | meeting {parsed device past t row} :
      BindAccepted env meetingId joinToken deviceId signature parsed device past →
      BindPoint env meetingId joinToken deviceId signature
        (⟨.participantUpdate parsed.participantId (bindData deviceId device t), .ok row⟩ ::
          ⟨.now, .ok t⟩ :: ⟨.redisDel (.joinToken joinToken), .ok ()⟩ :: past)
        (.meetingFindUnique meetingId)
  | log {parsed device past t row m} :
      BindAccepted env meetingId joinToken deviceId signature parsed device past →
      BindPoint env meetingId joinToken deviceId signature
        (⟨.meetingFindUnique meetingId, .ok (some m)⟩ ::
          ⟨.participantUpdate parsed.participantId (bindData deviceId device t), .ok row⟩ ::
          ⟨.now, .ok t⟩ :: ⟨.redisDel (.joinToken joinToken), .ok ()⟩ :: past)
        (.auditCreate (AuditService.row (boundLog m meetingId deviceId parsed device)))

/-- The history of a `bindDevice` call that returned the row `row`. -/
inductive BindDone (env : Env) (meetingId joinToken deviceId signature : String) :
    List Event → Participant → Prop where
  | mk {parsed device past t row m event} :
      BindAccepted env meetingId joinToken deviceId signature parsed device past →
      BindDone env meetingId joinToken deviceId signature
        (⟨.auditCreate (AuditService.row (boundLog m meetingId deviceId parsed device)),
            .ok event⟩ ::
          ⟨.meetingFindUnique meetingId, .ok (some m)⟩ ::
          ⟨.participantUpdate parsed.participantId (bindData deviceId device t), .ok row⟩ ::
          ⟨.now, .ok t⟩ :: ⟨.redisDel (.joinToken joinToken), .ok ()⟩ :: past) row

theorem bindDevice_obeys (env : Env) (meetingId joinToken deviceId signature : String) :
    Prog.Obeys (BindPoint env meetingId joinToken deviceId signature)
      (BindDone env meetingId joinToken deviceId signature) []
      (bindDevice env meetingId joinToken deviceId signature) := by
  refine Prog.obeys_perform_bind.mpr ⟨.get, fun tokenData => ?_⟩
  cases tokenData with
  | none => trivial
  | some parsed =>
    simp only
    split
    · trivial
    next hmeeting =>
    have hmeeting : parsed.meetingId = meetingId := not_not.mp hmeeting
    refine Prog.obeys_perform_bind.mpr ⟨.find hmeeting, fun device? => ?_⟩
    cases device? with
    | none => trivial
    | some device =>
      simp only
      split
      · trivial
      next hvalid =>
      have hacc : BindAccepted env meetingId joinToken deviceId signature parsed device _ :=
        ⟨hmeeting, by simpa using hvalid, rfl⟩
      refine Prog.obeys_perform_bind.mpr ⟨.del hacc, fun _ => ?_⟩
      refine Prog.obeys_perform_bind.mpr ⟨.clock hacc, fun t => ?_⟩
      refine Prog.obeys_perform_bind.mpr ⟨.bind hacc, fun row => ?_⟩
      refine Prog.obeys_perform_bind.mpr ⟨.meeting hacc, fun meeting? => ?_⟩
      cases meeting? with
      | none => trivial
      | some m => exact Prog.obeys_perform_bind.mpr ⟨.log hacc, fun event => .mk hacc⟩

end MeetingService

end TroofAI.Hub
