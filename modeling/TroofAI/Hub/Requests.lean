import TroofAI.Base.Json
import TroofAI.Hub.System

/-!
What arrives at the hub, as texts: the requests to its controllers and the messages to its gateway.

The body of a request passes the `ValidationPipe`, which refuses it unless the members of its dto are
there with their types, and drops every other member. The messages of a socket are not validated;
here they are those with the members their handlers ask for.
-/

namespace TroofAI.Hub

open TroofAI.Json (Value)

/-! ### The dtos -/

/-- `@IsString()` with `@IsOptional()`: a member that is `null` is not checked, and kept. -/
def optionalString (body : Value) (name : String) : Option (Member String) :=
  match body.get name with
  | none => some .missing
  | some .null => some .null
  | some (.str s) => some (.value s)
  | _ => none

/-- `@IsBoolean()` with `@IsOptional()`. -/
def optionalBool (body : Value) (name : String) : Option (Member Bool) :=
  match body.get name with
  | none => some .missing
  | some .null => some .null
  | some (.bool b) => some (.value b)
  | _ => none

structure CreateMeetingDto where
  tenantId : String
  name : String

def CreateMeetingDto.ofJson (body : Value) : Option CreateMeetingDto := do
  return { tenantId := ← body.getString "tenant_id", name := ← body.getString "name" }

structure AddParticipantDto where
  userId : String
  displayName : String

def AddParticipantDto.ofJson (body : Value) : Option AddParticipantDto := do
  return { userId := ← body.getString "user_id", displayName := ← body.getString "display_name" }

structure RequestJoinTokenDto where
  participantId : String

def RequestJoinTokenDto.ofJson (body : Value) : Option RequestJoinTokenDto := do
  return { participantId := ← body.getString "participant_id" }

structure BindDeviceDto where
  joinToken : String
  deviceId : String
  signature : String

def BindDeviceDto.ofJson (body : Value) : Option BindDeviceDto := do
  return {
    joinToken := ← body.getString "join_token"
    deviceId := ← body.getString "device_id"
    signature := ← body.getString "signature" }

def EnrollDeviceDto.ofJson (body : Value) : Option EnrollDeviceDto := do
  let _agentVersion ← optionalString body "agent_version"
  return {
    tenantId := ← body.getString "tenant_id"
    deviceId := ← body.getString "device_id"
    userId := ← body.getString "user_id"
    displayName := ← body.getString "display_name"
    publicKeyPem := ← body.getString "public_key_pem"
    keyAlgorithm := ← optionalString body "key_algorithm"
    hardwareBound := ← optionalBool body "hardware_bound" }

/-! ### The controllers -/

/-- What a POST asks for, with its path in segments; `none` is a request that is refused. A challenge
is triggered without a body. -/
def post (path : List String) (text : String) : Option Call :=
  let body := Json.parse text
  match path with
  | ["devices", "enroll"] => (body.bind EnrollDeviceDto.ofJson).map .enroll
  | ["meetings"] => (body.bind CreateMeetingDto.ofJson).map fun dto => .create dto.tenantId dto.name
  | ["meetings", id, "participants"] =>
      (body.bind AddParticipantDto.ofJson).map fun dto =>
        .addParticipant id dto.userId dto.displayName
  | ["meetings", id, "join-token"] =>
      (body.bind RequestJoinTokenDto.ofJson).map fun dto => .issueJoinToken id dto.participantId
  | ["meetings", id, "bind"] =>
      (body.bind BindDeviceDto.ofJson).map fun dto =>
        .bindDevice id dto.joinToken dto.deviceId dto.signature
  | ["challenges", "meeting", meetingId] => some (.issueChallenge meetingId)
  | _ => none

/-- `GET /tenants/demo` is the one read that can write. -/
def get (path : List String) : Option Call :=
  match path with
  | ["tenants", "demo"] => some .ensureDemoTenant
  | _ => none

/-! ### The gateway -/

/-- What a message on the connection `client` asks for. -/
def Gateway.message (client event text : String) : Option Call := do
  let data ← Json.parse text
  match event with
  | "device:connect" => (data.getString "device_id").map fun d => .socket (.deviceConnect client d)
  | "device:heartbeat" => (data.getString "device_id").map .heartbeat
  | "challenge:response" => do
      return .verifyResponse (← data.getString "challenge_id") (← data.getString "device_id")
        (← data.getString "signature")
  | "meeting:subscribe" =>
      (data.getString "meeting_id").map fun m => .socket (.meetingSubscribe client m)
  | _ => none

/-- The data of `challenge:issue`. -/
def ChallengePayload.json (payload : ChallengePayload) : Value :=
  .ofStrings [("challenge_id", payload.challengeId), ("nonce", payload.nonce),
    ("meeting_id", payload.meetingId), ("participant_id", payload.participantId),
    ("issued_at", toISOString payload.issuedAt), ("expires_at", toISOString payload.expiresAt)]

/-- As it is sent. -/
def ChallengePayload.text (payload : ChallengePayload) : String :=
  Json.stringify.print payload.json

/-! ### The answers -/

/-- A date, or `null`. -/
def dateJson (t : Option Date) : Value := (t.map fun t => .str (toISOString t)).getD .null

/-- A text, or `null`. -/
def textJson (s : Option String) : Value := (s.map .str).getD .null

/-- `GET /tenants/demo`, without the API key. -/
def Tenant.json (row : Tenant) : Value := .ofStrings [("tenant_id", row.id), ("name", row.name)]

def DeviceStatus.text : DeviceStatus → String
  | .active => "ACTIVE"
  | .revoked => "REVOKED"

/-- What an enrolment is answered with. -/
def Device.json (row : Device) : Value :=
  .obj [("success", .bool true), ("device_id", .str row.id), ("status", .str row.status.text),
    ("enrolled_at", dateJson (some row.enrolledAt))]

/-- A meeting is never ended. -/
def Meeting.json (row : Meeting) : Value :=
  .obj [("id", .str row.id), ("tenantId", .str row.tenantId), ("name", .str row.name),
    ("createdAt", dateJson (some row.createdAt)), ("endedAt", .null)]

def Participant.json (row : Participant) : Value :=
  .obj [("id", .str row.id), ("meetingId", .str row.meetingId), ("userId", .str row.userId),
    ("deviceId", textJson row.deviceId), ("displayName", .str row.displayName),
    ("trustStatus", .str row.trustStatus.text), ("statusReason", textJson row.statusReason),
    ("joinedAt", dateJson (some row.joinedAt)), ("boundAt", dateJson row.boundAt),
    ("lastChallengeAt", dateJson row.lastChallengeAt)]

def MeetingService.IssuedToken.json (issued : MeetingService.IssuedToken) : Value :=
  .ofStrings [("join_token", issued.joinToken), ("meeting_id", issued.meetingId),
    ("participant_id", issued.participantId), ("expires_at", toISOString issued.expiresAt)]

def ChallengeService.IssueResult.json : ChallengeService.IssueResult → Value
  | .failed participantId displayName reason =>
      .ofStrings [("participant_id", participantId), ("display_name", displayName),
        ("status", "FAILED"), ("reason", reason)]
  | .challengeSent participantId displayName challengeId =>
      .ofStrings [("participant_id", participantId), ("display_name", displayName),
        ("status", "CHALLENGE_SENT"), ("challenge_id", challengeId)]

/-- What a call is answered with, on a socket the data of the answer. -/
def Reply.json : Reply → Value
  | .ack => .ofStrings [("status", "ok")]
  | .tenant row => row.json
  | .device row => row.json
  | .meeting row => .obj [("success", .bool true), ("meeting", row.json)]
  | .participant row => .obj [("success", .bool true), ("participant", row.json)]
  | .joinToken token => token.json
  | .issued results => .obj [("success", .bool true), ("results", .arr (results.map (·.json)))]
  | .verified result =>
      .obj [("valid", .bool result.valid), ("status", .str result.status.text),
        ("reason", .str result.reason)]

/-- What the framework answers for an exception. -/
def HubError.json : HubError → Value
  | .notFound message =>
      .obj [("message", .str message), ("error", .str "Not Found"),
        ("statusCode", .num ⟨"404".toList, by decide⟩)]
  | .badRequest message =>
      .obj [("message", .str message), ("error", .str "Bad Request"),
        ("statusCode", .num ⟨"400".toList, by decide⟩)]
  | _ =>
      .obj [("statusCode", .num ⟨"500".toList, by decide⟩),
        ("message", .str "Internal server error")]

/-- The text of the answer to a request. -/
def answerText (result : Except HubError Reply) : String :=
  Json.stringify.print <| match result with
    | .ok reply => reply.json
    | .error e => e.json

end TroofAI.Hub
