import TroofAI.Agent.WebSocket
import TroofAI.Base.Json

/-!
The texts the companion agent reads and writes.

It reads the data of `challenge:issue`, the body of a request to `/bind` and its own file, and it
writes what it emits on its socket, the answers of `/bind`, the body of its enrolment and the file.
All of them are JSON. An exception on the way is caught by the handler, which then sends nothing or
answers 400.
-/

namespace TroofAI.Agent

open Json (Value)

/-- `json.GetProperty(name).GetString()!`, which throws for a member that is missing or neither a
string nor `null`. The null reference counts as the empty text: joined it adds nothing, and cut to
eight characters it throws as well. -/
def getProperty (json : Value) (name : String) : Option String :=
  match json.get name with
  | some (.str s) => some s
  | some .null => some ""
  | _ => none

theorem getProperty_of_getString {json : Value} {name s : String}
    (h : json.getString name = some s) : getProperty json name = some s := by
  obtain ⟨v, hget, hv⟩ := Option.bind_eq_some_iff.mp h
  cases v <;> cases hv
  simp [getProperty, hget]

/-! ### Challenges -/

def ChallengeMessage.ofJson (json : Value) : Option ChallengeMessage := do
  return {
    challengeId := ← getProperty json "challenge_id"
    nonce := ← getProperty json "nonce"
    meetingId := ← getProperty json "meeting_id"
    participantId := ← getProperty json "participant_id"
    issuedAt := ← getProperty json "issued_at"
    expiresAt := ← getProperty json "expires_at" }

/-- The handler of `challenge:issue`, on the text of its data. -/
def WebSocketService.onChallengeText (enrollment : Enrollment) (sign : String → String)
    (text : String) : List AgentMessage :=
  match (Json.parse text).bind ChallengeMessage.ofJson with
  | some challenge => onChallengeIssue enrollment sign challenge
  | none => []

namespace AgentMessage

/-- The event a message is emitted as. -/
def event : AgentMessage → String
  | .deviceConnect _ => "device:connect"
  | .deviceHeartbeat _ => "device:heartbeat"
  | .challengeResponse .. => "challenge:response"

def data : AgentMessage → Value
  | .deviceConnect deviceId | .deviceHeartbeat deviceId => .ofStrings [("device_id", deviceId)]
  | .challengeResponse challengeId deviceId signature =>
      .ofStrings [("challenge_id", challengeId), ("device_id", deviceId), ("signature", signature)]

/-- The data as it is sent. -/
def text (message : AgentMessage) : String := (Json.dotnet false).print message.data

end AgentMessage

/-! ### Bindings -/

def BindRequest.ofJson (json : Value) : Option BindRequest := do
  return {
    joinToken := ← getProperty json "join_token"
    meetingId := ← getProperty json "meeting_id"
    participantId := ← getProperty json "participant_id"
    expiresAt := ← getProperty json "expires_at" }

namespace BindingService

/-- What a request to `/bind` is answered with, `none` when an exception is thrown. A join token
that is `null` comes back as `null`. -/
def response (enrollment : Enrollment) (sign : String → String) (body : String) : Option Value := do
  let json ← Json.parse body
  let request ← BindRequest.ofJson json
  let signingString ← handleBind enrollment request
  return .obj [("join_token", (json.get "join_token").getD .null),
    ("device_id", .str enrollment.deviceId), ("signature", .str (sign signingString))]

/-- `HandleRequestAsync`: the status code and the text it answers. `message` is what the exception
says, if one is thrown. -/
def handleRequest (enrollment : Enrollment) (sign : String → String) (message : String)
    (httpMethod absolutePath body : String) : Nat × String :=
  if httpMethod = "OPTIONS" then (200, "")
  else if httpMethod ≠ "POST" ∨ absolutePath ≠ "/bind" then
    (404, (Json.dotnet false).print (.ofStrings [("error", "Not found")]))
  else match response enrollment sign body with
    | some response => (200, (Json.dotnet false).print response)
    | none => (400, (Json.dotnet false).print (.ofStrings [("error", message)]))

end BindingService

/-! ### Enrolments -/

def DeviceConfig.json (config : DeviceConfig) : Value :=
  .ofStrings [("DeviceId", config.deviceId), ("TenantId", config.tenantId),
    ("UserId", config.userId)]

namespace EnrollmentService

/-- The body of the request, as `PostAsJsonAsync` serializes it. -/
def payloadText (keys : KeyService) (deviceId tenantId userId displayName : String) : String :=
  (Json.dotnet false).print (.obj [("tenant_id", .str tenantId), ("device_id", .str deviceId),
    ("user_id", .str userId), ("display_name", .str displayName),
    ("public_key_pem", .str keys.publicKeyPem), ("key_algorithm", .str "RSA-2048"),
    ("hardware_bound", .bool keys.hardwareBound), ("agent_version", .str "1.0.0")])

/-- `SaveConfig`: what it writes to the file. -/
def saveConfig (config : DeviceConfig) : String := (Json.dotnet true).print config.json

/-- A property of `DeviceConfig` as `Deserialize` sets it, the inner `none` being `null`: it keeps
its default when the member is missing, and a member of another type is refused. -/
def configProperty (json : Value) (name : String) : Option (Option String) :=
  match json.get name with
  | none => some (some "")
  | some (.str s) => some (some s)
  | some .null => some none
  | _ => none

/-- `JsonSerializer.Deserialize<DeviceConfig>`: `none` when it throws. Only the device id is used of
what it returns, so a config whose device id is `null` counts as none. -/
def deserializeConfig (json : Value) : Option (Option DeviceConfig) :=
  match json with
  | .null => some none
  | .obj members => do
      let deviceId ← configProperty (.obj members) "DeviceId"
      let tenantId ← configProperty (.obj members) "TenantId"
      let userId ← configProperty (.obj members) "UserId"
      return deviceId.map fun deviceId => ⟨deviceId, tenantId.getD "", userId.getD ""⟩
  | _ => none

/-- `LoadConfig`, with the text of the file if it exists. -/
def loadConfig (file : Option String) : Option (Option DeviceConfig) :=
  match file with
  | none => some none
  | some text => (Json.parse text).bind deserializeConfig

theorem configProperty_of_getString {json : Value} {name s : String}
    (h : json.getString name = some s) : configProperty json name = some (some s) := by
  obtain ⟨v, hget, hv⟩ := Option.bind_eq_some_iff.mp h
  cases v <;> cases hv
  simp [configProperty, hget]

theorem deserializeConfig_obj {members : List (String × Value)} {config : DeviceConfig}
    (h : ∀ p ∈ [("DeviceId", config.deviceId), ("TenantId", config.tenantId),
      ("UserId", config.userId)], configProperty (.obj members) p.1 = some (some p.2)) :
    deserializeConfig (.obj members) = some (some config) := by
  simp only [List.mem_cons, forall_eq_or_imp] at h
  simp [deserializeConfig, h]

/-- What has been saved is loaded. -/
theorem loadConfig_saveConfig (config : DeviceConfig) :
    loadConfig (some (saveConfig config)) = some (some config) := by
  show (Json.parse ((Json.dotnet true).print config.json)).bind deserializeConfig = _
  rw [Json.parse_print, Option.bind_some]
  apply deserializeConfig_obj
  intro p hp
  exact configProperty_of_getString (Value.getString_ofStrings (by simp) hp)

end EnrollmentService

end TroofAI.Agent
