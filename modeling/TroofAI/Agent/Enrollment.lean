import TroofAI.Agent.Signing
import TroofAI.Hub.Schema

/-!
The enrolment as the companion agent does it: `EnrollmentService`.

The device id is drawn once and kept in the file `troofai-device.json`. Every later run of the
agent is a new process that finds the file of the earlier ones and enrolls again under that id,
with the tenant and the user it is started for.
-/

namespace TroofAI.Agent

/-- What is kept in the file. -/
structure DeviceConfig where
  deviceId : String
  tenantId : String
  userId : String
deriving DecidableEq, Repr

/-- What an enrolment tells the hub about the key, once `Initialize` has loaded it. -/
structure KeyService where
  publicKeyPem : String
  hardwareBound : Bool
deriving DecidableEq, Repr

/-- The properties of the service, and the file. -/
structure EnrollmentService where
  deviceId : Option String
  tenantId : Option String
  userId : Option String
  displayName : Option String
  config : Option DeviceConfig
deriving DecidableEq, Repr

namespace EnrollmentService

/-- The process has just started. -/
def start (config : Option DeviceConfig) : EnrollmentService := ⟨none, none, none, none, config⟩

/-- `config?.DeviceId ?? Guid.NewGuid().ToString()` -/
def loadDeviceId (service : EnrollmentService) (newGuid : String) : String :=
  (service.config.map DeviceConfig.deviceId).getD newGuid

/-- The body of the request. -/
def payload (keys : KeyService) (deviceId tenantId userId displayName : String) :
    Hub.EnrollDeviceDto where
  tenantId := tenantId
  deviceId := deviceId
  userId := userId
  displayName := displayName
  publicKeyPem := keys.publicKeyPem
  keyAlgorithm := .value "RSA-2048"
  hardwareBound := .value keys.hardwareBound

/-- `EnrollAsync`. `post` says whether the hub answered a request with a success code; an error
of the connection counts as failure. The properties are set before the request is sent, the
file is written when it has succeeded. -/
def enrollAsync (service : EnrollmentService) (keys : KeyService) (newGuid : String)
    (post : Hub.EnrollDeviceDto → Bool) (tenantId userId displayName : String) :
    Bool × EnrollmentService :=
  let deviceId := service.loadDeviceId newGuid
  let service := { service with
    deviceId := some deviceId
    tenantId := some tenantId
    userId := some userId
    displayName := some displayName }
  if post (payload keys deviceId tenantId userId displayName) then
    (true, { service with config := some ⟨deviceId, tenantId, userId⟩ })
  else (false, service)

/-- The ids that `ChallengeSigningService` puts into the texts it signs: a property that is
`null` gives the empty string. -/
def identity (service : EnrollmentService) : Enrollment where
  tenantId := service.tenantId.getD ""
  deviceId := service.deviceId.getD ""
  userId := service.userId.getD ""

variable {service : EnrollmentService} {keys : KeyService} {post : Hub.EnrollDeviceDto → Bool}
  {newGuid tenantId userId displayName : String}

/-- What a run that succeeds leaves in the process and in the file. -/
theorem enrollAsync_succeeded
    (h : post (payload keys (service.loadDeviceId newGuid) tenantId userId displayName) = true) :
    let deviceId := service.loadDeviceId newGuid
    let after := (service.enrollAsync keys newGuid post tenantId userId displayName).2
    after.identity = ⟨tenantId, deviceId, userId⟩ ∧
      after.config = some ⟨deviceId, tenantId, userId⟩ := by
  unfold enrollAsync identity
  simp [h]

end EnrollmentService

end TroofAI.Agent
