import TroofAI.Agent.KeyService
import TroofAI.Agent.Texts

/-!
A start of the companion agent: `Program.Main` up to its enrolment.

The tenant comes from the file `troofai-device.json` or, as long as there is none, from the console.
`Main` calls `Initialize` and `EnrollAsync` calls it again, so the key that is enrolled is the one of
the second call. What the start sends to the hub is its `Attempt`; when that succeeds the agent runs,
and else the process ends.
-/

namespace TroofAI.Agent

open Json (Value)

namespace Program

def USER_ID : String := "alice@troofai.com"

def DISPLAY_NAME : String := "Alice Baker"

/-- What a start finds: what is typed in at the console, trimmed; whether the platform provider is
available at the two calls of `Initialize`, and the keys that are drawn there if any are; and the id
that is drawn for the device. -/
structure Start where
  console : Option String
  available : Bool × Bool
  newKey : RsaKey × RsaKey
  newGuid : String

/-- `GetTenantIdAsync`; `none` is an exception, which ends `Main`. -/
def getTenantId (file console : Option String) : Option String :=
  match file with
  | none => console.filter (· ≠ "")
  | some text =>
    match Json.parse text with
    | some (.obj members) =>
      match (Value.obj members).get "TenantId" with
      | some (.str t) => if t ≠ "" then some t else console.filter (· ≠ "")
      | none | some .null => console.filter (· ≠ "")
      | _ => none
    | _ => none

/-- The enrolment that a start attempts. -/
structure Attempt where
  service : EnrollmentService
  key : LoadedKey
  newGuid : String
  tenantId : String

namespace Attempt

variable (attempt : Attempt)

def deviceId : String := attempt.service.loadDeviceId attempt.newGuid

def dto : Hub.EnrollDeviceDto :=
  EnrollmentService.payload attempt.key.keyService attempt.deviceId attempt.tenantId USER_ID
    DISPLAY_NAME

/-- The body of the request. -/
def text : String :=
  EnrollmentService.payloadText attempt.key.keyService attempt.deviceId attempt.tenantId USER_ID
    DISPLAY_NAME

/-- The service when the hub has answered with a success code. -/
def enrolled : EnrollmentService :=
  (attempt.service.enrollAsync attempt.key.keyService attempt.newGuid (fun _ => true)
    attempt.tenantId USER_ID DISPLAY_NAME).2

end Attempt

/-- `Main` up to the request of `EnrollAsync`, with what it leaves in the store of the keys. There is
no request when the tenant is not known or the file cannot be read. -/
def attempt (file : Option String) (store : CngStore) (start : Start) : Option Attempt × CngStore :=
  match getTenantId file start.console with
  | none => (none, store)
  | some tenantId =>
    let store := (store.initializeKey start.available.1 start.newKey.1).2
    match EnrollmentService.loadConfig file with
    | none => (none, store)
    | some config =>
      let (key, store) := store.initializeKey start.available.2 start.newKey.2
      (some ⟨.start config, key, start.newGuid, tenantId⟩, store)

/-- The tenant of a file that has been saved. -/
theorem getTenantId_saveConfig {config : DeviceConfig} (h : config.tenantId ≠ "")
    (console : Option String) :
    getTenantId (some (EnrollmentService.saveConfig config)) console = some config.tenantId := by
  have hget : config.json.get "TenantId" = some (.str config.tenantId) := rfl
  unfold getTenantId EnrollmentService.saveConfig
  simp only [Json.parse_print]
  change (match config.json.get "TenantId" with
    | some (.str t) => if t ≠ "" then some t else console.filter (· ≠ "")
    | none | some .null => console.filter (· ≠ "")
    | _ => none) = _
  rw [hget]
  exact if_pos h

/-- A tenant is never empty. -/
theorem getTenantId_ne_empty {file console : Option String} {tenantId : String}
    (h : getTenantId file console = some tenantId) : tenantId ≠ "" := by
  have hconsole : console.filter (· ≠ "") = some tenantId → tenantId ≠ "" := by
    intro h
    simpa using (Option.filter_eq_some_iff.mp h).2
  unfold getTenantId at h
  split at h
  · exact hconsole h
  · split at h
    · split at h
      · split at h
        · next hne =>
          cases h
          exact hne
        · exact hconsole h
      · exact hconsole h
      · exact hconsole h
      · cases h
    · cases h

/-! ### What a start sends -/

theorem Attempt.enrolled_identity (a : Attempt) :
    a.enrolled.identity = ⟨a.tenantId, a.deviceId, USER_ID⟩ :=
  (EnrollmentService.enrollAsync_succeeded rfl).1

theorem Attempt.enrolled_config (a : Attempt) :
    a.enrolled.config = some ⟨a.deviceId, a.tenantId, USER_ID⟩ :=
  (EnrollmentService.enrollAsync_succeeded rfl).2

/-- With a saved file the start goes on as the device and in the tenant of the file. -/
theorem attempt_saveConfig {config : DeviceConfig} (hne : config.tenantId ≠ "") (store : CngStore)
    (start : Start) :
    attempt (some (EnrollmentService.saveConfig config)) store start =
      let store := (store.initializeKey start.available.1 start.newKey.1).2
      let (key, store) := store.initializeKey start.available.2 start.newKey.2
      (some ⟨.start (some config), key, start.newGuid, config.tenantId⟩, store) := by
  unfold attempt
  rw [getTenantId_saveConfig hne]
  simp only [EnrollmentService.loadConfig_saveConfig]

theorem attempt_saved {config : DeviceConfig} {store store' : CngStore} {start : Start}
    {a : Attempt} (hne : config.tenantId ≠ "")
    (h : attempt (some (EnrollmentService.saveConfig config)) store start = (some a, store')) :
    a.deviceId = config.deviceId ∧ a.tenantId = config.tenantId := by
  rw [attempt_saveConfig hne] at h
  cases h
  exact ⟨rfl, rfl⟩

theorem attempt_tenantId {file : Option String} {store store' : CngStore} {start : Start}
    {a : Attempt} (h : attempt file store start = (some a, store')) : a.tenantId ≠ "" := by
  unfold attempt at h
  split at h
  · cases h
  · next tenantId htenant =>
    simp only at h
    split at h
    · cases h
    · cases h
      exact getTenantId_ne_empty htenant

end Program

end TroofAI.Agent
