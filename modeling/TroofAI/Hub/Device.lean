import TroofAI.Hub.Store

/-!
`AuditService` and `DeviceService`, with the points their calls reach.

A service function is a program over `Op`. For each one an inductive `…Point` lists
its awaits: with which history of its own the call performs which operation. The
`…_obeys` theorem says the list is complete.
-/

namespace TroofAI.Hub

open TroofAI.Await

/-- A service call: a program over the operations of the hub. -/
abbrev Service (α : Type) := Prog Op.Resp HubError α

/-- An event of a hub call. -/
abbrev Event := Ev Op.Resp HubError

/-- Perform one operation. -/
abbrev call (op : Op) : Service op.Resp := Prog.perform op

/-- `a || b` on strings: `null`, `undefined` and the empty string give `b`. -/
def jsOr (a : Option String) (b : String) : String := (a.filter (· ≠ "")).getD b

/-- A member of a JSON object as it came in a request; what is `undefined` is left out. -/
def Member.details {α : Type} (name : String) (json : α → Json) : Member α → Details
  | .missing => []
  | .null => [(name, .null)]
  | .value a => [(name, json a)]

/-! ### AuditService -/

structure AuditLogInput where
  tenantId : String
  meetingId : Option String := none
  eventType : EventType
  actor : String
  details : Details := []

namespace AuditService

/-- The row `log` inserts: `meetingId: input.meetingId || null`. -/
def row (input : AuditLogInput) : AuditCreate where
  tenantId := input.tenantId
  meetingId := input.meetingId.filter (· ≠ "")
  eventType := input.eventType
  actor := input.actor
  details := input.details

theorem row_meetingId {input : AuditLogInput} {m : String} :
    (row input).meetingId = some m ↔ input.meetingId = some m ∧ m ≠ "" := by
  simp [row, Option.filter_eq_some_iff]

def log (input : AuditLogInput) : Service AuditEvent := call (.auditCreate (row input))

end AuditService

/-! ### DeviceService -/

namespace DeviceService

/-- The `data` of a re-enrolment. -/
def reEnrollData (dto : EnrollDeviceDto) (now : Date) : DeviceUpdate where
  publicKeyPem := some dto.publicKeyPem
  keyAlgorithm := some (jsOr dto.keyAlgorithm.value? "RSA-2048")
  hardwareBound := some (dto.hardwareBound.value?.getD false)
  status := some .active
  lastHeartbeat := some now

/-- The `data` of a first enrolment. -/
def enrollData (dto : EnrollDeviceDto) (now : Date) : DeviceCreate where
  id := dto.deviceId
  tenantId := dto.tenantId
  userId := dto.userId
  displayName := dto.displayName
  publicKeyPem := dto.publicKeyPem
  keyAlgorithm := jsOr dto.keyAlgorithm.value? "RSA-2048"
  hardwareBound := dto.hardwareBound.value?.getD false
  status := .active
  lastHeartbeat := now

def reEnrollLog (dto : EnrollDeviceDto) : AuditLogInput where
  tenantId := dto.tenantId
  eventType := .deviceReEnrolled
  actor := dto.userId
  details := [("device_id", .str dto.deviceId)] ++
    dto.hardwareBound.details "hardware_bound" .bool ++
    dto.keyAlgorithm.details "key_algorithm" .str

def enrollLog (dto : EnrollDeviceDto) : AuditLogInput where
  tenantId := dto.tenantId
  eventType := .deviceEnrolled
  actor := dto.userId
  details := [("device_id", .str dto.deviceId), ("display_name", .str dto.displayName)] ++
    dto.hardwareBound.details "hardware_bound" .bool ++
    dto.keyAlgorithm.details "key_algorithm" .str

def enroll (dto : EnrollDeviceDto) : Service Device := do
  let existing ← call (.deviceFindUnique dto.deviceId)
  match existing with
  | some _ =>
      let lastHeartbeat ← call .now
      let device ← call (.deviceUpdate dto.deviceId (reEnrollData dto lastHeartbeat))
      let _ ← AuditService.log (reEnrollLog dto)
      return device
  | none =>
      let lastHeartbeat ← call .now
      let device ← call (.deviceCreate (enrollData dto lastHeartbeat))
      let _ ← AuditService.log (enrollLog dto)
      return device

def heartbeat (deviceId : String) : Service Device := do
  let lastHeartbeat ← call .now
  call (.deviceUpdate deviceId { lastHeartbeat := some lastHeartbeat })

def findById (id : String) : Service (Option Device) := call (.deviceFindUnique id)

/-- The awaits of `enroll`. -/
inductive EnrollPoint (dto : EnrollDeviceDto) : List Event → Op → Prop where
  | find : EnrollPoint dto [] (.deviceFindUnique dto.deviceId)
  | clock {existing} :
      EnrollPoint dto [⟨.deviceFindUnique dto.deviceId, .ok existing⟩] .now
  | update {device t} :
      EnrollPoint dto [⟨.now, .ok t⟩, ⟨.deviceFindUnique dto.deviceId, .ok (some device)⟩]
        (.deviceUpdate dto.deviceId (reEnrollData dto t))
  | updateLog {device t row} :
      EnrollPoint dto [⟨.deviceUpdate dto.deviceId (reEnrollData dto t), .ok row⟩, ⟨.now, .ok t⟩,
          ⟨.deviceFindUnique dto.deviceId, .ok (some device)⟩]
        (.auditCreate (AuditService.row (reEnrollLog dto)))
  | create {t} :
      EnrollPoint dto [⟨.now, .ok t⟩, ⟨.deviceFindUnique dto.deviceId, .ok none⟩]
        (.deviceCreate (enrollData dto t))
  | createLog {t row} :
      EnrollPoint dto [⟨.deviceCreate (enrollData dto t), .ok row⟩, ⟨.now, .ok t⟩,
          ⟨.deviceFindUnique dto.deviceId, .ok none⟩]
        (.auditCreate (AuditService.row (enrollLog dto)))

/-- The history of an `enroll` call that returned the row `row`. -/
inductive EnrollDone (dto : EnrollDeviceDto) : List Event → Device → Prop where
  | updated {device t row event} :
      EnrollDone dto [⟨.auditCreate (AuditService.row (reEnrollLog dto)), .ok event⟩,
          ⟨.deviceUpdate dto.deviceId (reEnrollData dto t), .ok row⟩, ⟨.now, .ok t⟩,
          ⟨.deviceFindUnique dto.deviceId, .ok (some device)⟩] row
  | created {t row event} :
      EnrollDone dto [⟨.auditCreate (AuditService.row (enrollLog dto)), .ok event⟩,
          ⟨.deviceCreate (enrollData dto t), .ok row⟩, ⟨.now, .ok t⟩,
          ⟨.deviceFindUnique dto.deviceId, .ok none⟩] row

theorem enroll_obeys (dto : EnrollDeviceDto) :
    Prog.Obeys (EnrollPoint dto) (EnrollDone dto) [] (enroll dto) := by
  unfold enroll
  refine Prog.obeys_perform_bind.mpr ⟨.find, fun existing => ?_⟩
  cases existing with
  | some device =>
    refine Prog.obeys_perform_bind.mpr ⟨.clock, fun t => ?_⟩
    refine Prog.obeys_perform_bind.mpr ⟨.update, fun row => ?_⟩
    exact Prog.obeys_perform_bind.mpr ⟨.updateLog, fun _ => .updated⟩
  | none =>
    refine Prog.obeys_perform_bind.mpr ⟨.clock, fun t => ?_⟩
    refine Prog.obeys_perform_bind.mpr ⟨.create, fun row => ?_⟩
    exact Prog.obeys_perform_bind.mpr ⟨.createLog, fun _ => .created⟩

/-- The awaits of `heartbeat`. -/
inductive HeartbeatPoint (deviceId : String) : List Event → Op → Prop where
  | clock : HeartbeatPoint deviceId [] .now
  | update {t} :
      HeartbeatPoint deviceId [⟨.now, .ok t⟩] (.deviceUpdate deviceId { lastHeartbeat := some t })

theorem heartbeat_obeys (deviceId : String) :
    Prog.Obeys (HeartbeatPoint deviceId) (fun _ _ => True) [] (heartbeat deviceId) := by
  refine Prog.obeys_perform_bind.mpr ⟨.clock, fun t => ?_⟩
  exact Prog.obeys_perform.mpr ⟨.update, fun _ => trivial⟩

end DeviceService

end TroofAI.Hub
