import TroofAI.Agent.Enrollment
import TroofAI.History.Exact
import TroofAI.Hub.Sample

/-!
What an enrolment leaves behind.

`enroll` writes the device's row first and the audit event then, with no transaction around the
two. A first enrolment is refused by the database when its tenant does not exist, before
anything is written. A re-enrolment does not write the tenant, so nothing refuses it until the
event is inserted: by then the key has been replaced (`enroll_atomic_iff`). Nor does it write
the user or the display name, so it succeeds for a user the row does not name
(`enroll_agrees_iff`).
-/

namespace TroofAI.Hub

open TroofAI.Await DeviceService

variable {env : Env} {w : World} {dto : EnrollDeviceDto} {existing : Option Device}

/-! ### What is written -/

theorem enrolledRow_publicKeyPem :
    (enrolledRow env w dto existing).publicKeyPem = dto.publicKeyPem := by
  cases existing <;> rfl

theorem enrolledRow_status : (enrolledRow env w dto existing).status = .active := by
  cases existing <;> rfl

theorem enrolledRow_hardwareBound :
    (enrolledRow env w dto existing).hardwareBound = dto.hardwareBound.value?.getD false := by
  cases existing <;> rfl

theorem enrolledRow_id (h : existing = w.devices.find? dto.deviceId) :
    (enrolledRow env w dto existing).id = dto.deviceId := by
  cases existing with
  | none => rfl
  | some row =>
    have hkey : row.id = dto.deviceId := Table.find?_key h.symm
    exact hkey

theorem enrolledLog_tenantId : (enrolledLog dto existing).tenantId = dto.tenantId := by
  cases existing <;> rfl

theorem enrolledLog_meetingId : (enrolledLog dto existing).meetingId = none := by
  cases existing <;> rfl

theorem enrolledLog_eventType : (enrolledLog dto existing).eventType = .deviceEnrolled ∨
    (enrolledLog dto existing).eventType = .deviceReEnrolled := by
  cases existing with
  | none => exact .inl rfl
  | some row => exact .inr rfl

theorem enrolledLog_device :
    ("device_id", Json.str dto.deviceId) ∈ (enrolledLog dto existing).details := by
  cases existing <;> simp [enrolledLog, enrollLog, reEnrollLog]

/-- The event of an enrolment whose row is written can be inserted. -/
def EnrollLogs (env : Env) (w : World) (dto : EnrollDeviceDto) : Prop :=
  env.rejects (w.steps + 3) = false ∧ (w.tenants.find? dto.tenantId).isSome

/-- An enrolment that is carried out, as its answer and the world it leaves: the row is written,
and the event logged or the call failed. -/
theorem enroll_carried_out (h : EnrollWrites env w dto)
    (P : Except HubError Reply → World → Prop) :
    let existing := w.devices.find? dto.deviceId
    let row := enrolledRow env w dto existing
    ∃ devices : Table Device.id,
      (∀ id, devices.find? id = if id = dto.deviceId then some row else w.devices.find? id) ∧
      (existing = some row → devices = w.devices) ∧
      (EnrollLogs env w dto →
        (P (aloneResult env (.enroll dto) w) (aloneStore env (.enroll dto) w) ↔
          P (.ok (.device row)) { w with
            steps := w.steps + 4
            devices
            audit := w.audit ++
              [(AuditService.row (enrolledLog dto existing)).event env (w.steps + 3)] })) ∧
      (¬ EnrollLogs env w dto → ∃ e,
        (P (aloneResult env (.enroll dto) w) (aloneStore env (.enroll dto) w) ↔
          P (.error e) { w with steps := w.steps + 4, devices })) := by
  intro existing row
  obtain ⟨devices, hfind, hsame, hends⟩ := enroll_written_ends
    (R := fun row => P (.ok (.device row))) (E := fun e => P (.error e)) h
  have hleft : P (aloneResult env (.enroll dto) w) (aloneStore env (.enroll dto) w) ↔ _ :=
    (alone_ends (P := P) rfl).trans hends
  refine ⟨devices, hfind, hsame, fun hlogs => hleft.trans ?_, fun hlogs => ?_⟩
  · refine (tenantLog_ends enrolledLog_meetingId hlogs.1 ?_).trans Iff.rfl
    rw [enrolledLog_tenantId]
    exact hlogs.2
  · unfold EnrollLogs at hlogs
    rw [← @enrolledLog_tenantId dto existing] at hlogs
    obtain ⟨e, hfailed⟩ :=
      tenantLog_failed_ends (w := { w with steps := w.steps + 3, devices }) hlogs
    exact ⟨e, hleft.trans hfailed⟩

/-- An enrolment that gets no further than that fails, and nothing has changed. -/
theorem enroll_stopped (h : ¬ EnrollWrites env w dto)
    (P : Except HubError Reply → World → Prop) :
    ∃ e n, P (aloneResult env (.enroll dto) w) (aloneStore env (.enroll dto) w) ↔
      P (.error e) { w with steps := w.steps + n } := by
  obtain ⟨e, n, hstopped⟩ := enroll_stopped_ends
    (R := fun row => P (.ok (.device row))) (E := fun e => P (.error e)) h
  exact ⟨e, n, (alone_ends (P := P) rfl).trans hstopped⟩

/-! ### No silent replacement of a key -/

/-- The key and the status of a device. -/
def keyOf (devices : Table Device.id) (deviceId : String) : Option (String × DeviceStatus) :=
  (devices.find? deviceId).map fun row => (row.publicKeyPem, row.status)

/-- An enrolment that fails leaves the devices as they were. Where it changes the key or the
status of a device, it appends one event to the audit log, an enrolment of that device under
the tenant of its row. -/
structure EnrollAtomic (w : World) (reply : Except HubError Reply) (w' : World) : Prop where
  undone : ∀ e, reply = .error e → w'.devices = w.devices
  logged : ∀ deviceId, keyOf w'.devices deviceId ≠ keyOf w.devices deviceId → ∃ row event,
    w'.devices.find? deviceId = some row ∧ w'.audit = w.audit ++ [event] ∧
    (event.eventType = .deviceEnrolled ∨ event.eventType = .deviceReEnrolled) ∧
    ("device_id", .str deviceId) ∈ event.details ∧ event.tenantId = row.tenantId

/-- Before the enrolment: should it get as far as writing the row, either its event can be
inserted, and then the row names the tenant of the request or has its key and is active, or the
event cannot be inserted, and then the row is already what is written. -/
def EnrollSafe (env : Env) (w : World) (dto : EnrollDeviceDto) : Prop :=
  EnrollWrites env w dto →
    (EnrollLogs env w dto → ∀ row, w.devices.find? dto.deviceId = some row →
      row.tenantId = dto.tenantId ∨ row.publicKeyPem = dto.publicKeyPem ∧ row.status = .active) ∧
    (¬ EnrollLogs env w dto → ∃ row, w.devices.find? dto.deviceId = some row ∧
      (reEnrollData dto (env.clock (w.steps + 1))).apply row = row)

/-- A device whose key or status changes is the one enrolled. -/
theorem keyOf_enrolled {devices : Table Device.id} {deviceId : String}
    (hfind : ∀ id, devices.find? id =
      if id = dto.deviceId then some (enrolledRow env w dto existing) else w.devices.find? id)
    (hchanged : keyOf devices deviceId ≠ keyOf w.devices deviceId) :
    deviceId = dto.deviceId ∧ devices.find? deviceId = some (enrolledRow env w dto existing) := by
  have hid : deviceId = dto.deviceId := by
    by_contra hne
    refine hchanged ?_
    unfold keyOf
    rw [hfind, if_neg hne]
  exact ⟨hid, (hfind deviceId).trans (if_pos hid)⟩

/-- If it had a row, that has the key already. -/
theorem keyOf_kept_iff {devices : Table Device.id} {row : Device}
    (hfind : ∀ id, devices.find? id =
      if id = dto.deviceId then some (enrolledRow env w dto existing) else w.devices.find? id)
    (hrow : w.devices.find? dto.deviceId = some row) :
    keyOf devices dto.deviceId = keyOf w.devices dto.deviceId ↔
      row.publicKeyPem = dto.publicKeyPem ∧ row.status = .active := by
  unfold keyOf
  rw [hfind, if_pos rfl, hrow]
  simp [enrolledRow_publicKeyPem, enrolledRow_status, eq_comm]

/-- The row is written and the event logged. -/
theorem enrollAtomic_logged {devices : Table Device.id} {n k : Nat} {reply : Reply}
    (hfind : ∀ id, devices.find? id = if id = dto.deviceId then
      some (enrolledRow env w dto (w.devices.find? dto.deviceId)) else w.devices.find? id) :
    EnrollAtomic w (.ok reply) { w with
        steps := n
        devices
        audit := w.audit ++ [(AuditService.row
          (enrolledLog dto (w.devices.find? dto.deviceId))).event env k] } ↔
      ∀ row, w.devices.find? dto.deviceId = some row →
        row.tenantId = dto.tenantId ∨
          row.publicKeyPem = dto.publicKeyPem ∧ row.status = .active := by
  constructor
  · intro hatomic row hrow
    by_contra hunsafe
    rw [not_or] at hunsafe
    have hchanged := fun heq => hunsafe.2 ((keyOf_kept_iff hfind hrow).mp heq)
    obtain ⟨row', event, hrow', haudit, -, -, htenant⟩ := hatomic.logged dto.deviceId hchanged
    obtain ⟨rfl, -⟩ := List.cons.inj (List.append_cancel_left haudit)
    have hsome := hrow'.symm.trans ((hfind dto.deviceId).trans (if_pos rfl))
    rw [hrow] at hsome htenant
    cases hsome
    exact hunsafe.1 htenant.symm
  · intro hsafe
    refine ⟨?_, fun deviceId hchanged => ?_⟩
    · rintro e ⟨⟩
    obtain ⟨rfl, hrow'⟩ := keyOf_enrolled hfind hchanged
    refine ⟨_, _, hrow', rfl, enrolledLog_eventType, enrolledLog_device, ?_⟩
    cases hrow : w.devices.find? dto.deviceId with
    | none => rfl
    | some row =>
      rcases hsafe row hrow with htenant | hkept
      · exact htenant.symm
      · exact absurd ((keyOf_kept_iff hfind hrow).mpr hkept) hchanged

/-- The row is written and the call fails. -/
theorem enrollAtomic_failed {devices : Table Device.id} {n : Nat} {e : HubError}
    (hfind : ∀ id, devices.find? id = if id = dto.deviceId then
      some (enrolledRow env w dto (w.devices.find? dto.deviceId)) else w.devices.find? id)
    (hsame : w.devices.find? dto.deviceId =
      some (enrolledRow env w dto (w.devices.find? dto.deviceId)) → devices = w.devices) :
    EnrollAtomic w (.error e) { w with steps := n, devices } ↔
      ∃ row, w.devices.find? dto.deviceId = some row ∧
        (reEnrollData dto (env.clock (w.steps + 1))).apply row = row := by
  constructor
  · intro hatomic
    have hdevices : devices = w.devices := hatomic.undone e rfl
    have hrow := (hfind dto.deviceId).trans (if_pos rfl)
    rw [hdevices] at hrow
    cases hexisting : w.devices.find? dto.deviceId with
    | none =>
      rw [hexisting] at hrow
      cases hrow
    | some row =>
      rw [hexisting] at hrow
      exact ⟨row, rfl, (Option.some.inj hrow).symm⟩
  · rintro ⟨row, hrow, hkept⟩
    have hdevices : devices = w.devices := by
      apply hsame
      rw [hrow]
      exact congrArg some hkept.symm
    refine ⟨fun _ _ => hdevices, fun deviceId hchanged => ?_⟩
    rw [hdevices] at hchanged
    exact absurd rfl hchanged

theorem enroll_atomic_iff (env : Env) (w : World) (dto : EnrollDeviceDto) :
    EnrollAtomic w (aloneResult env (.enroll dto) w) (aloneStore env (.enroll dto) w) ↔
      EnrollSafe env w dto := by
  unfold EnrollSafe
  by_cases hwrites : EnrollWrites env w dto
  · obtain ⟨devices, hfind, hsame, hdone, hfailed⟩ :=
      enroll_carried_out hwrites (EnrollAtomic w)
    simp only [hwrites, true_imp_iff]
    by_cases hlogs : EnrollLogs env w dto
    · rw [hdone hlogs, enrollAtomic_logged hfind]
      simp only [hlogs, true_imp_iff, not_true_eq_false, false_imp_iff, and_true]
    · obtain ⟨e, hfailed⟩ := hfailed hlogs
      rw [hfailed, enrollAtomic_failed hfind hsame]
      simp only [hlogs, false_imp_iff, not_false_eq_true, true_imp_iff, true_and]
  · obtain ⟨e, n, hstopped⟩ := enroll_stopped hwrites (EnrollAtomic w)
    refine iff_of_true (hstopped.mpr ⟨fun _ _ => rfl, ?_⟩) fun h => absurd h hwrites
    intro deviceId hchanged
    exact absurd rfl hchanged

/-- alice's device is enrolled again, under a tenant that does not exist. -/
def strayEnroll : Call := Sample.enroll "nowhere" "laptop-1" "mallory" "pem-2"

/-- The call fails, and has replaced the key without a trace. -/
theorem key_replaced_silently : ∃ cfg, Reachable (Sample.env 0 0) cfg ∧
    Undisturbed (Sample.env 0 0) cfg.store ∧
    keyOf cfg.store.devices "laptop-1" = some ("pem-1", .active) ∧
    aloneResult (Sample.env 0 0) strayEnroll cfg.store = .error .foreignKey ∧
    keyOf (aloneStore (Sample.env 0 0) strayEnroll cfg.store).devices "laptop-1" =
      some ("pem-2", .active) ∧
    (aloneStore (Sample.env 0 0) strayEnroll cfg.store).audit = cfg.store.audit ∧
    ¬ EnrollAtomic cfg.store (aloneResult (Sample.env 0 0) strayEnroll cfg.store)
      (aloneStore (Sample.env 0 0) strayEnroll cfg.store) := by
  have hrun := Sample.run_reachable (Sample.env 0 0) Sample.setUp
  have hbefore : keyOf (Sample.run (Sample.env 0 0) Sample.setUp).store.devices "laptop-1" =
      some ("pem-1", .active) := by decide +kernel
  have hreply : aloneResult (Sample.env 0 0) strayEnroll
      (Sample.run (Sample.env 0 0) Sample.setUp).store = .error .foreignKey := by decide +kernel
  have hafter : keyOf (aloneStore (Sample.env 0 0) strayEnroll
      (Sample.run (Sample.env 0 0) Sample.setUp).store).devices "laptop-1" =
        some ("pem-2", .active) := by decide +kernel
  have haudit : (aloneStore (Sample.env 0 0) strayEnroll
      (Sample.run (Sample.env 0 0) Sample.setUp).store).audit =
        (Sample.run (Sample.env 0 0) Sample.setUp).store.audit := by decide +kernel
  generalize Sample.run (Sample.env 0 0) Sample.setUp = cfg at hrun hbefore hreply hafter haudit
  refine ⟨cfg, hrun, fun _ => rfl, hbefore, hreply, hafter, haudit, fun hatomic => ?_⟩
  rw [hatomic.undone _ hreply, hbefore] at hafter
  revert hafter
  decide

/-! ### Agreement of the agent and the hub -/

/-- The request is answered with a success code. -/
def enrollSucceeds (env : Env) (w : World) (dto : EnrollDeviceDto) : Bool :=
  (aloneResult env (.enroll dto) w).isOk

/-- The row of a device says what a request said. -/
structure RowAgrees (dto : EnrollDeviceDto) (row : Device) : Prop where
  tenantId : row.tenantId = dto.tenantId
  userId : row.userId = dto.userId
  displayName : row.displayName = dto.displayName
  publicKeyPem : row.publicKeyPem = dto.publicKeyPem
  hardwareBound : row.hardwareBound = dto.hardwareBound.value?.getD false

/-- An agent that sends the request saves the ids of the row, and signs with them from then
on. -/
def AgentAgrees (env : Env) (w : World) (dto : EnrollDeviceDto) (row : Device) : Prop :=
  ∀ (service : Agent.EnrollmentService) (keys : Agent.KeyService)
    (newGuid tenantId userId displayName : String),
    Agent.EnrollmentService.payload keys (service.loadDeviceId newGuid) tenantId userId
      displayName = dto →
    let after :=
      (service.enrollAsync keys newGuid (enrollSucceeds env w) tenantId userId displayName).2
    after.identity = ⟨row.tenantId, row.id, row.userId⟩ ∧
      after.config = some ⟨row.id, row.tenantId, row.userId⟩

/-- If the enrolment succeeds, the row says what the request said, and the agent agrees. -/
def EnrollAgrees (env : Env) (w : World) (dto : EnrollDeviceDto) : Prop :=
  enrollSucceeds env w dto = true → ∃ row,
    (aloneStore env (.enroll dto) w).devices.find? dto.deviceId = some row ∧
      RowAgrees dto row ∧ AgentAgrees env w dto row

theorem agentAgrees_of_row {row : Device} (hsucceeds : enrollSucceeds env w dto = true)
    (hid : row.id = dto.deviceId) (hrow : RowAgrees dto row) : AgentAgrees env w dto row := by
  intro service keys newGuid tenantId userId displayName hpayload after
  subst hpayload
  obtain ⟨hidentity, hconfig⟩ := Agent.EnrollmentService.enrollAsync_succeeded hsucceeds
  have hids : after.identity = ⟨tenantId, service.loadDeviceId newGuid, userId⟩ := hidentity
  have hsaved : after.config = some ⟨service.loadDeviceId newGuid, tenantId, userId⟩ := hconfig
  rw [hids, hsaved, hrow.tenantId, hrow.userId, hid]
  exact ⟨rfl, rfl⟩

theorem rowAgrees_enrolled_iff : RowAgrees dto (enrolledRow env w dto existing) ↔
    ∀ row, existing = some row → row.tenantId = dto.tenantId ∧ row.userId = dto.userId ∧
      row.displayName = dto.displayName := by
  constructor
  · rintro hagrees row rfl
    exact ⟨hagrees.tenantId, hagrees.userId, hagrees.displayName⟩
  · intro h
    refine ⟨?_, ?_, ?_, enrolledRow_publicKeyPem, enrolledRow_hardwareBound⟩
    all_goals cases existing with
      | none => rfl
      | some row => simp [enrolledRow, DeviceUpdate.apply, h row rfl]

/-- An enrolment succeeds if its row is written and its event inserted. -/
theorem enrollSucceeds_iff (hwrites : EnrollWrites env w dto) :
    enrollSucceeds env w dto = true ↔ EnrollLogs env w dto := by
  obtain ⟨devices, -, -, hdone, hfailed⟩ :=
    enroll_carried_out hwrites fun reply _ => reply.isOk = true
  by_cases hlogs : EnrollLogs env w dto
  · exact iff_of_true ((hdone hlogs).mpr rfl) hlogs
  · obtain ⟨e, hfailed⟩ := hfailed hlogs
    refine iff_of_false (fun hok => ?_) hlogs
    cases hfailed.mp hok

theorem enroll_agrees_iff (env : Env) (w : World) (dto : EnrollDeviceDto) :
    EnrollAgrees env w dto ↔
      (EnrollWrites env w dto → EnrollLogs env w dto →
        ∀ row, w.devices.find? dto.deviceId = some row →
          row.tenantId = dto.tenantId ∧ row.userId = dto.userId ∧
            row.displayName = dto.displayName) := by
  let P (reply : Except HubError Reply) (w' : World) : Prop :=
    reply.isOk = true → ∃ row, w'.devices.find? dto.deviceId = some row ∧ RowAgrees dto row ∧
      AgentAgrees env w dto row
  show P (aloneResult env (.enroll dto) w) (aloneStore env (.enroll dto) w) ↔ _
  by_cases hwrites : EnrollWrites env w dto
  · obtain ⟨devices, hfind, -, hdone, hfailed⟩ := enroll_carried_out hwrites P
    by_cases hlogs : EnrollLogs env w dto
    · have hrow := (hfind dto.deviceId).trans (if_pos rfl)
      have hsucceeds := (enrollSucceeds_iff hwrites).mpr hlogs
      rw [hdone hlogs]
      simp only [hwrites, hlogs, true_imp_iff]
      rw [← @rowAgrees_enrolled_iff env w dto]
      constructor
      · intro hagrees
        obtain ⟨row, hrow', hrowAgrees, -⟩ := hagrees rfl
        cases hrow.symm.trans hrow'
        exact hrowAgrees
      · intro hagrees _
        exact ⟨_, hrow, hagrees, agentAgrees_of_row hsucceeds (enrolledRow_id rfl) hagrees⟩
    · obtain ⟨e, hfailed⟩ := hfailed hlogs
      rw [hfailed]
      refine iff_of_true ?_ fun _ h => absurd h hlogs
      rintro ⟨⟩
  · obtain ⟨e, n, hstopped⟩ := enroll_stopped hwrites P
    refine iff_of_true (hstopped.mpr ?_) fun h => absurd h hwrites
    rintro ⟨⟩

/-- The key of a machine. -/
def laptopKeys : Agent.KeyService := ⟨"pem-1", true⟩

/-- The file that alice's enrolment left on it. -/
def laptopConfig : Agent.DeviceConfig := ⟨"laptop-1", "tenant-acme", "alice"⟩

/-- The request of an agent on that machine. -/
def laptopRequest (userId displayName : String) : EnrollDeviceDto :=
  Agent.EnrollmentService.payload laptopKeys "laptop-1" "tenant-acme" userId displayName

/-- bob enrolls from alice's machine. He succeeds, and his agent signs as bob from then on; the
hub's row is still alice's. -/
theorem second_user_enrolled : ∃ cfg agent, Reachable (Sample.env 0 0) cfg ∧
    Undisturbed (Sample.env 0 0) cfg.store ∧
    (Agent.EnrollmentService.start (some laptopConfig)).enrollAsync laptopKeys (Sample.uuid 99)
      (enrollSucceeds (Sample.env 0 0) cfg.store) "tenant-acme" "bob" "Bob" = (true, agent) ∧
    agent.identity = ⟨"tenant-acme", "laptop-1", "bob"⟩ ∧
    ((aloneStore (Sample.env 0 0) (.enroll (laptopRequest "bob" "Bob")) cfg.store).devices.find?
      "laptop-1").map Device.userId = some "alice" ∧
    ¬ EnrollAgrees (Sample.env 0 0) cfg.store (laptopRequest "bob" "Bob") := by
  have hrun := Sample.run_reachable (Sample.env 0 0) [.enroll (laptopRequest "alice" "Alice")]
  have hok : enrollSucceeds (Sample.env 0 0) (Sample.run (Sample.env 0 0)
      [.enroll (laptopRequest "alice" "Alice")]).store (laptopRequest "bob" "Bob") = true := by
    decide +kernel
  have huser : ((aloneStore (Sample.env 0 0) (.enroll (laptopRequest "bob" "Bob"))
      (Sample.run (Sample.env 0 0) [.enroll (laptopRequest "alice" "Alice")]).store).devices.find?
      "laptop-1").map Device.userId = some "alice" := by decide +kernel
  generalize Sample.run (Sample.env 0 0) [.enroll (laptopRequest "alice" "Alice")] = cfg
    at hrun hok huser
  refine ⟨cfg, _, hrun, fun _ => rfl, if_pos hok, rfl, huser, fun hagrees => ?_⟩
  obtain ⟨row, hrow, hrowAgrees, -⟩ := hagrees hok
  have hrow' : (aloneStore (Sample.env 0 0) (.enroll (laptopRequest "bob" "Bob"))
      cfg.store).devices.find? "laptop-1" = some row := hrow
  rw [hrow', Option.map_some, hrowAgrees.userId] at huser
  revert huser
  decide

end TroofAI.Hub
