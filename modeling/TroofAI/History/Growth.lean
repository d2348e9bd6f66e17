import TroofAI.History.Rows

/-!
What a run never undoes.

No operation of the hub deletes a row or takes back what identifies one: a tenant and a meeting stay
as they are, a participant keeps its meeting, its person and its place in time, a device keeps its
tenant, its owner and the date of its enrolment, and the audit log is only appended to. A participant
that has been bound stays bound, and once a status has been decided there is always a reason for one.
`World.Grows` says so of two worlds; it is an order, and every step of every run goes up in it
(`run_grows`).
-/

namespace TroofAI.Hub

open TroofAI.Await

/-! ### Later rows and later worlds -/

/-- `row'` is the row of the same participant, perhaps later. -/
structure Participant.Grows (row row' : Participant) : Prop where
  id : row'.id = row.id
  meetingId : row'.meetingId = row.meetingId
  userId : row'.userId = row.userId
  displayName : row'.displayName = row.displayName
  joinedAt : row'.joinedAt = row.joinedAt
  bound : row.deviceId.isSome → row'.deviceId.isSome
  boundAt : row.boundAt.isSome → row'.boundAt.isSome
  decided : row.statusReason.isSome → row'.statusReason.isSome
  challenged : row.lastChallengeAt.isSome → row'.lastChallengeAt.isSome

/-- `row'` is the row of the same device, perhaps later. -/
structure Device.Grows (row row' : Device) : Prop where
  id : row'.id = row.id
  tenantId : row'.tenantId = row.tenantId
  userId : row'.userId = row.userId
  displayName : row'.displayName = row.displayName
  enrolledAt : row'.enrolledAt = row.enrolledAt
  alive : row.lastHeartbeat.isSome → row'.lastHeartbeat.isSome

/-- `w'` has all that `w` has. -/
structure World.Grows (w w' : World) : Prop where
  tenants : ∀ t row, w.tenants.find? t = some row → w'.tenants.find? t = some row
  meetings : ∀ m row, w.meetings.find? m = some row → w'.meetings.find? m = some row
  participants : ∀ p row, w.participants.find? p = some row →
    ∃ row', w'.participants.find? p = some row' ∧ row.Grows row'
  devices : ∀ d row, w.devices.find? d = some row →
    ∃ row', w'.devices.find? d = some row' ∧ row.Grows row'
  audit : w.audit <+: w'.audit

theorem Participant.Grows.refl (row : Participant) : row.Grows row :=
  ⟨rfl, rfl, rfl, rfl, rfl, fun h => h, fun h => h, fun h => h, fun h => h⟩

theorem Participant.Grows.trans {a b c : Participant} (h : a.Grows b) (h' : b.Grows c) :
    a.Grows c where
  id := h'.id.trans h.id
  meetingId := h'.meetingId.trans h.meetingId
  userId := h'.userId.trans h.userId
  displayName := h'.displayName.trans h.displayName
  joinedAt := h'.joinedAt.trans h.joinedAt
  bound := h'.bound ∘ h.bound
  boundAt := h'.boundAt ∘ h.boundAt
  decided := h'.decided ∘ h.decided
  challenged := h'.challenged ∘ h.challenged

theorem Device.Grows.refl (row : Device) : row.Grows row :=
  ⟨rfl, rfl, rfl, rfl, rfl, fun h => h⟩

theorem Device.Grows.trans {a b c : Device} (h : a.Grows b) (h' : b.Grows c) : a.Grows c where
  id := h'.id.trans h.id
  tenantId := h'.tenantId.trans h.tenantId
  userId := h'.userId.trans h.userId
  displayName := h'.displayName.trans h.displayName
  enrolledAt := h'.enrolledAt.trans h.enrolledAt
  alive := h'.alive ∘ h.alive

theorem World.Grows.trans {a b c : World} (h : a.Grows b) (h' : b.Grows c) : a.Grows c where
  tenants t row hrow := h'.tenants t row (h.tenants t row hrow)
  meetings m row hrow := h'.meetings m row (h.meetings m row hrow)
  participants p row hrow := by
    obtain ⟨mid, hmid, hgrows⟩ := h.participants p row hrow
    obtain ⟨row', hrow', hgrows'⟩ := h'.participants p mid hmid
    exact ⟨row', hrow', hgrows.trans hgrows'⟩
  devices d row hrow := by
    obtain ⟨mid, hmid, hgrows⟩ := h.devices d row hrow
    obtain ⟨row', hrow', hgrows'⟩ := h'.devices d mid hmid
    exact ⟨row', hrow', hgrows.trans hgrows'⟩
  audit := h.audit.trans h'.audit

/-! ### One step -/

/-- An update writes what it is given and leaves the rest. -/
theorem ParticipantUpdate.grows (data : ParticipantUpdate) (row : Participant) :
    row.Grows (data.apply row) where
  id := rfl
  meetingId := rfl
  userId := rfl
  displayName := rfl
  joinedAt := rfl
  bound h := by simp [apply, h]
  boundAt h := by simp [apply, h]
  decided h := by simp [apply, h]
  challenged h := by simp [apply, h]

theorem DeviceUpdate.grows (data : DeviceUpdate) (row : Device) : row.Grows (data.apply row) where
  id := rfl
  tenantId := rfl
  userId := rfl
  displayName := rfl
  enrolledAt := rfl
  alive h := by simp [apply, h]

variable {env : Env} {op : Op} {w : World}

/-- A tenant's row stays. -/
theorem tenant_step {t : String} {row : Tenant} (hrow : w.tenants.find? t = some row) :
    (exec env op w).2.tenants.find? t = some row := by
  by_cases hpart : op.part = .tenants
  · cases op <;> simp only [Op.part, reduceCtorEq] at hpart
    case tenantCreate name =>
      have hcases : exec env (.tenantCreate name) w = _ ∨ _ := exec_cases
      rcases hcases with hx | hx <;> rw [hx]
      · exact hrow
      · simp only [effect, World.createTenant]
        split
        · next tenants hinsert =>
          have hfresh := Table.insert?_fresh hinsert
          show tenants.find? t = some row
          rw [Table.find?_insert? hinsert, if_neg, hrow]
          intro hid
          rw [hid, hrow] at hfresh
          cases hfresh
        · exact hrow
  · rw [exec_tenants hpart]
    exact hrow

theorem participant_grows {p : String} {row : Participant}
    (hrow : w.participants.find? p = some row) :
    ∃ row', (exec env op w).2.participants.find? p = some row' ∧ row.Grows row' := by
  have hstep : ParticipantStep env w p ⟨op, (exec env op w).1⟩
    ((exec env op w).2.participants.find? p) := exec_participant p
  generalize (exec env op w).2.participants.find? p = new at hstep ⊢
  generalize (⟨op, (exec env op w).1⟩ : Ev Op.Resp HubError) = ev at hstep
  cases hstep with
  | same => exact ⟨row, hrow, .refl row⟩
  | @update data old hold =>
    rw [hold] at hrow
    cases hrow
    exact ⟨_, rfl, data.grows row⟩
  | create hnone =>
    rw [hrow] at hnone
    cases hnone

theorem device_grows {d : String} {row : Device} (hrow : w.devices.find? d = some row) :
    ∃ row', (exec env op w).2.devices.find? d = some row' ∧ row.Grows row' := by
  have hstep : DeviceStep env w d ⟨op, (exec env op w).1⟩
    ((exec env op w).2.devices.find? d) := exec_device d
  generalize (exec env op w).2.devices.find? d = new at hstep ⊢
  generalize (⟨op, (exec env op w).1⟩ : Ev Op.Resp HubError) = ev at hstep
  cases hstep with
  | same => exact ⟨row, hrow, .refl row⟩
  | @update data old hold =>
    rw [hold] at hrow
    cases hrow
    exact ⟨_, rfl, data.grows row⟩
  | create hnone =>
    rw [hrow] at hnone
    cases hnone
  | @revoke old hold =>
    rw [hold] at hrow
    cases hrow
    exact ⟨_, rfl, rfl, rfl, rfl, rfl, rfl, fun h => h⟩

theorem audit_grows : w.audit <+: (exec env op w).2.audit := by
  have hcases : (exec env op w).2.audit = w.audit ∨ _ := exec_audit_cases
  rcases hcases with hsame | ⟨data, row, -, hgrown⟩
  · exact hsame ▸ List.prefix_rfl
  · exact hgrown ▸ List.prefix_append _ _

/-- Whatever a call asks for, and whether or not it is rejected. -/
theorem exec_grows (env : Env) (op : Op) (w : World) : w.Grows (exec env op w).2 where
  tenants _ _ := tenant_step
  meetings _ _ := meeting_step
  participants _ _ := participant_grows
  devices _ _ := device_grows
  audit := audit_grows

/-! ### Runs -/

variable {ok : HubConfig → Nat → Op → Prop} {init : World → Prop} {cfg : HubConfig}

/-- What an event has left grows until now. -/
theorem grows_after (reach : Reach (hub env) ok init cfg) {e : HubEntry} (he : e ∈ cfg.trace) :
    (exec env e.ev.op e.before).2.Grows cfg.store := by
  obtain ⟨later, earlier, ht⟩ := List.append_of_mem he
  refine reach.carry (fun w => (exec env e.ev.op e.before).2.Grows w) ht ?_ ?_
  · exact ⟨fun _ _ h => h, fun _ _ h => h, fun _ row h => ⟨row, h, .refl row⟩,
      fun _ row h => ⟨row, h, .refl row⟩, List.prefix_rfl⟩
  · intro x _ hbefore
    exact hbefore.trans (exec_grows env x.ev.op x.before)

/-- A run that goes on from another one goes up. -/
theorem grows_between {ok' : HubConfig → Nat → Op → Prop} {init' : World → Prop} {cfg' : HubConfig}
    (reach : Reach (hub env) ok init cfg) (reach' : Reach (hub env) ok' init' cfg')
    {more rest : Trace} {e : HubEntry} (ht : cfg.trace = e :: rest)
    (ht' : cfg'.trace = more ++ cfg.trace) :
    cfg.store.Grows cfg'.store := by
  have hstore : cfg.store = (exec env e.ev.op e.before).2 :=
    reach.carry (fun w => w = (exec env e.ev.op e.before).2)
      (show cfg.trace = [] ++ e :: rest from ht) rfl fun _ hx => absurd hx List.not_mem_nil
  rw [hstore]
  apply grows_after reach'
  rw [ht', ht]
  simp

/-- What has been logged stays in the audit log. -/
theorem audit_kept (reach : Reach (hub env) ok init cfg) {e : HubEntry} {data : AuditCreate}
    {event : AuditEvent} (he : e ∈ cfg.trace) (hev : e.ev = ⟨.auditCreate data, .ok event⟩) :
    event ∈ cfg.store.audit := by
  have hlogged : event ∈ (exec env e.ev.op e.before).2.audit := by
    rw [hev, (exec_auditCreate_ok (hub_did reach he hev)).2.2.2]
    exact List.mem_append_right _ (List.mem_singleton_self event)
  exact (grows_after reach he).audit.subset hlogged

/-- The world that any event of a run has met grows until now. -/
theorem run_grows (reach : Reach (hub env) ok init cfg) {e : HubEntry} (he : e ∈ cfg.trace) :
    e.before.Grows cfg.store :=
  (exec_grows env e.ev.op e.before).trans (grows_after reach he)

end TroofAI.Hub
