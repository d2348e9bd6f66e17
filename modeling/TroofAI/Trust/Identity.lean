import TroofAI.History.Bindings
import TroofAI.Hub.Sample

/-!
Whose device a participant is bound to.

A bind compares neither the tenant of the device with that of the meeting nor the user of
the device with that of the participant (`foreign_device_bound`). None of these four ids
ever changes afterwards, so whether they agree is settled by the bind
(`binding_identities`).
-/

namespace TroofAI.Hub

open TroofAI.Await MeetingService ChallengeService

/-- The ids that a binding relates: the tenant of the participant's meeting, the participant's
user, and the tenant and the user of the device. -/
structure Identities where
  tenantId : String
  userId : String
  deviceTenantId : String
  deviceUserId : String
deriving DecidableEq, Repr

def Identities.Agree (i : Identities) : Prop :=
  i.deviceTenantId = i.tenantId ∧ i.deviceUserId = i.userId

/-- The ids of the participant `p` and the device `d`, when all three rows exist. -/
def World.identities (w : World) (p d : String) : Option Identities := do
  let row ← w.participants.find? p
  let meeting ← w.meetings.find? row.meetingId
  let device ← w.devices.find? d
  return ⟨meeting.tenantId, row.userId, device.tenantId, device.userId⟩

/-- The device `d` belongs to the tenant of `p`'s meeting and to `p`'s user. -/
def World.Agrees (w : World) (p d : String) : Prop := ∃ i ∈ w.identities p d, i.Agree

instance (w : World) (p d : String) : Decidable (w.Agrees p d) :=
  decidable_of_iff
    ((w.identities p d).any fun i => i.deviceTenantId = i.tenantId ∧ i.deviceUserId = i.userId) (by
      unfold World.Agrees Identities.Agree
      cases w.identities p d <;> simp)

variable {env : Env} {ok : HubConfig → Nat → Op → Prop} {init : World → Prop} {cfg : HubConfig}
  {p d : String}

theorem identities_eq_some {w : World} {i : Identities} : w.identities p d = some i ↔
    ∃ row meeting device, w.participants.find? p = some row ∧
      w.meetings.find? row.meetingId = some meeting ∧ w.devices.find? d = some device ∧
      i = ⟨meeting.tenantId, row.userId, device.tenantId, device.userId⟩ := by
  simp only [World.identities, bind, Option.bind_eq_some_iff, pure, Option.some.injEq]
  constructor
  · rintro ⟨row, hrow, meeting, hmeeting, device, hdevice, rfl⟩
    exact ⟨row, meeting, device, hrow, hmeeting, hdevice, rfl⟩
  · rintro ⟨row, meeting, device, hrow, hmeeting, hdevice, rfl⟩
    exact ⟨row, hrow, meeting, hmeeting, device, hdevice, rfl⟩

/-- No event changes the ids. -/
theorem identities_step (reach : Reach (hub env) ok init cfg) {e : HubEntry} (he : e ∈ cfg.trace)
    {i : Identities} (h : e.before.identities p d = some i) :
    (exec env e.ev.op e.before).2.identities p d = some i := by
  obtain ⟨row, meeting, device, hrow, hmeeting, hdevice, rfl⟩ := identities_eq_some.mp h
  obtain ⟨row', hrow', hmid, huser⟩ := participant_step hrow
  obtain ⟨device', hdevice', hkept⟩ := device_step reach he hdevice
  refine identities_eq_some.mpr ⟨row', meeting, device', hrow', ?_, hdevice', ?_⟩
  · rw [hmid]
    exact meeting_step hmeeting
  · rw [huser, hkept.tenantId, hkept.userId]

/-- Where a bind is written, the rows it relates exist. -/
theorem binds_identities (reach : Reach (hub env) ok World.IsInit cfg) {later earlier : Trace}
    {e : HubEntry} (ht : cfg.trace = later ++ e :: earlier) (h : Binds p d e) :
    ∃ i, e.before.identities p d = some i := by
  obtain ⟨data, row', hev, hd⟩ := h
  obtain ⟨row, hrow, -, hdevice, -⟩ := exec_participantUpdate_ok (hub_did reach (ht ▸ by simp) hev)
  obtain ⟨device, hdevice⟩ := Option.isSome_iff_exists.mp (hdevice d hd)
  obtain ⟨pre, -, hpre, -, hstore, -⟩ := reach.cut ht
  rw [← hstore] at hrow
  obtain ⟨meeting, hmeeting⟩ := participant_meeting hpre hrow
  rw [hstore] at hrow hmeeting
  exact ⟨_, identities_eq_some.mpr ⟨row, meeting, device, hrow, hmeeting, hdevice, rfl⟩⟩

/-- A participant that is bound was bound by a `bindDevice` call, the newest bind of it. Its
meeting and its device exist, and the ids are those that the call met: they agree now exactly
if they agreed then. -/
theorem binding_identities (reach : Reachable env cfg) (hbound : cfg.store.BoundTo p d) :
    ∃ later e earlier i, cfg.trace = later ++ e :: earlier ∧ Binds p d e ∧
      (∀ x ∈ later, ∀ d', ¬ Binds p d' x) ∧
      (∃ meetingId joinToken signature, e.call = .bindDevice meetingId joinToken d signature) ∧
      e.before.identities p d = some i ∧ cfg.store.identities p d = some i ∧
      (cfg.store.Agrees p d ↔ e.before.Agrees p d) := by
  obtain ⟨later, e, earlier, ht, hbinds, hquiet⟩ := bound_by reach hbound
  obtain ⟨meetingId, joinToken, signature, -, -, hcall, -, -⟩ := binds_by reach ht hbinds
  obtain ⟨i, hi⟩ := binds_identities reach ht hbinds
  have hnow : cfg.store.identities p d = some i := by
    refine reach.carry (fun w => w.identities p d = some i) ht ?_ ?_
    · exact identities_step reach (ht ▸ by simp) hi
    · exact fun x hx => identities_step reach (ht ▸ List.mem_append_left _ hx)
  refine ⟨later, e, earlier, i, ht, hbinds, hquiet, ⟨_, _, _, hcall⟩, hi, hnow, ?_⟩
  unfold World.Agrees
  rw [hi, hnow]

section Sample

/-- A device of another tenant and another user is bound to alice's participant. -/
def foreignRun : HubConfig :=
  let env := Sample.env 0 0
  Sample.run env (Sample.setUp ++ [Sample.enroll "tenant-globex" "laptop-2" "bob" "pem-2",
    Sample.bind env 10 (Sample.uuid 4) (Sample.uuid 7) "laptop-2" "pem-2"])

theorem foreignRun_reachable : Reachable (Sample.env 0 0) foreignRun := Sample.run_reachable _ _

theorem foreignRun_bound : foreignRun.store.BoundTo (Sample.uuid 7) "laptop-2" := by
  decide +kernel

/-- There the ids are those of the bind. -/
theorem binding_identities_foreign : ∃ later e earlier i,
    foreignRun.trace = later ++ e :: earlier ∧ Binds (Sample.uuid 7) "laptop-2" e ∧
    e.before.identities (Sample.uuid 7) "laptop-2" = some i ∧
    foreignRun.store.identities (Sample.uuid 7) "laptop-2" = some i := by
  obtain ⟨later, e, earlier, i, ht, hbinds, -, -, hi, hnow, -⟩ :=
    binding_identities foreignRun_reachable foreignRun_bound
  exact ⟨later, e, earlier, i, ht, hbinds, hi, hnow⟩

/-- The device that alice's participant is bound to is bob's, of another tenant. -/
theorem foreign_device_bound : ∃ cfg, Reachable (Sample.env 0 0) cfg ∧
    cfg.store.BoundTo (Sample.uuid 7) "laptop-2" ∧
    cfg.store.identities (Sample.uuid 7) "laptop-2" =
      some ⟨"tenant-acme", "alice", "tenant-globex", "bob"⟩ ∧
    ¬ cfg.store.Agrees (Sample.uuid 7) "laptop-2" := by
  have hids : foreignRun.store.identities (Sample.uuid 7) "laptop-2" =
      some ⟨"tenant-acme", "alice", "tenant-globex", "bob"⟩ := by decide +kernel
  have hagree : ¬ foreignRun.store.Agrees (Sample.uuid 7) "laptop-2" := by decide +kernel
  exact ⟨foreignRun, foreignRun_reachable, foreignRun_bound, hids, hagree⟩

end Sample

end TroofAI.Hub
