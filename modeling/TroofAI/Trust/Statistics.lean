import TroofAI.Hub.Sample
import TroofAI.Hub.Stats

/-!
What the statistics of a tenant depend on.

Five of the eight counts are filtered by the tenant. The three counts of participants are not:
a participant has no tenant of its own, it reaches one through its meeting, and the queries do
not go there. So the statistics tell a tenant how many participants the others have, how many
of them are VERIFIED and how many FAILED, and nothing else (`stats_noninterference_iff`).
-/

namespace TroofAI.Hub

open StatsController

variable {t : String} {w w' : World}

/-- The tenant of a participant is that of its meeting. -/
def World.tenantOf (w : World) (row : Participant) : Option String :=
  (w.meetings.find? row.meetingId).map Meeting.tenantId

/-- The two states have the same rows of the tenant `t`, in any order. -/
structure SameRows (t : String) (w w' : World) : Prop where
  devices : (w.devices.rows.filter (·.tenantId = t)).Perm (w'.devices.rows.filter (·.tenantId = t))
  meetings :
    (w.meetings.rows.filter (·.tenantId = t)).Perm (w'.meetings.rows.filter (·.tenantId = t))
  participants : (w.participants.rows.filter fun row => w.tenantOf row = some t).Perm
    (w'.participants.rows.filter fun row => w'.tenantOf row = some t)
  audit : (w.audit.filter (·.tenantId = t)).Perm (w'.audit.filter (·.tenantId = t))

/-- Of the participants of other tenants: how many, how many VERIFIED, how many FAILED. -/
def foreignParticipants (t : String) (w : World) : Nat × Nat × Nat :=
  let rows := w.participants.rows.filter fun row => ¬ w.tenantOf row = some t
  (rows.length, rows.countP (·.trustStatus = .verified), rows.countP (·.trustStatus = .failed))

/-- Of the other rows of other tenants: how many devices, how many of them active and how many
hardware-bound, how many meetings and audit events. -/
def foreignRows (t : String) (w : World) : Nat × Nat × Nat × Nat × Nat :=
  let devices := w.devices.rows.filter fun row => ¬ row.tenantId = t
  (devices.length, devices.countP (·.status = .active), devices.countP (·.hardwareBound),
    (w.meetings.rows.filter fun row => ¬ row.tenantId = t).length,
    (w.audit.filter fun row => ¬ row.tenantId = t).length)

/-! ### Counting own and other elements apart -/

section Lists

variable {α : Type} {l l' : List α} {own own' : α → Bool}

/-- Two lists with the same own elements have equally many elements with a property if the
other elements do. -/
theorem countP_eq_iff {p : α → Bool} (h : (l.filter own).Perm (l'.filter own')) :
    l.countP p = l'.countP p ↔
      (l.filter fun a => !own a).countP p = (l'.filter fun a => !own' a).countP p := by
  have hsplit := List.countP_eq_countP_filter_add l p own
  have hsplit' := List.countP_eq_countP_filter_add l' p own'
  have hown := h.countP_eq p
  omega

theorem length_eq_iff (h : (l.filter own).Perm (l'.filter own')) :
    l.length = l'.length ↔
      (l.filter fun a => !own a).length = (l'.filter fun a => !own' a).length := by
  simp only [← List.countP_true]
  exact countP_eq_iff h

end Lists

/-! ### The counts -/

theorem within_empty : within (some "") = fun _ => true := rfl

theorem within_some (ht : t ≠ "") : within (some t) = fun owner => decide (owner = t) := by
  funext owner
  unfold within
  rw [Option.filter_some, decide_eq_true ht]
  rfl

/-- The rate and the threats are computed from the counts of participants. -/
theorem getStats_eq_iff {tenantId : Option String} :
    getStats tenantId w = getStats tenantId w' ↔
      ((getStats tenantId w).devices = (getStats tenantId w').devices ∧
        (getStats tenantId w).meetings = (getStats tenantId w').meetings ∧
        (getStats tenantId w).auditEvents = (getStats tenantId w').auditEvents) ∧
      w.participants.rows.length = w'.participants.rows.length ∧
      w.participants.rows.countP (·.trustStatus = .verified) =
        w'.participants.rows.countP (·.trustStatus = .verified) ∧
      w.participants.rows.countP (·.trustStatus = .failed) =
        w'.participants.rows.countP (·.trustStatus = .failed) := by
  constructor
  · intro h
    have hparticipants := congrArg Stats.participants h
    exact ⟨⟨congrArg Stats.devices h, congrArg Stats.meetings h, congrArg Stats.auditEvents h⟩,
      congrArg ParticipantStats.total hparticipants,
      congrArg ParticipantStats.verified hparticipants,
      congrArg ParticipantStats.failed hparticipants⟩
  · rintro ⟨⟨hdevices, hmeetings, haudit⟩, htotal, hverified, hfailed⟩
    unfold getStats at *
    simp_all

/-- The counts of participants, over all tenants. -/
theorem participants_eq_iff (h : SameRows t w w') :
    (w.participants.rows.length = w'.participants.rows.length ∧
      w.participants.rows.countP (·.trustStatus = .verified) =
        w'.participants.rows.countP (·.trustStatus = .verified) ∧
      w.participants.rows.countP (·.trustStatus = .failed) =
        w'.participants.rows.countP (·.trustStatus = .failed)) ↔
      foreignParticipants t w = foreignParticipants t w' := by
  rw [length_eq_iff h.participants, countP_eq_iff h.participants, countP_eq_iff h.participants]
  simp only [foreignParticipants, decide_not, Prod.mk.injEq]

/-- The counts of the rows of the tenant itself. -/
theorem own_eq (h : SameRows t w w') (ht : t ≠ "") :
    (getStats (some t) w).devices = (getStats (some t) w').devices ∧
      (getStats (some t) w).meetings = (getStats (some t) w').meetings ∧
      (getStats (some t) w).auditEvents = (getStats (some t) w').auditEvents := by
  unfold getStats
  simp only [within_some ht, h.devices.length_eq, h.devices.countP_eq, h.meetings.length_eq,
    h.audit.length_eq, and_self]

/-- Asked for the tenant without a name, the hub counts the rows of all. -/
theorem all_eq_iff (h : SameRows "" w w') :
    ((getStats (some "") w).devices = (getStats (some "") w').devices ∧
      (getStats (some "") w).meetings = (getStats (some "") w').meetings ∧
      (getStats (some "") w).auditEvents = (getStats (some "") w').auditEvents) ↔
      foreignRows "" w = foreignRows "" w' := by
  unfold getStats foreignRows
  simp only [within_empty, List.filter_true, DeviceStats.mk.injEq, Prod.mk.injEq, decide_not,
    length_eq_iff h.devices, countP_eq_iff h.devices, length_eq_iff h.meetings,
    length_eq_iff h.audit, and_assoc]

/-- Where two states have the same rows of a tenant, it is given the same statistics exactly if
the other tenants have equally many participants, VERIFIED ones and FAILED ones. -/
theorem stats_noninterference_iff (h : SameRows t w w') :
    getStats (some t) w = getStats (some t) w' ↔
      foreignParticipants t w = foreignParticipants t w' ∧
        (t = "" → foreignRows t w = foreignRows t w') := by
  rw [getStats_eq_iff, participants_eq_iff h, and_comm]
  refine and_congr_right fun _ => ?_
  by_cases ht : t = ""
  · subst ht
    rw [all_eq_iff h]
    exact ⟨fun hrows _ => hrows, fun hrows => hrows rfl⟩
  · exact iff_of_true (own_eq h ht) fun hempty => absurd hempty ht

/-! ### Two states of the hub -/

section Sample

/-- After the set-up in tenant-acme, somebody joins a meeting of tenant-globex. -/
def globexJoined : List Call :=
  Sample.setUp ++ [.create "tenant-globex" "Sales", .addParticipant (Sample.uuid 13) "bob" "Bob"]

/-- Or a device of tenant-globex is enrolled. -/
def globexEnrolled : List Call :=
  Sample.setUp ++ [Sample.enroll "tenant-globex" "desk-1" "bob" "pem-2"]

/-- The rows of a tenant, as lists. -/
theorem sameRows_of_eq
    (hdevices : w.devices.rows.filter (·.tenantId = t) = w'.devices.rows.filter (·.tenantId = t))
    (hmeetings : w.meetings.rows.filter (·.tenantId = t) =
      w'.meetings.rows.filter (·.tenantId = t))
    (hparticipants : (w.participants.rows.filter fun row => w.tenantOf row = some t) =
      w'.participants.rows.filter fun row => w'.tenantOf row = some t)
    (haudit : w.audit.filter (·.tenantId = t) = w'.audit.filter (·.tenantId = t)) :
    SameRows t w w' :=
  ⟨.of_eq hdevices, .of_eq hmeetings, .of_eq hparticipants, .of_eq haudit⟩

theorem sameRows_joined : SameRows "tenant-acme"
    (Sample.run (Sample.env 0 0) Sample.setUp).store
    (Sample.run (Sample.env 0 0) globexJoined).store := by
  apply sameRows_of_eq <;> decide +kernel

theorem sameRows_enrolled : SameRows "tenant-acme"
    (Sample.run (Sample.env 0 0) Sample.setUp).store
    (Sample.run (Sample.env 0 0) globexEnrolled).store := by
  apply sameRows_of_eq <;> decide +kernel

/-- A device of another tenant is not seen. -/
theorem stats_noninterference_sample : ∃ cfg cfg',
    Reachable (Sample.env 0 0) cfg ∧ Reachable (Sample.env 0 0) cfg' ∧
    getStats (some "tenant-acme") cfg.store = getStats (some "tenant-acme") cfg'.store := by
  have hforeign : foreignParticipants "tenant-acme"
      (Sample.run (Sample.env 0 0) Sample.setUp).store =
        foreignParticipants "tenant-acme" (Sample.run (Sample.env 0 0) globexEnrolled).store := by
    decide +kernel
  exact ⟨_, _, Sample.run_reachable _ _, Sample.run_reachable _ _,
    (stats_noninterference_iff sameRows_enrolled).mpr ⟨hforeign, fun h => absurd h (by decide)⟩⟩

/-- A participant of another tenant is. -/
theorem foreign_participant_counted : ∃ cfg cfg',
    Reachable (Sample.env 0 0) cfg ∧ Reachable (Sample.env 0 0) cfg' ∧
    SameRows "tenant-acme" cfg.store cfg'.store ∧
    (getStats (some "tenant-acme") cfg.store).participants.total = 1 ∧
    (getStats (some "tenant-acme") cfg'.store).participants.total = 2 ∧
    getStats (some "tenant-acme") cfg.store ≠ getStats (some "tenant-acme") cfg'.store := by
  have htotal : (getStats (some "tenant-acme")
      (Sample.run (Sample.env 0 0) Sample.setUp).store).participants.total = 1 := by
    decide +kernel
  have htotal' : (getStats (some "tenant-acme")
      (Sample.run (Sample.env 0 0) globexJoined).store).participants.total = 2 := by
    decide +kernel
  refine ⟨_, _, Sample.run_reachable _ _, Sample.run_reachable _ _, sameRows_joined, htotal,
    htotal', fun heq => ?_⟩
  rw [heq, htotal'] at htotal
  revert htotal
  decide

end Sample

end TroofAI.Hub
