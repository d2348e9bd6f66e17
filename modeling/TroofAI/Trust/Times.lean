import TroofAI.History.Growth
import TroofAI.Trust.AuditLog

/-!
The times in the store.

Every time that the hub stores was read off the clock by a call, or is that of the step that
inserted the row. So none lies in the future, and the times of a row come in the order of what they
tell: a meeting before its participants, a participant before its bindings and its verdicts, a device
before the participants that are bound to it, and the expiry of a record before Redis drops it
(`times_in_order`).
-/

namespace TroofAI.Hub

open TroofAI.Await MeetingService ChallengeService

/-- The times of a participant's row up to `now`. -/
structure Participant.TimesInOrder (row : Participant) (now : Date) : Prop where
  joined : row.joinedAt ≤ now
  bound : ∀ t, row.boundAt = some t → row.joinedAt ≤ t ∧ t ≤ now
  challenged : ∀ t, row.lastChallengeAt = some t → row.joinedAt ≤ t ∧ t ≤ now

/-- And those of a device's. -/
structure Device.TimesInOrder (row : Device) (now : Date) : Prop where
  enrolled : row.enrolledAt ≤ now
  heartbeat : ∀ t, row.lastHeartbeat = some t → t ≤ now

/-- The times in the world `w`, in which it is `now`. -/
structure World.TimesInOrder (w : World) (now : Date) : Prop where
  meetings : ∀ m row, w.meetings.find? m = some row → row.createdAt ≤ now
  participants : ∀ p row, w.participants.find? p = some row → row.TimesInOrder now
  joined : ∀ p row meeting, w.participants.find? p = some row →
    w.meetings.find? row.meetingId = some meeting → meeting.createdAt ≤ row.joinedAt
  devices : ∀ d row, w.devices.find? d = some row → row.TimesInOrder now
  bound : ∀ p row d device t, w.participants.find? p = some row → row.deviceId = some d →
    row.boundAt = some t → w.devices.find? d = some device → device.enrolledAt ≤ t
  audit : ∀ event ∈ w.audit, event.createdAt ≤ now
  challenges : ∀ cid record deadline,
    w.redis.entry (.challenge cid) = some (record, deadline) →
    record.issuedAt + 10000 ≤ record.expiresAt ∧ record.expiresAt + 5000 ≤ deadline ∧
      deadline ≤ now + 15000
  tokens : ∀ token parsed deadline,
    w.redis.entry (.joinToken token) = some (parsed, deadline) →
    parsed.expiresAt ≤ deadline ∧ deadline ≤ now + 30000

variable {env : Env} {cfg : HubConfig} {i : Nat} {p d : String} {t t' : Date}

/-! ### Readings of the clock -/

/-- A reading of the clock in the trace. -/
theorem reading_eq (reach : Reachable env cfg) {f : HubEntry} (hf : f ∈ cfg.trace)
    (hev : f.ev = ⟨.now, .ok t⟩) : t = env.clock f.before.steps :=
  exec_now_ok (hub_did reach hf hev)

theorem clock_past (reach : Reachable env cfg) {f : HubEntry} (hf : f ∈ cfg.trace) :
    env.clock f.before.steps ≤ env.clock cfg.store.steps :=
  env.clock_mono (Nat.le_of_lt ((reach.steps World.steps fun _ _ => exec_steps).2 f hf))

/-- An event comes after those before it. -/
theorem clock_le (reach : Reachable env cfg) {later earlier : Trace} {f q : HubEntry}
    (ht : cfg.trace = later ++ f :: earlier) (hq : q ∈ earlier) :
    env.clock q.before.steps ≤ env.clock f.before.steps := by
  obtain ⟨pre, -, hpre, rfl, hstore, -⟩ := reach.cut ht
  rw [← hstore]
  exact clock_past hpre hq

/-- What a call has read off the clock is past. -/
theorem reading_past (reach : Reachable env cfg) (h : ⟨.now, .ok t⟩ ∈ own i cfg.trace) :
    t ≤ env.clock cfg.store.steps := by
  obtain ⟨f, hf, -, hev⟩ := mem_own.mp h
  rw [reading_eq reach hf hev]
  exact clock_past reach hf

/-- And what it has read before is no later. -/
theorem reading_le (reach : Reachable env cfg) {newer older : List Event}
    (h : own i cfg.trace = newer ++ ⟨.now, .ok t'⟩ :: older) (hmem : ⟨.now, .ok t⟩ ∈ older) :
    t ≤ t' := by
  obtain ⟨later, f, earlier, ht, -, hev, -, rfl⟩ := own_split h
  obtain ⟨g, hg, -, hgev⟩ := mem_own.mp hmem
  have hf : f ∈ cfg.trace := by simp [ht]
  have hg' : g ∈ cfg.trace := by simp [ht, hg]
  rw [reading_eq reach hf hev, reading_eq reach hg' hgev]
  exact clock_le reach ht hg

/-! ### Rows that are inserted -/

/-- The times that the steps themselves fill in. -/
structure World.InsertedInOrder (w : World) (now : Date) : Prop where
  meetings : ∀ m row, w.meetings.find? m = some row → row.createdAt ≤ now
  participants : ∀ p row, w.participants.find? p = some row → row.joinedAt ≤ now ∧
    ∃ meeting, w.meetings.find? row.meetingId = some meeting ∧ meeting.createdAt ≤ row.joinedAt
  devices : ∀ d row, w.devices.find? d = some row → row.enrolledAt ≤ now

theorem inserted_in_order (reach : Reachable env cfg) :
    cfg.store.InsertedInOrder (env.clock cfg.store.steps) := by
  refine reach.throughout (fun w => w.InsertedInOrder (env.clock w.steps)) ?_ ?_
  · rintro w ⟨tenants, rfl⟩
    constructor
    · rintro m row ⟨⟩
    · rintro p row ⟨⟩
    · rintro d row ⟨⟩
  · intro x hx ih
    change (exec env x.ev.op x.before).2.InsertedInOrder
      (env.clock (exec env x.ev.op x.before).2.steps)
    have hclock : env.clock x.before.steps ≤ env.clock (exec env x.ev.op x.before).2.steps := by
      rw [exec_steps]
      exact env.clock_mono (Nat.le_succ _)
    generalize env.clock (exec env x.ev.op x.before).2.steps = now at hclock
    constructor
    · intro m row hrow
      have hstep : MeetingStep env x.before m x.ev (some row) := hrow ▸ hub_meeting reach hx m
      generalize x.ev = ev at hstep
      generalize hnew : some row = new at hstep
      cases hstep with
      | same => exact Nat.le_trans (ih.meetings m row hnew.symm) hclock
      | create =>
        cases hnew
        exact hclock
    · intro p row hrow
      have hstep : ParticipantStep env x.before p x.ev (some row) :=
        hrow ▸ hub_participant reach hx p
      have hold : row.joinedAt ≤ env.clock x.before.steps ∧ ∃ meeting,
          x.before.meetings.find? row.meetingId = some meeting ∧
            meeting.createdAt ≤ row.joinedAt := by
        generalize x.ev = ev at hstep
        generalize hnew : some row = new at hstep
        cases hstep with
        | same => exact ih.participants p row hnew.symm
        | @update data old hold =>
          cases hnew
          exact ih.participants p old hold
        | create _ _ hmeeting =>
          cases hnew
          obtain ⟨meeting, hmeeting⟩ := Option.isSome_iff_exists.mp hmeeting
          exact ⟨Nat.le_refl _, meeting, hmeeting, ih.meetings _ _ hmeeting⟩
      obtain ⟨hjoined, meeting, hmeeting, hcreated⟩ := hold
      exact ⟨Nat.le_trans hjoined hclock, meeting, meeting_step hmeeting, hcreated⟩
    · intro d row hrow
      have hstep : DeviceStep env x.before d x.ev (some row) := hrow ▸ hub_device reach hx d
      generalize x.ev = ev at hstep
      generalize hnew : some row = new at hstep
      cases hstep with
      | same => exact Nat.le_trans (ih.devices d row hnew.symm) hclock
      | @update data old hold =>
        cases hnew
        exact Nat.le_trans (ih.devices d old hold) hclock
      | create =>
        cases hnew
        exact hclock
      | @revoke old hold =>
        cases hnew
        exact Nat.le_trans (ih.devices d old hold) hclock

/-! ### Rows that were seen -/

/-- A participant that was there at an event had joined by then. -/
theorem joined_by (reach : Reachable env cfg) {e : HubEntry} (he : e ∈ cfg.trace)
    {r row : Participant} (hseen : e.before.participants.find? p = some r)
    (hrow : cfg.store.participants.find? p = some row) :
    row.joinedAt ≤ env.clock e.before.steps := by
  obtain ⟨later, earlier, ht⟩ := List.append_of_mem he
  obtain ⟨pre, -, hpre, -, hstore, -⟩ := reach.cut ht
  obtain ⟨hjoined, -⟩ := (inserted_in_order hpre).participants p r (hstore ▸ hseen)
  have hgrows := run_grows reach he
  obtain ⟨row', hrow', hsame⟩ := hgrows.participants p r hseen
  rw [hrow] at hrow'
  cases hrow'
  rw [hsame.joinedAt, ← hstore]
  exact hjoined

/-- And a device had been enrolled. -/
theorem enrolled_by (reach : Reachable env cfg) {e : HubEntry} (he : e ∈ cfg.trace)
    {r device : Device} (hseen : e.before.devices.find? d = some r)
    (hdevice : cfg.store.devices.find? d = some device) :
    device.enrolledAt ≤ env.clock e.before.steps := by
  obtain ⟨later, earlier, ht⟩ := List.append_of_mem he
  obtain ⟨pre, -, hpre, -, hstore, -⟩ := reach.cut ht
  have henrolled := (inserted_in_order hpre).devices d r (hstore ▸ hseen)
  have hgrows := run_grows reach he
  obtain ⟨device', hdevice', hsame⟩ := hgrows.devices d r hseen
  rw [hdevice] at hdevice'
  cases hdevice'
  rw [hsame.enrolledAt, ← hstore]
  exact henrolled

/-- One of the events has met the participant's row. -/
def Seen (p : String) (trace : Trace) : Prop :=
  ∃ q ∈ trace, ∃ r, q.before.participants.find? p = some r

/-- The participants that a call has read. -/
theorem seen_of_findMany (reach : Reachable env cfg) {m : String}
    {rows : List (Participant × Option Device)} {row : Participant × Option Device}
    (hread : ⟨.participantFindMany m, .ok rows⟩ ∈ own i cfg.trace) (hrow : row ∈ rows) :
    Seen row.1.id cfg.trace := by
  obtain ⟨q, hq, -, hev⟩ := mem_own.mp hread
  rw [← exec_participantFindMany_ok (hub_did reach hq hev)] at hrow
  exact ⟨q, hq, row.1, Table.find?_eq_some.mpr ⟨World.mem_of_mem_participantsOf hrow, rfl⟩⟩

/-- The participant of a token that a call has read. -/
theorem seen_of_token (reach : Reachable env cfg) {token : String} {parsed : JoinToken}
    (hread : ⟨.redisGet (.joinToken token), .ok (some parsed)⟩ ∈ own i cfg.trace) :
    Seen parsed.participantId cfg.trace := by
  obtain ⟨g, hg, -, hev⟩ := mem_own.mp hread
  obtain ⟨later, earlier, htg⟩ := List.append_of_mem hg
  obtain ⟨since, s, older, deadline, rfl, hstored, -⟩ := read_stored reach htg hev
  obtain ⟨ttl, hs, -⟩ := hstored.ev
  have hts : cfg.trace = (later ++ g :: since) ++ s :: older := by simp [htg]
  have hset := hub_set reach hts (congrArg Ev.op hs)
  generalize s.call = c at hset
  generalize hown : own s.id older = past at hset
  cases hset with
  | @joinToken m participantId row =>
    have hfind : ⟨.participantFindUnique participantId, .ok (some row)⟩ ∈ own s.id older := by
      simp [hown]
    obtain ⟨q, hq, -, hqev⟩ := mem_own.mp hfind
    have hmem : q ∈ cfg.trace := by simp [hts, hq]
    exact ⟨q, hmem, row, exec_participantFindUnique_ok (hub_did reach hmem hqev)⟩

/-- And that of a challenge. -/
theorem seen_of_challenge (reach : Reachable env cfg) {cid : String} {record : ChallengeRecord}
    (hread : ⟨.redisGet (.challenge cid), .ok (some record)⟩ ∈ own i cfg.trace) :
    Seen record.participantId cfg.trace := by
  obtain ⟨g, hg, -, hev⟩ := mem_own.mp hread
  obtain ⟨later, earlier, htg⟩ := List.append_of_mem hg
  obtain ⟨since, s, older, deadline, rfl, hstored, -⟩ := read_stored reach htg hev
  obtain ⟨ttl, hs, -⟩ := hstored.ev
  have hts : cfg.trace = (later ++ g :: since) ++ s :: older := by simp [htg]
  obtain ⟨device, row, hrow, -⟩ := stored_bound reach hts hs
  exact ⟨s, by simp [hts], row, hrow⟩

/-! ### Times that are written -/

/-- The time `t` was read off the clock when the participant was there. -/
def ReadAfterSeen (p : String) (t : Date) (trace : Trace) : Prop :=
  ∃ later f earlier, trace = later ++ f :: earlier ∧ f.ev = ⟨.now, .ok t⟩ ∧ Seen p earlier

/-- Such a time comes after the participant has joined. -/
theorem ReadAfterSeen.joined (reach : Reachable env cfg) (h : ReadAfterSeen p t cfg.trace)
    {row : Participant} (hrow : cfg.store.participants.find? p = some row) :
    row.joinedAt ≤ t ∧ t ≤ env.clock cfg.store.steps := by
  obtain ⟨later, f, earlier, ht, hev, q, hq, r, hseen⟩ := h
  have hf : f ∈ cfg.trace := by simp [ht]
  rw [reading_eq reach hf hev]
  refine ⟨Nat.le_trans ?_ (clock_le reach ht hq), clock_past reach hf⟩
  exact joined_by reach (by simp [ht, hq]) hseen hrow

/-- The last reading of a call's own history, when an event of the history before it says that the
participant was there. -/
theorem readAfterSeen_of_own {past : List Event} (reach : Reachable env cfg)
    (hown : own i cfg.trace = ⟨.now, .ok t⟩ :: past)
    (hseen : ∀ pre, Reachable env pre → own i pre.trace = past → Seen p pre.trace) :
    ReadAfterSeen p t cfg.trace := by
  obtain ⟨later, f, earlier, ht, hid, hev, -, hpast⟩ := own_head hown
  obtain ⟨pre, -, hpre, rfl, -⟩ := reach.cut ht
  exact ⟨later, f, pre.trace, ht, hev, hseen pre hpre hpast⟩

/-- The times that are written to a participant's row. -/
theorem write_readAfterSeen (reach : Reachable env cfg) {later : Trace} {x : HubEntry}
    {earlier : Trace} (ht : cfg.trace = later ++ x :: earlier) {data : ParticipantUpdate}
    (hop : x.ev.op = .participantUpdate p data)
    (htime : data.boundAt = some t ∨ data.lastChallengeAt = some t) :
    ReadAfterSeen p t earlier := by
  have hwrite := hub_write reach ht hop
  obtain ⟨pre, -, hpre, rfl, -⟩ := reach.cut ht
  generalize hown : own x.id pre.trace = past at hwrite
  generalize x.call = c at hwrite
  cases hwrite with
  | @bind _ joinToken _ _ parsed _ _ t₀ hacc =>
    obtain rfl : t₀ = t := by simpa [bindData] using htime
    apply readAfterSeen_of_own hpre hown
    intro mid hmid hpast
    have hread : ⟨.redisGet (.joinToken joinToken), .ok (some parsed)⟩ ∈ own x.id mid.trace := by
      simp [hpast, hacc.past_eq]
    exact seen_of_token hmid hread
  | @noDevice m _ rows row _ t₀ hloop hrow =>
    obtain rfl : t₀ = t := by simpa [noDeviceData] using htime
    apply readAfterSeen_of_own hpre hown
    intro mid hmid hpast
    obtain ⟨turns, rfl⟩ := hloop
    have hread : ⟨.participantFindMany m, .ok rows⟩ ∈ own x.id mid.trace := by
      simp [hpast]
    exact seen_of_findMany hmid hread hrow
  | @verdict cid _ _ challenge _ _ _ now t₀ hacc =>
    obtain rfl : t₀ = t := by simpa [verdictData] using htime
    apply readAfterSeen_of_own hpre hown
    intro mid hmid hpast
    have hread : ⟨.redisGet (.challenge cid), .ok (some challenge)⟩ ∈ own x.id mid.trace := by
      simp [hpast, hacc.past_eq]
    exact seen_of_challenge hmid hread

/-- The times of a participant's row. -/
theorem participant_times (reach : Reachable env cfg) {row : Participant}
    (hrow : cfg.store.participants.find? p = some row)
    (htime : row.boundAt = some t ∨ row.lastChallengeAt = some t) :
    row.joinedAt ≤ t ∧ t ≤ env.clock cfg.store.steps := by
  refine reach.throughout (fun w => ∀ row t, w.participants.find? p = some row →
    row.boundAt = some t ∨ row.lastChallengeAt = some t →
    row.joinedAt ≤ t ∧ t ≤ env.clock w.steps) ?_ ?_ row t hrow htime
  · rintro w ⟨tenants, rfl⟩ row t ⟨⟩
  · intro x hx ih row t hrow htime
    change (exec env x.ev.op x.before).2.participants.find? p = some row at hrow
    change row.joinedAt ≤ t ∧ t ≤ env.clock (exec env x.ev.op x.before).2.steps
    have hclock : env.clock x.before.steps ≤ env.clock (exec env x.ev.op x.before).2.steps := by
      rw [exec_steps]
      exact env.clock_mono (Nat.le_succ _)
    obtain ⟨later, earlier, ht⟩ := List.append_of_mem hx
    obtain ⟨pre, -, hpre, rfl, hstore, -⟩ := reach.cut ht
    have hbefore : row.joinedAt ≤ t ∧ t ≤ env.clock x.before.steps := by
      have hstep : ParticipantStep env x.before p x.ev (some row) :=
        hrow ▸ hub_participant reach hx p
      generalize hev : x.ev = ev at hstep
      generalize hnew : some row = new at hstep
      cases hstep with
      | same => exact ih row t hnew.symm htime
      | @update data old hold =>
        cases hnew
        -- a time is the one that is written, or was there before
        by_cases hwritten : data.boundAt = some t ∨ data.lastChallengeAt = some t
        · have hread := write_readAfterSeen reach ht (congrArg Ev.op hev) hwritten
          rw [← hstore] at hold ⊢
          exact (hread.joined hpre hold : old.joinedAt ≤ t ∧ _)
        · apply ih old t hold
          simp only [ParticipantUpdate.apply, Option.or_eq_some_iff] at htime
          rcases htime with (h | ⟨-, h⟩) | (h | ⟨-, h⟩)
          · exact absurd (.inl h) hwritten
          · exact .inl h
          · exact absurd (.inr h) hwritten
          · exact .inr h
      | create =>
        cases hnew
        rcases htime with ⟨⟨⟩⟩ | ⟨⟨⟩⟩
    exact ⟨hbefore.1, Nat.le_trans hbefore.2 hclock⟩

/-- A device that a call has read before it read the clock had been enrolled by that time. -/
theorem enrolled_reading (reach : Reachable env cfg) {past : List Event} {r : Device}
    (hown : own i cfg.trace = ⟨.now, .ok t⟩ :: past)
    (hread : ⟨.deviceFindUnique d, .ok (some r)⟩ ∈ past) :
    ∃ device, cfg.store.devices.find? d = some device ∧ device.enrolledAt ≤ t := by
  obtain ⟨later, f, earlier, ht, -, hev, -, rfl⟩ := own_head hown
  obtain ⟨q, hq, -, hqev⟩ := mem_own.mp hread
  have hmem : q ∈ cfg.trace := by simp [ht, hq]
  have hseen := exec_deviceFindUnique_ok (hub_did reach hmem hqev)
  have hgrows := run_grows reach hmem
  obtain ⟨device, hdevice, -⟩ := hgrows.devices d r hseen
  refine ⟨device, hdevice, ?_⟩
  rw [reading_eq reach (by simp [ht]) hev]
  exact Nat.le_trans (enrolled_by reach hmem hseen hdevice) (clock_le reach ht hq)

/-- The device of a binding was enrolled before. -/
theorem bound_times (reach : Reachable env cfg) {row : Participant}
    (hrow : cfg.store.participants.find? p = some row) (hd : row.deviceId = some d)
    (ht : row.boundAt = some t) :
    ∃ device, cfg.store.devices.find? d = some device ∧ device.enrolledAt ≤ t := by
  refine reach.throughout (fun w => ∀ row d t, w.participants.find? p = some row →
    row.deviceId = some d → row.boundAt = some t →
    ∃ device, w.devices.find? d = some device ∧ device.enrolledAt ≤ t) ?_ ?_ row d t hrow hd ht
  · rintro w ⟨tenants, rfl⟩ row d t ⟨⟩
  · intro x hx ih row d t hrow hd hbound
    change (exec env x.ev.op x.before).2.participants.find? p = some row at hrow
    change ∃ device, (exec env x.ev.op x.before).2.devices.find? d = some device ∧ _
    obtain ⟨later, earlier, ht⟩ := List.append_of_mem hx
    obtain ⟨pre, -, hpre, rfl, hstore, -⟩ := reach.cut ht
    have hbefore : ∃ device, x.before.devices.find? d = some device ∧ device.enrolledAt ≤ t := by
      have hstep : ParticipantStep env x.before p x.ev (some row) :=
        hrow ▸ hub_participant reach hx p
      generalize hev : x.ev = ev at hstep
      generalize hnew : some row = new at hstep
      cases hstep with
      | same => exact ih row d t hnew.symm hd hbound
      | @update data old hold =>
        cases hnew
        have hwrite := hub_write reach ht (congrArg Ev.op hev)
        generalize hown : own x.id pre.trace = past at hwrite
        generalize x.call = c at hwrite
        cases hwrite with
        | @bind _ _ deviceId _ _ device _ t₀ hacc =>
          obtain rfl : deviceId = d := Option.some.inj hd
          obtain rfl : t₀ = t := Option.some.inj hbound
          rw [← hstore]
          exact enrolled_reading hpre hown (r := device) (by simp [hacc.past_eq])
        | noDevice => exact ih old d t hold hd hbound
        | verdict => exact ih old d t hold hd hbound
      | create =>
        cases hnew
        cases hd
    obtain ⟨device, hdevice, henrolled⟩ := hbefore
    obtain ⟨device', hdevice', hgrows⟩ := @device_grows env x.ev.op x.before d device hdevice
    exact ⟨device', hdevice', hgrows.enrolledAt ▸ henrolled⟩

/-- The heartbeat of a device. -/
theorem heartbeat_past (reach : Reachable env cfg) {row : Device}
    (hrow : cfg.store.devices.find? d = some row) (ht : row.lastHeartbeat = some t) :
    t ≤ env.clock cfg.store.steps := by
  refine reach.throughout (fun w => ∀ row t, w.devices.find? d = some row →
    row.lastHeartbeat = some t → t ≤ env.clock w.steps) ?_ ?_ row t hrow ht
  · rintro w ⟨tenants, rfl⟩ row t ⟨⟩
  · intro x hx ih row t hrow hbeat
    change (exec env x.ev.op x.before).2.devices.find? d = some row at hrow
    change t ≤ env.clock (exec env x.ev.op x.before).2.steps
    have hclock : env.clock x.before.steps ≤ env.clock (exec env x.ev.op x.before).2.steps := by
      rw [exec_steps]
      exact env.clock_mono (Nat.le_succ _)
    refine Nat.le_trans ?_ hclock
    obtain ⟨later, earlier, ht⟩ := List.append_of_mem hx
    have hpoint := hub_point reach ht
    obtain ⟨pre, -, hpre, rfl, hstore, -⟩ := reach.cut ht
    have hpast : ⟨.now, .ok t⟩ ∈ own x.id pre.trace → t ≤ env.clock x.before.steps := by
      rw [← hstore]
      exact reading_past hpre
    have hstep : DeviceStep env x.before d x.ev (some row) := hrow ▸ hub_device reach hx d
    generalize x.ev = ev at hstep hpoint
    generalize hnew : some row = new at hstep
    cases hstep with
    | same => exact ih row t hnew.symm hbeat
    | @update data old hold =>
      cases hnew
      have hwrite := point_deviceUpdate hpoint
      generalize own x.id pre.trace = past at hwrite hpast
      generalize x.call = c at hwrite
      cases hwrite with
      | reEnroll =>
        cases hbeat
        exact hpast List.mem_cons_self
      | heartbeat =>
        cases hbeat
        exact hpast List.mem_cons_self
    | @create data =>
      cases hnew
      obtain ⟨dto, t₀, -, rfl, hown⟩ := point_deviceCreate hpoint
      cases hbeat
      rw [hown] at hpast
      exact hpast List.mem_cons_self
    | @revoke old hold =>
      cases hnew
      exact ih old t hold hbeat

/-! ### Records in Redis -/

theorem RedisSet.challenge_times {c : Call} {past : List Event} {cid : String}
    {record : ChallengeRecord} {ttl : Nat} (h : RedisSet c past (.challenge cid) record ttl) :
    ∃ (t t' : Date) (rest : List Event), past = ⟨.now, .ok t'⟩ :: ⟨.now, .ok t⟩ :: rest ∧
      record.issuedAt = t ∧ record.expiresAt = t' + 10000 ∧ ttl = 15 := by
  cases h with
  | @challenge _ _ _ _ _ _ _ _ t t' => exact ⟨t, t', _, rfl, rfl, rfl, rfl⟩

theorem RedisSet.joinToken_times {c : Call} {past : List Event} {token : String}
    {parsed : JoinToken} {ttl : Nat} (h : RedisSet c past (.joinToken token) parsed ttl) :
    ∃ (t : Date) (rest : List Event), past = ⟨.now, .ok t⟩ :: rest ∧
      parsed.expiresAt = t + 30000 ∧ ttl = 30 := by
  cases h with
  | @joinToken _ _ _ _ t => exact ⟨t, _, rfl, rfl, rfl⟩

/-- A challenge expires before Redis drops it. -/
theorem challenge_times (reach : Reachable env cfg) {cid : String} {record : ChallengeRecord}
    {deadline : Nat} (hentry : cfg.store.redis.entry (.challenge cid) = some (record, deadline)) :
    record.issuedAt + 10000 ≤ record.expiresAt ∧ record.expiresAt + 5000 ≤ deadline ∧
      deadline ≤ env.clock cfg.store.steps + 15000 := by
  obtain ⟨since, s, earlier, ht, hstored⟩ := redis_stored reach hentry
  obtain ⟨ttl, hs, rfl⟩ := hstored.ev
  have hpast := clock_past reach (show s ∈ cfg.trace by simp [ht])
  have hset := hub_set reach ht (congrArg Ev.op hs)
  obtain ⟨pre, -, hpre, rfl, hstore, -⟩ := reach.cut ht
  obtain ⟨t, t', rest, hown, hissued, hexpires, rfl⟩ := hset.challenge_times
  have hle := reading_le hpre (show _ = [] ++ _ :: _ from hown) List.mem_cons_self
  have hread := reading_past hpre (hown ▸ List.mem_cons_self)
  rw [hstore] at hread
  unfold Date at *
  omega

/-- And so does a join token, unless both happen at once. -/
theorem token_times (reach : Reachable env cfg) {token : String} {parsed : JoinToken}
    {deadline : Nat}
    (hentry : cfg.store.redis.entry (.joinToken token) = some (parsed, deadline)) :
    parsed.expiresAt ≤ deadline ∧ deadline ≤ env.clock cfg.store.steps + 30000 := by
  obtain ⟨since, s, earlier, ht, hstored⟩ := redis_stored reach hentry
  obtain ⟨ttl, hs, rfl⟩ := hstored.ev
  have hpast := clock_past reach (show s ∈ cfg.trace by simp [ht])
  have hset := hub_set reach ht (congrArg Ev.op hs)
  obtain ⟨pre, -, hpre, rfl, hstore, -⟩ := reach.cut ht
  obtain ⟨t, rest, hown, hexpires, rfl⟩ := hset.joinToken_times
  have hread := reading_past hpre (hown ▸ List.mem_cons_self)
  rw [hstore] at hread
  unfold Date at *
  omega

/-! ### Any run -/

/-- In every reachable state. -/
theorem times_in_order (reach : Reachable env cfg) :
    cfg.store.TimesInOrder (env.clock cfg.store.steps) where
  meetings := (inserted_in_order reach).meetings
  participants p row hrow := {
    joined := ((inserted_in_order reach).participants p row hrow).1
    bound := fun t ht => participant_times reach hrow (.inl ht)
    challenged := fun t ht => participant_times reach hrow (.inr ht) }
  joined p row meeting hrow hmeeting := by
    obtain ⟨-, meeting', hmeeting', hle⟩ := (inserted_in_order reach).participants p row hrow
    rw [hmeeting] at hmeeting'
    cases hmeeting'
    exact hle
  devices d row hrow := ⟨(inserted_in_order reach).devices d row hrow,
    fun t ht => heartbeat_past reach hrow ht⟩
  bound p row d device t hrow hd ht hdevice := by
    obtain ⟨device', hdevice', hle⟩ := bound_times reach hrow hd ht
    rw [hdevice] at hdevice'
    cases hdevice'
    exact hle
  audit event hevent := by
    obtain ⟨ns, -, hpast, hlog⟩ := reachable_loggedAt reach
    have hmem := List.mem_map_of_mem (f := fun e => (e.id, e.createdAt)) hevent
    rw [hlog] at hmem
    obtain ⟨n, hn, heq⟩ := List.mem_map.mp hmem
    rw [← (Prod.mk.inj heq).2]
    exact env.clock_mono (Nat.le_of_lt (hpast n hn))
  challenges cid record deadline hentry := challenge_times reach hentry
  tokens token parsed deadline hentry := token_times reach hentry

/-- Alice's participant has been bound and challenged. -/
theorem times_in_order_sample : ∃ cfg row, Reachable (Sample.env 0 0) cfg ∧
    cfg.store.participants.find? (Sample.uuid 7) = some row ∧ row.boundAt.isSome ∧
    cfg.store.TimesInOrder ((Sample.env 0 0).clock cfg.store.steps) := by
  let cfg := Sample.run (Sample.env 0 0) (Sample.challenged (Sample.env 0 0))
  have hreach : Reachable (Sample.env 0 0) cfg := Sample.run_reachable _ _
  have hbound : (cfg.store.participants.find? (Sample.uuid 7)).any (·.boundAt.isSome) = true := by
    decide +kernel
  obtain ⟨row, hrow, hbound⟩ := (Option.any_eq_true _ _).mp hbound
  exact ⟨cfg, row, hreach, hrow, hbound, times_in_order hreach⟩

end TroofAI.Hub
