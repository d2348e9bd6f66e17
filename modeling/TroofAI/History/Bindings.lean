import TroofAI.History.Rows

/-!
Bindings and device keys over a run.

A participant's row names a device because a `bindDevice` call wrote it there, and names it
until the next bind (`bound_by`, `binds_kept`). The row of a device that exists keeps its tenant
and its user; its key changes, and its status becomes active again, only by an `enroll`
call for the device (`device_step`, `key_read`).
-/

namespace TroofAI.Hub

open TroofAI.Await MeetingService ChallengeService DeviceService

variable {env : Env} {ok : HubConfig → Nat → Op → Prop} {init : World → Prop} {cfg : HubConfig}
  {p d : String}

/-! ### Bindings -/

/-- The participant `p` is bound to the device `d`. -/
def World.BoundTo (w : World) (p d : String) : Prop :=
  ∃ row, w.participants.find? p = some row ∧ row.deviceId = some d

instance (w : World) (p d : String) : Decidable (w.BoundTo p d) :=
  decidable_of_iff ((w.participants.find? p).any fun row => row.deviceId = some d) (by
    unfold World.BoundTo
    cases w.participants.find? p <;> simp)

theorem World.BoundTo.unique {w : World} {d' : String} (h : w.BoundTo p d) (h' : w.BoundTo p d') :
    d = d' := by
  obtain ⟨row, hrow, hd⟩ := h
  obtain ⟨row', hrow', hd'⟩ := h'
  rw [hrow] at hrow'
  cases hrow'
  exact Option.some.inj (hd.symm.trans hd')

/-- A successful update leaves the participant bound to the device it writes, or to the one
of before when it writes none. -/
theorem boundTo_update {w : World} {data : ParticipantUpdate} {row : Participant}
    (h : (exec env (.participantUpdate p data) w).1 = .ok row) :
    (exec env (.participantUpdate p data) w).2.BoundTo p d ↔
      data.deviceId = some d ∨ (data.deviceId = none ∧ w.BoundTo p d) := by
  obtain ⟨old, hold, -, -, heq⟩ := exec_participantUpdate_ok h
  unfold World.BoundTo
  rw [heq, Table.find?_modify, if_pos rfl, hold]
  cases hdata : data.deviceId <;> simp [ParticipantUpdate.apply, hdata]

/-- The event bound the participant `p` to the device `d`. -/
def Binds (p d : String) (e : HubEntry) : Prop :=
  ∃ data row, e.ev = ⟨.participantUpdate p data, .ok row⟩ ∧ data.deviceId = some d

/-- Only `bindDevice` binds, with the device's signature over a token for the participant. -/
theorem binds_by (reach : Reach (hub env) ok init cfg) {later earlier : Trace} {e : HubEntry}
    (ht : cfg.trace = later ++ e :: earlier) (h : Binds p d e) :
    ∃ meetingId joinToken signature parsed device,
      e.call = .bindDevice meetingId joinToken d signature ∧ parsed.participantId = p ∧
      BindAccepted env meetingId joinToken d signature parsed device
        [⟨.deviceFindUnique d, .ok (some device)⟩,
          ⟨.redisGet (.joinToken joinToken), .ok (some parsed)⟩] ∧
      ∃ t, own e.id earlier = [⟨.now, .ok t⟩, ⟨.redisDel (.joinToken joinToken), .ok ()⟩,
        ⟨.deviceFindUnique d, .ok (some device)⟩,
        ⟨.redisGet (.joinToken joinToken), .ok (some parsed)⟩] := by
  obtain ⟨data, row, hev, hd⟩ := h
  have hwrite := hub_write reach ht (congrArg Ev.op hev)
  generalize hcall : e.call = c at hwrite
  generalize hown : own e.id earlier = past at hwrite
  cases hwrite with
  | @bind meetingId joinToken deviceId signature parsed device reads t hacc =>
    obtain rfl : deviceId = d := Option.some.inj hd
    obtain ⟨hmeeting, hvalid, rfl⟩ := hacc
    exact ⟨meetingId, joinToken, signature, parsed, device, rfl, rfl, ⟨hmeeting, hvalid, rfl⟩,
      t, rfl⟩
  | noDevice => cases hd
  | verdict => cases hd

/-- `s` is the event in which an `issueJoinToken` call stored the token for the participant
`p` in the meeting `meetingId`. -/
structure TokenIssued (s : HubEntry) (joinToken meetingId p : String) (expiresAt : Date) :
    Prop where
  call : s.call = .issueJoinToken meetingId p
  event : s.ev = ⟨.redisSet (.joinToken joinToken) ⟨meetingId, p, expiresAt⟩ 30, .ok ()⟩

/-- Every stored join token was issued so. -/
theorem stored_token (reach : Reach (hub env) ok init cfg) {later older : Trace} {s : HubEntry}
    {token : String} {parsed : JoinToken} {ttl : Nat} (ht : cfg.trace = later ++ s :: older)
    (hs : s.ev = ⟨.redisSet (.joinToken token) parsed ttl, .ok ()⟩) :
    TokenIssued s token parsed.meetingId parsed.participantId parsed.expiresAt := by
  have hset := hub_set reach ht (congrArg Ev.op hs)
  generalize hcall : s.call = c at hset
  generalize own s.id older = past at hset
  cases hset with
  | joinToken => exact ⟨hcall, hs⟩

/-- The token of a bind was stored by an `issueJoinToken` call for the participant and the
meeting of the bind, and was alive when the call read it. -/
theorem binds_token (reach : Reach (hub env) ok World.IsInit cfg) {later earlier : Trace}
    {e : HubEntry} (ht : cfg.trace = later ++ e :: earlier) (h : Binds p d e) :
    ∃ meetingId joinToken signature expiresAt device,
      e.call = .bindDevice meetingId joinToken d signature ∧
      (∃ between g since s older, earlier = between ++ g :: (since ++ s :: older) ∧
        g.id = e.id ∧
        g.ev = ⟨.redisGet (.joinToken joinToken), .ok (some ⟨meetingId, p, expiresAt⟩)⟩ ∧
        TokenIssued s joinToken meetingId p expiresAt) ∧
      BindAccepted env meetingId joinToken d signature ⟨meetingId, p, expiresAt⟩ device
        [⟨.deviceFindUnique d, .ok (some device)⟩,
          ⟨.redisGet (.joinToken joinToken), .ok (some ⟨meetingId, p, expiresAt⟩)⟩] ∧
      ⟨.deviceFindUnique d, .ok (some device)⟩ ∈ own e.id earlier := by
  obtain ⟨meetingId, joinToken, signature, parsed, device, hcall, rfl, hacc, t, hown⟩ :=
    binds_by reach ht h
  obtain ⟨tokenMeeting, p, expiresAt⟩ := parsed
  obtain rfl : tokenMeeting = meetingId := hacc.meeting
  have hget : own e.id earlier = [_, _, _] ++ _ :: [] := hown
  obtain ⟨between, g, rest, rfl, hid, hg, -⟩ := own_split hget
  have htg : cfg.trace = (later ++ e :: between) ++ g :: rest := by simp [ht]
  obtain ⟨since, s, older, deadline, rfl, hstored, -⟩ := read_stored reach htg hg
  obtain ⟨ttl, hs, -⟩ := hstored.ev
  have hts : cfg.trace = (later ++ e :: between ++ g :: since) ++ s :: older := by simp [htg]
  have hissued := stored_token reach hts hs
  have hread : ⟨.deviceFindUnique d, .ok (some device)⟩ ∈
      own e.id (between ++ g :: (since ++ s :: older)) := by
    rw [hown]
    simp
  exact ⟨_, joinToken, signature, expiresAt, device, hcall,
    ⟨between, g, since, s, older, rfl, hid, hg, hissued⟩, hacc, hread⟩

/-- A step that is not a bind of the participant leaves its binding alone. -/
theorem boundTo_step (reach : Reach (hub env) ok init cfg) {e : HubEntry} (he : e ∈ cfg.trace)
    (hquiet : ∀ d', ¬ Binds p d' e) :
    (exec env e.ev.op e.before).2.BoundTo p d ↔ e.before.BoundTo p d := by
  have hstep := hub_participant reach he p
  unfold World.BoundTo
  generalize (exec env e.ev.op e.before).2.participants.find? p = new at hstep ⊢
  generalize hev : e.ev = ev at hstep
  cases hstep with
  | same => rfl
  | @update data old hold hdevice =>
    cases hdata : data.deviceId with
    | none => simp [hold, ParticipantUpdate.apply, hdata]
    | some d' => exact absurd ⟨data, _, hev, hdata⟩ (hquiet d')
  | create hnone => simp [hnone, ParticipantCreate.row]

/-- A binding stays until the next bind of the participant. -/
theorem binds_kept (reach : Reach (hub env) ok init cfg) {later earlier : Trace} {e : HubEntry}
    (ht : cfg.trace = later ++ e :: earlier) (h : Binds p d e)
    (hquiet : ∀ x ∈ later, ∀ d', ¬ Binds p d' x) : cfg.store.BoundTo p d := by
  refine reach.carry (fun w => w.BoundTo p d) ht ?_ ?_
  · obtain ⟨data, row, hev, hd⟩ := h
    have hdid := hub_did reach (ht ▸ by simp) hev
    show (exec env e.ev.op e.before).2.BoundTo p d
    rw [hev]
    exact (boundTo_update hdid).mpr (.inl hd)
  · intro x hx hbound
    exact (boundTo_step reach (ht ▸ List.mem_append_left _ hx) (hquiet x hx)).mpr hbound

/-- The newest bind decides. -/
theorem boundTo_newest (reach : Reach (hub env) ok init cfg) {events earlier : Trace} {e : HubEntry}
    (ht : cfg.trace = events ++ e :: earlier) : cfg.store.BoundTo p d ↔
      Newest (fun x => ∃ d', Binds p d' x) (Binds p d) ((exec env e.ev.op e.before).2.BoundTo p d)
        events := by
  refine reach.newest_iff (fun w => w.BoundTo p d) ht ?_ ?_
  · rintro x hx ⟨d', data, row, hev, hd⟩
    have hdid := hub_did reach (ht ▸ List.mem_append_left _ hx) hev
    show (exec env x.ev.op x.before).2.BoundTo p d ↔ _
    rw [congrArg Ev.op hev]
    refine (boundTo_update hdid).trans ⟨?_, ?_⟩
    · rintro (hsame | ⟨hnone, -⟩)
      · exact ⟨data, row, hev, hsame⟩
      · rw [hd] at hnone
        cases hnone
    · rintro ⟨data', row', hev', hd'⟩
      rw [hev] at hev'
      cases hev'
      exact .inl hd'
  · intro x hx hquiet
    exact boundTo_step reach (ht ▸ List.mem_append_left _ hx) fun d' h => hquiet ⟨d', h⟩

/-- A participant that is bound was bound by an event of the run, the newest bind of it. -/
theorem bound_by (reach : Reach (hub env) ok World.IsInit cfg) (h : cfg.store.BoundTo p d) :
    ∃ later e earlier, cfg.trace = later ++ e :: earlier ∧ Binds p d e ∧
      ∀ x ∈ later, ∀ d', ¬ Binds p d' x := by
  have hany : ∃ e ∈ cfg.trace, ∃ d', Binds p d' e := by
    by_contra hnone
    refine reach.throughout (fun w => ¬ w.BoundTo p d) ?_ ?_ h
    · rintro w ⟨tenants, rfl⟩ ⟨row, hrow, -⟩
      cases hrow
    · intro x hx hunbound hbound
      exact hunbound ((boundTo_step reach hx fun d' hb => hnone ⟨x, hx, d', hb⟩).mp hbound)
  obtain ⟨later, e, earlier, ht, ⟨d', hbinds⟩, hquiet⟩ := exists_newest hany
  have hlast : ∀ x ∈ later, ∀ d'', ¬ Binds p d'' x := fun x hx d'' hb => hquiet x hx ⟨d'', hb⟩
  obtain rfl := h.unique (binds_kept reach ht hbinds hlast)
  exact ⟨later, e, earlier, ht, hbinds, hlast⟩

/-- A participant that is bound to a device with an id is read as bound. -/
theorem boundDevice_of_boundTo {w : World} {device : Device} {meetingId : String}
    {order : AnyOrder Participant} {row : Participant × Option Device}
    (hrow : row ∈ w.participantsOf order meetingId) (hbound : w.BoundTo row.1.id d)
    (hdevice : w.devices.find? d = some device) (hd : d ≠ "") : boundDevice row = some d := by
  obtain ⟨r, hr, hdr⟩ := hbound
  have hmem := Table.find?_eq_some.mpr ⟨World.mem_of_mem_participantsOf hrow, rfl⟩
  rw [hr] at hmem
  rw [← (World.mem_participantsOf.mp hrow).2.2, ← Option.some.inj hmem]
  simp [boundDevice, World.withDevice, hdr, hdevice, hd]

/-- The participant `p` is bound to some device. -/
def World.Bound (w : World) (p : String) : Prop := ∃ d, w.BoundTo p d

theorem bound_step (reach : Reach (hub env) ok init cfg) {e : HubEntry} (he : e ∈ cfg.trace)
    (h : e.before.Bound p) : (exec env e.ev.op e.before).2.Bound p := by
  obtain ⟨d, hbound⟩ := h
  by_cases hquiet : ∀ d', ¬ Binds p d' e
  · exact ⟨d, (boundTo_step reach he hquiet).mpr hbound⟩
  · obtain ⟨d', data, row, hev, hd⟩ := not_forall_not.mp hquiet
    have hdid := hub_did reach he hev
    refine ⟨d', ?_⟩
    rw [hev]
    exact (boundTo_update hdid).mpr (.inl hd)

/-- A participant that is bound stays bound. -/
theorem bound_stays (reach : Reach (hub env) ok init cfg) {later earlier : Trace} {e : HubEntry}
    (ht : cfg.trace = later ++ e :: earlier) (h : e.before.Bound p) : cfg.store.Bound p := by
  refine reach.carry (fun w => w.Bound p) ht (bound_step reach (ht ▸ by simp) h) ?_
  exact fun x hx hx' => bound_step reach (ht ▸ List.mem_append_left _ hx) hx'

/-! ### Devices -/

/-- The event is the update by which an `enroll` call gave the existing device `d` the key
`publicKeyPem`. -/
def ReEnrols (d publicKeyPem : String) (e : HubEntry) : Prop :=
  ∃ dto t row, e.call = .enroll dto ∧ dto.deviceId = d ∧ dto.publicKeyPem = publicKeyPem ∧
    e.ev = ⟨.deviceUpdate d (reEnrollData dto t), .ok row⟩

theorem reEnrols_after (reach : Reach (hub env) ok init cfg) {e : HubEntry} {publicKeyPem : String}
    (he : e ∈ cfg.trace) (h : ReEnrols d publicKeyPem e) :
    ∃ row, (exec env e.ev.op e.before).2.devices.find? d = some row ∧
      row.publicKeyPem = publicKeyPem ∧ row.status = .active := by
  obtain ⟨dto, t, row, -, -, hkey, hev⟩ := h
  obtain ⟨old, hold, -, heq⟩ := exec_deviceUpdate_ok (hub_did reach he hev)
  rw [hev]
  refine ⟨_, by rw [heq, Table.find?_modify, if_pos rfl, hold]; rfl, hkey, rfl⟩

/-- The event revoked the device. -/
def Revokes (d : String) (e : HubEntry) : Prop := e.ev = ⟨.revoke d, .ok ()⟩

/-- What an event does to a device that exists: its tenant and its user stay, and so do its
key and status, but for a revocation and for a re-enrolment. -/
structure DeviceKept (d : String) (e : HubEntry) (row row' : Device) : Prop where
  tenantId : row'.tenantId = row.tenantId
  userId : row'.userId = row.userId
  kept : (∀ key, ¬ ReEnrols d key e) → row'.publicKeyPem = row.publicKeyPem ∧
    (row'.status = row.status ∨ Revokes d e ∧ row'.status = .revoked)

theorem device_step (reach : Reach (hub env) ok init cfg) {e : HubEntry} (he : e ∈ cfg.trace)
    {row : Device} (hrow : e.before.devices.find? d = some row) :
    ∃ row', (exec env e.ev.op e.before).2.devices.find? d = some row' ∧
      DeviceKept d e row row' := by
  have hstep := hub_device reach he d
  generalize (exec env e.ev.op e.before).2.devices.find? d = new at hstep ⊢
  generalize hev : e.ev = ev at hstep
  cases hstep with
  | same => exact ⟨row, hrow, rfl, rfl, fun _ => ⟨rfl, .inl rfl⟩⟩
  | @update data old hold =>
    rw [hold] at hrow
    cases hrow
    refine ⟨_, rfl, rfl, rfl, fun hquiet => ?_⟩
    obtain ⟨later, earlier, ht⟩ := List.append_of_mem he
    have hpoint := hub_point reach ht
    rw [hev] at hpoint
    have hwrite := point_deviceUpdate hpoint
    generalize hcall : e.call = c at hwrite
    generalize own e.id earlier = past at hwrite
    cases hwrite with
    | reEnroll => exact absurd ⟨_, _, _, hcall, rfl, rfl, hev⟩ (hquiet _)
    | heartbeat => exact ⟨rfl, .inl rfl⟩
  | create hnone =>
    rw [hrow] at hnone
    cases hnone
  | @revoke old hold =>
    rw [hold] at hrow
    cases hrow
    exact ⟨_, rfl, rfl, rfl, fun _ => ⟨rfl, .inr ⟨hev, rfl⟩⟩⟩

/-- A device stays. -/
theorem device_since (reach : Reach (hub env) ok init cfg) {events earlier : Trace} {e : HubEntry}
    {row : Device} (ht : cfg.trace = events ++ e :: earlier)
    (hrow : e.before.devices.find? d = some row) :
    (∃ row', cfg.store.devices.find? d = some row') ∧
      ∀ x ∈ events, ∃ row', x.before.devices.find? d = some row' := by
  have hcarry : ∀ {cfg' : HubConfig} {events' : Trace}, Reach (hub env) ok init cfg' →
      cfg'.trace = events' ++ e :: earlier → ∃ row', cfg'.store.devices.find? d = some row' := by
    intro cfg' events' reach' ht'
    refine reach'.carry (fun w => ∃ row', w.devices.find? d = some row') ht' ?_ ?_
    · exact (device_step reach' (ht' ▸ by simp) hrow).imp fun _ h => h.1
    · rintro x hx ⟨row', hrow'⟩
      exact (device_step reach' (ht' ▸ List.mem_append_left _ hx) hrow').imp fun _ h => h.1
  refine ⟨hcarry reach ht, fun x hx => ?_⟩
  obtain ⟨l, l', rfl⟩ := List.append_of_mem hx
  have htx : cfg.trace = l ++ x :: (l' ++ e :: earlier) := by simp [ht]
  obtain ⟨pre, -, hpre, htrace, hstore, -⟩ := reach.cut htx
  exact hstore ▸ hcarry hpre htrace

/-- The device of a binding exists. -/
theorem bound_device (reach : Reach (hub env) ok World.IsInit cfg) (h : cfg.store.BoundTo p d) :
    ∃ device, cfg.store.devices.find? d = some device := by
  obtain ⟨later, e, earlier, ht, ⟨data, row, hev, hd⟩, -⟩ := bound_by reach h
  have hdid := hub_did reach (ht ▸ by simp) hev
  obtain ⟨-, -, -, hdevice, -⟩ := exec_participantUpdate_ok hdid
  obtain ⟨device, hfind⟩ := Option.isSome_iff_exists.mp (hdevice d hd)
  refine reach.carry (fun w => ∃ device, w.devices.find? d = some device) ht ?_ ?_
  · obtain ⟨device', hfind', -⟩ := device_step reach (ht ▸ by simp) hfind
    exact ⟨device', hfind'⟩
  · rintro x hx ⟨row, hrow⟩
    obtain ⟨row', hrow', -⟩ := device_step reach (ht ▸ List.mem_append_left _ hx) hrow
    exact ⟨row', hrow'⟩

/-- So a participant that is bound to a device with an id is read as bound. -/
theorem read_as_bound (reach : Reach (hub env) ok World.IsInit cfg) {meetingId : String}
    {order : AnyOrder Participant} {row : Participant × Option Device}
    (hrow : row ∈ cfg.store.participantsOf order meetingId) (hbound : cfg.store.BoundTo row.1.id d)
    (hd : d ≠ "") : boundDevice row = some d := by
  obtain ⟨device, hdevice⟩ := bound_device reach hbound
  exact boundDevice_of_boundTo hrow hbound hdevice hd

/-- The key of a device stays until it is enrolled again. -/
theorem key_kept (reach : Reach (hub env) ok init cfg) {later earlier : Trace} {e : HubEntry}
    {key : String} (ht : cfg.trace = later ++ e :: earlier)
    (hkey : ∃ row, (exec env e.ev.op e.before).2.devices.find? d = some row ∧
      row.publicKeyPem = key)
    (hquiet : ∀ x ∈ later, ∀ key', ¬ ReEnrols d key' x) :
    ∃ row, cfg.store.devices.find? d = some row ∧ row.publicKeyPem = key := by
  refine reach.carry (fun w => ∃ row, w.devices.find? d = some row ∧ row.publicKeyPem = key)
    ht hkey ?_
  rintro x hx ⟨row, hrow, rfl⟩
  obtain ⟨row', hrow', hkept⟩ := device_step reach (ht ▸ List.mem_append_left _ hx) hrow
  exact ⟨row', hrow', (hkept.kept (hquiet x hx)).1⟩

/-! ### What a device's row says -/

/-- The device is ACTIVE, and its key is one of `valid`. -/
def World.Trusted (w : World) (valid : String → Prop) (d : String) : Prop :=
  ∃ row, w.devices.find? d = some row ∧ row.status = .active ∧ valid row.publicKeyPem

/-- The event revoked the device or gave it a key. -/
def SetsTrust (d : String) (e : HubEntry) : Prop := Revokes d e ∨ ∃ key, ReEnrols d key e

theorem ReEnrols.unique {e : HubEntry} {key key' : String} (h : ReEnrols d key e)
    (h' : ReEnrols d key' e) : key = key' := by
  obtain ⟨dto, t, row, hcall, -, rfl, -⟩ := h
  obtain ⟨dto', t', row', hcall', -, rfl, -⟩ := h'
  rw [hcall] at hcall'
  cases hcall'
  rfl

theorem revokes_after (reach : Reach (hub env) ok init cfg) {e : HubEntry} (he : e ∈ cfg.trace)
    (h : Revokes d e) (valid : String → Prop) :
    ¬ (exec env e.ev.op e.before).2.Trusted valid d := by
  rintro ⟨row, hrow, hactive, -⟩
  have heq := exec_revoke_ok (hub_did reach he h)
  rw [congrArg Ev.op h] at hrow
  rw [heq, Table.find?_modify, if_pos rfl] at hrow
  obtain ⟨old, -, rfl⟩ := Option.map_eq_some_iff.mp hrow
  cases hactive

/-- The newest revocation or re-enrolment of a device decides whether it is trusted. -/
theorem trusted_newest (reach : Reach (hub env) ok init cfg) {events earlier : Trace} {e : HubEntry}
    {row : Device} (valid : String → Prop) (ht : cfg.trace = events ++ e :: earlier)
    (hrow : e.before.devices.find? d = some row) : cfg.store.Trusted valid d ↔
      Newest (SetsTrust d) (fun x => ∃ key, ReEnrols d key x ∧ valid key)
        ((exec env e.ev.op e.before).2.Trusted valid d) events := by
  have hmem : ∀ x ∈ events, x ∈ cfg.trace := fun x hx => ht ▸ List.mem_append_left _ hx
  refine reach.newest_iff (fun w => w.Trusted valid d) ht ?_ ?_
  · rintro x hx (hrevokes | ⟨key, henrols⟩)
    · refine iff_of_false (revokes_after reach (hmem x hx) hrevokes valid) ?_
      rintro ⟨key, ⟨dto, t, row', -, -, -, hev⟩, -⟩
      rw [show x.ev = _ from hrevokes] at hev
      cases hev
    · obtain ⟨row', hrow', hkey, hactive⟩ := reEnrols_after reach (hmem x hx) henrols
      constructor
      · rintro ⟨row'', hrow'', -, hvalid⟩
        obtain rfl : row' = row'' := Option.some.inj (hrow'.symm.trans hrow'')
        exact ⟨key, henrols, hkey ▸ hvalid⟩
      · rintro ⟨key', henrols', hvalid⟩
        rw [← henrols.unique henrols', ← hkey] at hvalid
        exact ⟨row', hrow', hactive, hvalid⟩
  · intro x hx hquiet
    obtain ⟨old, hold⟩ := (device_since reach ht hrow).2 x hx
    obtain ⟨new, hnew, hkept⟩ := device_step reach (hmem x hx) hold
    obtain ⟨hkey, hstatus⟩ := hkept.kept fun key h => hquiet (.inr ⟨key, h⟩)
    have hsame : new.status = old.status := hstatus.resolve_right fun h => hquiet (.inl h.1)
    show (exec env x.ev.op x.before).2.Trusted valid d ↔ x.before.Trusted valid d
    simp [World.Trusted, hold, hnew, hkey, hsame]

/-- The device's heartbeat is fresh at `now`. -/
def World.BeatsAt (w : World) (d : String) (now : Date) : Prop :=
  ∃ row, w.devices.find? d = some row ∧ PolicyService.Fresh row.lastHeartbeat now

/-- The event wrote the heartbeat `t` to the device. -/
def Beats (d : String) (t : Date) (e : HubEntry) : Prop :=
  ∃ data row, e.ev = ⟨.deviceUpdate d data, .ok row⟩ ∧ data.lastHeartbeat = some t

/-- The newest heartbeat of a device decides whether it is fresh. -/
theorem beats_newest (reach : Reach (hub env) ok init cfg) {events earlier : Trace} {e : HubEntry}
    {row : Device} (now : Date) (ht : cfg.trace = events ++ e :: earlier)
    (hrow : e.before.devices.find? d = some row) : cfg.store.BeatsAt d now ↔
      Newest (fun x => ∃ t, Beats d t x)
        (fun x => ∃ t, Beats d t x ∧ now ≤ t + PolicyService.heartbeatStaleMs)
        ((exec env e.ev.op e.before).2.BeatsAt d now) events := by
  have hmem : ∀ x ∈ events, x ∈ cfg.trace := fun x hx => ht ▸ List.mem_append_left _ hx
  refine reach.newest_iff (fun w => w.BeatsAt d now) ht ?_ ?_
  · rintro x hx ⟨t, data, row', hev, hbeat⟩
    obtain ⟨old, hold, -, heq⟩ := exec_deviceUpdate_ok (hub_did reach (hmem x hx) hev)
    have hnew : (exec env x.ev.op x.before).2.devices.find? d = some (data.apply old) := by
      rw [congrArg Ev.op hev, heq, Table.find?_modify, if_pos rfl, hold]
      rfl
    have hfresh : PolicyService.Fresh (data.apply old).lastHeartbeat now ↔
        now ≤ t + PolicyService.heartbeatStaleMs := by
      simp [DeviceUpdate.apply, hbeat, PolicyService.Fresh]
    constructor
    · rintro ⟨row'', hrow'', hnow⟩
      obtain rfl : data.apply old = row'' := Option.some.inj (hnew.symm.trans hrow'')
      exact ⟨t, ⟨data, row', hev, hbeat⟩, hfresh.mp hnow⟩
    · rintro ⟨t', ⟨data', row'', hev', hbeat'⟩, hnow⟩
      rw [hev] at hev'
      cases hev'
      obtain rfl : t = t' := Option.some.inj (hbeat.symm.trans hbeat')
      exact ⟨_, hnew, hfresh.mpr hnow⟩
  · intro x hx hquiet
    obtain ⟨old, hold⟩ := (device_since reach ht hrow).2 x hx
    have hstep := hub_device reach (hmem x hx) d
    show (exec env x.ev.op x.before).2.BeatsAt d now ↔ x.before.BeatsAt d now
    unfold World.BeatsAt
    generalize (exec env x.ev.op x.before).2.devices.find? d = new at hstep ⊢
    generalize hev : x.ev = ev at hstep
    cases hstep with
    | same => rfl
    | @update data old' hold' =>
      have hbeat : data.lastHeartbeat = none := by
        cases hdata : data.lastHeartbeat with
        | none => rfl
        | some t => exact absurd ⟨t, data, _, hev, hdata⟩ hquiet
      simp [hold', DeviceUpdate.apply, hbeat]
    | create hnone =>
      rw [hold] at hnone
      cases hnone
    | @revoke old' hold' => simp [hold']

/-- Between the events `r` and `r'` of the trace, `d` was enrolled again with the key
`publicKeyPem`. -/
def EnrolledBetween (trace : Trace) (d publicKeyPem : String) (r r' : HubEntry) : Prop :=
  ∃ x ∈ trace, ReEnrols d publicKeyPem x ∧ r.before.steps < x.before.steps ∧
    x.before.steps < r'.before.steps

/-- Two reads of a device answer the same key, unless it was enrolled again in between. -/
theorem key_read (reach : Reach (hub env) ok init cfg) {r r' : HubEntry} {device device' : Device}
    (hr : r ∈ cfg.trace) (hr' : r' ∈ cfg.trace) (hlt : r.before.steps < r'.before.steps)
    (hread : r.ev = ⟨.deviceFindUnique d, .ok (some device)⟩)
    (hread' : r'.ev = ⟨.deviceFindUnique d, .ok (some device')⟩) :
    device'.publicKeyPem = device.publicKeyPem ∨
      EnrolledBetween cfg.trace d device'.publicKeyPem r r' := by
  obtain ⟨later, between, earlier, ht, hsteps⟩ :=
    reach.between World.steps (fun _ _ => exec_steps) hr' hr hlt
  have hfind := exec_deviceFindUnique_ok (hub_did reach hr hread)
  have hfind' := exec_deviceFindUnique_ok (hub_did reach hr' hread')
  obtain ⟨pre, -, hpre, htrace, hstore, -⟩ := reach.cut ht
  rw [← hstore] at hfind'
  by_cases hany : ∃ x ∈ between, ∃ key, ReEnrols d key x
  · right
    obtain ⟨l, x, l', rfl, ⟨key, hx⟩, hquiet⟩ := exists_newest hany
    have htx : pre.trace = l ++ x :: (l' ++ r :: earlier) := by simp [htrace]
    obtain ⟨row, hrow, hkey, -⟩ := reEnrols_after hpre (htx ▸ by simp) hx
    obtain ⟨row', hrow', rfl⟩ :=
      key_kept hpre htx ⟨row, hrow, hkey⟩ fun y hy key' h => hquiet y hy ⟨key', h⟩
    rw [hfind'] at hrow'
    cases hrow'
    exact ⟨x, ht ▸ by simp, hx, hsteps x (by simp)⟩
  · left
    have hafter : (exec env r.ev.op r.before).2.devices.find? d = some device := by
      rw [hread, exec_devices (by simp [Op.part])]
      exact hfind
    obtain ⟨row', hrow', hkey⟩ :=
      key_kept hpre htrace ⟨device, hafter, rfl⟩ fun y hy key h => hany ⟨y, hy, key, h⟩
    rw [hfind'] at hrow'
    cases hrow'
    exact hkey

end TroofAI.Hub
