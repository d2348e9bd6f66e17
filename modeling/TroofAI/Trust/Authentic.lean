import TroofAI.History.Bindings
import TroofAI.Hub.Sample

/-!
Challenge authenticity: what stands behind a VERIFIED verdict, in any interleaving.
-/

namespace TroofAI.Hub

open TroofAI.Await MeetingService ChallengeService

variable {env : Env} {cfg : HubConfig}

/-- `s` is the event in which an `issueChallenge` call stored `record` for the
participant `p`, whom it had read as bound to `deviceId`; `older` are the events before. -/
structure IssuedFor (older : Trace) (s : HubEntry) (challengeId : String)
    (record : ChallengeRecord) (p deviceId : String) : Prop where
  call : s.call = .issueChallenge record.meetingId
  event : s.ev = ⟨.redisSet (.challenge challengeId) record 15, .ok ()⟩
  challenge : record.challengeId = challengeId
  participant : record.participantId = p
  device : record.deviceId = deviceId
  /-- the meeting and the participants the call had read -/
  reads : ∃ m rows row, ⟨.meetingFindUnique record.meetingId, .ok (some m)⟩ ∈ own s.id older ∧
    ⟨.participantFindMany record.meetingId, .ok rows⟩ ∈ own s.id older ∧ row ∈ rows ∧
    row.1.id = p ∧ row.1.meetingId = m.id ∧ m.id = record.meetingId ∧
    m.tenantId = record.tenantId ∧ row.1.userId = record.userId ∧ row.1.deviceId = some deviceId

theorem boundDevice_eq_some {row : Participant × Option Device} {deviceId : String}
    (h : boundDevice row = some deviceId) :
    row.1.deviceId = some deviceId ∧ deviceId ≠ "" ∧ row.2.isSome := by
  unfold boundDevice at h
  cases hdevice : row.2 with
  | none => simp [hdevice] at h
  | some device =>
    simp only [hdevice, Option.filter_eq_some_iff, decide_eq_true_eq] at h
    exact ⟨h.1, h.2, rfl⟩

/-- Every stored challenge was issued so. -/
theorem stored_issued (reach : Reachable env cfg) {later older : Trace} {s : HubEntry}
    {cid : String} {record : ChallengeRecord} {ttl : Nat}
    (ht : cfg.trace = later ++ s :: older)
    (hs : s.ev = ⟨.redisSet (.challenge cid) record ttl, .ok ()⟩) :
    IssuedFor older s cid record record.participantId record.deviceId := by
  obtain ⟨m, rows, row, hcall, hm, hrows, hrow, hbound, hcid, hp, huser, htenant, rfl⟩ :=
    (hub_set reach ht (congrArg Ev.op hs)).challenge_issued
  obtain ⟨pre, -, hpre, rfl, -⟩ := reach.cut ht
  -- what the two reads answered is what the store held
  obtain ⟨f, -, -, hfind⟩ := hub_did_own hpre hm
  obtain ⟨g, -, -, hmany⟩ := hub_did_own hpre hrows
  have hmid : m.id = record.meetingId := Table.find?_key (exec_meetingFindUnique_ok hfind)
  have hmeeting : row.1.meetingId = record.meetingId := by
    have hmem := hrow
    rw [← exec_participantFindMany_ok hmany] at hmem
    exact World.meetingId_of_mem_participantsOf hmem
  exact {
    call := hcall
    event := hs
    challenge := hcid
    participant := rfl
    device := rfl
    reads := ⟨m, rows, row, hm, hrows, hrow, hp.symm, hmeeting.trans hmid.symm, hmid,
      htenant.symm, huser.symm, (boundDevice_eq_some hbound).1⟩ }

/-- What a read of the participants answers is how they are bound. -/
theorem read_bound (reach : Reachable env cfg) {g : HubEntry} (hg : g ∈ cfg.trace) {m p d : String}
    {rows : List (Participant × Option Device)} {row : Participant × Option Device}
    (hev : g.ev = ⟨.participantFindMany m, .ok rows⟩) (hrow : row ∈ rows) (hid : row.1.id = p)
    (hd : row.1.deviceId = some d) : g.before.BoundTo p d := by
  rw [← exec_participantFindMany_ok (hub_did reach hg hev)] at hrow
  exact ⟨row.1, Table.find?_eq_some.mpr ⟨World.mem_of_mem_participantsOf hrow, hid⟩, hd⟩

/-- Where a challenge is stored its participant is bound, for it was when it was read. -/
theorem stored_bound (reach : Reachable env cfg) {later older : Trace} {s : HubEntry}
    {cid : String} {record : ChallengeRecord} {ttl : Nat} (ht : cfg.trace = later ++ s :: older)
    (hs : s.ev = ⟨.redisSet (.challenge cid) record ttl, .ok ()⟩) :
    s.before.Bound record.participantId := by
  obtain ⟨m, rows, row, -, hmany, hrow, hid, -, -, -, -, hdevice⟩ :=
    (stored_issued reach ht hs).reads
  obtain ⟨pre, -, hpre, rfl, hstore, -⟩ := reach.cut ht
  obtain ⟨g, hg, -, hgev⟩ := mem_own.mp hmany
  obtain ⟨between, earlier, htg⟩ := List.append_of_mem hg
  rw [← hstore]
  exact bound_stays hpre htg ⟨record.deviceId, read_bound hpre hg hgev hrow hid hdevice⟩

/-! ### Binds since a challenge was issued -/

/-- `g` is the event in which the call that issued the challenge `cid` read the participants, `p`
bound to `d` among them, and it stored the challenge for the two in one of the later events
`since`. -/
structure ReadFor (since : Trace) (g : HubEntry) (cid p d : String) : Prop where
  read : ∃ m rows row, g.ev = ⟨.participantFindMany m, .ok rows⟩ ∧ row ∈ rows ∧ row.1.id = p ∧
    row.1.deviceId = some d
  stored : ∃ s ∈ since, s.id = g.id ∧ ∃ record ttl, record.participantId = p ∧
    record.deviceId = d ∧ s.ev = ⟨.redisSet (.challenge cid) record ttl, .ok ()⟩

/-- Since `issueChallenge` read the participant `p` for the challenge `cid`, the newest bind of
`p`, if there is one, is to the device `d`. -/
def BoundSince (trace : Trace) (cid p d : String) : Prop :=
  ∃ since g older, trace = since ++ g :: older ∧ ReadFor since g cid p d ∧
    Newest (fun x => ∃ d', Binds p d' x) (Binds p d) True since

theorem ReadFor.bound_iff (reach : Reachable env cfg) {since older : Trace} {g : HubEntry}
    {cid p d : String} (h : ReadFor since g cid p d) (ht : cfg.trace = since ++ g :: older) :
    cfg.store.BoundTo p d ↔
      Newest (fun x => ∃ d', Binds p d' x) (Binds p d) True since := by
  obtain ⟨m, rows, row, hev, hrow, hid, hd⟩ := h.read
  have hbound := read_bound reach (ht ▸ by simp) hev hrow hid hd
  have hafter : (exec env g.ev.op g.before).2.BoundTo p d := by
    unfold World.BoundTo
    rw [congrArg Ev.op hev, exec_participants (by simp [Op.part])]
    exact hbound
  rw [boundTo_newest reach ht, eq_true hafter]

/-- Where a challenge was issued for `p` and `d`, the binds since then say whether `p` is bound
to `d`. -/
theorem bound_since_iff (reach : Reachable env cfg) {later older : Trace} {s : HubEntry}
    {cid : String} {record : ChallengeRecord} {ttl : Nat} (ht : cfg.trace = later ++ s :: older)
    (hs : s.ev = ⟨.redisSet (.challenge cid) record ttl, .ok ()⟩) :
    cfg.store.BoundTo record.participantId record.deviceId ↔
      BoundSince cfg.trace cid record.participantId record.deviceId := by
  constructor
  · intro hbound
    obtain ⟨m, rows, row, -, hmany, hrow, hid, -, -, -, -, hdevice⟩ :=
      (stored_issued reach ht hs).reads
    obtain ⟨g, hg, hgid, hgev⟩ := mem_own.mp hmany
    obtain ⟨between, earlier, rfl⟩ := List.append_of_mem hg
    have htg : cfg.trace = (later ++ s :: between) ++ g :: earlier := by simp [ht]
    have hread : ReadFor (later ++ s :: between) g cid record.participantId record.deviceId :=
      ⟨⟨_, rows, row, hgev, hrow, hid, hdevice⟩,
        s, by simp, hgid.symm, record, ttl, rfl, rfl, hs⟩
    exact ⟨_, g, earlier, htg, hread, (hread.bound_iff reach htg).mp hbound⟩
  · rintro ⟨since, g, earlier, htg, hread, hnewest⟩
    exact (hread.bound_iff reach htg).mpr hnewest

/-! ### VERIFIED verdicts -/

theorem checkSignature_eq_true {publicKeyPem signedMaterial signature : String}
    (h : checkSignature env publicKeyPem signedMaterial signature = true) :
    env.verify publicKeyPem signedMaterial signature = .ok true := by
  unfold checkSignature at h
  split at h
  · next isValid hverify => rw [hverify, h]
  · cases h

/-- When `verifyResponse challengeId deviceId signature` writes VERIFIED on a participant,
its own events are the six below; the record it read was in Redis then, and had been
stored for that participant and that device; the device was read as active, the
signature is valid under its key, and the call came in time. -/
theorem verified_authentic (reach : Reachable env cfg) {later earlier : Trace} {e : HubEntry}
    {challengeId deviceId signature p : String} {data : ParticipantUpdate}
    (ht : cfg.trace = later ++ e :: earlier)
    (hcall : e.call = .verifyResponse challengeId deviceId signature)
    (hop : e.ev.op = .participantUpdate p data) (hverified : data.trustStatus = some .verified) :
    ∃ record device checkedAt now t,
      own e.id earlier = [⟨.now, .ok t⟩, ⟨.now, .ok now⟩,
        ⟨.redisDel (.challenge challengeId), .ok ()⟩,
        ⟨.deviceFindUnique deviceId, .ok (some device)⟩, ⟨.now, .ok checkedAt⟩,
        ⟨.redisGet (.challenge challengeId), .ok (some record)⟩] ∧
      (∃ between g since s older, earlier = between ++ g :: (since ++ s :: older) ∧
        g.id = e.id ∧ g.ev = ⟨.redisGet (.challenge challengeId), .ok (some record)⟩ ∧
        g.before.redis.get (env.clock g.before.steps) (.challenge challengeId) = some record ∧
        IssuedFor older s challengeId record p deviceId) ∧
      env.verify device.publicKeyPem (ChallengeService.signedMaterial record) signature = .ok true ∧
      device.status = .active ∧ checkedAt ≤ record.expiresAt := by
  have hwrite := hub_write reach ht hop
  rw [hcall] at hwrite
  obtain ⟨record, device, checkedAt, now, t, hdevice, hp, rfl, hown⟩ := hwrite.answer
  refine ⟨record, device, checkedAt, now, t, hown, ?_, ?_⟩
  · -- the record the call read was stored by an earlier event
    have hget : own e.id earlier = [_, _, _, _, _] ++ _ :: [] := hown
    obtain ⟨between, g, rest, rfl, hid, hg, -⟩ := own_split hget
    have htg : cfg.trace = (later ++ e :: between) ++ g :: rest := by simp [ht]
    have hlive := exec_redisGet_ok (hub_did reach (htg ▸ by simp) hg)
    obtain ⟨since, s, older, deadline, rfl, hstored, -⟩ := read_stored reach htg hg
    obtain ⟨ttl, hs, -⟩ := hstored.ev
    have hts : cfg.trace = (later ++ e :: between ++ g :: since) ++ s :: older := by simp [htg]
    have hissued := stored_issued reach hts hs
    rw [hp, hdevice] at hissued
    exact ⟨between, g, since, s, older, rfl, hid, hg, hlive, hissued⟩
  · -- the verdict is the policy's
    have hv : (ChallengeService.verdict env record device signature checkedAt now).status =
        .verified := Option.some.inj hverified
    obtain ⟨hactive, hfresh, hvalid, -⟩ := PolicyService.evaluate_verified_iff.mp hv
    refine ⟨checkSignature_eq_true hvalid, hactive, ?_⟩
    simpa using hfresh

/-- Alice's device answers its challenge. -/
theorem verified_authentic_sample :
    let env := Sample.env 0 0
    let answer := Sample.answer (Sample.challenge env) "pem-1"
    ∃ cfg later e earlier, Reachable env cfg ∧ cfg.trace = later ++ e :: earlier ∧
      Sample.writesStatus answer (Sample.uuid 7) .verified e = true ∧
      ∃ older s record, IssuedFor older s (Sample.uuid 22) record (Sample.uuid 7) "laptop-1" := by
  intro env answer
  have hany : (Sample.run env (Sample.challenged env ++ [answer])).trace.any
      (Sample.writesStatus answer (Sample.uuid 7) .verified) = true := by decide +kernel
  have hrun := Sample.run_reachable env (Sample.challenged env ++ [answer])
  obtain ⟨later, e, earlier, ht, hwrite⟩ := Sample.exists_event hany
  obtain ⟨hcall, data, hop, hstatus⟩ := Sample.writesStatus_iff.mp hwrite
  obtain ⟨record, -, -, -, -, -, ⟨-, -, -, s, older, -, -, -, -, hissued⟩, -⟩ :=
    verified_authentic hrun ht hcall hop hstatus
  exact ⟨_, later, e, earlier, hrun, ht, hwrite, older, s, record, hissued⟩

end TroofAI.Hub
