import TroofAI.Agent.Signing
import TroofAI.Trust.Honest
import TroofAI.Trust.Identity

/-!
Whether a device that was bound can pass its challenges.

The agent puts the tenant and the user it enrolled with into the text it signs;
`verifyResponse` takes the tenant of the meeting and the user of the participant. No call
compares the two when a device is bound, so a challenge can be one that its device cannot pass
(`foreign_challenge_fails`). Where the three lines with tenant, device and user agree it can
(`challenge_passable_iff`).
-/

namespace TroofAI.Hub

open TroofAI.Await TroofAI.Agent MeetingService ChallengeService

/-- The payload as the agent receives it. -/
def ChallengePayload.message (payload : ChallengePayload) : ChallengeMessage where
  challengeId := payload.challengeId
  meetingId := payload.meetingId
  participantId := payload.participantId
  nonce := payload.nonce
  issuedAt := toISOString payload.issuedAt
  expiresAt := toISOString payload.expiresAt

/-- The agent signs the very text the hub checks. And as long as the challenge is stored, the
agent's timely answer, with a key under which the hub finds its signatures valid, is judged
VERIFIED. -/
structure Passable (env : Env) (enrollment : Enrollment) (record : ChallengeRecord) : Prop where
  text : signChallenge enrollment record.toChallengePayload.message =
    some (ChallengeService.signedMaterial record)
  judged : ∀ cfg later s older device (sign : String → String), Reachable env cfg →
    cfg.trace = later ++ s :: older →
    s.ev = ⟨.redisSet (.challenge record.challengeId) record 15, .ok ()⟩ →
    (∀ x ∈ later, x.ev ≠ ⟨.redisDel (.challenge record.challengeId), .ok ()⟩) →
    Timely env cfg.store record (env.clock s.before.steps) device →
    (∀ text, env.verify device.publicKeyPem text (sign text) = .ok true) →
    ∀ text, signChallenge enrollment record.toChallengePayload.message = some text →
      (∃ reason, aloneResult env (.verifyResponse record.challengeId enrollment.deviceId
        (sign text)) cfg.store = .ok (.verified ⟨true, .verified, reason⟩)) ∧
      (aloneStore env (.verifyResponse record.challengeId enrollment.deviceId (sign text))
        cfg.store).statusOf record.participantId = some .verified

variable {env : Env} {cfg : HubConfig} {enrollment : Enrollment} {record : ChallengeRecord}
  {d : String}

/-- An id of the hub is long enough for the agent to cut. -/
theorem hasPrefix8_uuid (n : Nat) : hasPrefix8 (env.uuid n) = true := by
  have hlength := env.uuid_length n
  have hunits := length_le_utf16Length (env.uuid n)
  unfold hasPrefix8
  rw [decide_eq_true_eq]
  omega

/-- The agent does not throw on a challenge of the hub. -/
theorem issued_signs (reach : Reachable env cfg) {later older : Trace} {s : HubEntry} {ttl : Nat}
    (ht : cfg.trace = later ++ s :: older)
    (hs : s.ev = ⟨.redisSet (.challenge record.challengeId) record ttl, .ok ()⟩) :
    signChallenge enrollment record.toChallengePayload.message =
      some (challengeString enrollment record.toChallengePayload.message) := by
  obtain ⟨n, hn⟩ := challenge_drawn reach (ht ▸ by simp) (congrArg Ev.op hs)
  obtain ⟨meeting, hmeeting⟩ := Option.isSome_iff_exists.mp (issued_rows reach ht hs).2
  obtain ⟨d, row, hrow, -⟩ := bound_stays reach ht (stored_bound reach ht hs)
  obtain ⟨m, hm⟩ := meeting_drawn reach hmeeting
  obtain ⟨p, hp⟩ := participant_drawn reach hrow
  simp [signChallenge, ChallengePayload.message, hn, hm, hp, hasPrefix8_uuid]

/-- The two texts share their first two lines and their last five. -/
theorem texts_agree_iff (hdevice : enrollment.deviceId = record.deviceId) :
    challengeString enrollment record.toChallengePayload.message =
        ChallengeService.signedMaterial record ↔
      joinLines [enrollment.tenantId, record.deviceId, enrollment.userId] =
        joinLines [record.tenantId, record.deviceId, record.userId] := by
  have hfront : ["troofai-v1", record.challengeId] ≠ [] := by simp
  have hback : [record.meetingId, record.participantId, record.nonce,
      toISOString record.issuedAt, toISOString record.expiresAt] ≠ [] := by simp
  rw [← joinLines_between_iff hfront (by simp) (by simp) hback]
  unfold challengeString ChallengeService.signedMaterial
  rw [hdevice]
  rfl

/-- The agent can pass a stored challenge of its device exactly if the two texts are one. -/
theorem passable_iff (reach : Reachable env cfg) {later older : Trace} {s : HubEntry} {ttl : Nat}
    (ht : cfg.trace = later ++ s :: older)
    (hs : s.ev = ⟨.redisSet (.challenge record.challengeId) record ttl, .ok ()⟩)
    (hdevice : enrollment.deviceId = record.deviceId) :
    Passable env enrollment record ↔
      joinLines [enrollment.tenantId, record.deviceId, enrollment.userId] =
        joinLines [record.tenantId, record.deviceId, record.userId] := by
  rw [← texts_agree_iff hdevice]
  have hsigns : signChallenge enrollment _ = _ := issued_signs reach ht hs
  constructor
  · intro h
    exact Option.some.inj (hsigns.symm.trans h.text)
  · intro heq
    rw [heq] at hsigns
    refine ⟨hsigns, ?_⟩
    intro cfg' later' s' older' device sign reach' ht' hs' hkept htimely hsign text htext
    obtain rfl := Option.some.inj (hsigns.symm.trans htext)
    rw [hdevice]
    exact honest_verified reach' ht' hs' hkept ⟨htimely, hsign _⟩

/-- The user of a challenge is that of its participant, and its tenant that of its meeting. -/
theorem issued_identities (reach : Reachable env cfg) {later older : Trace} {s : HubEntry}
    {cid : String} {ttl : Nat} (ht : cfg.trace = later ++ s :: older)
    (hs : s.ev = ⟨.redisSet (.challenge cid) record ttl, .ok ()⟩) :
    (∃ meeting, cfg.store.meetings.find? record.meetingId = some meeting ∧
      meeting.tenantId = record.tenantId) ∧
    ∃ row, cfg.store.participants.find? record.participantId = some row ∧
      row.userId = record.userId := by
  obtain ⟨m, rows, row, hm, hmany, hrow, hid, -, -, htenant, huser, -⟩ :=
    (stored_issued reach ht hs).reads
  have hown : ∀ ev ∈ own s.id older, ev ∈ own s.id cfg.trace := by
    intro ev hev
    rw [ht, own_append, own_cons_self]
    simp [hev]
  constructor
  · exact ⟨m, meeting_read reach (hown _ hm), htenant⟩
  · obtain ⟨g, hg, -, hgev⟩ := mem_own.mp (hown _ hmany)
    obtain ⟨newer, earlier, htg⟩ := List.append_of_mem hg
    rw [← exec_participantFindMany_ok (hub_did reach hg hgev)] at hrow
    have hfound : g.before.participants.find? record.participantId = some row.1 :=
      Table.find?_eq_some.mpr ⟨World.mem_of_mem_participantsOf hrow, hid⟩
    obtain ⟨row', hrow', -, huser'⟩ := participant_kept reach htg hfound
    exact ⟨row', hrow', huser'.trans huser⟩

/-- A challenge that is emitted to a device is stored, with the tenant of its meeting and the
user of its participant. The device's agent, enrolled as `enrollment`, can pass it exactly if
its own tenant, device and user spell the same three lines; where the tenants hold no line
feed, exactly if it is enrolled in the meeting's tenant for the participant's user. -/
theorem challenge_passable_iff (reach : Reachable env cfg) {later earlier : Trace} {e : HubEntry}
    {payload : ChallengePayload} (ht : cfg.trace = later ++ e :: earlier)
    (he : e.ev.op = .emitChallengeToDevice d payload) (hdevice : enrollment.deviceId = d) :
    ∃ record between s older, earlier = between ++ s :: older ∧ s.id = e.id ∧
      s.ev = ⟨.redisSet (.challenge record.challengeId) record 15, .ok ()⟩ ∧
      record.toChallengePayload = payload ∧ record.deviceId = d ∧
      (∃ meeting, cfg.store.meetings.find? payload.meetingId = some meeting ∧
        meeting.tenantId = record.tenantId) ∧
      (∃ row, cfg.store.participants.find? payload.participantId = some row ∧
        row.userId = record.userId) ∧
      (Passable env enrollment record ↔
        joinLines [enrollment.tenantId, d, enrollment.userId] =
          joinLines [record.tenantId, d, record.userId]) ∧
      ('\n' ∉ enrollment.tenantId.toList → '\n' ∉ record.tenantId.toList →
        (Passable env enrollment record ↔
          enrollment.tenantId = record.tenantId ∧ enrollment.userId = record.userId)) := by
  have hpoint := hub_point reach ht
  rw [he] at hpoint
  obtain ⟨record, rest, rfl, rfl, hown⟩ := point_emitChallenge hpoint
  have hset : own e.id earlier = [] ++ _ :: rest := hown
  obtain ⟨between, s, older, rfl, hid, hs, -, -⟩ := own_split hset
  have hts : cfg.trace = (later ++ e :: between) ++ s :: older := by simp [ht]
  obtain ⟨hmeeting, hrow⟩ := issued_identities reach hts hs
  have hiff := passable_iff reach hts hs hdevice
  refine ⟨record, between, s, older, rfl, hid, hs, rfl, rfl, hmeeting, hrow, hiff, ?_⟩
  intro htenant htenant'
  rw [hiff]
  exact joinLines_outer_iff htenant htenant'

section Sample

/-- The event emits the payload to the device. -/
def emitsTo (d : String) (payload : ChallengePayload) (e : HubEntry) : Bool :=
  match e.ev.op with
  | .emitChallengeToDevice id sent => id = d && sent = payload
  | _ => false

theorem op_of_emitsTo {payload : ChallengePayload} {e : HubEntry}
    (h : emitsTo d payload e = true) : e.ev.op = .emitChallengeToDevice d payload := by
  unfold emitsTo at h
  split at h
  · next id sent hop =>
    obtain ⟨rfl, rfl⟩ : id = d ∧ sent = payload := by simpa using h
    exact hop
  · cases h

/-- Alice's agent can pass the challenge that is emitted to it. -/
theorem challenge_passable_iff_sample :
    ∃ record, record.toChallengePayload = (Sample.challenge (Sample.env 0 0)).toChallengePayload ∧
      Passable (Sample.env 0 0) ⟨"tenant-acme", "laptop-1", "alice"⟩ record := by
  let env := Sample.env 0 0
  have hdevice : (⟨"tenant-acme", "laptop-1", "alice"⟩ : Enrollment).deviceId = "laptop-1" := rfl
  have hany : (Sample.run env (Sample.challenged env)).trace.any
      (emitsTo "laptop-1" (Sample.challenge env).toChallengePayload) = true := by decide +kernel
  have htenant : ((Sample.run env (Sample.challenged env)).store.meetings.find?
      (Sample.uuid 4)).map (·.tenantId) = some "tenant-acme" := by decide +kernel
  have huser : ((Sample.run env (Sample.challenged env)).store.participants.find?
      (Sample.uuid 7)).map (·.userId) = some "alice" := by decide +kernel
  obtain ⟨later, e, earlier, ht, he⟩ := Sample.exists_event hany
  obtain ⟨record, -, -, -, -, -, -, hpayload, -, ⟨meeting, hmeeting, hm⟩, ⟨row, hrow, hu⟩, hiff,
      -⟩ :=
    challenge_passable_iff (Sample.run_reachable env _) ht (op_of_emitsTo he) hdevice
  change (Sample.run env (Sample.challenged env)).store.meetings.find? (Sample.uuid 4) = _
    at hmeeting
  change (Sample.run env (Sample.challenged env)).store.participants.find? (Sample.uuid 7) = _
    at hrow
  rw [hmeeting, Option.map_some, Option.some.injEq] at htenant
  rw [hrow, Option.map_some, Option.some.injEq] at huser
  refine ⟨record, hpayload, hiff.mpr ?_⟩
  rw [← hm, ← hu, htenant, huser]

/-- Alice's participant is bound to bob's device, of another tenant, and challenged from step 24
on. -/
def foreignChallenged : HubConfig :=
  foreignRun.sequence (hub (Sample.env 0 0)) [.issueChallenge (Sample.uuid 4)]

/-- The challenge bob's device gets. -/
def foreignChallenge : ChallengeRecord :=
  Sample.record (Sample.env 0 0) 26 "tenant-acme" (Sample.uuid 4) (Sample.uuid 7) "laptop-2" "alice"

/-- The hub has accepted bob's enrolment and the bind of his device. The text his agent signs for
the challenge is not the one the hub checks, and his answer, in time and signed with the key of
the device, is judged FAILED. -/
theorem foreign_challenge_fails :
    let env := Sample.env 0 0
    Reachable env foreignChallenged ∧
    (∃ r, foreignChallenged.calls[4]? = some
      (Sample.enroll "tenant-globex" "laptop-2" "bob" "pem-2", .done (.ok r))) ∧
    (∃ r, foreignChallenged.calls[5]? = some
      (Sample.bind env 10 (Sample.uuid 4) (Sample.uuid 7) "laptop-2" "pem-2", .done (.ok r))) ∧
    (∃ e ∈ foreignChallenged.trace,
      e.ev.op = .emitChallengeToDevice "laptop-2" foreignChallenge.toChallengePayload) ∧
    (∃ device, device.publicKeyPem = "pem-2" ∧
      Timely env foreignChallenged.store foreignChallenge (env.clock 30) device) ∧
    (∀ text, env.verify "pem-2" text (Sample.sign "pem-2" text) = .ok true) ∧
    ∃ text, signChallenge ⟨"tenant-globex", "laptop-2", "bob"⟩
        foreignChallenge.toChallengePayload.message = some text ∧
      text ≠ ChallengeService.signedMaterial foreignChallenge ∧
      aloneResult env (.verifyResponse foreignChallenge.challengeId "laptop-2"
          (Sample.sign "pem-2" text)) foreignChallenged.store =
        .ok (.verified ⟨false, .failed, "Invalid signature — key mismatch or tampering"⟩) := by
  intro env
  have henrolled : Sample.returned foreignChallenged 4
      (Sample.enroll "tenant-globex" "laptop-2" "bob" "pem-2") = true := by decide +kernel
  have hbound : Sample.returned foreignChallenged 5 (Sample.bind (Sample.env 0 0) 10
      (Sample.uuid 4) (Sample.uuid 7) "laptop-2" "pem-2") = true := by decide +kernel
  have hemitted : foreignChallenged.trace.any
      (emitsTo "laptop-2" foreignChallenge.toChallengePayload) = true := by decide +kernel
  have htimely : timelyAt foreignChallenge 30 "pem-2" foreignChallenged.store = true := by
    decide +kernel
  have hsigns : signChallenge ⟨"tenant-globex", "laptop-2", "bob"⟩
      foreignChallenge.toChallengePayload.message = some (challengeString
        ⟨"tenant-globex", "laptop-2", "bob"⟩ foreignChallenge.toChallengePayload.message) := by
    decide +kernel
  have hdiffer : challengeString ⟨"tenant-globex", "laptop-2", "bob"⟩
      foreignChallenge.toChallengePayload.message ≠
        ChallengeService.signedMaterial foreignChallenge := by decide +kernel
  have hjudged : aloneResult (Sample.env 0 0) (.verifyResponse foreignChallenge.challengeId
      "laptop-2" (Sample.sign "pem-2" (challengeString ⟨"tenant-globex", "laptop-2", "bob"⟩
        foreignChallenge.toChallengePayload.message))) foreignChallenged.store =
      .ok (.verified ⟨false, .failed, "Invalid signature — key mismatch or tampering"⟩) := by
    decide +kernel
  obtain ⟨e, he, hop⟩ := List.any_eq_true.mp hemitted
  exact ⟨reach_sequence _ foreignRun_reachable, Sample.calls_of_returned henrolled,
    Sample.calls_of_returned hbound, ⟨e, he, op_of_emitsTo hop⟩, timely_of_timelyAt htimely,
    Sample.verify_sign 0 0 "pem-2", _, hsigns, hdiffer, hjudged⟩

end Sample

end TroofAI.Hub
