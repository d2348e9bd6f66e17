import TroofAI.Hub.Challenge

/-!
The hub as a system of calls that run at the same time.

`Call` lists what can be asked of the hub: the requests of agents and dashboards, the
events of socket clients, and an administrator who revokes a device in the database.
`Call.Point` collects the points of the services, and `body_obeys` says that every
call keeps to them.

The last section reads the points backwards: for each kind of write, which calls
perform it and with what history of their own. The properties of runs rest on these
inversions and never look into a service again.
-/

namespace TroofAI.Hub

open TroofAI.Await

/-- The demo tenant is looked up by its name, and created when it is missing. -/
def ensureDemoTenant : Service Tenant := do
  let existing ← call (.tenantFindFirst "TroofAI Demo")
  match existing with
  | some tenant => return tenant
  | none => call (.tenantCreate "TroofAI Demo")

/-- `EventsGateway.handleHeartbeat` answers the same whether the update succeeds or not. -/
def handleHeartbeat (deviceId : String) : Service Unit :=
  Prog.tryCatch (DeviceService.heartbeat deviceId >>= fun _ => pure ()) fun _ => pure ()

inductive Call where
  | ensureDemoTenant
  | enroll (dto : EnrollDeviceDto)
  | heartbeat (deviceId : String)
  | create (tenantId name : String)
  | addParticipant (meetingId userId displayName : String)
  | issueJoinToken (meetingId participantId : String)
  | bindDevice (meetingId joinToken deviceId signature : String)
  | issueChallenge (meetingId : String)
  | verifyResponse (challengeId deviceId signature : String)
  | socket (event : SocketEvent)
  | revoke (deviceId : String)
deriving DecidableEq, Repr

inductive Reply where
  | ack
  | tenant (row : Tenant)
  | device (row : Device)
  | meeting (row : Meeting)
  | participant (row : Participant)
  | joinToken (issued : MeetingService.IssuedToken)
  | issued (results : List ChallengeService.IssueResult)
  | verified (result : ChallengeService.VerifyResult)
deriving DecidableEq, Repr

def Call.body (env : Env) : Call → Service Reply
  | .ensureDemoTenant => Hub.ensureDemoTenant >>= fun row => pure (.tenant row)
  | .enroll dto => DeviceService.enroll dto >>= fun row => pure (.device row)
  | .heartbeat deviceId => handleHeartbeat deviceId >>= fun _ => pure .ack
  | .create tenantId name => MeetingService.create tenantId name >>= fun row => pure (.meeting row)
  | .addParticipant meetingId userId displayName =>
      MeetingService.addParticipant meetingId userId displayName >>= fun row =>
        pure (.participant row)
  | .issueJoinToken meetingId participantId =>
      MeetingService.issueJoinToken meetingId participantId >>= fun issued =>
        pure (.joinToken issued)
  | .bindDevice meetingId joinToken deviceId signature =>
      MeetingService.bindDevice env meetingId joinToken deviceId signature >>= fun row =>
        pure (.participant row)
  | .issueChallenge meetingId =>
      ChallengeService.issueChallenge meetingId >>= fun results => pure (.issued results)
  | .verifyResponse challengeId deviceId signature =>
      ChallengeService.verifyResponse env challengeId deviceId signature >>= fun result =>
        pure (.verified result)
  | .socket event => call (.socket event) >>= fun _ => pure .ack
  | .revoke deviceId => call (.revoke deviceId) >>= fun _ => pure .ack

/-- The awaits of `ensureDemoTenant`. -/
inductive DemoTenantPoint : List Event → Op → Prop where
  | find : DemoTenantPoint [] (.tenantFindFirst "TroofAI Demo")
  | create : DemoTenantPoint [⟨.tenantFindFirst "TroofAI Demo", .ok none⟩]
      (.tenantCreate "TroofAI Demo")

/-- With which history of its own a call performs which operation. -/
def Call.Point (env : Env) : Call → List Event → Op → Prop
  | .ensureDemoTenant => DemoTenantPoint
  | .enroll dto => DeviceService.EnrollPoint dto
  | .heartbeat deviceId => DeviceService.HeartbeatPoint deviceId
  | .create tenantId name => MeetingService.CreatePoint tenantId name
  | .addParticipant meetingId userId displayName =>
      MeetingService.AddPoint meetingId userId displayName
  | .issueJoinToken meetingId participantId => MeetingService.TokenPoint meetingId participantId
  | .bindDevice meetingId joinToken deviceId signature =>
      MeetingService.BindPoint env meetingId joinToken deviceId signature
  | .issueChallenge meetingId => ChallengeService.IssuePoint meetingId
  | .verifyResponse challengeId deviceId signature =>
      ChallengeService.VerifyPoint env challengeId deviceId signature
  | .socket event => fun past op => past = [] ∧ op = .socket event
  | .revoke deviceId => fun past op => past = [] ∧ op = .revoke deviceId

/-- With which history of its own a call returns: one that enrolls a device, creates a meeting,
adds a participant or binds a device. -/
def Call.Final (env : Env) : Call → List Event → Reply → Prop
  | .enroll dto, past, reply => ∃ row,
      reply = .device row ∧ DeviceService.EnrollDone dto past row
  | .create tenantId name, past, reply => ∃ row,
      reply = .meeting row ∧ MeetingService.CreateDone tenantId name past row
  | .addParticipant meetingId userId displayName, past, reply => ∃ row,
      reply = .participant row ∧ MeetingService.AddDone meetingId userId displayName past row
  | .bindDevice meetingId joinToken deviceId signature, past, reply => ∃ row,
      reply = .participant row ∧
        MeetingService.BindDone env meetingId joinToken deviceId signature past row
  | _, _, _ => True

theorem body_obeys (env : Env) (c : Call) :
    Prog.Obeys (c.Point env) (c.Final env) [] (c.body env) := by
  have done {α : Type} {P : List Event → Op → Prop} {p : Service α} {f : α → Reply}
      (h : Prog.Obeys P (fun _ _ => True) [] p) :
      Prog.Obeys P (fun _ _ => True) [] (p >>= fun a => pure (f a)) := Prog.obeys_map.mpr h
  have returns {α : Type} {P : List Event → Op → Prop} {R : List Event → α → Prop}
      {p : Service α} {f : α → Reply} (h : Prog.Obeys P R [] p) :
      Prog.Obeys P (fun past reply => ∃ row, reply = f row ∧ R past row) []
        (p >>= fun a => pure (f a)) :=
    Prog.obeys_map.mpr (.mono (fun _ _ hop => hop) (fun _ row hrow => ⟨row, rfl, hrow⟩) h)
  cases c with
  | ensureDemoTenant =>
    apply done
    refine Prog.obeys_perform_bind.mpr ⟨.find, fun existing => ?_⟩
    cases existing with
    | some tenant => trivial
    | none => exact Prog.obeys_perform.mpr ⟨.create, fun _ => trivial⟩
  | enroll dto => exact returns (DeviceService.enroll_obeys dto)
  | heartbeat deviceId =>
    apply done
    exact Prog.obeys_tryCatch (Prog.obeys_map.mpr (DeviceService.heartbeat_obeys deviceId))
      fun _ _ => trivial
  | create tenantId name => exact returns (MeetingService.create_obeys tenantId name)
  | addParticipant meetingId userId displayName =>
    exact returns (MeetingService.addParticipant_obeys meetingId userId displayName)
  | issueJoinToken meetingId participantId =>
    exact done (MeetingService.issueJoinToken_obeys meetingId participantId)
  | bindDevice meetingId joinToken deviceId signature =>
    exact returns (MeetingService.bindDevice_obeys env meetingId joinToken deviceId signature)
  | issueChallenge meetingId => exact done (ChallengeService.issueChallenge_obeys meetingId)
  | verifyResponse challengeId deviceId signature =>
    exact done (ChallengeService.verifyResponse_obeys env challengeId deviceId signature)
  | socket event => exact Prog.obeys_perform_bind.mpr ⟨⟨rfl, rfl⟩, fun _ => trivial⟩
  | revoke deviceId => exact Prog.obeys_perform_bind.mpr ⟨⟨rfl, rfl⟩, fun _ => trivial⟩

/-! ### Runs -/

def hub (env : Env) : System Call World Op.Resp HubError Reply := ⟨Call.body env, exec env⟩

abbrev HubConfig := Config Call World Op.Resp HubError Reply

abbrev HubEntry := Entry Call World Op.Resp HubError

abbrev Trace := List HubEntry

/-- The hub as it is set up: tenants only. -/
def World.IsInit (w : World) : Prop := ∃ tenants, w = World.init tenants

/-- What any interleaving of any calls leads to. -/
abbrev Reachable (env : Env) (cfg : HubConfig) : Prop :=
  Reach (hub env) (fun _ _ _ => True) World.IsInit cfg

/-! ### Who writes what -/

open MeetingService ChallengeService DeviceService

/-- The writes to a participant's row. -/
inductive ParticipantWrite (env : Env) : Call → List Event → String → ParticipantUpdate → Prop where
  | bind {meetingId joinToken deviceId signature parsed device reads t} :
      BindAccepted env meetingId joinToken deviceId signature parsed device reads →
      ParticipantWrite env (.bindDevice meetingId joinToken deviceId signature)
        (⟨.now, .ok t⟩ :: ⟨.redisDel (.joinToken joinToken), .ok ()⟩ :: reads)
        parsed.participantId (bindData deviceId device t)
  | noDevice {meetingId m rows row start t} :
      IssueLoop meetingId m rows start → row ∈ rows → boundDevice row = none →
      ParticipantWrite env (.issueChallenge meetingId) (⟨.now, .ok t⟩ :: start)
        row.1.id (noDeviceData t)
  | verdict {challengeId deviceId signature challenge device checkedAt reads now t} :
      AnswerAccepted challengeId deviceId challenge device checkedAt reads →
      ParticipantWrite env (.verifyResponse challengeId deviceId signature)
        (⟨.now, .ok t⟩ :: ⟨.now, .ok now⟩ :: ⟨.redisDel (.challenge challengeId), .ok ()⟩ :: reads)
        challenge.participantId
        (verdictData (ChallengeService.verdict env challenge device signature checkedAt now) t)

/-- The writes of `verifyResponse`, with the whole history of the call. -/
theorem ParticipantWrite.answer {env : Env} {challengeId deviceId signature : String}
    {past : List Event} {p : String} {data : ParticipantUpdate}
    (h : ParticipantWrite env (.verifyResponse challengeId deviceId signature) past p data) :
    ∃ challenge device checkedAt now t, challenge.deviceId = deviceId ∧
      challenge.participantId = p ∧
      data = verdictData
        (ChallengeService.verdict env challenge device signature checkedAt now) t ∧
      past = [⟨.now, .ok t⟩, ⟨.now, .ok now⟩, ⟨.redisDel (.challenge challengeId), .ok ()⟩,
        ⟨.deviceFindUnique deviceId, .ok (some device)⟩, ⟨.now, .ok checkedAt⟩,
        ⟨.redisGet (.challenge challengeId), .ok (some challenge)⟩] := by
  cases h with
  | @verdict _ _ _ challenge device checkedAt reads now t hacc =>
    refine ⟨challenge, device, checkedAt, now, t, hacc.device_eq, rfl, rfl, ?_⟩
    rw [hacc.past_eq]

/-- Every write to a participant's row sets its trust status. -/
theorem ParticipantWrite.status {env : Env} {c : Call} {past : List Event} {p : String}
    {data : ParticipantUpdate} (h : ParticipantWrite env c past p data) :
    ∃ status, data.trustStatus = some status := by
  cases h <;> exact ⟨_, rfl⟩

/-- The records stored in Redis. -/
inductive RedisSet : Call → List Event → (key : RedisKey) → key.Value → Nat → Prop where
  | challenge {meetingId m rows row start deviceId cid nonce t t'} :
      IssueLoop meetingId m rows start → row ∈ rows → boundDevice row = some deviceId →
      RedisSet (.issueChallenge meetingId)
        (⟨.now, .ok t'⟩ :: ⟨.now, .ok t⟩ :: ⟨.randomBytes, .ok nonce⟩ ::
          ⟨.randomUUID, .ok cid⟩ :: start)
        (.challenge cid) (challengeRecord m meetingId row.1 deviceId cid nonce t t') 15
  | joinToken {meetingId participantId p token t} :
      RedisSet (.issueJoinToken meetingId participantId)
        [⟨.now, .ok t⟩, ⟨.randomUUID, .ok token⟩,
          ⟨.participantFindUnique participantId, .ok (some p)⟩]
        (.joinToken token) ⟨meetingId, participantId, t + 30000⟩ 30

/-- The id of a stored challenge is the draw three events before. -/
theorem RedisSet.challenge_drawn {c : Call} {past : List Event} {cid : String}
    {value : RedisKey.Value (.challenge cid)} {ttl : Nat}
    (h : RedisSet c past (.challenge cid) value ttl) :
    past[3]? = some ⟨.randomUUID, .ok cid⟩ := by
  cases h
  rfl

/-- A stored challenge is one that `issueChallenge` issued to a participant it read. -/
theorem RedisSet.challenge_issued {c : Call} {past : List Event} {cid : String}
    {record : ChallengeRecord} {ttl : Nat} (h : RedisSet c past (.challenge cid) record ttl) :
    ∃ m rows row, c = .issueChallenge record.meetingId ∧
      ⟨.meetingFindUnique record.meetingId, .ok (some m)⟩ ∈ past ∧
      ⟨.participantFindMany record.meetingId, .ok rows⟩ ∈ past ∧ row ∈ rows ∧
      boundDevice row = some record.deviceId ∧ record.challengeId = cid ∧
      record.participantId = row.1.id ∧ record.userId = row.1.userId ∧
      record.tenantId = m.tenantId ∧ ttl = 15 := by
  cases h with
  | @challenge meetingId m rows row start deviceId cid nonce t t' hloop hrow hbound =>
    obtain ⟨turns, rfl⟩ := hloop
    refine ⟨m, rows, row, rfl, ?_, ?_, hrow, hbound, rfl, rfl, rfl, rfl, rfl⟩
    · simp [challengeRecord]
    · simp [challengeRecord]

/-- Its expiry is computed from a reading of the clock. -/
theorem RedisSet.challenge_clock {c : Call} {past : List Event} {cid : String}
    {record : ChallengeRecord} {ttl : Nat} (h : RedisSet c past (.challenge cid) record ttl) :
    ∃ t, ⟨.now, .ok t⟩ ∈ past ∧ record.expiresAt = t + 10000 := by
  cases h with
  | @challenge _ _ _ _ _ _ _ _ _ t' => exact ⟨t', List.mem_cons_self, rfl⟩

/-- A stored join token is the draw one event before. -/
theorem RedisSet.joinToken_drawn {c : Call} {past : List Event} {token : String}
    {value : RedisKey.Value (.joinToken token)} {ttl : Nat}
    (h : RedisSet c past (.joinToken token) value ttl) :
    past[1]? = some ⟨.randomUUID, .ok token⟩ := by
  cases h
  rfl

/-- The records deleted from Redis. -/
inductive RedisDel (env : Env) : Call → List Event → RedisKey → Prop where
  | bind {meetingId joinToken deviceId signature parsed device reads} :
      BindAccepted env meetingId joinToken deviceId signature parsed device reads →
      RedisDel env (.bindDevice meetingId joinToken deviceId signature) reads (.joinToken joinToken)
  | verify {challengeId deviceId signature challenge device checkedAt reads} :
      AnswerAccepted challengeId deviceId challenge device checkedAt reads →
      RedisDel env (.verifyResponse challengeId deviceId signature) reads (.challenge challengeId)

/-- A call deletes only a key that it has read. -/
theorem RedisDel.read {env : Env} {c : Call} {past : List Event} {key : RedisKey}
    (h : RedisDel env c past key) :
    ∃ newer older value, past = newer ++ ⟨.redisGet key, .ok (some value)⟩ :: older := by
  cases h with
  | @bind _ _ _ _ parsed _ _ hacc => exact ⟨[_], [], parsed, hacc.past_eq⟩
  | @verify _ _ _ challenge _ _ _ hacc => exact ⟨[_, _], [], challenge, hacc.past_eq⟩

/-- The status updates sent to the dashboards: each has been written and logged by its call. -/
inductive Announces (env : Env) : Call → List Event → String → MeetingUpdate → Prop where
  | noDevice {meetingId m rows row start t p e} :
      IssueLoop meetingId m rows start → row ∈ rows → boundDevice row = none →
      Announces env (.issueChallenge meetingId)
        (⟨.auditCreate (AuditService.row (noDeviceLog m meetingId row.1)), .ok e⟩ ::
          ⟨.participantUpdate row.1.id (noDeviceData t), .ok p⟩ :: ⟨.now, .ok t⟩ :: start)
        meetingId ⟨row.1.id, .failed, "No device binding — cannot verify"⟩
  | verdict {challengeId deviceId signature challenge device checkedAt reads now t p e} :
      AnswerAccepted challengeId deviceId challenge device checkedAt reads →
      Announces env (.verifyResponse challengeId deviceId signature)
        (⟨.auditCreate (AuditService.row (verdictLog challengeId deviceId challenge device
              (responseValid env challenge device signature)
              (ChallengeService.verdict env challenge device signature checkedAt now))), .ok e⟩ ::
          ⟨.participantUpdate challenge.participantId
              (verdictData (ChallengeService.verdict env challenge device signature checkedAt now)
                t), .ok p⟩ ::
          ⟨.now, .ok t⟩ :: ⟨.now, .ok now⟩ :: ⟨.redisDel (.challenge challengeId), .ok ()⟩ :: reads)
        challenge.meetingId
        ⟨challenge.participantId,
          (ChallengeService.verdict env challenge device signature checkedAt now).status,
          (ChallengeService.verdict env challenge device signature checkedAt now).reason⟩

/-- The updates of a device's row. -/
inductive DeviceWrite : Call → List Event → String → DeviceUpdate → Prop where
  | reEnroll {dto device t} :
      DeviceWrite (.enroll dto)
        [⟨.now, .ok t⟩, ⟨.deviceFindUnique dto.deviceId, .ok (some device)⟩]
        dto.deviceId (reEnrollData dto t)
  | heartbeat {deviceId t} :
      DeviceWrite (.heartbeat deviceId) [⟨.now, .ok t⟩] deviceId { lastHeartbeat := some t }

variable {env : Env} {c : Call} {past : List Event} {id : String}

theorem point_participantUpdate {data : ParticipantUpdate}
    (h : c.Point env past (.participantUpdate id data)) : ParticipantWrite env c past id data := by
  cases c <;> cases h
  case bindDevice.bind hacc => exact .bind hacc
  case issueChallenge.turn hloop hrow hturn =>
    cases hturn with
    | noDevice hbound => exact .noDevice hloop hrow hbound
  case verifyResponse.write hacc => exact .verdict hacc
  all_goals contradiction

theorem point_redisSet {key : RedisKey} {value : key.Value} {ttl : Nat}
    (h : c.Point env past (.redisSet key value ttl)) : RedisSet c past key value ttl := by
  cases c <;> cases h
  case issueJoinToken.set => exact .joinToken
  case issueChallenge.turn hloop hrow hturn =>
    cases hturn with
    | store hbound => exact .challenge hloop hrow hbound
  all_goals contradiction

/-- Redis is read first. -/
theorem point_redisGet {key : RedisKey} (h : c.Point env past (.redisGet key)) : past = [] := by
  cases c <;> cases h
  case issueChallenge.turn hloop hrow hturn => cases hturn
  all_goals first | rfl | contradiction

theorem point_redisDel {key : RedisKey} (h : c.Point env past (.redisDel key)) :
    RedisDel env c past key := by
  cases c <;> cases h
  case bindDevice.del hacc => exact .bind hacc
  case verifyResponse.del hacc => exact .verify hacc
  case issueChallenge.turn hloop hrow hturn => cases hturn
  all_goals contradiction

theorem point_deviceUpdate {data : DeviceUpdate} (h : c.Point env past (.deviceUpdate id data)) :
    DeviceWrite c past id data := by
  cases c <;> cases h
  case enroll.update => exact .reEnroll
  case heartbeat.update => exact .heartbeat
  case issueChallenge.turn hloop hrow hturn => cases hturn
  all_goals contradiction

/-- Only an enrolment creates a device. -/
theorem point_deviceCreate {data : DeviceCreate} (h : c.Point env past (.deviceCreate data)) :
    ∃ dto t, c = .enroll dto ∧ data = enrollData dto t ∧
      past = [⟨.now, .ok t⟩, ⟨.deviceFindUnique dto.deviceId, .ok none⟩] := by
  cases c <;> cases h
  case enroll.create => exact ⟨_, _, rfl, rfl, rfl⟩
  case issueChallenge.turn hloop hrow hturn => cases hturn
  all_goals contradiction

/-- A challenge is emitted to its device right after it has been stored. -/
theorem point_emitChallenge {payload : ChallengePayload}
    (h : c.Point env past (.emitChallengeToDevice id payload)) :
    ∃ record older, record.toChallengePayload = payload ∧ record.deviceId = id ∧
      past = ⟨.redisSet (.challenge record.challengeId) record 15, .ok ()⟩ :: older := by
  cases c <;> cases h
  case issueChallenge.turn hloop hrow hturn =>
    cases hturn with
    | send hbound => exact ⟨_, _, rfl, rfl, rfl⟩
  all_goals contradiction

/-- And a status is announced after it has been written and logged. -/
theorem point_emitMeetingUpdate {payload : MeetingUpdate}
    (h : c.Point env past (.emitMeetingUpdate id payload)) :
    Announces env c past id payload := by
  cases c <;> cases h
  case issueChallenge.turn hloop hrow hturn =>
    cases hturn with
    | noDeviceEmit hbound => exact .noDevice hloop hrow hbound
  case verifyResponse.emit hacc => exact .verdict hacc
  all_goals contradiction

/-- Only `addParticipant` creates a row, with the status UNKNOWN. -/
theorem point_participantCreate {data : ParticipantCreate}
    (h : c.Point env past (.participantCreate data)) :
    ∃ meetingId userId displayName m, c = .addParticipant meetingId userId displayName ∧
      data = ⟨meetingId, userId, displayName, .unknown⟩ ∧
      past = [⟨.meetingFindUnique meetingId, .ok (some m)⟩] := by
  cases c <;> cases h
  case addParticipant.create => exact ⟨_, _, _, _, rfl, rfl, rfl⟩
  case issueChallenge.turn hloop hrow hturn => cases hturn
  all_goals contradiction

/-- Only `verifyResponse` logs verdicts. -/
theorem point_verdictAudit {data : AuditCreate} (h : c.Point env past (.auditCreate data))
    (htype : data.eventType = .challengePassed ∨ data.eventType = .challengeFailed) :
    ∃ challengeId deviceId signature challenge device isValid result,
      c = .verifyResponse challengeId deviceId signature ∧
      data = AuditService.row
        (verdictLog challengeId deviceId challenge device isValid result) := by
  cases c <;> cases h
  case verifyResponse.log => exact ⟨_, _, _, _, _, _, _, rfl, rfl⟩
  case issueChallenge.turn hloop hrow hturn => cases hturn <;> rcases htype with h | h <;> cases h
  all_goals first | contradiction | (rcases htype with h | h <;> cases h)

end TroofAI.Hub
