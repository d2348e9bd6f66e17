import TroofAI.Base.Interleave
import TroofAI.Base.Table
import TroofAI.Hub.Gateway
import Mathlib.Order.Monotone.Basic

/-!
The store the hub works on and the single operations it performs there.

`World` is the database, Redis and the socket gateway. `Op` lists the operations of
the services: every awaited Prisma and Redis call, and the synchronous effects
between them (reading the clock, drawing random values, emitting to sockets). Each is
one step of a run. Stepping the synchronous effects on their own admits every
interleaving the event loop can produce, and more.

What the hub does not control is in `Env`: at which time each step happens, which
random values it draws, which store calls are rejected, and the signature check.
-/

namespace TroofAI.Hub

open TroofAI.Await

/-! ### The environment -/

/-- The characters of a UUID in text form. -/
def isUuidChar (c : Char) : Bool := c.isDigit || ('a' ≤ c && c ≤ 'f') || c = '-'

/-- The characters of base64 text. -/
def isBase64Char (c : Char) : Bool := c.isAlphanum || c = '+' || c = '/' || c = '='

/-- What a run of the hub depends on besides its requests, by step number: the clock,
which never runs backwards, the random values, which never repeat (an id has no fewer
characters than a UUID), the store calls that are rejected without effect, and the order in
which participants are listed. Tenants are never updated, so their order depends on the rows
alone. `verify` is `createVerify('SHA256')` over a public key, a text and a base64 signature; it
throws on a malformed key. -/
structure Env where
  clock : Nat → Date
  clock_mono : Monotone clock
  uuid : Nat → String
  uuid_injective : Function.Injective uuid
  uuid_chars : ∀ n, ∀ c ∈ (uuid n).toList, isUuidChar c = true
  uuid_length : ∀ n, 36 ≤ (uuid n).length
  nonce : Nat → String
  nonce_chars : ∀ n, ∀ c ∈ (nonce n).toList, isBase64Char c = true
  rejects : Nat → Bool
  participantOrder : Nat → AnyOrder Participant
  tenantOrder : AnyOrder Tenant
  verify : (publicKeyPem signedMaterial signature : String) → Except String Bool

theorem Env.uuid_lineFeed (env : Env) (n : Nat) : '\n' ∉ (env.uuid n).toList := by
  intro h
  have := env.uuid_chars n _ h
  revert this
  decide

theorem Env.uuid_ne_empty (env : Env) (n : Nat) : env.uuid n ≠ "" := by
  intro h
  have := env.uuid_length n
  rw [h] at this
  revert this
  decide

/-! ### Operations -/

/-- The arguments of `prisma.device.create`. -/
structure DeviceCreate where
  id : String
  tenantId : String
  userId : String
  displayName : String
  publicKeyPem : String
  keyAlgorithm : String
  hardwareBound : Bool
  status : DeviceStatus
  lastHeartbeat : Date
deriving DecidableEq, Repr

/-- The row a `create` inserts; `enrolledAt` is filled in by the database. -/
def DeviceCreate.row (d : DeviceCreate) (enrolledAt : Date) : Device where
  id := d.id
  tenantId := d.tenantId
  userId := d.userId
  displayName := d.displayName
  publicKeyPem := d.publicKeyPem
  keyAlgorithm := d.keyAlgorithm
  hardwareBound := d.hardwareBound
  status := d.status
  lastHeartbeat := some d.lastHeartbeat
  enrolledAt := enrolledAt

/-- The arguments of `prisma.meetingParticipant.create`. -/
structure ParticipantCreate where
  meetingId : String
  userId : String
  displayName : String
  trustStatus : TrustStatus
deriving DecidableEq, Repr

/-- The row a `create` inserts; the id and `joinedAt` are filled in by the database. -/
def ParticipantCreate.row (d : ParticipantCreate) (id : String) (joinedAt : Date) :
    Participant where
  id := id
  meetingId := d.meetingId
  userId := d.userId
  deviceId := none
  displayName := d.displayName
  trustStatus := d.trustStatus
  statusReason := none
  joinedAt := joinedAt
  boundAt := none
  lastChallengeAt := none

/-- The arguments of `prisma.auditEvent.create`. -/
structure AuditCreate where
  tenantId : String
  meetingId : Option String
  eventType : EventType
  actor : String
  details : Details
deriving DecidableEq, Repr

/-- The row that step `k` inserts into the audit log. -/
def AuditCreate.event (env : Env) (k : Nat) (data : AuditCreate) : AuditEvent where
  id := env.uuid k
  tenantId := data.tenantId
  meetingId := data.meetingId
  eventType := data.eventType
  actor := data.actor
  details := data.details
  createdAt := env.clock k

inductive Op where
  | now
  | randomUUID
  | randomBytes
  | tenantFindFirst (name : String)
  | tenantCreate (name : String)
  | deviceFindUnique (id : String)
  | deviceCreate (data : DeviceCreate)
  | deviceUpdate (id : String) (data : DeviceUpdate)
  | meetingFindUnique (id : String)
  | meetingCreate (tenantId name : String)
  | participantFindUnique (id : String)
  | participantFindMany (meetingId : String)
  | participantCreate (data : ParticipantCreate)
  | participantUpdate (id : String) (data : ParticipantUpdate)
  | auditCreate (data : AuditCreate)
  | redisSet (key : RedisKey) (value : key.Value) (ttlSeconds : Nat)
  | redisGet (key : RedisKey)
  | redisDel (key : RedisKey)
  | emitChallengeToDevice (deviceId : String) (payload : ChallengePayload)
  | emitMeetingUpdate (meetingId : String) (payload : MeetingUpdate)
  | socket (event : SocketEvent)
  /-- an administrator sets a device's status in the database; no endpoint does -/
  | revoke (deviceId : String)

/-- What an operation answers. -/
abbrev Op.Resp : Op → Type
  | .now => Date
  | .randomUUID => String
  | .randomBytes => String
  | .tenantFindFirst _ => Option Tenant
  | .tenantCreate _ => Tenant
  | .deviceFindUnique _ => Option Device
  | .deviceCreate _ => Device
  | .deviceUpdate _ _ => Device
  | .meetingFindUnique _ => Option Meeting
  | .meetingCreate _ _ => Meeting
  | .participantFindUnique _ => Option Participant
  | .participantFindMany _ => List (Participant × Option Device)
  | .participantCreate _ => Participant
  | .participantUpdate _ _ => Participant
  | .auditCreate _ => AuditEvent
  | .redisSet _ _ _ => Unit
  | .redisGet key => Option key.Value
  | .redisDel _ => Unit
  | .emitChallengeToDevice _ _ => Unit
  | .emitMeetingUpdate _ _ => Unit
  | .socket _ => Unit
  | .revoke _ => Unit

/-- The operations that are awaited calls to PostgreSQL or Redis, and so can be rejected. -/
def Op.awaited : Op → Bool
  | .now | .randomUUID | .randomBytes | .emitChallengeToDevice _ _ | .emitMeetingUpdate _ _
  | .socket _ => false
  | _ => true

inductive HubError where
  | notFound (message : String)
  | badRequest (message : String)
  /-- Prisma P2025: the row to update does not exist -/
  | recordNotFound
  /-- Prisma P2002: a primary key is taken -/
  | uniqueConstraint
  /-- Prisma P2003: a foreign key names no row -/
  | foreignKey
  /-- a property of `null` is read -/
  | typeError
  /-- the store call was rejected -/
  | rejected
deriving DecidableEq, Repr

/-! ### The world -/

structure World where
  /-- how many operations have been performed -/
  steps : Nat
  tenants : Table Tenant.id
  devices : Table Device.id
  meetings : Table Meeting.id
  participants : Table Participant.id
  /-- the audit log, oldest first -/
  audit : List AuditEvent
  redis : Expiring RedisKey RedisKey.Value
  gateway : Gateway

namespace World

/-- A hub that has just been set up: tenants are provisioned, nothing else exists. -/
def init (tenants : Table Tenant.id) : World :=
  ⟨0, tenants, .empty, .empty, .empty, [], .empty, .empty⟩

def createTenant (row : Tenant) (w : World) : Except HubError Tenant × World :=
  match w.tenants.insert? row with
  | some tenants => (.ok row, { w with tenants })
  | none => (.error .uniqueConstraint, w)

def createDevice (row : Device) (w : World) : Except HubError Device × World :=
  if (w.tenants.find? row.tenantId).isNone then (.error .foreignKey, w)
  else
    match w.devices.insert? row with
    | some devices => (.ok row, { w with devices })
    | none => (.error .uniqueConstraint, w)

def updateDevice (id : String) (data : DeviceUpdate) (w : World) : Except HubError Device × World :=
  match w.devices.find? id with
  | some row =>
      (.ok (data.apply row), { w with devices := w.devices.modify id data.apply data.apply_id })
  | none => (.error .recordNotFound, w)

def createMeeting (row : Meeting) (w : World) : Except HubError Meeting × World :=
  if (w.tenants.find? row.tenantId).isNone then (.error .foreignKey, w)
  else
    match w.meetings.insert? row with
    | some meetings => (.ok row, { w with meetings })
    | none => (.error .uniqueConstraint, w)

def createParticipant (row : Participant) (w : World) : Except HubError Participant × World :=
  if (w.meetings.find? row.meetingId).isNone then (.error .foreignKey, w)
  else
    match w.participants.insert? row with
    | some participants => (.ok row, { w with participants })
    | none => (.error .uniqueConstraint, w)

/-- `include: { device: true }` -/
def withDevice (w : World) (row : Participant) : Participant × Option Device :=
  (row, row.deviceId.bind w.devices.find?)

/-- The rows of a meeting, in the order in which they were inserted. -/
def members (w : World) (meetingId : String) : List Participant :=
  w.participants.rows.filter (·.meetingId = meetingId)

/-- `findMany({ where: { meetingId }, include: { device: true } })` -/
def participantsOf (order : AnyOrder Participant) (w : World) (meetingId : String) :
    List (Participant × Option Device) :=
  (order.sort (w.members meetingId)).map w.withDevice

variable {order : AnyOrder Participant} {w : World} {meetingId : String}
  {row : Participant × Option Device}

theorem mem_participantsOf : row ∈ w.participantsOf order meetingId ↔
    row.1 ∈ w.participants.rows ∧ row.1.meetingId = meetingId ∧ w.withDevice row.1 = row := by
  unfold participantsOf members
  simp only [List.mem_map, (order.perm _).mem_iff, List.mem_filter, decide_eq_true_eq]
  constructor
  · rintro ⟨p, ⟨hp, hmeeting⟩, rfl⟩
    exact ⟨hp, hmeeting, rfl⟩
  · rintro ⟨hp, hmeeting, hrow⟩
    exact ⟨row.1, ⟨hp, hmeeting⟩, hrow⟩

theorem meetingId_of_mem_participantsOf (h : row ∈ w.participantsOf order meetingId) :
    row.1.meetingId = meetingId := (mem_participantsOf.mp h).2.1

theorem mem_of_mem_participantsOf (h : row ∈ w.participantsOf order meetingId) :
    row.1 ∈ w.participants.rows := (mem_participantsOf.mp h).1

theorem participantsOf_nodup (order : AnyOrder Participant) (w : World) (meetingId : String) :
    ((w.participantsOf order meetingId).map (·.1.id)).Nodup := by
  have hids : (w.participantsOf order meetingId).map (·.1.id) =
      (order.sort (w.members meetingId)).map Participant.id := by
    simp [participantsOf, withDevice]
  rw [hids, ((order.perm _).map Participant.id).nodup_iff]
  exact w.participants.nodup.sublist (List.filter_sublist.map Participant.id)

/-- `findFirst({ where: { name } })` -/
def tenantNamed (order : AnyOrder Tenant) (w : World) (name : String) : Option Tenant :=
  (order.sort (w.tenants.rows.filter (·.name = name))).head?

theorem mem_of_tenantNamed {order : AnyOrder Tenant} {w : World} {name : String} {row : Tenant}
    (h : w.tenantNamed order name = some row) : row ∈ w.tenants.rows := by
  have hmem := (order.perm _).mem_iff.mp (List.mem_of_head? h)
  exact (List.mem_filter.mp hmem).1

/-- A device id that is written must name a device. -/
def updateParticipant (id : String) (data : ParticipantUpdate) (w : World) :
    Except HubError Participant × World :=
  match w.participants.find? id with
  | some row =>
      if data.deviceId.any fun d => (w.devices.find? d).isNone then (.error .foreignKey, w)
      else
        (.ok (data.apply row),
          { w with participants := w.participants.modify id data.apply data.apply_id })
  | none => (.error .recordNotFound, w)

def createAudit (row : AuditEvent) (w : World) : Except HubError AuditEvent × World :=
  if (w.tenants.find? row.tenantId).isNone then (.error .foreignKey, w)
  else if row.meetingId.any fun m => (w.meetings.find? m).isNone then (.error .foreignKey, w)
  else (.ok row, { w with audit := w.audit ++ [row] })

end World

/-- The effect of an operation at step `w.steps`. Ids and creation times that the
database fills in are those of the step. -/
def effect (env : Env) (w : World) : (op : Op) → Except HubError op.Resp × World
  | .now => (.ok (env.clock w.steps), w)
  | .randomUUID => (.ok (env.uuid w.steps), w)
  | .randomBytes => (.ok (env.nonce w.steps), w)
  | .tenantFindFirst name => (.ok (w.tenantNamed env.tenantOrder name), w)
  | .tenantCreate name => w.createTenant ⟨env.uuid w.steps, name⟩
  | .deviceFindUnique id => (.ok (w.devices.find? id), w)
  | .deviceCreate d => w.createDevice (d.row (env.clock w.steps))
  | .deviceUpdate id data => w.updateDevice id data
  | .meetingFindUnique id => (.ok (w.meetings.find? id), w)
  | .meetingCreate tenantId name =>
      w.createMeeting ⟨env.uuid w.steps, tenantId, name, env.clock w.steps⟩
  | .participantFindUnique id => (.ok (w.participants.find? id), w)
  | .participantFindMany meetingId =>
      (.ok (w.participantsOf (env.participantOrder w.steps) meetingId), w)
  | .participantCreate d => w.createParticipant (d.row (env.uuid w.steps) (env.clock w.steps))
  | .participantUpdate id data => w.updateParticipant id data
  | .auditCreate d =>
      w.createAudit
        ⟨env.uuid w.steps, d.tenantId, d.meetingId, d.eventType, d.actor, d.details,
          env.clock w.steps⟩
  | .redisSet key value ttlSeconds =>
      (.ok (), { w with
        redis := w.redis.set key value (env.clock w.steps + ttlSeconds * 1000) })
  | .redisGet key => (.ok (w.redis.get (env.clock w.steps) key), w)
  | .redisDel key => (.ok (), { w with redis := w.redis.del key })
  | .emitChallengeToDevice deviceId payload =>
      (.ok (), { w with gateway := w.gateway.emitChallengeToDevice deviceId payload })
  | .emitMeetingUpdate meetingId payload =>
      (.ok (), { w with gateway := w.gateway.emitMeetingUpdate meetingId payload })
  | .socket event => (.ok (), { w with gateway := w.gateway.handle event })
  | .revoke deviceId =>
      (.ok (), { w with devices :=
        w.devices.modify deviceId (fun d => { d with status := .revoked }) fun _ => rfl })

def World.tick (w : World) : World := { w with steps := w.steps + 1 }

/-- One step: the operation is rejected or has its effect, and is counted. -/
def exec (env : Env) (op : Op) (w : World) : Except HubError op.Resp × World :=
  if op.awaited && env.rejects w.steps then (.error .rejected, w.tick)
  else ((effect env w op).1, (effect env w op).2.tick)

/-! ### What a step can change

Every operation writes at most one part of the world (`Op.part`, `exec_frame`), and
one lemma for each writing operation says how. Everything the later modules know
about a step is read off these. -/

/-- The parts of the world besides the step count. -/
inductive Part where
  | nothing | tenants | devices | meetings | participants | audit | redis | gateway
deriving DecidableEq, Repr

/-- The part an operation may write. -/
def Op.part : Op → Part
  | .tenantCreate _ => .tenants
  | .deviceCreate _ | .deviceUpdate _ _ | .revoke _ => .devices
  | .meetingCreate _ _ => .meetings
  | .participantCreate _ | .participantUpdate _ _ => .participants
  | .auditCreate _ => .audit
  | .redisSet _ _ _ | .redisDel _ => .redis
  | .emitChallengeToDevice _ _ | .emitMeetingUpdate _ _ | .socket _ => .gateway
  | _ => .nothing

variable {env : Env} {w : World} {op : Op}

theorem exec_cases : exec env op w = (.error .rejected, w.tick) ∨
    exec env op w = ((effect env w op).1, (effect env w op).2.tick) := by
  unfold exec
  split
  · exact .inl rfl
  · exact .inr rfl

theorem effect_frame :
    (effect env w op).2.steps = w.steps ∧
    (op.part ≠ .tenants → (effect env w op).2.tenants = w.tenants) ∧
    (op.part ≠ .devices → (effect env w op).2.devices = w.devices) ∧
    (op.part ≠ .meetings → (effect env w op).2.meetings = w.meetings) ∧
    (op.part ≠ .participants → (effect env w op).2.participants = w.participants) ∧
    (op.part ≠ .audit → (effect env w op).2.audit = w.audit) ∧
    (op.part ≠ .redis → (effect env w op).2.redis = w.redis) ∧
    (op.part ≠ .gateway → (effect env w op).2.gateway = w.gateway) := by
  cases op <;> simp only [effect, Op.part, World.createTenant, World.createDevice,
    World.updateDevice, World.createMeeting, World.createParticipant, World.updateParticipant,
    World.createAudit] <;> (try split) <;> (try split) <;> simp

@[simp] theorem exec_steps : (exec env op w).2.steps = w.steps + 1 := by
  rcases exec_cases with h | h <;> rw [h]
  · rfl
  · exact congrArg (· + 1) effect_frame.1

/-- A step leaves every part of the world alone but the one its operation may write. -/
theorem exec_frame :
    (op.part ≠ .tenants → (exec env op w).2.tenants = w.tenants) ∧
    (op.part ≠ .devices → (exec env op w).2.devices = w.devices) ∧
    (op.part ≠ .meetings → (exec env op w).2.meetings = w.meetings) ∧
    (op.part ≠ .participants → (exec env op w).2.participants = w.participants) ∧
    (op.part ≠ .audit → (exec env op w).2.audit = w.audit) ∧
    (op.part ≠ .redis → (exec env op w).2.redis = w.redis) ∧
    (op.part ≠ .gateway → (exec env op w).2.gateway = w.gateway) := by
  rcases exec_cases with h | h <;> rw [h]
  · simp [World.tick]
  · exact effect_frame.2

theorem exec_tenants (h : op.part ≠ .tenants) : (exec env op w).2.tenants = w.tenants :=
  exec_frame.1 h

theorem exec_devices (h : op.part ≠ .devices) : (exec env op w).2.devices = w.devices :=
  exec_frame.2.1 h

theorem exec_meetings (h : op.part ≠ .meetings) : (exec env op w).2.meetings = w.meetings :=
  exec_frame.2.2.1 h

theorem exec_participants (h : op.part ≠ .participants) :
    (exec env op w).2.participants = w.participants := exec_frame.2.2.2.1 h

theorem exec_audit (h : op.part ≠ .audit) : (exec env op w).2.audit = w.audit :=
  exec_frame.2.2.2.2.1 h

theorem exec_redis (h : op.part ≠ .redis) : (exec env op w).2.redis = w.redis :=
  exec_frame.2.2.2.2.2.1 h

theorem exec_gateway (h : op.part ≠ .gateway) : (exec env op w).2.gateway = w.gateway :=
  exec_frame.2.2.2.2.2.2 h

/-- A failed step changes nothing but the count. -/
theorem exec_error {e : HubError} (h : (exec env op w).1 = .error e) :
    (exec env op w).2 = w.tick := by
  rcases exec_cases with hx | hx <;> rw [hx] at h ⊢
  refine congrArg World.tick ?_
  cases op <;> simp only [effect, World.createTenant, World.createDevice,
    World.updateDevice, World.createMeeting, World.createParticipant, World.updateParticipant,
    World.createAudit] at h ⊢ <;> (try split at h) <;> (try split at h) <;> simp_all

/-- A step that succeeds has the effect of its operation. -/
theorem exec_ok {a : op.Resp} (h : (exec env op w).1 = .ok a) :
    exec env op w = (.ok a, (effect env w op).2.tick) ∧ (effect env w op).1 = .ok a := by
  rcases exec_cases with hx | hx <;> rw [hx] at h ⊢
  · cases h
  · exact ⟨by rw [h], h⟩

/-- A step that is not rejected has the effect of its operation. -/
theorem exec_accepted (h : op.awaited = false ∨ env.rejects w.steps = false) :
    exec env op w = ((effect env w op).1, (effect env w op).2.tick) := by
  unfold exec
  rcases h with h | h <;> simp [h]

theorem accepted_of_ok {a : op.Resp} (h : (exec env op w).1 = .ok a)
    (hawaited : op.awaited = true) : env.rejects w.steps = false := by
  unfold exec at h
  rw [hawaited] at h
  cases hrejects : env.rejects w.steps with
  | false => rfl
  | true =>
    rw [hrejects] at h
    cases h

/-! ### What the answers say -/

variable {id : String}

theorem exec_now_ok {t : Date} (h : (exec env .now w).1 = .ok t) : t = env.clock w.steps :=
  (Except.ok.inj (exec_ok h).2).symm

theorem exec_randomUUID_ok {s : String} (h : (exec env .randomUUID w).1 = .ok s) :
    s = env.uuid w.steps := (Except.ok.inj (exec_ok h).2).symm

theorem exec_deviceFindUnique_ok {r : Option Device}
    (h : (exec env (.deviceFindUnique id) w).1 = .ok r) : w.devices.find? id = r :=
  Except.ok.inj (exec_ok h).2

theorem exec_meetingFindUnique_ok {r : Option Meeting}
    (h : (exec env (.meetingFindUnique id) w).1 = .ok r) : w.meetings.find? id = r :=
  Except.ok.inj (exec_ok h).2

theorem exec_participantFindUnique_ok {r : Option Participant}
    (h : (exec env (.participantFindUnique id) w).1 = .ok r) : w.participants.find? id = r :=
  Except.ok.inj (exec_ok h).2

theorem exec_participantFindMany_ok {r : List (Participant × Option Device)}
    (h : (exec env (.participantFindMany id) w).1 = .ok r) :
    w.participantsOf (env.participantOrder w.steps) id = r :=
  Except.ok.inj (exec_ok h).2

theorem exec_redisGet_ok {key : RedisKey} {r : Option key.Value}
    (h : (exec env (.redisGet key) w).1 = .ok r) :
    w.redis.get (env.clock w.steps) key = r := Except.ok.inj (exec_ok h).2

theorem exec_redisSet_ok {key : RedisKey} {value : key.Value} {ttlSeconds : Nat} {u : Unit}
    (h : (exec env (.redisSet key value ttlSeconds) w).1 = .ok u) :
    (exec env (.redisSet key value ttlSeconds) w).2.redis =
      w.redis.set key value (env.clock w.steps + ttlSeconds * 1000) := by
  rw [(exec_ok h).1]
  rfl

theorem exec_redisDel_ok {key : RedisKey} {u : Unit} (h : (exec env (.redisDel key) w).1 = .ok u) :
    (exec env (.redisDel key) w).2.redis = w.redis.del key := by
  rw [(exec_ok h).1]
  rfl

theorem exec_participantUpdate_ok {data : ParticipantUpdate} {row' : Participant}
    (h : (exec env (.participantUpdate id data) w).1 = .ok row') :
    ∃ row, w.participants.find? id = some row ∧ row' = data.apply row ∧
      (∀ d, data.deviceId = some d → (w.devices.find? d).isSome) ∧
      (exec env (.participantUpdate id data) w).2.participants =
        w.participants.modify id data.apply data.apply_id := by
  obtain ⟨hexec, heff⟩ := exec_ok h
  simp only [effect] at heff hexec
  rw [hexec]
  unfold World.updateParticipant at heff ⊢
  cases hfind : w.participants.find? id with
  | none => simp [hfind] at heff
  | some row =>
    simp only [hfind] at heff ⊢
    split at heff
    · cases heff
    · next hfk =>
      rw [if_neg hfk]
      refine ⟨row, rfl, (Except.ok.inj heff).symm, fun d hd => ?_, rfl⟩
      rw [hd] at hfk
      simpa [Option.isSome_iff_ne_none] using hfk

theorem exec_participantCreate_ok {data : ParticipantCreate} {row : Participant}
    (h : (exec env (.participantCreate data) w).1 = .ok row) :
    row = data.row (env.uuid w.steps) (env.clock w.steps) ∧
      (w.meetings.find? data.meetingId).isSome ∧ ∃ t, w.participants.insert? row = some t ∧
      (exec env (.participantCreate data) w).2.participants = t := by
  obtain ⟨hexec, heff⟩ := exec_ok h
  simp only [effect] at heff hexec
  rw [hexec]
  unfold World.createParticipant at heff ⊢
  split at heff
  · cases heff
  · next hfk =>
    rw [if_neg hfk]
    split at heff
    · next t ht =>
      cases heff
      rw [ht]
      refine ⟨rfl, ?_, t, rfl, rfl⟩
      simpa [Option.isSome_iff_ne_none, ParticipantCreate.row] using hfk
    · cases heff

theorem exec_deviceUpdate_ok {data : DeviceUpdate} {row' : Device}
    (h : (exec env (.deviceUpdate id data) w).1 = .ok row') :
    ∃ row, w.devices.find? id = some row ∧ row' = data.apply row ∧
      (exec env (.deviceUpdate id data) w).2.devices =
        w.devices.modify id data.apply data.apply_id := by
  obtain ⟨hexec, heff⟩ := exec_ok h
  simp only [effect] at heff hexec
  rw [hexec]
  unfold World.updateDevice at heff ⊢
  cases hfind : w.devices.find? id with
  | none => simp [hfind] at heff
  | some row =>
    simp only [hfind] at heff ⊢
    exact ⟨row, rfl, (Except.ok.inj heff).symm, rfl⟩

theorem exec_deviceCreate_ok {data : DeviceCreate} {row : Device}
    (h : (exec env (.deviceCreate data) w).1 = .ok row) :
    row = data.row (env.clock w.steps) ∧ (w.tenants.find? data.tenantId).isSome ∧
      ∃ t, w.devices.insert? row = some t ∧ (exec env (.deviceCreate data) w).2.devices = t := by
  obtain ⟨hexec, heff⟩ := exec_ok h
  simp only [effect] at heff hexec
  rw [hexec]
  unfold World.createDevice at heff ⊢
  split at heff
  · cases heff
  · next hfk =>
    rw [if_neg hfk]
    split at heff
    · next t ht =>
      cases heff
      rw [ht]
      refine ⟨rfl, ?_, t, rfl, rfl⟩
      simpa [Option.isSome_iff_ne_none, DeviceCreate.row] using hfk
    · cases heff

theorem exec_meetingCreate_ok {tenantId name : String} {row : Meeting}
    (h : (exec env (.meetingCreate tenantId name) w).1 = .ok row) :
    row = ⟨env.uuid w.steps, tenantId, name, env.clock w.steps⟩ ∧
      (w.tenants.find? tenantId).isSome ∧ ∃ t, w.meetings.insert? row = some t ∧
      (exec env (.meetingCreate tenantId name) w).2.meetings = t := by
  obtain ⟨hexec, heff⟩ := exec_ok h
  simp only [effect] at heff hexec
  rw [hexec]
  unfold World.createMeeting at heff ⊢
  split at heff
  · cases heff
  · next hfk =>
    rw [if_neg hfk]
    split at heff
    · next t ht =>
      cases heff
      rw [ht]
      refine ⟨rfl, ?_, t, rfl, rfl⟩
      simpa [Option.isSome_iff_ne_none] using hfk
    · cases heff

theorem exec_revoke_ok (h : (exec env (.revoke id) w).1 = .ok ()) :
    (exec env (.revoke id) w).2.devices =
      w.devices.modify id (fun d => { d with status := .revoked }) fun _ => rfl := by
  rw [(exec_ok h).1]
  rfl

theorem exec_auditCreate_ok {data : AuditCreate} {row : AuditEvent}
    (h : (exec env (.auditCreate data) w).1 = .ok row) :
    row = ⟨env.uuid w.steps, data.tenantId, data.meetingId, data.eventType, data.actor,
        data.details, env.clock w.steps⟩ ∧
      (w.tenants.find? data.tenantId).isSome ∧
      (∀ m, data.meetingId = some m → (w.meetings.find? m).isSome) ∧
      (exec env (.auditCreate data) w).2.audit = w.audit ++ [row] := by
  obtain ⟨hexec, heff⟩ := exec_ok h
  simp only [effect] at heff hexec
  rw [hexec]
  unfold World.createAudit at heff ⊢
  split at heff
  · cases heff
  · next htenant =>
    rw [if_neg htenant]
    split at heff
    · cases heff
    · next hmeeting =>
      cases heff
      rw [if_neg hmeeting]
      refine ⟨rfl, by simpa [Option.isSome_iff_ne_none] using htenant, fun m hm => ?_, rfl⟩
      simpa [hm, Option.isSome_iff_ne_none] using hmeeting

/-- The audit log only grows, by what is inserted. -/
theorem exec_audit_cases : (exec env op w).2.audit = w.audit ∨
    ∃ data row, (⟨op, (exec env op w).1⟩ : Ev Op.Resp HubError) = ⟨.auditCreate data, .ok row⟩ ∧
      (exec env op w).2.audit = w.audit ++ [row] := by
  by_cases hpart : op.part = .audit
  · cases op <;> simp only [Op.part, reduceCtorEq] at hpart
    case auditCreate data =>
      cases h : (exec env (.auditCreate data) w).1 with
      | error e =>
        left
        rw [exec_error h]
        rfl
      | ok row =>
        right
        exact ⟨data, row, rfl, (exec_auditCreate_ok h).2.2.2⟩
  · exact .inl (exec_audit hpart)

/-- Participants are only inserted and changed in place. -/
theorem exec_participants_cases : (exec env op w).2.participants = w.participants ∨
    (∃ data row, (⟨op, (exec env op w).1⟩ : Ev Op.Resp HubError) =
        ⟨.participantCreate data, .ok row⟩ ∧ row.trustStatus = data.trustStatus ∧
      (exec env op w).2.participants.rows = w.participants.rows ++ [row]) ∨
    ∃ p data row, (⟨op, (exec env op w).1⟩ : Ev Op.Resp HubError) =
        ⟨.participantUpdate p data, .ok row⟩ ∧
      (exec env op w).2.participants = w.participants.modify p data.apply data.apply_id := by
  by_cases hpart : op.part = .participants
  · cases op <;> simp only [Op.part, reduceCtorEq] at hpart
    case participantCreate data =>
      cases h : (exec env (.participantCreate data) w).1 with
      | error e =>
        left
        rw [exec_error h]
        rfl
      | ok row =>
        right
        left
        obtain ⟨rfl, -, t, ht, heq⟩ := exec_participantCreate_ok h
        exact ⟨data, _, rfl, rfl, heq ▸ Table.insert?_rows ht⟩
    case participantUpdate p data =>
      cases h : (exec env (.participantUpdate p data) w).1 with
      | error e =>
        left
        rw [exec_error h]
        rfl
      | ok row =>
        right
        right
        obtain ⟨-, -, -, -, heq⟩ := exec_participantUpdate_ok h
        exact ⟨p, data, row, rfl, heq⟩
  · exact .inl (exec_participants hpart)

/-- The tenants of the devices, in the order of their rows: a row keeps its tenant, and new rows
are inserted at the end. -/
theorem exec_device_tenants_cases :
    (exec env op w).2.devices.rows.map Device.tenantId = w.devices.rows.map Device.tenantId ∨
    ∃ data row, (⟨op, (exec env op w).1⟩ : Ev Op.Resp HubError) = ⟨.deviceCreate data, .ok row⟩ ∧
      (exec env op w).2.devices.rows.map Device.tenantId =
        w.devices.rows.map Device.tenantId ++ [data.tenantId] := by
  by_cases hpart : op.part = .devices
  · cases op <;> simp only [Op.part, reduceCtorEq] at hpart
    case deviceCreate data =>
      cases h : (exec env (.deviceCreate data) w).1 with
      | error e =>
        left
        rw [exec_error h]
        rfl
      | ok row =>
        right
        obtain ⟨rfl, -, t, ht, heq⟩ := exec_deviceCreate_ok h
        refine ⟨data, _, rfl, ?_⟩
        rw [heq, Table.insert?_rows ht, List.map_append]
        rfl
    case deviceUpdate id data =>
      left
      cases h : (exec env (.deviceUpdate id data) w).1 with
      | error e =>
        rw [exec_error h]
        rfl
      | ok row =>
        obtain ⟨-, -, -, heq⟩ := exec_deviceUpdate_ok h
        rw [heq]
        exact Table.map_modify _ _ _ fun _ => rfl
    case revoke id =>
      left
      cases h : (exec env (.revoke id) w).1 with
      | error e =>
        rw [exec_error h]
        rfl
      | ok u =>
        rw [exec_revoke_ok h]
        exact Table.map_modify _ _ _ fun _ => rfl
  · exact .inl (congrArg (fun t : Table Device.id => t.rows.map Device.tenantId)
      (exec_devices hpart))

/-! ### What is answered when nothing is rejected -/

theorem effect_participantUpdate {data : ParticipantUpdate} {row : Participant}
    (hrow : w.participants.find? id = some row)
    (hdevice : ∀ d, data.deviceId = some d → (w.devices.find? d).isSome) :
    effect env w (.participantUpdate id data) = (.ok (data.apply row),
      { w with participants := w.participants.modify id data.apply data.apply_id }) := by
  have hfk : ¬ (data.deviceId.any fun d => (w.devices.find? d).isNone) = true := by
    cases hd : data.deviceId with
    | none => simp
    | some d => simpa [Option.isSome_iff_ne_none] using hdevice d hd
  simp only [effect, World.updateParticipant, hrow]
  rw [if_neg hfk]

theorem effect_deviceUpdate {data : DeviceUpdate} {row : Device}
    (hrow : w.devices.find? id = some row) :
    effect env w (.deviceUpdate id data) = (.ok (data.apply row),
      { w with devices := w.devices.modify id data.apply data.apply_id }) := by
  simp only [effect, World.updateDevice, hrow]

theorem effect_deviceCreate {data : DeviceCreate} (hnone : w.devices.find? data.id = none)
    (htenant : (w.tenants.find? data.tenantId).isSome) :
    ∃ devices, w.devices.insert? (data.row (env.clock w.steps)) = some devices ∧
      effect env w (.deviceCreate data) =
        (.ok (data.row (env.clock w.steps)), { w with devices }) := by
  have htenant' : ¬ (w.tenants.find? data.tenantId).isNone = true := by
    simpa [Option.isSome_iff_ne_none] using htenant
  obtain ⟨devices, hinsert⟩ := Table.exists_insert? (r := data.row (env.clock w.steps)) hnone
  refine ⟨devices, hinsert, ?_⟩
  simp only [effect, World.createDevice, hinsert]
  exact if_neg htenant'

theorem effect_auditCreate {data : AuditCreate} (htenant : (w.tenants.find? data.tenantId).isSome)
    (hmeeting : ∀ m, data.meetingId = some m → (w.meetings.find? m).isSome) :
    effect env w (.auditCreate data) = (.ok (data.event env w.steps),
      { w with audit := w.audit ++ [data.event env w.steps] }) := by
  have hfk : ¬ (data.meetingId.any fun m => (w.meetings.find? m).isNone) = true := by
    cases hm : data.meetingId with
    | none => simp
    | some m => simpa [Option.isSome_iff_ne_none] using hmeeting m hm
  have hfk' : ¬ (w.tenants.find? data.tenantId).isNone = true := by
    simpa [Option.isSome_iff_ne_none] using htenant
  simp only [effect, World.createAudit]
  rw [if_neg hfk', if_neg hfk]
  rfl

theorem exec_now : (exec env .now w).1 = .ok (env.clock w.steps) := by
  rw [exec_accepted (.inl rfl)]
  rfl

theorem exec_redisGet (key : RedisKey) (h : env.rejects w.steps = false) :
    (exec env (.redisGet key) w).1 = .ok (w.redis.get (env.clock w.steps) key) := by
  rw [exec_accepted (.inr h)]
  rfl

theorem exec_redisDel (key : RedisKey) (h : env.rejects w.steps = false) :
    (exec env (.redisDel key) w).1 = .ok () := by
  rw [exec_accepted (.inr h)]
  rfl

theorem exec_deviceFindUnique (h : env.rejects w.steps = false) :
    (exec env (.deviceFindUnique id) w).1 = .ok (w.devices.find? id) := by
  rw [exec_accepted (.inr h)]
  rfl

theorem exec_participantUpdate (data : ParticipantUpdate) {row : Participant}
    (h : env.rejects w.steps = false) (hrow : w.participants.find? id = some row)
    (hdevice : ∀ d, data.deviceId = some d → (w.devices.find? d).isSome) :
    (exec env (.participantUpdate id data) w).1 = .ok (data.apply row) := by
  rw [exec_accepted (.inr h), effect_participantUpdate hrow hdevice]

/-- A read fails only when it is rejected. -/
theorem exec_meetingFindUnique_error {e : HubError}
    (h : (exec env (.meetingFindUnique id) w).1 = .error e) : e = .rejected := by
  have hcases : exec env (.meetingFindUnique id) w = _ ∨ _ := exec_cases
  rcases hcases with hx | hx <;> rw [hx] at h <;> cases h
  rfl

/-- So does logging, where the rows to log under are there. -/
theorem exec_auditCreate_error {data : AuditCreate} {e : HubError}
    (h : (exec env (.auditCreate data) w).1 = .error e)
    (htenant : (w.tenants.find? data.tenantId).isSome)
    (hmeeting : ∀ m, data.meetingId = some m → (w.meetings.find? m).isSome) : e = .rejected := by
  cases hrejects : env.rejects w.steps with
  | false =>
    rw [exec_accepted (.inr hrejects), effect_auditCreate htenant hmeeting] at h
    cases h
  | true =>
    unfold exec at h
    rw [hrejects] at h
    cases h
    rfl

/-! ### What a step does to one row -/

/-- The participant row under `p` after the event of a step that met the world `w`. -/
inductive ParticipantStep (env : Env) (w : World) (p : String) :
    Ev Op.Resp HubError → Option Participant → Prop where
  | same {ev : Ev Op.Resp HubError} : ParticipantStep env w p ev (w.participants.find? p)
  | update {data row} : w.participants.find? p = some row →
      (∀ d, data.deviceId = some d → (w.devices.find? d).isSome) →
      ParticipantStep env w p ⟨.participantUpdate p data, .ok (data.apply row)⟩
        (some (data.apply row))
  | create {data} : w.participants.find? p = none → p = env.uuid w.steps →
      (w.meetings.find? data.meetingId).isSome →
      ParticipantStep env w p ⟨.participantCreate data, .ok (data.row p (env.clock w.steps))⟩
        (some (data.row p (env.clock w.steps)))

theorem exec_participant (p : String) : ParticipantStep env w p ⟨op, (exec env op w).1⟩
    ((exec env op w).2.participants.find? p) := by
  by_cases hpart : op.part = .participants
  · cases op <;> simp only [Op.part, reduceCtorEq] at hpart
    case participantCreate data =>
      cases h : (exec env (.participantCreate data) w).1 with
      | error e =>
        rw [exec_error h]
        exact .same
      | ok row =>
        obtain ⟨rfl, hmeeting, t, ht, heq⟩ := exec_participantCreate_ok h
        rw [heq, Table.find?_insert? ht]
        split
        · next hid =>
          subst hid
          exact .create (Table.insert?_fresh ht) rfl hmeeting
        · exact .same
    case participantUpdate id data =>
      cases h : (exec env (.participantUpdate id data) w).1 with
      | error e =>
        rw [exec_error h]
        exact .same
      | ok row' =>
        obtain ⟨row, hrow, rfl, hdevice, heq⟩ := exec_participantUpdate_ok h
        rw [heq, Table.find?_modify]
        split
        · next hid =>
          subst hid
          rw [hrow]
          exact .update hrow hdevice
        · exact .same
  · rw [exec_participants hpart]
    exact .same

/-- A row that is there after a step was there before, under the same meeting, or has just been
created. -/
theorem ParticipantStep.found {p : String} {ev : Ev Op.Resp HubError} {row : Participant}
    (h : ParticipantStep env w p ev (some row)) :
    (∃ old, w.participants.find? p = some old ∧ old.meetingId = row.meetingId) ∨
      p = env.uuid w.steps ∧ (w.meetings.find? row.meetingId).isSome := by
  generalize hnew : some row = new at h
  cases h with
  | same => exact .inl ⟨row, hnew.symm, rfl⟩
  | @update data old hold =>
    cases hnew
    exact .inl ⟨old, hold, rfl⟩
  | create hnone huuid hmeeting =>
    cases hnew
    exact .inr ⟨huuid, hmeeting⟩

/-- The device row under `d` after the event of a step that met the world `w`. -/
inductive DeviceStep (env : Env) (w : World) (d : String) :
    Ev Op.Resp HubError → Option Device → Prop where
  | same {ev : Ev Op.Resp HubError} : DeviceStep env w d ev (w.devices.find? d)
  | update {data row} : w.devices.find? d = some row →
      DeviceStep env w d ⟨.deviceUpdate d data, .ok (data.apply row)⟩ (some (data.apply row))
  | create {data} : w.devices.find? d = none → d = data.id →
      DeviceStep env w d ⟨.deviceCreate data, .ok (data.row (env.clock w.steps))⟩
        (some (data.row (env.clock w.steps)))
  | revoke {row} : w.devices.find? d = some row →
      DeviceStep env w d ⟨.revoke d, .ok ()⟩ (some { row with status := .revoked })

theorem exec_device (d : String) :
    DeviceStep env w d ⟨op, (exec env op w).1⟩ ((exec env op w).2.devices.find? d) := by
  by_cases hpart : op.part = .devices
  · cases op <;> simp only [Op.part, reduceCtorEq] at hpart
    case deviceCreate data =>
      cases h : (exec env (.deviceCreate data) w).1 with
      | error e =>
        rw [exec_error h]
        exact .same
      | ok row =>
        obtain ⟨rfl, -, t, ht, heq⟩ := exec_deviceCreate_ok h
        rw [heq, Table.find?_insert? ht]
        split
        · next hid =>
          subst hid
          exact .create (Table.insert?_fresh ht) rfl
        · exact .same
    case deviceUpdate id data =>
      cases h : (exec env (.deviceUpdate id data) w).1 with
      | error e =>
        rw [exec_error h]
        exact .same
      | ok row' =>
        obtain ⟨row, hrow, rfl, heq⟩ := exec_deviceUpdate_ok h
        rw [heq, Table.find?_modify]
        split
        · next hid =>
          subst hid
          rw [hrow]
          exact .update hrow
        · exact .same
    case revoke id =>
      cases h : (exec env (.revoke id) w).1 with
      | error e =>
        rw [exec_error h]
        exact .same
      | ok u =>
        rw [exec_revoke_ok h, Table.find?_modify]
        split
        · next hid =>
          subst hid
          cases hrow : w.devices.find? d with
          | none =>
            have hsame : DeviceStep env w d ⟨.revoke d, .ok u⟩ (w.devices.find? d) := .same
            rwa [hrow] at hsame
          | some row => exact .revoke hrow
        · exact .same
  · rw [exec_devices hpart]
    exact .same

/-- The meeting row under `m` after the event of a step that met the world `w`. -/
inductive MeetingStep (env : Env) (w : World) (m : String) :
    Ev Op.Resp HubError → Option Meeting → Prop where
  | same {ev : Ev Op.Resp HubError} : MeetingStep env w m ev (w.meetings.find? m)
  | create {tenantId name} : w.meetings.find? m = none → m = env.uuid w.steps →
      (w.tenants.find? tenantId).isSome →
      MeetingStep env w m
        ⟨.meetingCreate tenantId name, .ok ⟨m, tenantId, name, env.clock w.steps⟩⟩
        (some ⟨m, tenantId, name, env.clock w.steps⟩)

theorem exec_meeting (m : String) :
    MeetingStep env w m ⟨op, (exec env op w).1⟩ ((exec env op w).2.meetings.find? m) := by
  by_cases hpart : op.part = .meetings
  · cases op <;> simp only [Op.part, reduceCtorEq] at hpart
    case meetingCreate tenantId name =>
      cases h : (exec env (.meetingCreate tenantId name) w).1 with
      | error e =>
        rw [exec_error h]
        exact .same
      | ok row =>
        obtain ⟨rfl, htenant, t, ht, heq⟩ := exec_meetingCreate_ok h
        rw [heq, Table.find?_insert? ht]
        split
        · next hid =>
          subst hid
          exact .create (Table.insert?_fresh ht) rfl htenant
        · exact .same
  · rw [exec_meetings hpart]
    exact .same

/-- A row that is there after a step was there before or has just been created. -/
theorem MeetingStep.found {m : String} {ev : Ev Op.Resp HubError} {row : Meeting}
    (h : MeetingStep env w m ev (some row)) : w.meetings.find? m = some row ∨
      m = env.uuid w.steps ∧ (w.tenants.find? row.tenantId).isSome := by
  generalize hnew : some row = new at h
  cases h with
  | same => exact .inl rfl
  | create hnone huuid htenant =>
    cases hnew
    exact .inr ⟨huuid, htenant⟩

/-- The Redis entry under `key` after the event of a step that met the world `w`. -/
inductive RedisStep (env : Env) (w : World) (key : RedisKey) :
    Ev Op.Resp HubError → Option (key.Value × Nat) → Prop where
  | same {ev : Ev Op.Resp HubError} : ev ≠ ⟨.redisDel key, .ok ()⟩ →
      RedisStep env w key ev (w.redis.entry key)
  | set {value ttl} : RedisStep env w key ⟨.redisSet key value ttl, .ok ()⟩
      (some (value, env.clock w.steps + ttl * 1000))
  | del : RedisStep env w key ⟨.redisDel key, .ok ()⟩ none

theorem exec_redis_entry (key : RedisKey) :
    RedisStep env w key ⟨op, (exec env op w).1⟩ ((exec env op w).2.redis.entry key) := by
  by_cases hpart : op.part = .redis
  · cases op <;> simp only [Op.part, reduceCtorEq] at hpart
    case redisSet k value ttl =>
      cases h : (exec env (.redisSet k value ttl) w).1 with
      | error e =>
        rw [exec_error h]
        exact .same (by rintro ⟨⟩)
      | ok u =>
        rw [exec_redisSet_ok h]
        by_cases hk : key = k
        · subst hk
          rw [Expiring.set_entry_self]
          exact .set
        · rw [Expiring.set_entry_ne _ _ _ hk]
          exact .same (by rintro ⟨⟩)
    case redisDel k =>
      cases h : (exec env (.redisDel k) w).1 with
      | error e =>
        rw [exec_error h]
        exact .same (by rintro ⟨⟩)
      | ok u =>
        rw [exec_redisDel_ok h]
        by_cases hk : key = k
        · subst hk
          rw [Expiring.del_entry_self]
          exact .del
        · rw [Expiring.del_entry_ne _ hk]
          refine .same fun heq => ?_
          injection heq with hop hres
          injection hop with hop
          exact hk hop.symm
  · rw [exec_redis hpart]
    refine .same fun heq => ?_
    injection heq with hop hres
    subst hop
    exact hpart rfl

/-- A record that is there after a step was there before or has just been stored. -/
theorem RedisStep.found {key : RedisKey} {ev : Ev Op.Resp HubError} {value : key.Value}
    {deadline : Nat} (h : RedisStep env w key ev (some (value, deadline))) :
    w.redis.entry key = some (value, deadline) ∨ ∃ ttl, ev = ⟨.redisSet key value ttl, .ok ()⟩ := by
  generalize hnew : some (value, deadline) = new at h
  cases h with
  | same => exact .inl rfl
  | @set value' ttl =>
    cases hnew
    exact .inr ⟨ttl, rfl⟩
  | del => cases hnew

end TroofAI.Hub
