import TroofAI.History.Exact
import TroofAI.Trust.Unanswered

/-!
Whom `issueChallenge` reaches.

`Round` says what a round of challenges, one turn for each participant, leaves of a world:
five outputs that the loop accumulates, with the turn each part of them belongs to. It is
composed turn by turn (`Round.cons`). A participant without a device is failed at once, and
that test reads the device id as a truth value, so a participant bound to the device with the
empty id is failed like one that is bound to none (`issue_covers_iff`).
-/

namespace TroofAI.Hub

open TroofAI.Await ChallengeService

variable {env : Env} {meeting : Meeting} {w w₁ w' : World}

/-! ### One round -/

/-- What becomes of a participant in a round. -/
inductive Turn where
  | challenged (record : ChallengeRecord)
  | noDevice (now : Date)

/-- The turns of a round, in the order the participants were read. -/
abbrev Turns := List (Participant × Turn)

/-- The challenges among them. -/
def challenges (turns : Turns) : List ChallengeRecord :=
  turns.filterMap fun turn =>
    match turn.2 with
    | .challenged record => some record
    | .noDevice _ => none

/-- The entry of the result list. -/
def turnResult : Participant × Turn → IssueResult
  | (p, .challenged record) => .challengeSent p.id p.displayName record.challengeId
  | (p, .noDevice _) => .failed p.id p.displayName "No device binding"

/-- What is emitted. -/
def turnEmit (meeting : Meeting) (g : Gateway) : Participant × Turn → Gateway
  | (_, .challenged record) => g.emitChallengeToDevice record.deviceId record.toChallengePayload
  | (p, .noDevice _) =>
      g.emitMeetingUpdate meeting.id ⟨p.id, .failed, "No device binding — cannot verify"⟩

/-- The event that is logged. -/
def TurnLogged (meeting : Meeting) : Participant × Turn → AuditEvent → Prop
  | (p, .challenged record), event =>
      event.eventType = .challengeIssued ∧ event.tenantId = meeting.tenantId ∧
        ("challenge_id", .str record.challengeId) ∈ event.details ∧
        ("participant_id", .str p.id) ∈ event.details
  | (p, .noDevice _), event =>
      event.eventType = .challengeNoDevice ∧ event.tenantId = meeting.tenantId ∧
        ("participant_id", .str p.id) ∈ event.details

/-- The records are stored, each under an id of its own that was free, and nothing else is
written. -/
structure Stores (records : List ChallengeRecord)
    (redis redis' : Expiring RedisKey RedisKey.Value) : Prop where
  ids : (records.map (·.challengeId)).Nodup
  fresh : ∀ record ∈ records, redis.entry (.challenge record.challengeId) = none
  stored : ∀ record ∈ records,
    ∃ deadline, redis'.entry (.challenge record.challengeId) = some (record, deadline)
  kept : ∀ key, (∀ record ∈ records, key ≠ .challenge record.challengeId) →
    redis'.entry key = redis.entry key

/-- The participants without a device are FAILED, and no other row is written. -/
structure Fails (turns : Turns) (rows rows' : Table Participant.id) : Prop where
  failed : ∀ p now, (p, .noDevice now) ∈ turns →
    rows'.find? p.id = some ((noDeviceData now).apply p)
  kept : ∀ id, (∀ p now, (p, .noDevice now) ∈ turns → p.id ≠ id) → rows'.find? id = rows.find? id

/-- What the turns of a round leave of the world `w`. -/
structure Round (meeting : Meeting) (turns : Turns) (w w' : World) : Prop where
  tenants : w'.tenants = w.tenants
  devices : w'.devices = w.devices
  meetings : w'.meetings = w.meetings
  gateway : w'.gateway = turns.foldl (turnEmit meeting) w.gateway
  audit : ∃ events, w'.audit = w.audit ++ events ∧
    List.Forall₂ (TurnLogged meeting) turns events
  redis : Stores (challenges turns) w.redis w'.redis
  participants : Fails turns w.participants w'.participants

/-! ### Rounds are composed of turns -/

section Compose

variable {records records' : List ChallengeRecord}
  {redis redis₁ redis' : Expiring RedisKey RedisKey.Value} {rows rows₁ rows' : Table Participant.id}
  {turn : Participant × Turn} {turns : Turns}

theorem Stores.nil : Stores [] redis redis where
  ids := List.nodup_nil
  fresh := by simp
  stored := by simp
  kept _ _ := rfl

/-- What has been stored is not free for a later record. -/
theorem Stores.append (h₁ : Stores records redis redis₁) (h : Stores records' redis₁ redis') :
    Stores (records ++ records') redis redis' := by
  have hne : ∀ a ∈ records, ∀ b ∈ records', a.challengeId ≠ b.challengeId := by
    intro a ha b hb heq
    obtain ⟨deadline, hstored⟩ := h₁.stored a ha
    have hfree := h.fresh b hb
    rw [← heq, hstored] at hfree
    cases hfree
  constructor
  · rw [List.map_append, List.nodup_append]
    refine ⟨h₁.ids, h.ids, ?_⟩
    intro i hi j hj
    obtain ⟨a, ha, rfl⟩ := List.mem_map.mp hi
    obtain ⟨b, hb, rfl⟩ := List.mem_map.mp hj
    exact hne a ha b hb
  · intro record hrecord
    rcases List.mem_append.mp hrecord with ha | hb
    · exact h₁.fresh record ha
    · rw [← h₁.kept _ fun a ha => ?_]
      · exact h.fresh record hb
      · intro hkey
        exact hne a ha record hb (RedisKey.challenge.inj hkey).symm
  · intro record hrecord
    rcases List.mem_append.mp hrecord with ha | hb
    · rw [h.kept _ fun b hb hkey => hne record ha b hb (RedisKey.challenge.inj hkey)]
      exact h₁.stored record ha
    · exact h.stored record hb
  · intro key hkey
    rw [h.kept key fun b hb => hkey b (List.mem_append_right _ hb)]
    exact h₁.kept key fun a ha => hkey a (List.mem_append_left _ ha)

/-- The turns that follow are those of other participants. -/
theorem Fails.cons (h₁ : Fails [turn] rows rows₁) (h : Fails turns rows₁ rows')
    (hother : ∀ other ∈ turns, other.1.id ≠ turn.1.id) : Fails (turn :: turns) rows rows' := by
  constructor
  · intro p now hmem
    rcases List.mem_cons.mp hmem with rfl | hmem
    · rw [h.kept p.id fun q t hq => hother (q, .noDevice t) hq]
      exact h₁.failed p now List.mem_cons_self
    · exact h.failed p now hmem
  · intro id hid
    rw [h.kept id fun p now hmem => hid p now (List.mem_cons_of_mem _ hmem)]
    refine h₁.kept id fun p now hmem => hid p now ?_
    rw [List.mem_singleton.mp hmem]
    exact List.mem_cons_self

theorem challenges_cons : challenges (turn :: turns) = challenges [turn] ++ challenges turns := by
  unfold challenges
  rw [← List.filterMap_append]
  rfl

theorem Round.nil : Round meeting [] w w where
  tenants := rfl
  devices := rfl
  meetings := rfl
  gateway := rfl
  audit := ⟨[], (List.append_nil _).symm, .nil⟩
  redis := .nil
  participants := ⟨by simp, fun _ _ => rfl⟩

/-- One turn, then the others. -/
theorem Round.cons (h₁ : Round meeting [turn] w w₁) (h : Round meeting turns w₁ w')
    (hother : ∀ other ∈ turns, other.1.id ≠ turn.1.id) : Round meeting (turn :: turns) w w' where
  tenants := h.tenants.trans h₁.tenants
  devices := h.devices.trans h₁.devices
  meetings := h.meetings.trans h₁.meetings
  gateway := by
    rw [h.gateway, h₁.gateway]
    rfl
  audit := by
    obtain ⟨events₁, haudit₁, hlogged₁⟩ := h₁.audit
    obtain ⟨events, haudit, hlogged⟩ := h.audit
    cases hlogged₁ with
    | cons hevent hnil =>
      cases hnil
      refine ⟨_ :: events, ?_, .cons hevent hlogged⟩
      rw [haudit, haudit₁, List.append_assoc]
      rfl
  redis := by
    rw [challenges_cons]
    exact h₁.redis.append h.redis
  participants := h₁.participants.cons h.participants hother

end Compose

/-! ### The loop -/

section Loop

variable {p : Participant} {ps : List Participant} {deviceId : String}

/-- A turn on a participant that is bound to the device `bound` gives, if to any: the ids in the
record are those of the rows. -/
def TurnOf (bound : Participant → Option String) (meeting : Meeting) : Participant × Turn → Prop
  | (p, .challenged record) =>
      bound p = some record.deviceId ∧ record.tenantId = meeting.tenantId ∧
        record.meetingId = meeting.id ∧ record.participantId = p.id ∧ record.userId = p.userId
  | (p, .noDevice _) => bound p = none

/-- The stores answer, the rows of the meeting and the participants `ps` are there, and the ids
still to be drawn are not in use. -/
structure RoundReady (env : Env) (meeting : Meeting) (ps : List Participant) (w : World) :
    Prop where
  answers : Undisturbed env w
  tenant : (w.tenants.find? meeting.tenantId).isSome
  meeting : (w.meetings.find? meeting.id).isSome
  rows : ∀ p ∈ ps, w.participants.find? p.id = some p
  nodup : (ps.map Participant.id).Nodup
  fresh : ∀ k, w.redis.entry (.challenge (env.uuid (w.steps + k))) = none

theorem round_noDevice (hrow : w.participants.find? p.id = some p) :
    Round meeting [(p, .noDevice (env.clock w.steps))] w
      (noDeviceStore env w meeting meeting.id p) where
  tenants := rfl
  devices := rfl
  meetings := rfl
  gateway := rfl
  audit := ⟨_, rfl, .cons
    ⟨rfl, rfl, by simp [AuditCreate.event, AuditService.row, noDeviceLog]⟩ .nil⟩
  redis := .nil
  participants := by
    constructor
    · intro q now hmem
      cases List.mem_singleton.mp hmem
      simp only [noDeviceStore, Table.find?_modify, hrow, ↓reduceIte, Option.map_some]
    · intro id hid
      have hne : id ≠ p.id := fun heq => hid p _ (List.mem_singleton.mpr rfl) heq.symm
      simp only [noDeviceStore, Table.find?_modify, hne, ↓reduceIte]

theorem round_challenged (hfree : w.redis.entry (.challenge (env.uuid w.steps)) = none) :
    Round meeting [(p, .challenged (drawnChallenge env w meeting meeting.id p deviceId))] w
      (challengedStore env w meeting meeting.id p deviceId) where
  tenants := rfl
  devices := rfl
  meetings := rfl
  gateway := rfl
  audit := ⟨_, rfl, .cons
    ⟨rfl, rfl, by simp [AuditCreate.event, AuditService.row, issuedLog],
      by simp [AuditCreate.event, AuditService.row, issuedLog]⟩ .nil⟩
  redis := by
    constructor
    · exact List.nodup_singleton _
    · intro record hrecord
      cases List.mem_singleton.mp hrecord
      exact hfree
    · intro record hrecord
      cases List.mem_singleton.mp hrecord
      exact ⟨_, Expiring.set_entry_self ..⟩
    · intro key hkey
      exact Expiring.set_entry_ne _ _ _ (hkey _ (List.mem_singleton.mpr rfl))
  participants := by
    constructor
    · intro q now hmem
      cases List.mem_singleton.mp hmem
    · exact fun _ _ => rfl

/-- The turn of a participant leaves what the turns of the others need. -/
theorem RoundReady.next {turn : Turn} {n : Nat} (h : RoundReady env meeting (p :: ps) w)
    (hround : Round meeting [(p, turn)] w w₁) (hsteps : w₁.steps = w.steps + n)
    (hdrawn : ∀ record ∈ challenges [(p, turn)],
      ∃ j < n, record.challengeId = env.uuid (w.steps + j)) :
    RoundReady env meeting ps w₁ where
  answers := h.answers.later hsteps
  tenant := by
    rw [hround.tenants]
    exact h.tenant
  meeting := by
    rw [hround.meetings]
    exact h.meeting
  rows := by
    intro q hq
    rw [hround.participants.kept q.id fun p' now hmem heq => ?_]
    · exact h.rows q (List.mem_cons_of_mem _ hq)
    · cases List.mem_singleton.mp hmem
      exact (List.nodup_cons.mp h.nodup).1 (heq ▸ List.mem_map_of_mem hq)
  nodup := (List.nodup_cons.mp h.nodup).2
  fresh := by
    intro k
    rw [hround.redis.kept _ fun record hrecord hkey => ?_, hsteps, Nat.add_assoc]
    · exact h.fresh (n + k)
    · obtain ⟨j, hj, hid⟩ := hdrawn record hrecord
      have hsame := RedisKey.challenge.inj hkey
      rw [hid, hsteps] at hsame
      have := env.uuid_injective hsame
      omega

/-- The turn of one participant. -/
theorem issue_turn (w₀ : World) (h : RoundReady env meeting (p :: ps) w) :
    ∃ turn w₁, TurnOf (fun p => boundDevice (w₀.withDevice p)) meeting (p, turn) ∧
      Round meeting [(p, turn)] w w₁ ∧ RoundReady env meeting ps w₁ ∧
      ∀ (R : IssueResult → World → Prop) (E : HubError → World → Prop),
        Prog.Ends (exec env) R E (issueOne meeting meeting.id (w₀.withDevice p)) w ↔
          R (turnResult (p, turn)) w₁ := by
  have hrow := h.rows p List.mem_cons_self
  cases hbound : boundDevice (w₀.withDevice p) with
  | none =>
    have hround : Round meeting _ w (noDeviceStore env w meeting meeting.id p) :=
      round_noDevice hrow
    have hready : RoundReady env meeting ps (noDeviceStore env w meeting meeting.id p) := by
      refine h.next (n := 4) hround rfl ?_
      rintro record ⟨⟩
    exact ⟨.noDevice (env.clock w.steps), _, hbound, hround, hready, fun R E =>
      issueOne_noDevice_ends h.answers h.tenant h.meeting hrow hbound⟩
  | some deviceId =>
    have hround : Round meeting _ w (challengedStore env w meeting meeting.id p deviceId) :=
      round_challenged (h.fresh 0)
    have hready :
        RoundReady env meeting ps (challengedStore env w meeting meeting.id p deviceId) := by
      refine h.next (n := 7) hround rfl ?_
      intro record hrecord
      cases List.mem_singleton.mp hrecord
      exact ⟨0, by omega, rfl⟩
    exact ⟨.challenged (drawnChallenge env w meeting meeting.id p deviceId), _,
      ⟨hbound, rfl, rfl, rfl, rfl⟩, hround, hready, fun R E =>
      issueOne_challenged_ends h.answers h.tenant h.meeting hbound⟩

/-- The turns of all. -/
theorem issue_round (w₀ : World) (h : RoundReady env meeting ps w) :
    ∃ turns w', turns.map Prod.fst = ps ∧
      (∀ turn ∈ turns, TurnOf (fun p => boundDevice (w₀.withDevice p)) meeting turn) ∧
      Round meeting turns w w' ∧
      ∀ (R : List IssueResult → World → Prop) (E : HubError → World → Prop),
        Prog.Ends (exec env) R E
            (Prog.collect (issueOne meeting meeting.id) (ps.map w₀.withDevice)) w ↔
          R (turns.map turnResult) w' := by
  induction ps generalizing w with
  | nil => exact ⟨[], w, rfl, by simp, .nil, fun _ _ => Iff.rfl⟩
  | cons p ps ih =>
    obtain ⟨turn, w₁, hturn, hround₁, hready, hends₁⟩ := issue_turn w₀ h
    obtain ⟨turns, w', hfst, hturns, hround, hends⟩ := ih hready
    refine ⟨(p, turn) :: turns, w', congrArg (p :: ·) hfst, ?_, hround₁.cons hround ?_, ?_⟩
    · intro t ht
      rcases List.mem_cons.mp ht with rfl | ht
      · exact hturn
      · exact hturns t ht
    · intro other hmem heq
      have hother : other.1 ∈ ps := hfst ▸ List.mem_map_of_mem hmem
      exact (List.nodup_cons.mp h.nodup).1 (heq ▸ List.mem_map_of_mem hother)
    · intro R E
      refine Prog.ends_bind.trans ((hends₁ _ _).trans ?_)
      exact Prog.ends_map.trans (hends _ _)

end Loop

/-! ### The call -/

section Call

variable {cfg : HubConfig} {meetingId : String} {bound : Participant → Option String}

/-- Nothing happens for a meeting that does not exist. In one that does every participant has
its turn, in the order they are read, and nothing happens but that. -/
def IssueCovers (order : AnyOrder Participant) (bound : Participant → Option String)
    (meetingId : String) (w : World) (reply : Except HubError Reply) (w' : World) : Prop :=
  match w.meetings.find? meetingId with
  | none => reply = .ok (.issued []) ∧ w.Untouched w'
  | some meeting => ∃ turns,
      turns.map Prod.fst = order.sort (w.members meetingId) ∧
      (∀ turn ∈ turns, TurnOf bound meeting turn) ∧
      reply = .ok (.issued (turns.map turnResult)) ∧ Round meeting turns w w'

/-- The order in which `issueChallenge`, alone in `w`, reads the participants. -/
def readOrder (env : Env) (w : World) : AnyOrder Participant := env.participantOrder (w.steps + 1)

/-- The stores answer, the foreign keys of meetings and participants hold, and the ids still to
be drawn are not in use. -/
structure IssueReady (env : Env) (w : World) : Prop where
  answers : Undisturbed env w
  tenant : ∀ meetingId meeting, w.meetings.find? meetingId = some meeting →
    (w.tenants.find? meeting.tenantId).isSome
  meeting : ∀ p ∈ w.participants.rows, (w.meetings.find? p.meetingId).isSome
  fresh : ∀ k, w.redis.entry (.challenge (env.uuid (w.steps + k))) = none

/-- No id that is drawn from now on is that of a challenge in Redis. -/
theorem challenge_free (reach : Reachable env cfg) (k : Nat) :
    cfg.store.redis.entry (.challenge (env.uuid (cfg.store.steps + k))) = none := by
  cases hentry : cfg.store.redis.entry (.challenge (env.uuid (cfg.store.steps + k))) with
  | none => rfl
  | some entry =>
    obtain ⟨since, s, earlier, ht, hstored⟩ := redis_stored reach hentry
    obtain ⟨ttl, hs, -⟩ := hstored.ev
    have hset := hub_set reach ht (congrArg Ev.op hs)
    obtain ⟨d, hd, -, hdraw⟩ := mem_own.mp (List.mem_of_getElem? hset.challenge_drawn)
    have hmem : d ∈ cfg.trace := by
      rw [ht]
      exact List.mem_append_right _ (List.mem_cons_of_mem _ hd)
    have hdrawn := exec_randomUUID_ok (hub_did reach hmem hdraw)
    have hlt := (reach.steps World.steps fun _ _ => exec_steps).2 d hmem
    have := env.uuid_injective hdrawn
    omega

theorem reachable_issueReady (reach : Reachable env cfg) (h : Undisturbed env cfg.store) :
    IssueReady env cfg.store where
  answers := h
  tenant _ _ := meeting_tenant reach
  meeting p hp := by
    obtain ⟨meeting, hmeeting⟩ := participant_meeting reach (Table.find?_eq_some.mpr ⟨hp, rfl⟩)
    rw [hmeeting]
    rfl
  fresh := challenge_free reach

/-- The meeting is looked up, and its participants are read. -/
theorem issueChallenge_ends {R : List IssueResult → World → Prop} {E : HubError → World → Prop}
    (h : Undisturbed env w) :
    Prog.Ends (exec env) R E (issueChallenge meetingId) w ↔
      match w.meetings.find? meetingId with
      | none => R [] { w with steps := w.steps + 1 }
      | some meeting => Prog.Ends (exec env) R E
          (Prog.collect (issueOne meeting meetingId)
            (w.participantsOf (readOrder env w) meetingId))
          { w with steps := w.steps + 2 } := by
  unfold issueChallenge
  rw [ends_call (.inr (h 0)) rfl]
  cases hmeeting : w.meetings.find? meetingId with
  | none => exact Iff.rfl
  | some meeting =>
    simp only
    rw [ends_call (.inr (h 1)) rfl]
    exact Iff.rfl

theorem mem_read {order : AnyOrder Participant} {p : Participant} :
    p ∈ order.sort (w.members meetingId) ↔ p ∈ w.participants.rows ∧ p.meetingId = meetingId := by
  rw [(order.perm _).mem_iff]
  simp [World.members]

/-- The participants that `boundDevice` accepts are challenged. -/
theorem issue_covers (h : IssueReady env w) (meetingId : String) :
    IssueCovers (readOrder env w) (fun p => boundDevice (w.withDevice p)) meetingId w
      (aloneResult env (.issueChallenge meetingId) w)
      (aloneStore env (.issueChallenge meetingId) w) := by
  refine (alone_ends (P := IssueCovers _ _ meetingId w) rfl).mpr ?_
  refine (issueChallenge_ends h.answers).mpr ?_
  unfold IssueCovers
  cases hmeeting : w.meetings.find? meetingId with
  | none => exact ⟨rfl, rfl⟩
  | some meeting =>
    have hid : meeting.id = meetingId := Table.find?_key hmeeting
    subst hid
    have hready : RoundReady env meeting ((readOrder env w).sort (w.members meeting.id))
        { w with steps := w.steps + 2 } := by
      constructor
      · exact h.answers.later rfl
      · exact h.tenant _ _ hmeeting
      · show (w.meetings.find? meeting.id).isSome
        rw [hmeeting]
        rfl
      · intro p hp
        exact Table.find?_eq_some.mpr ⟨(mem_read.mp hp).1, rfl⟩
      · rw [(((readOrder env w).perm _).map Participant.id).nodup_iff]
        exact w.participants.nodup.sublist (List.filter_sublist.map Participant.id)
      · intro k
        have hfree := h.fresh (2 + k)
        rwa [← Nat.add_assoc] at hfree
    obtain ⟨turns, w', hfst, hturns, hround, hends⟩ := issue_round w hready
    refine (hends _ _).mpr ⟨turns, hfst, hturns, rfl, ?_⟩
    exact ⟨hround.tenants, hround.devices, hround.meetings, hround.gateway, hround.audit,
      hround.redis, hround.participants⟩

/-- The device a participant is bound to. -/
def World.deviceOf (w : World) (p : Participant) : Option String :=
  (p.deviceId.bind w.devices.find?).map Device.id

/-- The device a participant is challenged on is the one it is bound to, unless that has the
empty id. -/
theorem boundDevice_eq (w : World) (p : Participant) :
    boundDevice (w.withDevice p) = (w.deviceOf p).filter (· ≠ "") := by
  unfold boundDevice World.withDevice World.deviceOf
  cases hid : p.deviceId with
  | none => rfl
  | some deviceId =>
    simp only [Option.bind_some]
    cases hfound : w.devices.find? deviceId with
    | none => rfl
    | some device =>
      have hkey : device.id = deviceId := Table.find?_key hfound
      simp only [Option.map_some, hkey]

theorem TurnOf.congr {bound' : Participant → Option String} {turn : Participant × Turn}
    (heq : bound turn.1 = bound' turn.1) (h : TurnOf bound meeting turn) :
    TurnOf bound' meeting turn := by
  obtain ⟨p, turn⟩ := turn
  cases turn with
  | challenged record => exact ⟨heq ▸ h.1, h.2⟩
  | noDevice now =>
    show bound' p = none
    rw [← heq]
    exact h

/-- A result that reports a missing device belongs to a turn without a device. -/
theorem noDevice_of_failed {bound : Participant → Option String} {turns : Turns}
    (hturns : ∀ turn ∈ turns, TurnOf bound meeting turn) {id displayName reason : String}
    (h : IssueResult.failed id displayName reason ∈ turns.map turnResult) :
    ∃ p ∈ turns.map Prod.fst, p.id = id ∧ bound p = none := by
  obtain ⟨⟨p, turn⟩, hmem, hresult⟩ := List.mem_map.mp h
  cases turn with
  | challenged record => cases hresult
  | noDevice now =>
    obtain ⟨rfl, -, -⟩ := IssueResult.failed.inj hresult
    exact ⟨p, List.mem_map_of_mem hmem, rfl, hturns _ hmem⟩

/-- And a turn without a device is reported as such. -/
theorem failed_of_noDevice {bound : Participant → Option String} {turns : Turns}
    (hturns : ∀ turn ∈ turns, TurnOf bound meeting turn) {p : Participant} {turn : Turn}
    (hmem : (p, turn) ∈ turns) (hbound : bound p = none) :
    IssueResult.failed p.id p.displayName "No device binding" ∈ turns.map turnResult := by
  refine List.mem_map.mpr ⟨_, hmem, ?_⟩
  cases turn with
  | challenged record =>
    have hsome := (hturns _ hmem).1
    rw [hbound] at hsome
    cases hsome
  | noDevice now => rfl

/-- A participant bound to the device with the empty id is failed. -/
theorem named_of_covers (h : IssueReady env w)
    (hcovers : IssueCovers (readOrder env w) w.deviceOf meetingId w
      (aloneResult env (.issueChallenge meetingId) w)
      (aloneStore env (.issueChallenge meetingId) w))
    {p : Participant} (hp : p ∈ w.participants.rows) (hid : p.meetingId = meetingId) :
    w.deviceOf p ≠ some "" := by
  intro hempty
  have hdone := issue_covers h meetingId
  unfold IssueCovers at hdone hcovers
  have hsome := h.meeting p hp
  rw [hid] at hsome
  obtain ⟨meeting, hmeeting⟩ := Option.isSome_iff_exists.mp hsome
  rw [hmeeting] at hdone hcovers
  obtain ⟨turns, hfst, hturns, hreply, -⟩ := hdone
  obtain ⟨turns', hfst', hturns', hreply', -⟩ := hcovers
  have hread : p ∈ (readOrder env w).sort (w.members meetingId) := mem_read.mpr ⟨hp, hid⟩
  obtain ⟨⟨q, turn⟩, hmem, rfl⟩ := List.mem_map.mp (hfst ▸ hread)
  have hnone : boundDevice (w.withDevice q) = none := by
    rw [boundDevice_eq, hempty]
    rfl
  have hfailed := failed_of_noDevice hturns hmem hnone
  -- the two lists of turns have the same results
  have hresults : turns.map turnResult = turns'.map turnResult :=
    Reply.issued.inj (Except.ok.inj (hreply.symm.trans hreply'))
  rw [hresults] at hfailed
  obtain ⟨p', hp', hsame, hunbound⟩ := noDevice_of_failed hturns' hfailed
  rw [hfst'] at hp'
  have heq := List.inj_on_of_nodup_map w.participants.nodup (mem_read.mp hp').1 hp hsame
  rw [heq, hempty] at hunbound
  cases hunbound

/-- Every participant bound to a device is challenged exactly if none is bound to the device
with the empty id. -/
theorem issue_covers_iff (h : IssueReady env w) (meetingId : String) :
    IssueCovers (readOrder env w) w.deviceOf meetingId w
        (aloneResult env (.issueChallenge meetingId) w)
        (aloneStore env (.issueChallenge meetingId) w) ↔
      ∀ p ∈ w.participants.rows, p.meetingId = meetingId → w.deviceOf p ≠ some "" := by
  constructor
  · intro hcovers p hp hid
    exact named_of_covers h hcovers hp hid
  · intro hnamed
    have hdone := issue_covers h meetingId
    unfold IssueCovers at hdone ⊢
    cases hmeeting : w.meetings.find? meetingId with
    | none =>
      rw [hmeeting] at hdone
      exact hdone
    | some meeting =>
      rw [hmeeting] at hdone
      obtain ⟨turns, hfst, hturns, hreply, hround⟩ := hdone
      refine ⟨turns, hfst, fun turn hmem => (hturns turn hmem).congr ?_, hreply, hround⟩
      obtain ⟨hp, hid⟩ := mem_read.mp (hfst ▸ List.mem_map_of_mem hmem)
      have hne := hnamed turn.1 hp hid
      show boundDevice (w.withDevice turn.1) = w.deviceOf turn.1
      rw [boundDevice_eq]
      cases hdevice : w.deviceOf turn.1 with
      | none => rfl
      | some deviceId =>
        rw [hdevice] at hne
        exact Option.filter_some_pos (decide_eq_true fun heq => hne (congrArg some heq))

end Call

/-! ### Two rounds -/

section Sample

/-- alice is bound to her laptop, bob to nothing. -/
def mixed : List Call :=
  Sample.bound (Sample.env 0 0) ++ [.addParticipant (Sample.uuid 4) "bob" "Bob"]

/-- alice is bound to a device that was enrolled with the empty id. -/
def nameless : List Call :=
  [Sample.enroll "tenant-acme" "" "alice" "pem-1", .create "tenant-acme" "Standup",
    .addParticipant (Sample.uuid 4) "alice" "Alice",
    .issueJoinToken (Sample.uuid 4) (Sample.uuid 7),
    Sample.bind (Sample.env 0 0) 10 (Sample.uuid 4) (Sample.uuid 7) "" "pem-1"]

/-- alice is challenged and bob is failed. -/
theorem issue_covers_mixed : ∃ cfg, Reachable (Sample.env 0 0) cfg ∧
    IssueCovers (readOrder (Sample.env 0 0) cfg.store) cfg.store.deviceOf (Sample.uuid 4)
      cfg.store
      (aloneResult (Sample.env 0 0) (.issueChallenge (Sample.uuid 4)) cfg.store)
      (aloneStore (Sample.env 0 0) (.issueChallenge (Sample.uuid 4)) cfg.store) := by
  have hrun := Sample.run_reachable (Sample.env 0 0) mixed
  have hnamed : ∀ p ∈ (Sample.run (Sample.env 0 0) mixed).store.participants.rows,
      p.meetingId = Sample.uuid 4 →
        (Sample.run (Sample.env 0 0) mixed).store.deviceOf p ≠ some "" := by decide +kernel
  generalize Sample.run (Sample.env 0 0) mixed = cfg at hrun hnamed
  exact ⟨cfg, hrun, (issue_covers_iff (reachable_issueReady hrun fun _ => rfl) _).mpr hnamed⟩

/-- The device is bound and the participant VERIFIED; challenged, it is FAILED for want of a
device. -/
theorem nameless_not_challenged : ∃ cfg, Reachable (Sample.env 0 0) cfg ∧
    Undisturbed (Sample.env 0 0) cfg.store ∧
    cfg.store.BoundTo (Sample.uuid 7) "" ∧ cfg.store.statusOf (Sample.uuid 7) = some .verified ∧
    (aloneStore (Sample.env 0 0) (.issueChallenge (Sample.uuid 4)) cfg.store).statusOf
      (Sample.uuid 7) = some .failed ∧
    ¬ IssueCovers (readOrder (Sample.env 0 0) cfg.store) cfg.store.deviceOf (Sample.uuid 4)
      cfg.store
      (aloneResult (Sample.env 0 0) (.issueChallenge (Sample.uuid 4)) cfg.store)
      (aloneStore (Sample.env 0 0) (.issueChallenge (Sample.uuid 4)) cfg.store) := by
  have hrun := Sample.run_reachable (Sample.env 0 0) nameless
  have hbound : (Sample.run (Sample.env 0 0) nameless).store.BoundTo (Sample.uuid 7) "" := by
    decide +kernel
  have hstatus : (Sample.run (Sample.env 0 0) nameless).store.statusOf (Sample.uuid 7) =
      some .verified := by decide +kernel
  have hfailed : (aloneStore (Sample.env 0 0) (.issueChallenge (Sample.uuid 4))
      (Sample.run (Sample.env 0 0) nameless).store).statusOf (Sample.uuid 7) = some .failed := by
    decide +kernel
  have hempty : ∃ p ∈ (Sample.run (Sample.env 0 0) nameless).store.participants.rows,
      p.meetingId = Sample.uuid 4 ∧
        (Sample.run (Sample.env 0 0) nameless).store.deviceOf p = some "" := by decide +kernel
  generalize Sample.run (Sample.env 0 0) nameless = cfg at hrun hbound hstatus hfailed hempty
  refine ⟨cfg, hrun, fun _ => rfl, hbound, hstatus, hfailed, fun hcovers => ?_⟩
  obtain ⟨p, hp, hid, hdevice⟩ := hempty
  exact named_of_covers (reachable_issueReady hrun fun _ => rfl) hcovers hp hid hdevice

end Sample

end TroofAI.Hub
