import TroofAI.Trust.Coverage
import TroofAI.Trust.Honest
import TroofAI.Trust.Times

/-!
A round of challenges with the answers to it.

A meeting is challenged, and every device that gets a challenge answers it once, within ten seconds
and as soon as it likes: the loop of `issueChallenge` may still be on its way, and the answers may be
handled in any order and at the same time. Then every participant of the meeting ends with the verdict
of the policy on its own device and answer, or FAILED for want of a device, and nobody else's row has
changed (`round_settles`).
-/

namespace TroofAI.Hub

open TroofAI.Await ChallengeService

/-! ### How the calls return -/

/-- The history of one turn of `issueChallenge`, newest first. -/
inductive TurnDone (meetingId : String) (row : Participant × Option Device) :
    List Event → Prop where
  | noDevice {m t p e} : boundDevice row = none →
      TurnDone meetingId row
        [⟨.emitMeetingUpdate meetingId ⟨row.1.id, .failed, "No device binding — cannot verify"⟩,
            .ok ()⟩,
          ⟨.auditCreate (AuditService.row (noDeviceLog m meetingId row.1)), .ok e⟩,
          ⟨.participantUpdate row.1.id (noDeviceData t), .ok p⟩, ⟨.now, .ok t⟩]
  | challenged {m deviceId cid nonce t t' e} : boundDevice row = some deviceId →
      TurnDone meetingId row
        [⟨.auditCreate (AuditService.row (issuedLog m meetingId row.1 deviceId cid)), .ok e⟩,
          ⟨.emitChallengeToDevice deviceId
              (challengeRecord m meetingId row.1 deviceId cid nonce t t').toChallengePayload,
            .ok ()⟩,
          ⟨.redisSet (.challenge cid)
              (challengeRecord m meetingId row.1 deviceId cid nonce t t') 15, .ok ()⟩,
          ⟨.now, .ok t'⟩, ⟨.now, .ok t⟩, ⟨.randomBytes, .ok nonce⟩, ⟨.randomUUID, .ok cid⟩]

/-- What the call reads first: the meeting, and if there is one its participants. -/
inductive RoundReads (meetingId : String) (rows : List (Participant × Option Device)) :
    List Event → Prop where
  | missing : rows = [] → RoundReads meetingId rows [⟨.meetingFindUnique meetingId, .ok none⟩]
  | read {m} : RoundReads meetingId rows
      [⟨.participantFindMany meetingId, .ok rows⟩, ⟨.meetingFindUnique meetingId, .ok (some m)⟩]

/-- The history of an `issueChallenge` call that has returned: every participant that it read has
had its turn. -/
structure RoundDone (meetingId : String)
    (turns : List ((Participant × Option Device) × List Event)) (past : List Event) : Prop where
  done : ∀ turn ∈ turns, TurnDone meetingId turn.1 turn.2
  past_eq : ∃ reads, RoundReads meetingId (turns.map Prod.fst) reads ∧
    past = (turns.map Prod.snd).reverse.flatten ++ reads

theorem issueOne_done {m : Meeting} {meetingId : String} {row : Participant × Option Device}
    {past : List Event} :
    Prog.Obeys (fun _ _ => True)
      (fun past' _ => ∃ turn, TurnDone meetingId row turn ∧ past' = turn ++ past) past
      (issueOne m meetingId row) := by
  unfold issueOne
  cases hbound : boundDevice row with
  | none =>
    refine Prog.obeys_perform_bind.mpr ⟨trivial, fun t => ?_⟩
    refine Prog.obeys_perform_bind.mpr ⟨trivial, fun p => ?_⟩
    refine Prog.obeys_perform_bind.mpr ⟨trivial, fun e => ?_⟩
    refine Prog.obeys_perform_bind.mpr ⟨trivial, fun _ => ?_⟩
    exact ⟨_, .noDevice hbound, rfl⟩
  | some deviceId =>
    refine Prog.obeys_perform_bind.mpr ⟨trivial, fun cid => ?_⟩
    refine Prog.obeys_perform_bind.mpr ⟨trivial, fun nonce => ?_⟩
    refine Prog.obeys_perform_bind.mpr ⟨trivial, fun t => ?_⟩
    refine Prog.obeys_perform_bind.mpr ⟨trivial, fun t' => ?_⟩
    refine Prog.obeys_perform_bind.mpr ⟨trivial, fun _ => ?_⟩
    refine Prog.obeys_perform_bind.mpr ⟨trivial, fun _ => ?_⟩
    refine Prog.obeys_perform_bind.mpr ⟨trivial, fun e => ?_⟩
    exact ⟨_, .challenged hbound, rfl⟩

theorem issueChallenge_done (meetingId : String) :
    Prog.Obeys (fun _ _ => True) (fun past _ => ∃ turns, RoundDone meetingId turns past) []
      (issueChallenge meetingId) := by
  refine Prog.obeys_perform_bind.mpr ⟨trivial, fun meeting? => ?_⟩
  cases meeting? with
  | none => exact ⟨[], by simp, _, .missing rfl, rfl⟩
  | some m =>
    refine Prog.obeys_perform_bind.mpr ⟨trivial, fun rows => ?_⟩
    -- the turns of those who have been seen
    let seenDone (seen : List (Participant × Option Device)) (past : List Event) : Prop :=
      ∃ turns : List ((Participant × Option Device) × List Event), turns.map Prod.fst = seen ∧
        (∀ turn ∈ turns, TurnDone meetingId turn.1 turn.2) ∧
        past = (turns.map Prod.snd).reverse.flatten ++
          [⟨.participantFindMany meetingId, .ok rows⟩, ⟨.meetingFindUnique meetingId, .ok (some m)⟩]
    refine .mono (fun _ _ hop => hop) ?_
      (Prog.obeys_collect_seen (I := seenDone) ?_ ⟨[], rfl, by simp, rfl⟩)
    · rintro past _ ⟨turns, rfl, hdone, hpast⟩
      exact ⟨turns, hdone, _, .read, hpast⟩
    · rintro seen row rest - past ⟨turns, rfl, hdone, rfl⟩
      refine .mono (fun _ _ hop => hop) ?_ issueOne_done
      rintro past' _ ⟨turn, hturn, rfl⟩
      refine ⟨turns ++ [(row, turn)], by simp, ?_, by simp⟩
      intro x hx
      rcases List.mem_append.mp hx with hx | hx
      · exact hdone x hx
      · cases List.mem_singleton.mp hx
        exact hturn

/-- The history of a `verifyResponse` call that has judged the answer. -/
structure VerifyDone (env : Env) (challengeId deviceId signature : String)
    (challenge : ChallengeRecord) (device : Device) (checkedAt now : Date) (past : List Event)
    (result : VerifyResult) : Prop where
  device_eq : challenge.deviceId = deviceId
  past_eq : ∃ t row e, past =
    [⟨verdictEmit challenge (verdict env challenge device signature checkedAt now), .ok ()⟩,
      ⟨.auditCreate (AuditService.row (verdictLog challengeId deviceId challenge device
          (responseValid env challenge device signature)
          (verdict env challenge device signature checkedAt now))), .ok e⟩,
      ⟨.participantUpdate challenge.participantId
          (verdictData (verdict env challenge device signature checkedAt now) t), .ok row⟩,
      ⟨.now, .ok t⟩, ⟨.now, .ok now⟩, ⟨.redisDel (.challenge challengeId), .ok ()⟩,
      ⟨.deviceFindUnique deviceId, .ok (some device)⟩, ⟨.now, .ok checkedAt⟩,
      ⟨.redisGet (.challenge challengeId), .ok (some challenge)⟩]
  result_eq : result = ⟨responseValid env challenge device signature,
    (verdict env challenge device signature checkedAt now).status,
    (verdict env challenge device signature checkedAt now).reason⟩

/-- The history of one that has returned. -/
inductive AnswerDone (env : Env) (challengeId deviceId signature : String) :
    List Event → VerifyResult → Prop where
  | absent :
      AnswerDone env challengeId deviceId signature
        [⟨.redisGet (.challenge challengeId), .ok none⟩]
        ⟨false, .failed, "Challenge expired or not found"⟩
  | mismatch {challenge t} : challenge.deviceId ≠ deviceId →
      AnswerDone env challengeId deviceId signature
        [⟨.now, .ok t⟩, ⟨.redisGet (.challenge challengeId), .ok (some challenge)⟩]
        ⟨false, .failed, "Device ID mismatch"⟩
  | unknown {challenge t} :
      AnswerDone env challengeId deviceId signature
        [⟨.deviceFindUnique deviceId, .ok none⟩, ⟨.now, .ok t⟩,
          ⟨.redisGet (.challenge challengeId), .ok (some challenge)⟩]
        ⟨false, .failed, "Device not found"⟩
  | judged {challenge device checkedAt now past result} :
      VerifyDone env challengeId deviceId signature challenge device checkedAt now past result →
      AnswerDone env challengeId deviceId signature past result

theorem verifyResponse_done (env : Env) (challengeId deviceId signature : String) :
    Prog.Obeys (fun _ _ => True) (AnswerDone env challengeId deviceId signature) []
      (verifyResponse env challengeId deviceId signature) := by
  refine Prog.obeys_perform_bind.mpr ⟨trivial, fun challengeData => ?_⟩
  cases challengeData with
  | none => exact AnswerDone.absent
  | some challenge =>
    refine Prog.obeys_perform_bind.mpr ⟨trivial, fun checkedAt => ?_⟩
    split
    · next hdevice => exact AnswerDone.mismatch hdevice
    next hdevice =>
    refine Prog.obeys_perform_bind.mpr ⟨trivial, fun device? => ?_⟩
    cases device? with
    | none => exact AnswerDone.unknown
    | some device =>
      refine Prog.obeys_perform_bind.mpr ⟨trivial, fun _ => ?_⟩
      refine Prog.obeys_perform_bind.mpr ⟨trivial, fun now => ?_⟩
      refine Prog.obeys_perform_bind.mpr ⟨trivial, fun t => ?_⟩
      refine Prog.obeys_perform_bind.mpr ⟨trivial, fun row => ?_⟩
      refine Prog.obeys_perform_bind.mpr ⟨trivial, fun e => ?_⟩
      refine Prog.obeys_perform_bind.mpr ⟨trivial, fun _ => ?_⟩
      exact AnswerDone.judged ⟨not_not.mp hdevice, ⟨t, row, e, rfl⟩, rfl⟩

variable {env : Env} {cfg : HubConfig} {i j : Nat} {meetingId challengeId deviceId : String}
  {signature : String} {reply : Reply}

/-- What the returned calls of a run have done. -/
theorem returned_done (reach : Reachable env cfg) {c : Call}
    (hcall : cfg.calls[i]? = some (c, .done (.ok reply))) :
    (∀ meetingId, c = .issueChallenge meetingId →
        ∃ turns, RoundDone meetingId turns (own i cfg.trace)) ∧
      ∀ challengeId deviceId signature, c = .verifyResponse challengeId deviceId signature →
        ∃ result, reply = .verified result ∧
          AnswerDone env challengeId deviceId signature (own i cfg.trace) result := by
  let done (c : Call) (past : List Event) (reply : Reply) : Prop :=
    (∀ meetingId, c = .issueChallenge meetingId → ∃ turns, RoundDone meetingId turns past) ∧
      ∀ challengeId deviceId signature, c = .verifyResponse challengeId deviceId signature →
        ∃ result, reply = .verified result ∧
          AnswerDone env challengeId deviceId signature past result
  have hbody : ∀ c, Prog.Obeys (fun _ _ => True) (done c) [] (Call.body env c) := by
    intro c
    cases c with
    | issueChallenge meetingId =>
      refine Prog.obeys_map.mpr (.mono (fun _ _ h => h) ?_ (issueChallenge_done meetingId))
      intro past _ hdone
      refine ⟨?_, nofun⟩
      rintro _ ⟨⟩
      exact hdone
    | verifyResponse challengeId deviceId signature =>
      refine Prog.obeys_map.mpr (.mono (fun _ _ h => h) ?_
        (verifyResponse_done env challengeId deviceId signature))
      intro past result hdone
      refine ⟨nofun, ?_⟩
      rintro _ _ _ ⟨⟩
      exact ⟨result, rfl, hdone⟩
    | _ => exact .mono (fun _ _ h => h) (fun _ _ _ => ⟨nofun, nofun⟩) (Prog.obeys_trivial _)
  exact reach.final hbody hcall

/-! ### What a turn has done -/

section Turn

variable {row : Participant × Option Device} {events past : List Event}
  {turns : List ((Participant × Option Device) × List Event)} {ev : Event} {d : String}

/-- The challenge of a participant with a device. -/
structure ChallengeOf (meetingId : String) (row : Participant × Option Device) (d : String)
    (record : ChallengeRecord) (events : List Event) : Prop where
  participant : record.participantId = row.1.id
  device : record.deviceId = d
  user : record.userId = row.1.userId
  meeting : record.meetingId = meetingId
  expires : ∃ t : Date, ⟨.now, .ok t⟩ ∈ events ∧ record.expiresAt = t + 10000
  stored : ⟨.redisSet (.challenge record.challengeId) record 15, .ok ()⟩ ∈ events
  emitted : ⟨.emitChallengeToDevice d record.toChallengePayload, .ok ()⟩ ∈ events

/-- Whoever has a device is challenged, once, and its row is not written. -/
theorem TurnDone.challenge (h : TurnDone meetingId row events) (hd : boundDevice row = some d) :
    ∃ record, ChallengeOf meetingId row d record events ∧
      (∀ ev ∈ events, ∀ d' payload, ev.op = .emitChallengeToDevice d' payload →
        d' = d ∧ payload = record.toChallengePayload) ∧
      ∀ ev ∈ events, ∀ p data, ev.op ≠ .participantUpdate p data := by
  cases h with
  | noDevice hnone =>
    rw [hd] at hnone
    cases hnone
  | @challenged m deviceId cid nonce t t' e hbound =>
    rw [hd] at hbound
    cases hbound
    refine ⟨challengeRecord m meetingId row.1 d cid nonce t t', ?_, ?_, ?_⟩
    · exact ⟨rfl, rfl, rfl, rfl, ⟨t', by simp, rfl⟩, by simp [challengeRecord], by simp⟩
    · intro ev hev d' payload hop
      simp only [List.mem_cons, List.not_mem_nil, or_false] at hev
      rcases hev with rfl | rfl | rfl | rfl | rfl | rfl | rfl <;> cases hop
      exact ⟨rfl, rfl⟩
    · intro ev hev p data hop
      simp only [List.mem_cons, List.not_mem_nil, or_false] at hev
      rcases hev with rfl | rfl | rfl | rfl | rfl | rfl | rfl <;> cases hop

/-- Whoever has none is failed, and nothing is emitted to a device. -/
theorem TurnDone.failed (h : TurnDone meetingId row events) (hnone : boundDevice row = none) :
    (∃ t p, ⟨.participantUpdate row.1.id (noDeviceData t), .ok p⟩ ∈ events) ∧
      (∀ ev ∈ events, ∀ d payload, ev.op ≠ .emitChallengeToDevice d payload) ∧
      ∀ ev ∈ events, ∀ p data, ev.op = .participantUpdate p data →
        p = row.1.id ∧ ∃ t, data = noDeviceData t := by
  cases h with
  | @noDevice m t p e =>
    refine ⟨⟨t, p, by simp⟩, ?_, ?_⟩
    · intro ev hev d payload hop
      simp only [List.mem_cons, List.not_mem_nil, or_false] at hev
      rcases hev with rfl | rfl | rfl | rfl <;> cases hop
    · intro ev hev p data hop
      simp only [List.mem_cons, List.not_mem_nil, or_false] at hev
      rcases hev with rfl | rfl | rfl | rfl <;> cases hop
      exact ⟨rfl, t, rfl⟩
  | challenged hbound =>
    rw [hnone] at hbound
    cases hbound

/-- An event of a round that is not one of its two reads is one of a turn. -/
theorem RoundDone.turn_of (h : RoundDone meetingId turns past) (hev : ev ∈ past)
    (hfind : ∀ id, ev.op ≠ .meetingFindUnique id) (hmany : ∀ id, ev.op ≠ .participantFindMany id) :
    ∃ turn ∈ turns, ev ∈ turn.2 := by
  obtain ⟨reads, hreads, hpast⟩ := h.past_eq
  rw [hpast] at hev
  rcases List.mem_append.mp hev with hev | hev
  · obtain ⟨events, hevents, hmem⟩ := List.mem_flatten.mp hev
    obtain ⟨turn, hturn, rfl⟩ := List.mem_map.mp (List.mem_reverse.mp hevents)
    exact ⟨turn, hturn, hmem⟩
  · cases hreads with
    | missing =>
      cases List.mem_singleton.mp hev
      exact absurd rfl (hfind _)
    | read =>
      simp only [List.mem_cons, List.not_mem_nil, or_false] at hev
      rcases hev with rfl | rfl
      · exact absurd rfl (hmany _)
      · exact absurd rfl (hfind _)

/-- And the events of a turn are events of the round. -/
theorem RoundDone.mem (h : RoundDone meetingId turns past) (hturn : (row, events) ∈ turns)
    (hev : ev ∈ events) : ev ∈ past := by
  obtain ⟨reads, -, hpast⟩ := h.past_eq
  rw [hpast]
  refine List.mem_append_left _ (List.mem_flatten.mpr ⟨events, ?_, hev⟩)
  exact List.mem_reverse.mpr (List.mem_map.mpr ⟨_, hturn, rfl⟩)

/-- What is emitted in a round is the challenge of a turn. -/
theorem RoundDone.emitted (h : RoundDone meetingId turns past) {payload : ChallengePayload}
    (hev : ⟨.emitChallengeToDevice d payload, .ok ()⟩ ∈ past) :
    ∃ row events record, (row, events) ∈ turns ∧ boundDevice row = some d ∧
      ChallengeOf meetingId row d record events ∧ payload = record.toChallengePayload := by
  obtain ⟨⟨row, events⟩, hturn, hmem⟩ := h.turn_of hev nofun nofun
  cases hbound : boundDevice row with
  | none =>
    obtain ⟨-, hsilent, -⟩ := (h.done _ hturn).failed hbound
    exact absurd rfl (hsilent _ hmem d payload)
  | some d' =>
    obtain ⟨record, hrecord, hsole, -⟩ := (h.done _ hturn).challenge hbound
    obtain ⟨rfl, rfl⟩ := hsole _ hmem d payload rfl
    exact ⟨row, events, record, hturn, hbound, hrecord, rfl⟩

/-- And what it writes to a row it writes to that of a participant without a device. -/
theorem RoundDone.written (h : RoundDone meetingId turns past) {p : String}
    {data : ParticipantUpdate} (hev : ev ∈ past) (hop : ev.op = .participantUpdate p data) :
    ∃ row events, (row, events) ∈ turns ∧ boundDevice row = none ∧ row.1.id = p ∧
      ∃ t, data = noDeviceData t := by
  obtain ⟨⟨row, events⟩, hturn, hmem⟩ := h.turn_of hev (by simp [hop]) (by simp [hop])
  cases hbound : boundDevice row with
  | none =>
    obtain ⟨-, -, hwrites⟩ := (h.done _ hturn).failed hbound
    obtain ⟨rfl, hdata⟩ := hwrites _ hmem p data hop
    exact ⟨row, events, hturn, hbound, rfl, hdata⟩
  | some d' =>
    obtain ⟨record, -, -, hsilent⟩ := (h.done _ hturn).challenge hbound
    exact absurd hop (hsilent _ hmem p data)

end Turn

/-! ### What the calls of a round leave alone -/

section Kept

/-- The calls of a round. -/
def RoundCall (c : Call) : Prop :=
  (∃ meetingId, c = .issueChallenge meetingId) ∨
    ∃ challengeId deviceId signature, c = .verifyResponse challengeId deviceId signature

/-- The devices and the bindings are the same in both worlds. -/
structure World.SameBindings (w w' : World) : Prop where
  devices : w'.devices = w.devices
  participants : ∀ p row, w.participants.find? p = some row →
    ∃ row', w'.participants.find? p = some row' ∧ row'.deviceId = row.deviceId ∧
      row'.meetingId = row.meetingId ∧ row'.userId = row.userId

theorem World.SameBindings.refl (w : World) : w.SameBindings w :=
  ⟨rfl, fun _ row h => ⟨row, h, rfl, rfl, rfl⟩⟩

theorem World.SameBindings.trans {a b c : World} (h : a.SameBindings b) (h' : b.SameBindings c) :
    a.SameBindings c where
  devices := h'.devices.trans h.devices
  participants p row hrow := by
    obtain ⟨mid, hmid, hdevice, hmeeting, huser⟩ := h.participants p row hrow
    obtain ⟨row', hrow', hdevice', hmeeting', huser'⟩ := h'.participants p mid hmid
    exact ⟨row', hrow', hdevice'.trans hdevice, hmeeting'.trans hmeeting, huser'.trans huser⟩

/-- So the same participants can be challenged. -/
theorem World.SameBindings.boundDevice {w w' : World} (h : w.SameBindings w')
    {row row' : Participant} (hsame : row'.deviceId = row.deviceId) :
    boundDevice (w'.withDevice row') = boundDevice (w.withDevice row) := by
  unfold ChallengeService.boundDevice World.withDevice
  simp only [hsame, h.devices]

/-- A call of a round writes no device. -/
theorem RoundCall.keeps_devices {c : Call} {past : List Event} {op : Op} (h : RoundCall c)
    (hpoint : c.Point env past op) : op.part ≠ .devices := by
  rcases h with ⟨meetingId, rfl⟩ | ⟨challengeId, deviceId, signature, rfl⟩
  · cases hpoint with
    | turn _ _ hturn => cases hturn <;> nofun
    | _ => nofun
  · cases hpoint <;> nofun

theorem round_step (reach : Reachable env cfg) {x : HubEntry} (hx : x ∈ cfg.trace)
    (hcall : RoundCall x.call) : x.before.SameBindings (exec env x.ev.op x.before).2 where
  devices := by
    obtain ⟨later, earlier, ht⟩ := List.append_of_mem hx
    exact exec_devices (hcall.keeps_devices (hub_point reach ht))
  participants p row hrow := by
    obtain ⟨later, earlier, ht⟩ := List.append_of_mem hx
    have hstep : ParticipantStep env x.before p x.ev
      ((exec env x.ev.op x.before).2.participants.find? p) := hub_participant reach hx p
    generalize (exec env x.ev.op x.before).2.participants.find? p = new at hstep ⊢
    generalize hev : x.ev = ev at hstep
    cases hstep with
    | same => exact ⟨row, hrow, rfl, rfl, rfl⟩
    | create hnone =>
      rw [hrow] at hnone
      cases hnone
    | @update data old hold =>
      rw [hrow] at hold
      cases hold
      refine ⟨_, rfl, ?_, rfl, rfl⟩
      have hwrite := hub_write reach ht (congrArg Ev.op hev)
      generalize own x.id earlier = past at hwrite
      generalize x.call = c at hwrite hcall
      cases hwrite with
      | bind =>
        rcases hcall with ⟨_, hcall⟩ | ⟨_, _, _, hcall⟩ <;> cases hcall
      | noDevice => rfl
      | verdict => rfl

/-- Nor do all of them together. -/
theorem round_keeps (reach : Reachable env cfg) {later older : Trace} {b : HubEntry}
    (ht : cfg.trace = later ++ b :: older) (hcalls : ∀ x ∈ later ++ [b], RoundCall x.call) :
    b.before.SameBindings cfg.store := by
  refine reach.carry (fun w => b.before.SameBindings w) ht ?_ ?_
  · exact round_step reach (by simp [ht]) (hcalls b (by simp))
  · intro x hx hbefore
    exact hbefore.trans (round_step reach (by simp [ht, hx]) (hcalls x (by simp [hx])))

end Kept

/-! ### The round in a run -/

/-- The call `j` has answered a challenge, after the events `older`, and no other call has. -/
structure SoleAnswer (cfg : HubConfig) (older : Trace) (challengeId deviceId : String) (j : Nat)
    (signature : String) (reply : Reply) : Prop where
  call : cfg.calls[j]? =
    some (.verifyResponse challengeId deviceId signature, .done (.ok reply))
  since : own j older = []
  sole : ∀ j' signature' p,
    cfg.calls[j']? = some (.verifyResponse challengeId deviceId signature', p) → j' = j

/-- The call `i` challenges a meeting. Since its first event `b` nothing has happened but this call
and answers to challenges that it had emitted; it has returned, each of its challenges has been
answered by one call, and all that took ten seconds at most. -/
structure SoleRound (env : Env) (cfg : HubConfig) (i : Nat) (meetingId : String) (newer : Trace)
    (b : HubEntry) (older : Trace) : Prop where
  trace : cfg.trace = newer ++ b :: older
  first : b.id = i ∧ own i older = []
  returned : ∃ reply, cfg.calls[i]? = some (.issueChallenge meetingId, .done (.ok reply))
  answers : ∀ later x earlier, newer = later ++ x :: earlier → x.id ≠ i →
    ∃ d payload signature, x.call = .verifyResponse payload.challengeId d signature ∧
      ⟨.emitChallengeToDevice d payload, .ok ()⟩ ∈ own i earlier
  answered : ∀ d payload, ⟨.emitChallengeToDevice d payload, .ok ()⟩ ∈ own i cfg.trace →
    ∃ j signature reply, SoleAnswer cfg older payload.challengeId d j signature reply
  inTime : env.clock cfg.store.steps ≤ env.clock b.before.steps + 10000

section Round

variable {newer older : Trace} {b : HubEntry}
  {turns : List ((Participant × Option Device) × List Event)}

/-- Its own history. -/
theorem SoleRound.own_eq (h : SoleRound env cfg i meetingId newer b older) :
    own i cfg.trace = own i newer ++ [b.ev] := by
  obtain ⟨rfl, hnone⟩ := h.first
  rw [h.trace, own_append, own_cons_self, hnone]

theorem SoleRound.own_call (h : SoleRound env cfg i meetingId newer b older)
    (reach : Reachable env cfg) {x : HubEntry} (hx : x ∈ cfg.trace) (hid : x.id = i) :
    x.call = .issueChallenge meetingId := by
  obtain ⟨p, hp⟩ := reach.entry_call x hx
  obtain ⟨reply, hreturned⟩ := h.returned
  rw [hid, hreturned] at hp
  exact (Prod.mk.inj (Option.some.inj hp)).1.symm

theorem SoleRound.calls (h : SoleRound env cfg i meetingId newer b older)
    (reach : Reachable env cfg) : ∀ x ∈ newer ++ [b], RoundCall x.call := by
  intro x hx
  have hmem : x ∈ cfg.trace := by
    rw [h.trace]
    rcases List.mem_append.mp hx with hx | hx
    · exact List.mem_append_left _ hx
    · simp [List.mem_singleton.mp hx]
  by_cases hid : x.id = i
  · exact .inl ⟨_, h.own_call reach hmem hid⟩
  · rcases List.mem_append.mp hx with hx | hx
    · obtain ⟨later, earlier, hcut⟩ := List.append_of_mem hx
      obtain ⟨d, payload, signature, hcall, -⟩ := h.answers later x earlier hcut hid
      exact .inr ⟨_, _, _, hcall⟩
    · cases List.mem_singleton.mp hx
      exact absurd h.first.1 hid

/-- What an event of the round has met. -/
theorem SoleRound.same_at (h : SoleRound env cfg i meetingId newer b older)
    (reach : Reachable env cfg) {x : HubEntry} (hx : x ∈ newer) :
    b.before.SameBindings x.before := by
  obtain ⟨later, earlier, rfl⟩ := List.append_of_mem hx
  have ht : cfg.trace = later ++ x :: (earlier ++ b :: older) := by
    simp [h.trace]
  obtain ⟨pre, -, hpre, htrace, hstore, -⟩ := reach.cut ht
  rw [← hstore]
  refine round_keeps hpre htrace ?_
  intro y hy
  apply h.calls reach y
  rcases List.mem_append.mp hy with hy | hy
  · simp [hy]
  · simp [List.mem_singleton.mp hy]

/-- What a call has read off the clock in the round. -/
theorem SoleRound.reading (h : SoleRound env cfg i meetingId newer b older)
    (reach : Reachable env cfg) {t : Date} (hev : ⟨.now, .ok t⟩ ∈ own j newer) :
    env.clock b.before.steps ≤ t ∧ t ≤ env.clock cfg.store.steps := by
  obtain ⟨x, hx, -, hxev⟩ := mem_own.mp hev
  obtain ⟨later, earlier, rfl⟩ := List.append_of_mem hx
  have ht : cfg.trace = later ++ x :: (earlier ++ b :: older) := by
    simp [h.trace]
  have hmem : x ∈ cfg.trace := by
    simp [ht]
  rw [reading_eq reach hmem hxev]
  exact ⟨clock_le reach ht (by simp), clock_past reach hmem⟩

/-- The events of a turn come after the first one. -/
theorem SoleRound.turn_event (h : SoleRound env cfg i meetingId newer b older)
    (hdone : RoundDone meetingId turns (own i cfg.trace)) {row : Participant × Option Device}
    {events : List Event} (hturn : (row, events) ∈ turns) {ev : Event} (hev : ev ∈ events) :
    ev ∈ own i newer := by
  obtain ⟨reads, hreads, hpast⟩ := hdone.past_eq
  rw [h.own_eq] at hpast
  cases hreads with
  | missing hrows =>
    rw [List.map_eq_nil_iff.mp hrows] at hturn
    cases hturn
  | @read m =>
    have hcut : own i newer ++ [b.ev] = ((turns.map Prod.snd).reverse.flatten ++
        [⟨.participantFindMany meetingId, .ok (turns.map Prod.fst)⟩]) ++
          [⟨.meetingFindUnique meetingId, .ok (some m)⟩] := by
      rw [hpast]
      simp
    rw [(List.append_inj' hcut rfl).1]
    refine List.mem_append_left _ (List.mem_flatten.mpr ⟨events, ?_, hev⟩)
    exact List.mem_reverse.mpr (List.mem_map.mpr ⟨_, hturn, rfl⟩)

/-- Whose turns there are: those of the participants that the meeting had at the beginning, each
with the device it had then. -/
theorem SoleRound.rows (h : SoleRound env cfg i meetingId newer b older)
    (reach : Reachable env cfg) (hdone : RoundDone meetingId turns (own i cfg.trace)) :
    (turns.map fun turn => turn.1.1.id).Nodup ∧
      (∀ turn ∈ turns, ∀ row, b.before.participants.find? turn.1.1.id = some row →
        row.meetingId = meetingId) ∧
      ∀ p row, b.before.participants.find? p = some row → row.meetingId = meetingId →
        ∃ turn ∈ turns, turn.1.1.id = p ∧ turn.1.1.userId = row.userId ∧
          boundDevice turn.1 = boundDevice (b.before.withDevice row) := by
  obtain ⟨reads, hreads, hpast⟩ := hdone.past_eq
  rw [h.own_eq] at hpast
  obtain ⟨pre, -, hpre, -, hstore, -⟩ := reach.cut h.trace
  have hbmem : b ∈ cfg.trace := by
    simp [h.trace]
  cases hreads with
  | missing hrows =>
    obtain rfl := List.map_eq_nil_iff.mp hrows
    refine ⟨List.nodup_nil, by simp, ?_⟩
    intro p row hrow hmeeting
    -- the meeting of a participant is there
    have hb : b.ev = ⟨.meetingFindUnique meetingId, .ok none⟩ :=
      List.singleton_inj.mp (List.append_inj' (show own i newer ++ [b.ev] = [] ++ [_] from hpast)
        rfl).2
    have hnone := exec_meetingFindUnique_ok (hub_did reach hbmem hb)
    obtain ⟨meeting, hfound⟩ := participant_meeting hpre (hstore ▸ hrow)
    rw [hstore, hmeeting, hnone] at hfound
    cases hfound
  | @read m =>
    have hcut : own i newer ++ [b.ev] = ((turns.map Prod.snd).reverse.flatten ++
        [⟨.participantFindMany meetingId, .ok (turns.map Prod.fst)⟩]) ++
          [⟨.meetingFindUnique meetingId, .ok (some m)⟩] := by
      rw [hpast]
      simp
    have hread : ⟨.participantFindMany meetingId, .ok (turns.map Prod.fst)⟩ ∈ own i newer := by
      rw [(List.append_inj' hcut rfl).1]
      simp
    obtain ⟨q, hq, -, hqev⟩ := mem_own.mp hread
    have hqmem : q ∈ cfg.trace := by
      rw [h.trace]
      exact List.mem_append_left _ hq
    have hrows : q.before.participantsOf (env.participantOrder q.before.steps) meetingId =
        turns.map Prod.fst :=
      exec_participantFindMany_ok (hub_did reach hqmem hqev)
    have hsame := h.same_at reach hq
    refine ⟨?_, ?_, ?_⟩
    · have hnodup := World.participantsOf_nodup (env.participantOrder q.before.steps)
        q.before meetingId
      rwa [hrows, List.map_map] at hnodup
    · intro turn hturn row hrow
      have hmem := List.mem_map_of_mem (f := Prod.fst) hturn
      rw [← hrows] at hmem
      obtain ⟨row', hrow', -, hmeeting, -⟩ := hsame.participants _ row hrow
      have hread := Table.find?_eq_some.mpr ⟨World.mem_of_mem_participantsOf hmem, rfl⟩
      rw [hread] at hrow'
      cases hrow'
      rw [← hmeeting]
      exact World.meetingId_of_mem_participantsOf hmem
    · intro p row hrow hmeeting
      obtain ⟨row', hrow', hdevice, hmeeting', huser⟩ := hsame.participants p row hrow
      obtain ⟨hmem, hid⟩ := Table.find?_eq_some.mp hrow'
      have hread : q.before.withDevice row' ∈ turns.map Prod.fst := by
        rw [← hrows]
        exact World.mem_participantsOf.mpr ⟨hmem, hmeeting'.trans hmeeting, rfl⟩
      obtain ⟨turn, hturn, heq⟩ := List.mem_map.mp hread
      refine ⟨turn, hturn, ?_, ?_, ?_⟩
      · rw [heq]
        exact hid
      · rw [heq]
        exact huser
      · rw [heq]
        exact hsame.boundDevice hdevice

/-- Two turns of one participant are one turn. -/
theorem SoleRound.turn_eq (h : SoleRound env cfg i meetingId newer b older)
    (reach : Reachable env cfg) (hdone : RoundDone meetingId turns (own i cfg.trace))
    {turn turn' : (Participant × Option Device) × List Event} (hturn : turn ∈ turns)
    (hturn' : turn' ∈ turns) (hid : turn.1.1.id = turn'.1.1.id) : turn = turn' :=
  List.inj_on_of_nodup_map (h.rows reach hdone).1 hturn hturn' hid

/-- Who answers a challenge of the round, and what is asked for then. -/
theorem SoleRound.read (h : SoleRound env cfg i meetingId newer b older) {x : HubEntry}
    (hx : x ∈ newer) (hid : x.id ≠ i) :
    ∃ d payload signature, x.call = .verifyResponse payload.challengeId d signature ∧
      ⟨.emitChallengeToDevice d payload, .ok ()⟩ ∈ own i cfg.trace := by
  obtain ⟨later, earlier, hcut⟩ := List.append_of_mem hx
  obtain ⟨d, payload, signature, hcall, hemit⟩ := h.answers later x earlier hcut hid
  refine ⟨d, payload, signature, hcall, ?_⟩
  rw [h.trace, hcut, own_append, own_append]
  refine List.mem_append_left _ (List.mem_append_right _ ?_)
  rw [own_cons_ne hid]
  exact hemit

/-- The challenge of a turn has been stored in the round. -/
theorem SoleRound.set_event (h : SoleRound env cfg i meetingId newer b older)
    (hdone : RoundDone meetingId turns (own i cfg.trace)) {row : Participant × Option Device}
    {events : List Event} (hturn : (row, events) ∈ turns) {d : String} {record : ChallengeRecord}
    (hrecord : ChallengeOf meetingId row d record events) :
    ∃ s ∈ newer, s.ev = ⟨.redisSet (.challenge record.challengeId) record 15, .ok ()⟩ := by
  obtain ⟨s, hs, -, hsev⟩ := mem_own.mp (h.turn_event hdone hturn hrecord.stored)
  exact ⟨s, hs, hsev⟩

theorem SoleRound.mem (h : SoleRound env cfg i meetingId newer b older) {x : HubEntry}
    (hx : x ∈ newer) : x ∈ cfg.trace := by
  rw [h.trace]
  exact List.mem_append_left _ hx

/-- Who has written to a participant's row in the round. -/
inductive RoundWrite (meetingId : String) (row : Participant × Option Device) (events : List Event)
    (c : Call) (data : ParticipantUpdate) : Prop where
  | failed {t} : boundDevice row = none → data = noDeviceData t →
      RoundWrite meetingId row events c data
  | judged {d record signature} : boundDevice row = some d →
      ChallengeOf meetingId row d record events →
      c = .verifyResponse record.challengeId d signature → RoundWrite meetingId row events c data

/-- It was the turn of that participant, or the answer to its challenge. -/
theorem SoleRound.written (h : SoleRound env cfg i meetingId newer b older)
    (reach : Reachable env cfg) (hdone : RoundDone meetingId turns (own i cfg.trace))
    {x : HubEntry} (hx : x ∈ newer) {p : String} {data : ParticipantUpdate}
    (hop : x.ev.op = .participantUpdate p data) :
    ∃ row events, (row, events) ∈ turns ∧ row.1.id = p ∧
      RoundWrite meetingId row events x.call data := by
  by_cases hid : x.id = i
  · have hown : x.ev ∈ own i cfg.trace := mem_own.mpr ⟨x, h.mem hx, hid, rfl⟩
    obtain ⟨row, events, hturn, hbound, hp, t, hdata⟩ := hdone.written hown hop
    exact ⟨row, events, hturn, hp, .failed hbound hdata⟩
  · obtain ⟨d, payload, signature, hcall, hemit⟩ := h.read hx hid
    obtain ⟨row, events, record, hturn, hbound, hrecord, rfl⟩ := hdone.emitted hemit
    refine ⟨row, events, hturn, ?_, .judged hbound hrecord hcall⟩
    -- what the answer has read is the challenge of the turn
    obtain ⟨later, earlier, ht⟩ := List.append_of_mem (h.mem hx)
    have hwrite := hub_write reach ht hop
    rw [hcall] at hwrite
    obtain ⟨challenge, device, checkedAt, now, t, -, hp, -, hpast⟩ := hwrite.answer
    have hget : ⟨.redisGet (.challenge record.challengeId), .ok (some challenge)⟩ ∈
        own x.id earlier := by
      rw [hpast]
      simp
    obtain ⟨g, hg, -, hgev⟩ := mem_own.mp hget
    obtain ⟨s, hs, hsev⟩ := h.set_event hdone hturn hrecord
    have hsame := read_record reach (h.mem hs) (congrArg Ev.op hsev) (by simp [ht, hg]) hgev
    rw [← hp, hsame, hrecord.participant]

/-! ### The answers -/

section Answer

variable {row : Participant × Option Device} {events : List Event} {d : String}
  {record : ChallengeRecord}

/-- An answer has nothing before the round. -/
theorem SoleRound.own_before (h : SoleRound env cfg i meetingId newer b older)
    (hanswer : SoleAnswer cfg older challengeId deviceId j signature reply) :
    own j (b :: older) = [] := by
  obtain ⟨reply', hreturned⟩ := h.returned
  have hne : b.id ≠ j := by
    rw [h.first.1]
    rintro rfl
    rw [hanswer.call] at hreturned
    cases hreturned
  rw [own_cons_ne hne, hanswer.since]

theorem SoleRound.own_answer (h : SoleRound env cfg i meetingId newer b older)
    (hanswer : SoleAnswer cfg older challengeId deviceId j signature reply) :
    own j cfg.trace = own j newer := by
  rw [h.trace, own_append, h.own_before hanswer, List.append_nil]

/-- When it begins the challenge has been stored. -/
theorem SoleRound.stored_before (h : SoleRound env cfg i meetingId newer b older)
    (reach : Reachable env cfg) (hdone : RoundDone meetingId turns (own i cfg.trace))
    (hturn : (row, events) ∈ turns) (hrecord : ChallengeOf meetingId row d record events)
    {later earlier : Trace} {g : HubEntry} (hcut : newer = later ++ g :: earlier)
    (hcall : g.call = .verifyResponse record.challengeId d signature) :
    ∃ between s rest, earlier ++ b :: older = between ++ s :: rest ∧ s ∈ newer ∧
      s.ev = ⟨.redisSet (.challenge record.challengeId) record 15, .ok ()⟩ := by
  have hgmem : g ∈ cfg.trace := h.mem (by simp [hcut])
  have hne : g.id ≠ i := by
    intro hgi
    rw [h.own_call reach hgmem hgi] at hcall
    cases hcall
  -- it has been emitted, and stored before that
  obtain ⟨d', payload, signature', hcall', hemit⟩ := h.answers later g earlier hcut hne
  rw [hcall] at hcall'
  obtain ⟨hpayload, rfl, -⟩ := Call.verifyResponse.inj hcall'
  obtain ⟨e, he, -, heev⟩ := mem_own.mp hemit
  obtain ⟨mid, rest, rfl⟩ := List.append_of_mem he
  have ht : cfg.trace = (later ++ g :: mid) ++ e :: (rest ++ b :: older) := by
    simp [h.trace, hcut]
  have hpoint := hub_point reach ht
  rw [heev] at hpoint
  obtain ⟨record', past, rfl, -, hpast⟩ := point_emitChallenge hpoint
  have hset : ⟨.redisSet (.challenge record'.challengeId) record' 15, .ok ()⟩ ∈
      own e.id (rest ++ b :: older) := by
    simp [hpast]
  obtain ⟨s', hs', -, hs'ev⟩ := mem_own.mp hset
  obtain ⟨s, hs, hsev⟩ := h.set_event hdone hturn hrecord
  -- it is stored once
  have hsame : s' = s := by
    refine (redis_set_once reach (.challenge record.challengeId)).eq (by simp [ht, hs'])
      (h.mem hs) ?_ ⟨record, 15, congrArg Ev.op hsev⟩
    rw [hpayload]
    exact ⟨record', 15, congrArg Ev.op hs'ev⟩
  rw [hsame] at hs'
  obtain ⟨between, older', hcut'⟩ := List.append_of_mem hs'
  exact ⟨mid ++ e :: between, s, older', by simp [hcut'], hs, hsev⟩

/-- And it is still there. -/
theorem SoleRound.found (h : SoleRound env cfg i meetingId newer b older)
    (reach : Reachable env cfg) (hdone : RoundDone meetingId turns (own i cfg.trace))
    (hturn : (row, events) ∈ turns) (hrecord : ChallengeOf meetingId row d record events)
    (hanswer : SoleAnswer cfg older record.challengeId d j signature reply)
    {later earlier : Trace} {g : HubEntry} (hcut : newer = later ++ g :: earlier) (hid : g.id = j)
    (hfirst : own j earlier = []) :
    g.before.redis.get (env.clock g.before.steps) (.challenge record.challengeId) =
      some record := by
  have ht : cfg.trace = later ++ g :: (earlier ++ b :: older) := by
    simp [h.trace, hcut]
  have hgmem : g ∈ cfg.trace := by
    simp [ht]
  have hcall : g.call = .verifyResponse record.challengeId d signature := by
    obtain ⟨p, hp⟩ := reach.entry_call g hgmem
    rw [hid, hanswer.call] at hp
    exact (Prod.mk.inj (Option.some.inj hp)).1.symm
  obtain ⟨between, s, rest, hsplit, hs, hsev⟩ :=
    h.stored_before reach hdone hturn hrecord hcut hcall
  obtain ⟨pre, -, hpre, hptrace, hpstore, -⟩ := reach.cut ht
  rw [hsplit] at hptrace
  have hkept : ∀ x ∈ between, x.ev ≠ ⟨.redisDel (.challenge record.challengeId), .ok ()⟩ := by
    -- whoever deletes it is its answer, which has only begun
    intro x hx hxev
    have hxmem : x ∈ earlier ++ b :: older := by
      rw [hsplit]
      exact List.mem_append_left _ hx
    have hxtrace : x ∈ cfg.trace := by
      rw [ht]
      exact List.mem_append_right _ (List.mem_cons_of_mem _ hxmem)
    obtain ⟨signature', hxcall⟩ := taken_by_answer reach (h.mem hs) (congrArg Ev.op hsev) hxtrace
      (congrArg Ev.op hxev)
    obtain ⟨p, hp⟩ := reach.entry_call x hxtrace
    rw [hxcall, hrecord.device] at hp
    have hown : x.ev ∈ own j (earlier ++ b :: older) :=
      mem_own.mpr ⟨x, hxmem, hanswer.sole x.id signature' p hp, rfl⟩
    rw [own_append, hfirst, h.own_before hanswer] at hown
    cases hown
  have hentry := record_kept hpre hptrace hsev hkept
  rw [hpstore] at hentry
  refine Expiring.get_eq_some.mpr ⟨_, hentry, ?_⟩
  have hstored : env.clock b.before.steps ≤ env.clock s.before.steps := by
    obtain ⟨newer', older', rfl⟩ := List.append_of_mem hs
    have hts : cfg.trace = newer' ++ s :: (older' ++ b :: older) := by
      simp [h.trace]
    exact clock_le reach hts (by simp)
  have hread := clock_past reach hgmem
  have hinTime := h.inTime
  unfold Date at *
  omega

/-- So it is judged. -/
theorem SoleRound.judged (h : SoleRound env cfg i meetingId newer b older)
    (reach : Reachable env cfg) (hdone : RoundDone meetingId turns (own i cfg.trace))
    (hturn : (row, events) ∈ turns) (hrecord : ChallengeOf meetingId row d record events)
    (hanswer : SoleAnswer cfg older record.challengeId d j signature reply) {device : Device}
    (hdevice : b.before.devices.find? d = some device) :
    ∃ checkedAt now result, reply = .verified result ∧
      VerifyDone env record.challengeId d signature record device checkedAt now (own j newer)
        result := by
  obtain ⟨result, rfl, hanswered⟩ := (returned_done reach hanswer.call).2 _ _ _ rfl
  rw [h.own_answer hanswer] at hanswered
  -- the answer of its first event
  have hfound : ∀ {newest : List Event} {r : Option ChallengeRecord},
      own j newer = newest ++ [⟨.redisGet (.challenge record.challengeId), .ok r⟩] →
      r = some record := by
    intro newest r hown
    obtain ⟨later, g, earlier, hcut, hid, hgev, -, hfirst⟩ := own_split hown
    have hget := exec_redisGet_ok (hub_did reach (h.mem (by simp [hcut])) hgev)
    rw [h.found reach hdone hturn hrecord hanswer hcut hid hfirst] at hget
    exact hget.symm
  have hread : ∀ {r : Option Device}, ⟨.deviceFindUnique d, .ok r⟩ ∈ own j newer →
      r = some device := by
    intro r hr
    obtain ⟨x, hx, -, hxev⟩ := mem_own.mp hr
    have hr := exec_deviceFindUnique_ok (hub_did reach (h.mem hx) hxev)
    rw [(h.same_at reach hx).devices, hdevice] at hr
    exact hr.symm
  generalize hown : own j newer = past at hanswered hfound hread
  cases hanswered with
  | absent => cases @hfound [] _ rfl
  | @mismatch challenge t hne =>
    cases @hfound [_] _ rfl
    exact absurd hrecord.device hne
  | unknown => cases hread (List.mem_cons_self ..)
  | @judged challenge device' checkedAt now _ _ hverify =>
    obtain ⟨t, p, e, hpast⟩ := hverify.past_eq
    cases @hfound [_, _, _, _, _, _, _, _] (some challenge) hpast
    cases @hread (some device') (by simp [hpast])
    exact ⟨checkedAt, now, result, rfl, hverify⟩

/-- Nobody else writes to the row afterwards. -/
theorem SoleRound.last_write (h : SoleRound env cfg i meetingId newer b older)
    (reach : Reachable env cfg) (hdone : RoundDone meetingId turns (own i cfg.trace))
    (hturn : (row, events) ∈ turns) (hbound : boundDevice row = some d)
    (hrecord : ChallengeOf meetingId row d record events)
    (hanswer : SoleAnswer cfg older record.challengeId d j signature reply) {x : HubEntry}
    (hx : x ∈ newer) {data : ParticipantUpdate}
    (hop : x.ev.op = .participantUpdate row.1.id data) : x.id = j := by
  obtain ⟨row', events', hturn', hid, hwrite⟩ := h.written reach hdone hx hop
  cases h.turn_eq reach hdone hturn' hturn hid
  cases hwrite with
  | failed hnone =>
    rw [hbound] at hnone
    cases hnone
  | @judged d' record' signature' hbound' hrecord' hcall =>
    rw [hbound] at hbound'
    cases hbound'
    -- a turn emits one challenge
    obtain ⟨record₀, -, hsole, -⟩ := (hdone.done _ hturn).challenge hbound
    have hsame : record'.toChallengePayload = record.toChallengePayload :=
      ((hsole _ hrecord'.emitted _ _ rfl).2).trans (hsole _ hrecord.emitted _ _ rfl).2.symm
    obtain ⟨p, hp⟩ := reach.entry_call x (h.mem hx)
    rw [hcall, congrArg ChallengePayload.challengeId hsame] at hp
    exact hanswer.sole x.id signature' p hp

end Answer

/-! ### The rows at the end -/

/-- A status and a reason that are written, and from then on nothing else. -/
theorem kept_status (reach : Reachable env cfg) {later earlier : Trace} {u : HubEntry} {p : String}
    {data : ParticipantUpdate} {written : Participant} {status : TrustStatus} {reason : String}
    (ht : cfg.trace = later ++ u :: earlier)
    (hu : u.ev = ⟨.participantUpdate p data, .ok written⟩)
    (hstatus : data.trustStatus = some status) (hreason : data.statusReason = some reason)
    (hlater : ∀ x ∈ later, ∀ data', x.ev.op = .participantUpdate p data' →
      data'.trustStatus = some status ∧ data'.statusReason = some reason) :
    ∃ row, cfg.store.participants.find? p = some row ∧ row.trustStatus = status ∧
      row.statusReason = some reason := by
  refine reach.carry (fun w => ∃ row, w.participants.find? p = some row ∧
    row.trustStatus = status ∧ row.statusReason = some reason) ht ?_ ?_
  · have hdid := hub_did reach (e := u) (by simp [ht]) hu
    obtain ⟨old, hold, -, -, heq⟩ := exec_participantUpdate_ok hdid
    refine ⟨data.apply old, ?_, ?_, ?_⟩
    · change (exec env u.ev.op u.before).2.participants.find? p = _
      rw [hu, heq, Table.find?_modify, if_pos rfl, hold]
      rfl
    · simp [ParticipantUpdate.apply, hstatus]
    · simp [ParticipantUpdate.apply, hreason]
  · rintro x hx ⟨row, hrow, hstatus', hreason'⟩
    have hstep : ParticipantStep env x.before p x.ev
        ((exec env x.ev.op x.before).2.participants.find? p) :=
      hub_participant reach (by simp [ht, hx]) p
    change ∃ row, (exec env x.ev.op x.before).2.participants.find? p = some row ∧ _
    generalize (exec env x.ev.op x.before).2.participants.find? p = new at hstep ⊢
    generalize hev : x.ev = ev at hstep
    cases hstep with
    | same => exact ⟨row, hrow, hstatus', hreason'⟩
    | create hnone =>
      rw [hrow] at hnone
      cases hnone
    | @update data' old hold =>
      obtain ⟨hs, hr⟩ := hlater x hx data' (congrArg Ev.op hev)
      refine ⟨_, rfl, ?_, ?_⟩
      · simp [ParticipantUpdate.apply, hs]
      · simp [ParticipantUpdate.apply, hr]

/-- How a participant, with the row `row` before the round that is call `i` and `row'` after it, has
come out: a verdict is one on the challenge that the round has stored and emitted for it. -/
inductive Settled (env : Env) (cfg : HubConfig) (i : Nat) (meetingId : String) (before : World)
    (row row' : Participant) : Prop where
  | noDevice : boundDevice (before.withDevice row) = none → row'.trustStatus = .failed →
      row'.statusReason = some "No device binding — cannot verify" →
      Settled env cfg i meetingId before row row'
  | judged {d : String} {device : Device} {record : ChallengeRecord} {j : Nat} {signature : String}
      {now : Date} {reason : String} :
      boundDevice (before.withDevice row) = some d → before.devices.find? d = some device →
      record.participantId = row.id ∧ record.userId = row.userId ∧ record.deviceId = d ∧
        record.meetingId = meetingId →
      ⟨.redisSet (.challenge record.challengeId) record 15, .ok ()⟩ ∈ own i cfg.trace →
      ⟨.emitChallengeToDevice d record.toChallengePayload, .ok ()⟩ ∈ own i cfg.trace →
      PolicyService.evaluate
        ⟨⟨device.status, device.lastHeartbeat, device.hardwareBound⟩,
          responseValid env record device signature, false, true⟩ now =
        ⟨row'.trustStatus, reason⟩ →
      env.clock before.steps ≤ now → now ≤ env.clock cfg.store.steps →
      row'.statusReason = some reason →
      cfg.calls[j]? = some (.verifyResponse record.challengeId d signature, .done (.ok
        (.verified ⟨responseValid env record device signature, row'.trustStatus, reason⟩))) →
      Settled env cfg i meetingId before row row'

/-- Whoever has no device is FAILED. -/
theorem SoleRound.failed (h : SoleRound env cfg i meetingId newer b older)
    (reach : Reachable env cfg) (hdone : RoundDone meetingId turns (own i cfg.trace))
    {row : Participant × Option Device} {events : List Event} (hturn : (row, events) ∈ turns)
    (hnone : boundDevice row = none) :
    ∃ row', cfg.store.participants.find? row.1.id = some row' ∧ row'.trustStatus = .failed ∧
      row'.statusReason = some "No device binding — cannot verify" := by
  obtain ⟨⟨t, written, hwrite⟩, -, -⟩ := (hdone.done _ hturn).failed hnone
  obtain ⟨u, hu, -, huev⟩ := mem_own.mp (h.turn_event hdone hturn hwrite)
  obtain ⟨later, earlier, rfl⟩ := List.append_of_mem hu
  have ht : cfg.trace = later ++ u :: (earlier ++ b :: older) := by
    simp [h.trace]
  refine kept_status reach ht huev rfl rfl ?_
  intro x hx data hop
  obtain ⟨row', events', hturn', hid, hwrite'⟩ := h.written reach hdone (by simp [hx]) hop
  cases h.turn_eq reach hdone hturn' hturn hid
  cases hwrite' with
  | failed _ hdata =>
    rw [hdata]
    exact ⟨rfl, rfl⟩
  | judged hbound =>
    rw [hnone] at hbound
    cases hbound

/-- An answer that is judged in the round is judged in time. -/
theorem SoleRound.verdict_eq (h : SoleRound env cfg i meetingId newer b older)
    (reach : Reachable env cfg) (hdone : RoundDone meetingId turns (own i cfg.trace))
    {row : Participant × Option Device} {events : List Event} (hturn : (row, events) ∈ turns)
    {d : String} {record : ChallengeRecord} (hrecord : ChallengeOf meetingId row d record events)
    {checkedAt : Date} (hchecked : ⟨.now, .ok checkedAt⟩ ∈ own j newer) (device : Device)
    (signature : String) (now : Date) :
    ChallengeService.verdict env record device signature checkedAt now =
      PolicyService.evaluate
        ⟨⟨device.status, device.lastHeartbeat, device.hardwareBound⟩,
          responseValid env record device signature, false, true⟩ now := by
  obtain ⟨-, hchecked⟩ := h.reading reach hchecked
  obtain ⟨issuedAt, hissued, hexpires⟩ := hrecord.expires
  obtain ⟨hissued, -⟩ := h.reading reach (h.turn_event hdone hturn hissued)
  have hlive : decide (checkedAt > record.expiresAt) = false := by
    have hinTime := h.inTime
    rw [decide_eq_false_iff_not, hexpires]
    unfold Date at *
    omega
  unfold ChallengeService.verdict
  rw [hlive]

/-- Whoever has one gets the verdict on its answer. -/
theorem SoleRound.settled (h : SoleRound env cfg i meetingId newer b older)
    (reach : Reachable env cfg) (hdone : RoundDone meetingId turns (own i cfg.trace))
    {turn : Participant × Option Device} {events : List Event} (hturn : (turn, events) ∈ turns)
    {row : Participant} (hid : turn.1.id = row.id) (huser : turn.1.userId = row.userId)
    (hsame : boundDevice turn = boundDevice (b.before.withDevice row)) :
    ∃ row', cfg.store.participants.find? row.id = some row' ∧
      Settled env cfg i meetingId b.before row row' := by
  cases hbound : boundDevice turn with
  | none =>
    obtain ⟨row', hrow', hstatus, hreason⟩ := h.failed reach hdone hturn hbound
    exact ⟨row', hid ▸ hrow', .noDevice (hsame ▸ hbound) hstatus hreason⟩
  | some d =>
    obtain ⟨device, hdevice⟩ : ∃ device, b.before.devices.find? d = some device := by
      rw [hsame] at hbound
      obtain ⟨hd, -, hfound⟩ := boundDevice_eq_some hbound
      obtain ⟨device, hdevice⟩ := Option.isSome_iff_exists.mp hfound
      refine ⟨device, ?_⟩
      unfold World.withDevice at hd hdevice
      rwa [hd] at hdevice
    obtain ⟨record, hrecord, -⟩ := (hdone.done _ hturn).challenge hbound
    obtain ⟨j, signature, reply, hanswer⟩ :=
      h.answered d record.toChallengePayload (hdone.mem hturn hrecord.emitted)
    obtain ⟨checkedAt, now, result, rfl, hverify⟩ :=
      h.judged reach hdone hturn hrecord hanswer hdevice
    obtain ⟨t, written, e, hpast⟩ := hverify.past_eq
    have hchecked : ⟨.now, .ok checkedAt⟩ ∈ own j newer := by
      simp [hpast]
    have hverdict := h.verdict_eq reach hdone hturn hrecord hchecked device signature now
    obtain ⟨hnow, hnow'⟩ := h.reading reach (t := now) (j := j) (by simp [hpast])
    obtain ⟨later, u, earlier, hcut, -, huev, hnewer, -⟩ :=
      own_split (show own j newer = [_, _] ++ _ :: _ from hpast)
    rw [hrecord.participant] at huev
    have ht : cfg.trace = later ++ u :: (earlier ++ b :: older) := by
      simp [h.trace, hcut]
    have hlater : ∀ x ∈ later, ∀ data, x.ev.op ≠ .participantUpdate turn.1.id data := by
      intro x hx data hop
      have hxj := h.last_write reach hdone hturn hbound hrecord hanswer (by simp [hcut, hx]) hop
      have hown : x.ev ∈ own j later := mem_own.mpr ⟨x, hx, hxj, rfl⟩
      rw [hnewer] at hown
      simp only [List.mem_cons, List.not_mem_nil, or_false] at hown
      rcases hown with hown | hown <;> rw [hown] at hop <;> cases hop
    obtain ⟨row', hrow', hstatus, hreason⟩ :=
      kept_status reach ht huev rfl rfl fun x hx data hop => absurd hop (hlater x hx data)
    have hfor : record.participantId = row.id ∧ record.userId = row.userId ∧
        record.deviceId = d ∧ record.meetingId = meetingId :=
      ⟨hrecord.participant.trans hid, hrecord.user.trans huser, hrecord.device, hrecord.meeting⟩
    have hcall := hanswer.call
    rw [hverify.result_eq, ← hstatus] at hcall
    refine ⟨row', hid ▸ hrow', .judged (hsame ▸ hbound) hdevice hfor
      (hdone.mem hturn hrecord.stored) (hdone.mem hturn hrecord.emitted) ?_ hnow hnow' hreason
      hcall⟩
    rw [hstatus, ← hverdict]

/-- Whoever is in another meeting is left alone. -/
theorem SoleRound.untouched (h : SoleRound env cfg i meetingId newer b older)
    (reach : Reachable env cfg) (hdone : RoundDone meetingId turns (own i cfg.trace)) {p : String}
    {row : Participant} (hrow : b.before.participants.find? p = some row)
    (hmeeting : row.meetingId ≠ meetingId) : cfg.store.participants.find? p = some row := by
  -- the first event writes nothing, and whom the others write has had a turn
  have hsilent : ∀ x ∈ newer ++ [b], ∀ data, x.ev.op ≠ .participantUpdate p data := by
    intro x hx data hop
    rcases List.mem_append.mp hx with hx | hx
    · obtain ⟨turn, events, hturn, rfl, -⟩ := h.written reach hdone hx hop
      exact hmeeting ((h.rows reach hdone).2.1 _ hturn row hrow)
    · cases List.mem_singleton.mp hx
      have hwrite := hub_write reach h.trace hop
      rw [h.first.1, h.first.2] at hwrite
      generalize b.call = c at hwrite
      cases hwrite
  have hstep : ∀ x ∈ newer ++ [b], x.before.participants.find? p = some row →
      (exec env x.ev.op x.before).2.participants.find? p = some row := by
    intro x hx hbefore
    have hxmem : x ∈ cfg.trace := by
      rw [h.trace]
      rcases List.mem_append.mp hx with hx | hx <;> simp_all
    have hstep : ParticipantStep env x.before p x.ev
      ((exec env x.ev.op x.before).2.participants.find? p) := hub_participant reach hxmem p
    generalize (exec env x.ev.op x.before).2.participants.find? p = new at hstep ⊢
    generalize hev : x.ev = ev at hstep
    cases hstep with
    | same => exact hbefore
    | update => exact absurd (congrArg Ev.op hev) (hsilent x hx _)
    | create hnone =>
      rw [hbefore] at hnone
      cases hnone
  exact reach.carry (fun w => w.participants.find? p = some row) h.trace
    (hstep b (by simp) hrow) fun x hx => hstep x (by simp [hx])

end Round

/-- A meeting is challenged and each challenge is answered once, all in ten seconds and with nothing
else going on, however the answers interleave with each other and with the rest of the loop. Then
each participant of the meeting has come out FAILED for want of a device, or with the policy's verdict
on its own device and its own answer, which has also been replied to that; and who is in another
meeting is as before. -/
theorem round_settles (reach : Reachable env cfg) {newer older : Trace} {b : HubEntry}
    (h : SoleRound env cfg i meetingId newer b older) {p : String} {row : Participant}
    (hrow : b.before.participants.find? p = some row) :
    ∃ row', cfg.store.participants.find? p = some row' ∧
      (row.meetingId = meetingId → Settled env cfg i meetingId b.before row row') ∧
      (row.meetingId ≠ meetingId → row' = row) := by
  obtain ⟨reply, hreturned⟩ := h.returned
  obtain ⟨turns, hdone⟩ := (returned_done reach hreturned).1 _ rfl
  by_cases hmeeting : row.meetingId = meetingId
  · obtain ⟨⟨turn, events⟩, hturn, hid, huser, hsame⟩ :=
      (h.rows reach hdone).2.2 p row hrow hmeeting
    obtain ⟨-, rfl⟩ := Table.find?_eq_some.mp hrow
    obtain ⟨row', hrow', hsettled⟩ := h.settled reach hdone hturn hid huser hsame
    exact ⟨row', hrow', fun _ => hsettled, fun hne => absurd hmeeting hne⟩
  · exact ⟨row, h.untouched reach hdone hrow hmeeting, fun heq => absurd heq hmeeting,
      fun _ => rfl⟩

section Sample

/-- alice's challenge, after bob has joined as well. -/
def mixedChallenge : ChallengeRecord :=
  Sample.record (Sample.env 0 0) 25 "tenant-acme" (Sample.uuid 4) (Sample.uuid 7) "laptop-1" "alice"

/-- She answers it as soon as it has been emitted, while bob is failed. -/
def mixedRound : HubConfig :=
  (Sample.run (Sample.env 0 0) mixed).play (hub (Sample.env 0 0))
    (.start (.issueChallenge (Sample.uuid 4)) :: List.replicate 8 (.step 6) ++
      .start (Sample.answer mixedChallenge "pem-1") ::
        (List.replicate 9 [.step 7, .step 6]).flatten)

/-- The event has emitted alice's challenge, or is no emission of a challenge. -/
def emitsMixed (emitted : Bool) (ev : Event) : Bool :=
  match ev with
  | ⟨.emitChallengeToDevice d payload, .ok ()⟩ =>
      d = "laptop-1" && payload = mixedChallenge.toChallengePayload
  | _ => !emitted

/-- Call 6 has emitted it, and nobody else has come before. -/
def emitsFirst (_ : Trace) (e : HubEntry) (earlier : Trace) : Bool :=
  e.id = 6 && emitsMixed true e.ev && earlier.all (·.id = 6)

/-- The round of call 6, after whose challenge only call 7 has come in between. -/
def mixedFrom (newer : Trace) (b : HubEntry) (older : Trace) : Bool :=
  b.id = 6 && older.all (fun x => x.id ≠ 6 && x.id ≠ 7) && decide (b.before.steps = 23) &&
    newer.all (fun x => x.id = 6 || x.call = Sample.answer mixedChallenge "pem-1") &&
    ((Sample.positions newer).any fun x => emitsFirst x.1 x.2.1 x.2.2) &&
    (b.before.participants.find? (Sample.uuid 7)).any (·.meetingId = Sample.uuid 4)

theorem ev_of_emitsMixed {ev : Event} (h : emitsMixed true ev = true) :
    ev = ⟨.emitChallengeToDevice "laptop-1" mixedChallenge.toChallengePayload, .ok ()⟩ := by
  unfold emitsMixed at h
  split at h
  · next d payload =>
    obtain ⟨rfl, rfl⟩ : d = "laptop-1" ∧ payload = mixedChallenge.toChallengePayload := by
      simpa using h
    rfl
  · cases h

theorem own_eq_nil {n : Nat} {trace : Trace} (h : ∀ x ∈ trace, x.id ≠ n) : own n trace = [] := by
  refine List.eq_nil_iff_forall_not_mem.mpr ?_
  intro ev hev
  obtain ⟨x, hx, hid, -⟩ := mem_own.mp hev
  exact h x hx hid

/-- Call `n` is an answer, and no other one is. -/
def onlyAnswer (n : Nat) (calls : List (Call × Service Reply)) : Bool :=
  calls.zipIdx.all fun x => x.2 = n || match x.1.1 with
    | .verifyResponse _ _ _ => false
    | _ => true

theorem eq_of_onlyAnswer {n k : Nat} {calls : List (Call × Service Reply)} {p : Service Reply}
    (h : onlyAnswer n calls = true)
    (hcall : calls[k]? = some (.verifyResponse challengeId deviceId signature, p)) : k = n := by
  have hmem : ((.verifyResponse challengeId deviceId signature, p), k) ∈ calls.zipIdx :=
    List.mem_zipIdx_iff_getElem?.mpr hcall
  simpa using List.all_eq_true.mp h _ hmem

theorem mixedRound_sole {newer older : Trace} {b : HubEntry}
    (ht : mixedRound.trace = newer ++ b :: older) (h : mixedFrom newer b older = true) :
    SoleRound (Sample.env 0 0) mixedRound 6 (Sample.uuid 4) newer b older := by
  simp only [mixedFrom, Bool.and_eq_true, decide_eq_true_eq, List.all_eq_true, ne_eq,
    Bool.or_eq_true, decide_not, Bool.not_eq_true', decide_eq_false_iff_not] at h
  obtain ⟨⟨⟨⟨⟨hb, holder⟩, hsteps⟩, hnewer⟩, hemitted⟩, -⟩ := h
  have hreturned : Sample.returned mixedRound 6 (.issueChallenge (Sample.uuid 4)) = true := by
    decide +kernel
  have hanswered : Sample.returned mixedRound 7 (Sample.answer mixedChallenge "pem-1") = true := by
    decide +kernel
  have hsole : onlyAnswer 7 mixedRound.calls = true := by decide +kernel
  have hemits : (own 6 mixedRound.trace).all (emitsMixed false) = true := by decide +kernel
  have hsteps' : mixedRound.store.steps = 45 := by decide +kernel
  refine ⟨ht, ⟨hb, own_eq_nil fun x hx => (holder x hx).1⟩, Sample.calls_of_returned hreturned,
    ?_, ?_, ?_⟩
  · intro later x earlier hcut hid
    obtain ⟨late, e, early, hcut', he⟩ := Sample.exists_position hemitted
    simp only [emitsFirst, Bool.and_eq_true, decide_eq_true_eq, List.all_eq_true] at he
    obtain ⟨⟨heid, hemits⟩, hearly⟩ := he
    have hev := ev_of_emitsMixed hemits
    have hcall : x.call = Sample.answer mixedChallenge "pem-1" :=
      (hnewer x (by simp [hcut])).resolve_left hid
    refine ⟨"laptop-1", mixedChallenge.toChallengePayload, _, hcall, ?_⟩
    rcases split_cases (hcut.symm.trans hcut') with ⟨mid, -, rfl⟩ | ⟨-, rfl, -⟩ | ⟨mid, -, rfl⟩
    · exact absurd (hearly x (by simp)) hid
    · exact absurd heid hid
    · rw [← hev]
      exact mem_own.mpr ⟨e, by simp, heid, rfl⟩
  · intro d payload hemit
    have hd := List.all_eq_true.mp hemits _ hemit
    simp only [emitsMixed, Bool.and_eq_true, decide_eq_true_eq] at hd
    obtain ⟨rfl, rfl⟩ := hd
    obtain ⟨reply, hcall⟩ := Sample.calls_of_returned hanswered
    exact ⟨7, _, reply, hcall, own_eq_nil fun x hx => (holder x hx).2,
      fun _ _ _ => eq_of_onlyAnswer hsole⟩
  · rw [hsteps, hsteps']
    decide

/-- alice has answered while the loop was at bob. -/
theorem round_settles_sample : ∃ cfg i newer b older row row',
    SoleRound (Sample.env 0 0) cfg i (Sample.uuid 4) newer b older ∧
    b.before.participants.find? (Sample.uuid 7) = some row ∧ row.meetingId = Sample.uuid 4 ∧
    cfg.store.participants.find? (Sample.uuid 7) = some row' ∧ row'.trustStatus = .verified ∧
    Settled (Sample.env 0 0) cfg i (Sample.uuid 4) b.before row row' := by
  have hreach : Reachable (Sample.env 0 0) mixedRound :=
    reach_play _ (Sample.run_reachable (Sample.env 0 0) mixed)
  have hany : ((Sample.positions mixedRound.trace).any fun x => mixedFrom x.1 x.2.1 x.2.2) =
      true := by decide +kernel
  have hverified : (mixedRound.store.participants.find? (Sample.uuid 7)).any
      (·.trustStatus = .verified) = true := by
    decide +kernel
  obtain ⟨newer, b, older, ht, hfrom⟩ := Sample.exists_position hany
  have hsole := mixedRound_sole ht hfrom
  obtain ⟨row, hrow, hmeeting⟩ :=
    (Option.any_eq_true _ _).mp (Bool.and_eq_true_iff.mp hfrom).2
  obtain ⟨row', hrow', hsettled, -⟩ := round_settles hreach hsole hrow
  rw [hrow', Option.any_some] at hverified
  exact ⟨mixedRound, 6, newer, b, older, row, row', hsole, hrow, of_decide_eq_true hmeeting, hrow',
    of_decide_eq_true hverified, hsettled (of_decide_eq_true hmeeting)⟩

end Sample

end TroofAI.Hub
