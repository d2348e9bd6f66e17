import TroofAI.History.Provenance

/-!
Calls that run alone.

A call that runs alone from a world `w` meets only its own effects, so what it writes can
be told from `w`. `BindsAlone` and `AnswersAlone` say when `bindDevice` and
`verifyResponse` get as far as writing the participant's row; `bind_log`, `bind_log_inv`,
`answer_log` and `answer_log_inv` say that they do exactly then, and what they have seen
by that time. `issue_log_inv` says whose rows a round of challenges writes.
-/

namespace TroofAI.Hub

open TroofAI.Await MeetingService ChallengeService

/-- The events of a call that runs alone from the world `w`, each with the world it met. -/
def aloneLog (env : Env) (c : Call) (w : World) : List (World × Event) :=
  ((c.body env).run (exec env) w).log

/-- The world it leaves. -/
def aloneStore (env : Env) (c : Call) (w : World) : World :=
  ((c.body env).run (exec env) w).store

/-- What it answers. -/
def aloneResult (env : Env) (c : Call) (w : World) : Except HubError Reply :=
  ((c.body env).run (exec env) w).result

variable {env : Env} {c : Call} {w w' : World} {before after : List (World × Event)} {ev : Event}

theorem alone_point (hlog : aloneLog env c w = before ++ (w', ev) :: after) :
    c.Point env (before.map Prod.snd).reverse ev.op ∧ ev.res = (exec env ev.op w').1 := by
  have h := Prog.run_point (body_obeys env c) hlog
  rwa [List.append_nil] at h

theorem alone_ev (hlog : aloneLog env c w = before ++ (w', ev) :: after) :
    ev = ⟨ev.op, (exec env ev.op w').1⟩ := congrArg (Ev.mk ev.op) (alone_point hlog).2

/-- The oldest of the events before. -/
theorem events_cons {events : List Event} (h : before.map Prod.snd = ev :: events) :
    ∃ w₁ rest, before = (w₁, ev) :: rest ∧ rest.map Prod.snd = events := by
  obtain ⟨⟨w₁, ev₁⟩, rest, rfl, rfl, hrest⟩ := List.map_eq_cons_iff.mp h
  exact ⟨w₁, rest, rfl, hrest⟩

theorem alone_steps (hlog : aloneLog env c w = before ++ (w', ev) :: after) :
    w'.steps = w.steps + before.length := by
  have hcount : ∀ op (w : World), (exec env op w).2.steps = w.steps + 1 := fun _ _ => exec_steps
  exact Prog.run_count World.steps hcount hlog

/-- The operation of an event that succeeds was not rejected. -/
theorem alone_ok {op : Op} {a : op.Resp}
    (hlog : aloneLog env c w = before ++ (w', ⟨op, .ok a⟩) :: after) :
    (exec env op w').1 = .ok a ∧
      (op.awaited = true → env.rejects (w.steps + before.length) = false) := by
  have hres : (exec env op w').1 = .ok a := (alone_point hlog).2.symm
  exact ⟨hres, fun hawaited => alone_steps hlog ▸ accepted_of_ok hres hawaited⟩

/-- The clock of a call that runs alone is read after it has started. -/
theorem alone_now {t : Date} (hlog : aloneLog env c w = before ++ (w', ev) :: after)
    (hnow : ⟨.now, .ok t⟩ ∈ before.map Prod.snd) : env.clock w.steps ≤ t := by
  obtain ⟨⟨w₁, ev₁⟩, hmem, rfl⟩ := List.mem_map.mp hnow
  obtain ⟨first, second, rfl⟩ := List.append_of_mem hmem
  rw [List.append_assoc, List.cons_append] at hlog
  rw [exec_now_ok (alone_ok hlog).1, alone_steps hlog]
  exact env.clock_mono (Nat.le_add_right _ _)

/-- `w'` is `k` steps on from `w`, with the same devices and participants. -/
structure Ahead (w : World) (k : Nat) (w' : World) : Prop where
  steps : w'.steps = w.steps + k
  devices : w'.devices = w.devices
  participants : w'.participants = w.participants

theorem Ahead.refl (w : World) : Ahead w 0 w := ⟨rfl, rfl, rfl⟩

/-- One more event. -/
theorem Ahead.perform {k : Nat} {op : Op} {a : op.Resp} (h : Ahead w k w')
    (hres : (exec env op w').1 = .ok a) (hop : op.part ≠ .devices ∧ op.part ≠ .participants) :
    ∃ w₁, Ahead w (k + 1) w₁ ∧ ∀ {β : Type} (f : op.Resp → Service β),
      (call op >>= f).run (exec env) w' =
        { (f a).run (exec env) w₁ with
          log := (w', ⟨op, .ok a⟩) :: ((f a).run (exec env) w₁).log } := by
  refine ⟨(exec env op w').2, ⟨?_, ?_, ?_⟩, fun f => ?_⟩
  · rw [exec_steps, h.steps, Nat.add_assoc]
  · exact (exec_devices hop.1).trans h.devices
  · exact (exec_participants hop.2).trans h.participants
  · exact Prog.run_perform_bind_ok hres

/-- The first event meets the world the call starts in. -/
theorem alone_start {log : List (World × Event)} (hlog : aloneLog env c w = (w', ev) :: log) :
    w' = w :=
  Prog.run_frame id (show _ = [] ++ _ :: _ from hlog) (by simp)

/-- The events of a history write no device and no participant. -/
def ReadOnly (past : List Event) : Prop :=
  ∀ x ∈ past, x.op.part ≠ .devices ∧ x.op.part ≠ .participants

/-- Where a call has written no device and no participant, their rows are as they were when
it started. -/
theorem alone_ahead (hlog : aloneLog env c w = before ++ (w', ev) :: after)
    (hquiet : ReadOnly (before.map Prod.snd)) : Ahead w before.length w' where
  steps := alone_steps hlog
  devices := Prog.run_frame World.devices hlog fun x hx =>
    exec_devices (hquiet x.2 (List.mem_map_of_mem hx)).1
  participants := Prog.run_frame World.participants hlog fun x hx =>
    exec_participants (hquiet x.2 (List.mem_map_of_mem hx)).2

/-- The events of a call that runs next, found in the trace. -/
theorem alone_sequence {cfg : HubConfig} (reach : Reachable env cfg)
    (hlog : aloneLog env c cfg.store = before ++ (w', ev) :: after) :
    ∃ later e since, (cfg.sequence (hub env) [c]).trace = later ++ e :: (since ++ cfg.trace) ∧
      e.call = c ∧ e.before = w' ∧ e.ev = ev ∧
      own e.id (since ++ cfg.trace) = (before.map Prod.snd).reverse := by
  have hlog' : (((hub env).body c).run (hub env).exec (cfg.sequence (hub env) []).store).log =
      before ++ (w', ev) :: after := hlog
  exact sequence_log reach [] hlog'

/-! ### bindDevice -/

/-- Called on `w` and left alone, `bindDevice` gets as far as its write: the join token is
alive and names the meeting, the device and the participant have rows, the signature is
valid, and no store call up to the write is rejected. -/
structure BindsAlone (env : Env) (w : World) (meetingId joinToken deviceId signature : String)
    (parsed : JoinToken) (device : Device) : Prop where
  live : w.redis.get (env.clock w.steps) (.joinToken joinToken) = some parsed
  meeting : parsed.meetingId = meetingId
  found : w.devices.find? deviceId = some device
  valid : bindValid env meetingId joinToken deviceId signature parsed device = true
  row : (w.participants.find? parsed.participantId).isSome
  accepted : ∀ k ∈ [0, 1, 2, 4], env.rejects (w.steps + k) = false

theorem BindsAlone.unique {env : Env} {w : World} {meetingId joinToken deviceId signature : String}
    {parsed parsed' : JoinToken} {device device' : Device}
    (h : BindsAlone env w meetingId joinToken deviceId signature parsed device)
    (h' : BindsAlone env w meetingId joinToken deviceId signature parsed' device') :
    parsed = parsed' ∧ device = device' :=
  ⟨Option.some.inj (h.live.symm.trans h'.live), Option.some.inj (h.found.symm.trans h'.found)⟩

/-- What such a call has performed by then, newest first. -/
def bindPast (env : Env) (w : World) (joinToken deviceId : String) (parsed : JoinToken)
    (device : Device) : List Event :=
  [⟨.now, .ok (env.clock (w.steps + 3))⟩, ⟨.redisDel (.joinToken joinToken), .ok ()⟩,
    ⟨.deviceFindUnique deviceId, .ok (some device)⟩,
    ⟨.redisGet (.joinToken joinToken), .ok (some parsed)⟩]

variable {meetingId joinToken deviceId signature : String} {parsed : JoinToken} {device : Device}
  {p : String} {data : ParticipantUpdate} {row : Participant}

theorem bind_log_inv
    (hlog : aloneLog env (.bindDevice meetingId joinToken deviceId signature) w =
      before ++ (w', ⟨.participantUpdate p data, .ok row⟩) :: after) :
    ∃ parsed device, BindsAlone env w meetingId joinToken deviceId signature parsed device ∧
      p = parsed.participantId ∧ data = bindData deviceId device (env.clock (w.steps + 3)) ∧
      (before.map Prod.snd).reverse = bindPast env w joinToken deviceId parsed device ∧
      Ahead w 4 w' := by
  have hwrite := point_participantUpdate (alone_point hlog).1
  generalize hpast : (before.map Prod.snd).reverse = past at hwrite
  cases hwrite with
  | @bind _ _ _ _ parsed device reads t hacc =>
    obtain ⟨hmeeting, hvalid, rfl⟩ := hacc
    obtain ⟨w₀, rest, rfl, h₁⟩ := events_cons (List.reverse_eq_iff.mp hpast)
    obtain ⟨w₁, rest, rfl, h₂⟩ := events_cons h₁
    obtain ⟨w₂, rest, rfl, h₃⟩ := events_cons h₂
    obtain ⟨w₃, rest, rfl, h₄⟩ := events_cons h₃
    obtain rfl := List.map_eq_nil_iff.mp h₄
    -- what each event says of `w`
    obtain rfl : w₀ = w := alone_start hlog
    obtain ⟨hget, hacc₀⟩ := alone_ok (show _ = [] ++ _ :: _ from hlog)
    obtain ⟨hfind, hacc₁⟩ := alone_ok (show _ = [_] ++ _ :: _ from hlog)
    obtain ⟨-, hacc₂⟩ := alone_ok (show _ = [_, _] ++ _ :: _ from hlog)
    obtain ⟨hnow, -⟩ := alone_ok (show _ = [_, _, _] ++ _ :: _ from hlog)
    obtain ⟨hupdate, hacc₄⟩ := alone_ok hlog
    have a₁ := alone_ahead (show _ = [_] ++ _ :: _ from hlog) (by simp [ReadOnly, Op.part])
    have a₃ := alone_ahead (show _ = [_, _, _] ++ _ :: _ from hlog) (by simp [ReadOnly, Op.part])
    have a₄ := alone_ahead hlog (by simp [ReadOnly, Op.part])
    obtain ⟨old, hold, -⟩ := exec_participantUpdate_ok hupdate
    obtain rfl := exec_now_ok hnow
    refine ⟨parsed, device, ?_, rfl, by rw [a₃.steps]; rfl, by rw [a₃.steps]; rfl, a₄⟩
    exact {
      live := exec_redisGet_ok hget
      meeting := hmeeting
      found := a₁.devices ▸ exec_deviceFindUnique_ok hfind
      valid := hvalid
      row := Option.isSome_iff_exists.mpr ⟨old, a₄.participants ▸ hold⟩
      accepted := by
        simp only [List.mem_cons, List.not_mem_nil, or_false]
        rintro k (rfl | rfl | rfl | rfl)
        exacts [hacc₀ rfl, hacc₁ rfl, hacc₂ rfl, hacc₄ rfl] }

theorem bind_log (h : BindsAlone env w meetingId joinToken deviceId signature parsed device) :
    ∃ before w' row after, aloneLog env (.bindDevice meetingId joinToken deviceId signature) w =
      before ++ (w', ⟨.participantUpdate parsed.participantId
        (bindData deviceId device (env.clock (w.steps + 3))), .ok row⟩) :: after := by
  obtain ⟨row, hrow⟩ := Option.isSome_iff_exists.mp h.row
  unfold aloneLog Call.body bindDevice
  rw [Prog.run_map]
  -- the token is read
  have h₀ := exec_redisGet (.joinToken joinToken) (h.accepted 0 (by simp))
  rw [h.live] at h₀
  obtain ⟨w₁, a₁, hrun⟩ := (Ahead.refl w).perform h₀ (by simp [Op.part])
  rw [hrun]
  simp only [h.meeting, ne_eq, not_true_eq_false, ↓reduceIte]
  -- the device is read and the signature checked
  have h₁ : (exec env (.deviceFindUnique deviceId) w₁).1 = .ok (some device) := by
    rw [exec_deviceFindUnique (a₁.steps ▸ h.accepted 1 (by simp)), a₁.devices, h.found]
  obtain ⟨w₂, a₂, hrun⟩ := a₁.perform h₁ (by simp [Op.part])
  rw [hrun]
  simp only [h.valid, Bool.true_eq_false, ↓reduceIte]
  -- the token is deleted
  have h₂ := exec_redisDel (.joinToken joinToken) (a₂.steps ▸ h.accepted 2 (by simp))
  obtain ⟨w₃, a₃, hrun⟩ := a₂.perform h₂ (by simp [Op.part])
  rw [hrun]
  have h₃ : (exec env .now w₃).1 = .ok (env.clock (w.steps + 3)) := by rw [exec_now, a₃.steps]
  obtain ⟨w₄, a₄, hrun⟩ := a₃.perform h₃ (by simp [Op.part])
  rw [hrun]
  -- and the row is written
  have h₄ := exec_participantUpdate (bindData deviceId device (env.clock (w.steps + 3)))
    (a₄.steps ▸ h.accepted 4 (by simp)) (a₄.participants ▸ hrow) (by
      rintro d ⟨⟩
      rw [a₄.devices, h.found]
      rfl)
  rw [Prog.run_perform_bind_ok h₄]
  exact ⟨[_, _, _, _], w₄, _, _, rfl⟩

/-! ### issueChallenge -/

/-- A round writes only to participants that it found unbound in the world it started in. -/
theorem issue_log_inv
    (hlog : aloneLog env (.issueChallenge meetingId) w =
      before ++ (w', ⟨.participantUpdate p data, .ok row⟩) :: after) :
    ∃ read ∈ w.participantsOf (env.participantOrder (w.steps + 1)) meetingId,
      read.1.id = p ∧ boundDevice read = none := by
  have hwrite := point_participantUpdate (alone_point hlog).1
  generalize hpast : (before.map Prod.snd).reverse = past at hwrite
  cases hwrite with
  | @noDevice _ m rows read start t hloop hrow hbound =>
    obtain ⟨turns, rfl⟩ := hloop
    have hevents : before.map Prod.snd = ⟨.meetingFindUnique meetingId, .ok (some m)⟩ ::
        ⟨.participantFindMany meetingId, .ok rows⟩ :: (⟨.now, .ok t⟩ :: turns).reverse := by
      rw [← List.reverse_reverse (before.map Prod.snd), hpast]
      simp
    obtain ⟨w₀, rest, rfl, h₁⟩ := events_cons hevents
    obtain ⟨w₁, rest, rfl, -⟩ := events_cons h₁
    have hlog₁ : aloneLog env (.issueChallenge meetingId) w =
        [(w₀, _)] ++ (w₁, ⟨.participantFindMany meetingId, .ok rows⟩) :: (rest ++ _ :: after) :=
      hlog
    have hread := exec_participantFindMany_ok (alone_ok hlog₁).1
    -- only the meeting has been read before
    have hahead := alone_ahead hlog₁ (by simp [ReadOnly, Op.part])
    have hsame : w₁.participantsOf (env.participantOrder w₁.steps) meetingId =
        w.participantsOf (env.participantOrder (w.steps + 1)) meetingId := by
      unfold World.participantsOf World.members World.withDevice
      rw [hahead.participants, hahead.devices, hahead.steps]
      rfl
    rw [← hread, hsame] at hrow
    exact ⟨read, hrow, rfl, hbound⟩

/-! ### verifyResponse -/

/-- Called on `w` and left alone, `verifyResponse` gets as far as its write: the challenge is
alive and was issued to the device, the device and the participant have rows, and no store
call up to the write is rejected. -/
structure AnswersAlone (env : Env) (w : World) (challengeId deviceId : String)
    (challenge : ChallengeRecord) (device : Device) : Prop where
  live : w.redis.get (env.clock w.steps) (.challenge challengeId) = some challenge
  device_eq : challenge.deviceId = deviceId
  found : w.devices.find? deviceId = some device
  row : (w.participants.find? challenge.participantId).isSome
  accepted : ∀ k ∈ [0, 2, 3, 6], env.rejects (w.steps + k) = false

theorem AnswersAlone.unique {env : Env} {w : World} {challengeId deviceId : String}
    {challenge challenge' : ChallengeRecord} {device device' : Device}
    (h : AnswersAlone env w challengeId deviceId challenge device)
    (h' : AnswersAlone env w challengeId deviceId challenge' device') :
    challenge = challenge' ∧ device = device' :=
  ⟨Option.some.inj (h.live.symm.trans h'.live), Option.some.inj (h.found.symm.trans h'.found)⟩

/-- What such a call has performed by then, newest first. -/
def answerPast (env : Env) (w : World) (challengeId deviceId : String)
    (challenge : ChallengeRecord) (device : Device) : List Event :=
  [⟨.now, .ok (env.clock (w.steps + 5))⟩, ⟨.now, .ok (env.clock (w.steps + 4))⟩,
    ⟨.redisDel (.challenge challengeId), .ok ()⟩,
    ⟨.deviceFindUnique deviceId, .ok (some device)⟩, ⟨.now, .ok (env.clock (w.steps + 1))⟩,
    ⟨.redisGet (.challenge challengeId), .ok (some challenge)⟩]

/-- The verdict such a call gives. -/
def answerResult (env : Env) (w : World) (challenge : ChallengeRecord) (device : Device)
    (signature : String) : PolicyResult :=
  verdict env challenge device signature (env.clock (w.steps + 1)) (env.clock (w.steps + 4))

variable {challengeId : String} {challenge : ChallengeRecord}

theorem answer_log_inv
    (hlog : aloneLog env (.verifyResponse challengeId deviceId signature) w =
      before ++ (w', ⟨.participantUpdate p data, .ok row⟩) :: after) :
    ∃ challenge device, AnswersAlone env w challengeId deviceId challenge device ∧
      p = challenge.participantId ∧
      data = verdictData (answerResult env w challenge device signature)
        (env.clock (w.steps + 5)) ∧
      (before.map Prod.snd).reverse = answerPast env w challengeId deviceId challenge device ∧
      Ahead w 6 w' := by
  have hwrite := point_participantUpdate (alone_point hlog).1
  generalize hpast : (before.map Prod.snd).reverse = past at hwrite
  cases hwrite with
  | @verdict _ _ _ challenge device checkedAt reads now t hacc =>
    obtain ⟨hdevice, rfl⟩ := hacc
    obtain ⟨w₀, rest, rfl, h₁⟩ := events_cons (List.reverse_eq_iff.mp hpast)
    obtain ⟨w₁, rest, rfl, h₂⟩ := events_cons h₁
    obtain ⟨w₂, rest, rfl, h₃⟩ := events_cons h₂
    obtain ⟨w₃, rest, rfl, h₄⟩ := events_cons h₃
    obtain ⟨w₄, rest, rfl, h₅⟩ := events_cons h₄
    obtain ⟨w₅, rest, rfl, h₆⟩ := events_cons h₅
    obtain rfl := List.map_eq_nil_iff.mp h₆
    -- what each event says of `w`
    obtain rfl : w₀ = w := alone_start hlog
    obtain ⟨hget, hacc₀⟩ := alone_ok (show _ = [] ++ _ :: _ from hlog)
    obtain ⟨hnow₁, -⟩ := alone_ok (show _ = [_] ++ _ :: _ from hlog)
    obtain ⟨hfind, hacc₂⟩ := alone_ok (show _ = [_, _] ++ _ :: _ from hlog)
    obtain ⟨-, hacc₃⟩ := alone_ok (show _ = [_, _, _] ++ _ :: _ from hlog)
    obtain ⟨hnow₄, -⟩ := alone_ok (show _ = [_, _, _, _] ++ _ :: _ from hlog)
    obtain ⟨hnow₅, -⟩ := alone_ok (show _ = [_, _, _, _, _] ++ _ :: _ from hlog)
    obtain ⟨hupdate, hacc₆⟩ := alone_ok hlog
    have s₁ := alone_steps (show _ = [_] ++ _ :: _ from hlog)
    have s₄ := alone_steps (show _ = [_, _, _, _] ++ _ :: _ from hlog)
    have s₅ := alone_steps (show _ = [_, _, _, _, _] ++ _ :: _ from hlog)
    have a₂ := alone_ahead (show _ = [_, _] ++ _ :: _ from hlog) (by simp [ReadOnly, Op.part])
    have a₆ := alone_ahead hlog (by simp [ReadOnly, Op.part])
    obtain ⟨old, hold, -⟩ := exec_participantUpdate_ok hupdate
    obtain rfl := exec_now_ok hnow₁
    obtain rfl := exec_now_ok hnow₄
    obtain rfl := exec_now_ok hnow₅
    refine ⟨challenge, device, ?_, rfl, by rw [s₁, s₄, s₅]; rfl, by rw [s₁, s₄, s₅]; rfl, a₆⟩
    exact {
      live := exec_redisGet_ok hget
      device_eq := hdevice
      found := a₂.devices ▸ exec_deviceFindUnique_ok hfind
      row := Option.isSome_iff_exists.mpr ⟨old, a₆.participants ▸ hold⟩
      accepted := by
        simp only [List.mem_cons, List.not_mem_nil, or_false]
        rintro k (rfl | rfl | rfl | rfl)
        exacts [hacc₀ rfl, hacc₂ rfl, hacc₃ rfl, hacc₆ rfl] }

theorem answer_log (signature : String)
    (h : AnswersAlone env w challengeId deviceId challenge device) :
    ∃ before w' row after,
      aloneLog env (.verifyResponse challengeId deviceId signature) w =
        before ++ (w', ⟨.participantUpdate challenge.participantId
          (verdictData (answerResult env w challenge device signature)
            (env.clock (w.steps + 5))), .ok row⟩) :: after := by
  obtain ⟨row, hrow⟩ := Option.isSome_iff_exists.mp h.row
  unfold aloneLog Call.body verifyResponse
  rw [Prog.run_map]
  -- the challenge is read
  have h₀ := exec_redisGet (.challenge challengeId) (h.accepted 0 (by simp))
  rw [h.live] at h₀
  obtain ⟨w₁, a₁, hrun⟩ := (Ahead.refl w).perform h₀ (by simp [Op.part])
  rw [hrun]
  dsimp only
  have h₁ : (exec env .now w₁).1 = .ok (env.clock (w.steps + 1)) := by rw [exec_now, a₁.steps]
  obtain ⟨w₂, a₂, hrun⟩ := a₁.perform h₁ (by simp [Op.part])
  rw [hrun]
  simp only [h.device_eq, ne_eq, not_true_eq_false, ↓reduceIte]
  -- the device is read
  have h₂ : (exec env (.deviceFindUnique deviceId) w₂).1 = .ok (some device) := by
    rw [exec_deviceFindUnique (a₂.steps ▸ h.accepted 2 (by simp)), a₂.devices, h.found]
  obtain ⟨w₃, a₃, hrun⟩ := a₂.perform h₂ (by simp [Op.part])
  unfold DeviceService.findById
  rw [hrun]
  dsimp only
  -- the challenge is deleted
  have h₃ := exec_redisDel (.challenge challengeId) (a₃.steps ▸ h.accepted 3 (by simp))
  obtain ⟨w₄, a₄, hrun⟩ := a₃.perform h₃ (by simp [Op.part])
  rw [hrun]
  dsimp only
  have h₄ : (exec env .now w₄).1 = .ok (env.clock (w.steps + 4)) := by rw [exec_now, a₄.steps]
  obtain ⟨w₅, a₅, hrun⟩ := a₄.perform h₄ (by simp [Op.part])
  rw [hrun]
  dsimp only
  have h₅ : (exec env .now w₅).1 = .ok (env.clock (w.steps + 5)) := by rw [exec_now, a₅.steps]
  obtain ⟨w₆, a₆, hrun⟩ := a₅.perform h₅ (by simp [Op.part])
  rw [hrun]
  dsimp only
  -- and the verdict is written
  have h₆ := exec_participantUpdate (verdictData (answerResult env w challenge device signature)
    (env.clock (w.steps + 5))) (a₆.steps ▸ h.accepted 6 (by simp)) (a₆.participants ▸ hrow)
    (by rintro d ⟨⟩)
  unfold answerResult at h₆ ⊢
  rw [Prog.run_perform_bind_ok h₆]
  exact ⟨[_, _, _, _, _, _], w₆, _, _, rfl⟩

end TroofAI.Hub
