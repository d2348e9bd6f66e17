import TroofAI.Agent.WebSocket
import TroofAI.Trust.Completeness
import TroofAI.Trust.Domains

/-!
Whether a connected agent that answers is judged VERIFIED.

The hub knows that a device is alive from its heartbeats alone, and the timer of an agent's
heartbeats starts anew with every connection. In the first 30 seconds of a connection the policy
therefore sees a heartbeat from before it, however old that is; from then on it sees one that is
a minute old at most (`live_answer`).
-/

namespace TroofAI.Hub

open TroofAI.Await TroofAI.Agent ChallengeService

/-! ### The hub and one agent -/

/-- What a message that an agent emits on its connection makes the gateway do. -/
def deliver (socket : String) : AgentMessage → Call
  | .deviceConnect deviceId => .socket (.deviceConnect socket deviceId)
  | .deviceHeartbeat deviceId => .heartbeat deviceId
  | .challengeResponse challengeId deviceId signature =>
      .verifyResponse challengeId deviceId signature

/-- The operation may write the heartbeat of the device `d`. -/
def Op.Beats (d : String) : Op → Prop
  | .deviceCreate data => data.id = d
  | .deviceUpdate id _ => id = d
  | _ => False

/-- The hub and one agent over a schedule of connects and disconnects, with the time of the last
connect. The clock of the hub tells the time of every step. A message of the agent is handled as
soon as it is sent, and nothing happens while a heartbeat is overdue. The other calls run in any
interleaving, but for those that write the heartbeat of the agent's device: these run alone. -/
inductive Linked (env : Env) (enrollment : Enrollment) :
    HubConfig → WebSocketService → Date → Prop where
  | launch {cfg : HubConfig} : Reachable env cfg → Linked env enrollment cfg .start 0
  | connect {cfg agent since} (socket : String) : Linked env enrollment cfg agent since →
      agent.socket = none →
      Linked env enrollment
        (cfg.sequence (hub env) (.socket (.connection socket) ::
          (agent.onConnected enrollment socket (env.clock cfg.store.steps)).2.map
            (deliver socket)))
        (agent.onConnected enrollment socket (env.clock cfg.store.steps)).1
        (env.clock cfg.store.steps)
  | disconnect {cfg agent since} {socket : String} : Linked env enrollment cfg agent since →
      agent.OnTime (env.clock cfg.store.steps) → agent.socket = some socket →
      Linked env enrollment (cfg.alone (hub env) (.socket (.disconnect socket)))
        agent.onDisconnected since
  | heartbeat {cfg agent since} {socket : String} {timer : Timer} :
      Linked env enrollment cfg agent since → agent.socket = some socket →
      agent.heartbeatTimer = some timer → env.clock cfg.store.steps = timer.due →
      env.rejects (cfg.store.steps + 1) = false →
      Linked env enrollment
        (cfg.sequence (hub env) ((agent.onTimer enrollment).2.map (deliver socket)))
        (agent.onTimer enrollment).1 since
  | alone {cfg agent since} (c : Call) : Linked env enrollment cfg agent since →
      agent.OnTime (env.clock cfg.store.steps) →
      Linked env enrollment (cfg.alone (hub env) c) agent since
  | start {cfg agent since} (c : Call) : Linked env enrollment cfg agent since →
      Linked env enrollment (cfg.start (hub env) c) agent since
  | perform {cfg agent since} {i : Nat} {c : Call} {op : Op}
      {k : Except HubError op.Resp → Service Reply} : Linked env enrollment cfg agent since →
      agent.OnTime (env.clock cfg.store.steps) → cfg.calls[i]? = some (c, .await op k) →
      ¬ op.Beats enrollment.deviceId →
      Linked env enrollment (cfg.perform (hub env) i c op k) agent since

variable {env : Env} {enrollment : Enrollment} {cfg : HubConfig} {agent : WebSocketService}
  {since : Date}

theorem Linked.reachable (h : Linked env enrollment cfg agent since) : Reachable env cfg := by
  induction h with
  | launch h => exact h
  | connect socket _ _ ih => exact reach_sequence _ ih
  | disconnect _ _ _ ih => exact reach_alone _ ih
  | heartbeat _ _ _ _ _ ih => exact reach_sequence _ ih
  | alone c _ _ ih => exact reach_alone c ih
  | start c _ ih => exact .start c ih
  | perform _ _ hcall _ ih => exact .perform ih hcall trivial

/-! ### The recorded heartbeat -/

section Heartbeat

variable {w : World} {d : String} {t : Date} {c : Call} {op : Op}

/-- The device, if it is there, has a heartbeat of the time `t` or later. -/
def World.BeatSince (w : World) (d : String) (t : Date) : Prop :=
  ∀ device, w.devices.find? d = some device → ∃ beat, device.lastHeartbeat = some beat ∧ t ≤ beat

/-- An operation that writes no heartbeat of the device, or a late one. -/
theorem exec_beatSince (h : w.BeatSince d t)
    (hcreate : ∀ data, op = .deviceCreate data → data.id = d → t ≤ data.lastHeartbeat)
    (hupdate : ∀ data, op = .deviceUpdate d data →
      ∃ beat, data.lastHeartbeat = some beat ∧ t ≤ beat) :
    (exec env op w).2.BeatSince d t := by
  intro device hdevice
  have hstep : DeviceStep env w d ⟨op, (exec env op w).1⟩ (some device) := hdevice ▸ exec_device d
  generalize hev : (⟨op, (exec env op w).1⟩ : Event) = ev at hstep
  generalize hnew : some device = new at hstep
  cases hstep with
  | same => exact h device hnew.symm
  | @update data row hrow =>
    cases hnew
    obtain ⟨beat, hbeat, hle⟩ := hupdate data (congrArg Ev.op hev)
    exact ⟨beat, by simp [DeviceUpdate.apply, hbeat], hle⟩
  | @create data hnone hid =>
    cases hnew
    exact ⟨data.lastHeartbeat, rfl, hcreate data (congrArg Ev.op hev) hid.symm⟩
  | @revoke row hrow =>
    cases hnew
    exact h row hrow

/-- An operation of a call that has read the clock since then. -/
theorem alone_beatSince (h : w.BeatSince d t) (ht : t ≤ env.clock w.steps) (c : Call) :
    (aloneStore env c w).BeatSince d t := by
  apply Prog.run_keeps (K := fun w : World => w.BeatSince d t) h
  intro x hx hkept
  obtain ⟨before, after, hlog⟩ := List.append_of_mem hx
  have hlog' : aloneLog env c w = before ++ (x.1, x.2) :: after := hlog
  have hpoint := (alone_point hlog').1
  have hnow : ∀ s, ⟨.now, .ok s⟩ ∈ (before.map Prod.snd).reverse → t ≤ s := by
    intro s hs
    exact Nat.le_trans ht (alone_now hlog' (List.mem_reverse.mp hs))
  apply exec_beatSince hkept
  · intro data hop _
    rw [hop] at hpoint
    obtain ⟨dto, s, -, rfl, hpast⟩ := point_deviceCreate hpoint
    exact hnow s (by simp [hpast])
  · intro data hop
    rw [hop] at hpoint
    have hwrite := point_deviceUpdate hpoint
    generalize (before.map Prod.snd).reverse = past at hwrite hnow
    cases hwrite with
    | @reEnroll dto device s => exact ⟨s, rfl, hnow s (by simp)⟩
    | @heartbeat _ s => exact ⟨s, rfl, hnow s (by simp)⟩

/-- A heartbeat that is not rejected is recorded. -/
theorem exec_beats (h : env.rejects w.steps = false) :
    (exec env (.deviceUpdate d { lastHeartbeat := some t }) w).2.BeatSince d t := by
  intro device hdevice
  rw [exec_accepted (.inr h)] at hdevice
  cases hrow : w.devices.find? d with
  | none =>
    simp only [effect, World.updateDevice, hrow, World.tick] at hdevice
    cases hdevice
  | some row =>
    rw [effect_deviceUpdate hrow] at hdevice
    simp only [World.tick, Table.find?_modify, if_pos, hrow, Option.map_some] at hdevice
    cases hdevice
    exact ⟨t, rfl, Nat.le_refl t⟩

theorem heartbeat_recorded (h : env.rejects (w.steps + 1) = false) :
    (aloneStore env (.heartbeat d) w).BeatSince d (env.clock w.steps) := by
  refine (alone_ends (P := fun _ w' => w'.BeatSince d (env.clock w.steps)) rfl).mpr ?_
  apply Prog.ends_tryCatch
  rw [Prog.ends_map]
  unfold DeviceService.heartbeat
  rw [ends_call (.inl rfl) rfl]
  exact ends_last_call (.deviceUpdate d _) (exec_beats h)

theorem alone_later (c : Call) : w.steps ≤ (aloneStore env c w).steps := by
  apply Prog.run_keeps (K := fun w' : World => w.steps ≤ w'.steps) (Nat.le_refl _)
  intro x _ hle
  rw [exec_steps]
  exact Nat.le_succ_of_le hle

end Heartbeat

/-! ### What the timer tells -/

/-- The timer of a connected agent runs. Either it has not fired on this connection, or the last
heartbeat was recorded a period before it is due. -/
structure Beating (env : Env) (d : String) (w : World) (agent : WebSocketService) (since : Date) :
    Prop where
  running : agent.socket.isSome → agent.heartbeatTimer.isSome
  recorded : ∀ timer, agent.heartbeatTimer = some timer → timer.period = 60 * 1000 ∧
    (timer.due = since + 30 * 1000 ∨
      ∃ beat, timer.due = beat + 60 * 1000 ∧ beat ≤ env.clock w.steps ∧ w.BeatSince d beat)

theorem Beating.later {d : String} {w w' : World} (h : Beating env d w agent since)
    (hsteps : w.steps ≤ w'.steps)
    (hkeep : ∀ t, t ≤ env.clock w.steps → w.BeatSince d t → w'.BeatSince d t) :
    Beating env d w' agent since where
  running := h.running
  recorded := by
    intro timer htimer
    obtain ⟨hperiod, hdue⟩ := h.recorded timer htimer
    refine ⟨hperiod, hdue.imp_right ?_⟩
    rintro ⟨beat, hbeat, hle, hsince⟩
    exact ⟨beat, hbeat, Nat.le_trans hle (env.clock_mono hsteps), hkeep beat hle hsince⟩

/-- When the timer fires, a heartbeat is recorded that is a period older than the next one due. -/
theorem Beating.fired {d : String} {w : World} {timer : Timer} (h : Beating env d w agent since)
    (htimer : agent.heartbeatTimer = some timer) (hdue : env.clock w.steps = timer.due)
    (haccepted : env.rejects (w.steps + 1) = false) :
    Beating env d (aloneStore env (.heartbeat d) w) (agent.onTimer enrollment).1 since := by
  have hnext : (agent.onTimer enrollment).1.heartbeatTimer =
      some { timer with due := timer.due + timer.period } := by
    simp [WebSocketService.onTimer, htimer]
  constructor
  · intro _
    rw [hnext]
    rfl
  · intro timer' htimer'
    obtain rfl := Option.some.inj (hnext.symm.trans htimer')
    obtain ⟨hperiod, -⟩ := h.recorded timer htimer
    refine ⟨hperiod, .inr ⟨timer.due, by rw [hperiod], ?_, ?_⟩⟩
    · rw [← hdue]
      exact env.clock_mono (alone_later _)
    · rw [← hdue]
      exact heartbeat_recorded haccepted

/-- Whatever the schedule is. -/
theorem Linked.beating (h : Linked env enrollment cfg agent since) :
    Beating env enrollment.deviceId cfg.store agent since := by
  induction h with
  | launch _ => exact ⟨fun h => h, fun _ htimer => nomatch htimer⟩
  | connect socket _ _ _ =>
    refine ⟨fun _ => rfl, ?_⟩
    rintro timer ⟨⟩
    exact ⟨rfl, .inl rfl⟩
  | disconnect _ _ _ _ => exact ⟨fun h => (nomatch h), fun _ htimer => nomatch htimer⟩
  | @heartbeat cfg agent since socket timer _ hsocket htimer hdue haccepted ih =>
    have hmessages : (agent.onTimer enrollment).2 = [.deviceHeartbeat enrollment.deviceId] := by
      simp [WebSocketService.onTimer, hsocket]
    have hstore : (cfg.sequence (hub env)
        ((agent.onTimer enrollment).2.map (deliver socket))).store =
          aloneStore env (.heartbeat enrollment.deviceId) cfg.store := by
      rw [hmessages]
      rfl
    rw [hstore]
    exact ih.fired htimer hdue haccepted
  | alone c _ _ ih => exact ih.later (alone_later c) fun t ht hsince => alone_beatSince hsince ht c
  | start c _ ih => exact ih
  | @perform cfg agent since i c op k _ _ _ hquiet ih =>
    refine ih.later ?_ fun t _ hsince => ?_
    · exact Nat.le_of_lt (Nat.lt_of_lt_of_eq (Nat.lt_succ_self _) exec_steps.symm)
    · apply exec_beatSince hsince
      · rintro data rfl hid
        exact absurd hid hquiet
      · rintro data rfl
        exact absurd rfl hquiet

/-- An agent that has been connected for more than 30 seconds has a heartbeat of the last minute
recorded. -/
theorem Linked.recent (h : Linked env enrollment cfg agent since) {socket : String}
    (hsocket : agent.socket = some socket) (hontime : agent.OnTime (env.clock cfg.store.steps))
    (hlong : since + 30 * 1000 < env.clock cfg.store.steps) :
    ∃ beat, env.clock cfg.store.steps ≤ beat + 60 * 1000 ∧
      cfg.store.BeatSince enrollment.deviceId beat := by
  obtain ⟨hrunning, hrecorded⟩ := h.beating
  obtain ⟨timer, htimer⟩ := Option.isSome_iff_exists.mp (hrunning (by rw [hsocket]; rfl))
  have hle := hontime timer htimer
  obtain ⟨-, hdue | ⟨beat, hdue, -, hsince⟩⟩ := hrecorded timer htimer
  · rw [hdue] at hle
    exact absurd hlong (Nat.not_lt.mpr hle)
  · rw [hdue] at hle
    exact ⟨beat, hle, hsince⟩

/-- So the policy finds it fresh for another four minutes. -/
theorem Linked.fresh (h : Linked env enrollment cfg agent since) {socket : String}
    (hsocket : agent.socket = some socket) (hontime : agent.OnTime (env.clock cfg.store.steps))
    (hlong : since + 30 * 1000 < env.clock cfg.store.steps) {device : Device}
    (hfound : cfg.store.devices.find? enrollment.deviceId = some device) {judged : Date}
    (hsoon : judged ≤ env.clock cfg.store.steps + 4 * 60 * 1000) :
    PolicyService.Fresh device.lastHeartbeat judged := by
  obtain ⟨beat, hrecent, hsince⟩ := h.recent hsocket hontime hlong
  obtain ⟨t, ht, hle⟩ := hsince device hfound
  intro t' ht'
  obtain rfl := Option.some.inj (ht.symm.trans ht')
  unfold PolicyService.heartbeatStaleMs
  unfold Date at *
  omega

/-! ### Answers -/

/-- A valid answer to the challenge `record`, handled alone from `w` on: the device is ACTIVE, the
signature is valid under its key, and `expires_at` has not passed. No store call is rejected. -/
structure ValidAnswer (env : Env) (w : World) (record : ChallengeRecord) (device : Device)
    (signature : String) : Prop where
  found : w.devices.find? record.deviceId = some device
  active : device.status = .active
  valid :
    env.verify device.publicKeyPem (ChallengeService.signedMaterial record) signature = .ok true
  inTime : env.clock (w.steps + 1) ≤ record.expiresAt
  accepted : ∀ k ∈ [0, 2, 3, 6, 7], env.rejects (w.steps + k) = false

variable {later older : Trace} {s : HubEntry} {cid signature : String} {record : ChallengeRecord}
  {ttl : Nat} {device : Device}

/-- The clock is read for `expires_at` before the challenge is stored. -/
theorem challenge_expiry (reach : Reachable env cfg) (ht : cfg.trace = later ++ s :: older)
    (hs : s.ev = ⟨.redisSet (.challenge cid) record ttl, .ok ()⟩) :
    record.expiresAt ≤ env.clock s.before.steps + 10000 := by
  obtain ⟨t, hnow, hexpires⟩ := (hub_set reach ht (congrArg Ev.op hs)).challenge_clock
  obtain ⟨pre, -, hpre, rfl, hstore, -⟩ := reach.cut ht
  obtain ⟨e, he, -, hread⟩ := hub_did_own hpre hnow
  have hlt := (hpre.steps World.steps fun _ _ => exec_steps).2 e he
  rw [hexpires, exec_now_ok hread, ← hstore]
  exact Nat.add_le_add_right (env.clock_mono (Nat.le_of_lt hlt)) _

/-- So a valid answer comes before Redis drops the challenge. -/
theorem valid_alive (reach : Reachable env cfg) (ht : cfg.trace = later ++ s :: older)
    (hs : s.ev = ⟨.redisSet (.challenge cid) record ttl, .ok ()⟩)
    (h : ValidAnswer env cfg.store record device signature) :
    env.clock cfg.store.steps ≤ env.clock s.before.steps + 15000 := by
  have hexpiry := challenge_expiry reach ht hs
  have hreceived := env.clock_mono (Nat.le_add_right cfg.store.steps 1)
  have hinTime := h.inTime
  unfold Date at *
  omega

/-- The heartbeat of its device decides on a valid answer. -/
theorem valid_verdict (h : ValidAnswer env cfg.store record device signature) :
    responseValid env record device signature = true ∧
      let status := (answerResult env cfg.store record device signature).status
      let fresh := PolicyService.Fresh device.lastHeartbeat (env.clock (cfg.store.steps + 4))
      (status = .verified ↔ fresh) ∧ (status = .stale ↔ ¬ fresh) := by
  have hvalid : responseValid env record device signature = true := by
    unfold responseValid checkSignature
    rw [h.valid]
  have hexpired : decide (env.clock (cfg.store.steps + 1) > record.expiresAt) = false :=
    decide_eq_false (Nat.not_lt.mpr h.inTime)
  exact ⟨hvalid, PolicyService.evaluate_by_heartbeat h.active hexpired hvalid rfl⟩

/-- A connected agent answers a challenge of its device, whatever the schedule was: the verdict is
VERIFIED if the last heartbeat is five minutes old at most, and STALE otherwise. Once the
connection is more than 30 seconds old, an answer that is judged within four minutes is
VERIFIED. -/
theorem live_answer (h : Linked env enrollment cfg agent since) {socket : String}
    (hsocket : agent.socket = some socket) (hontime : agent.OnTime (env.clock cfg.store.steps))
    (hdevice : record.deviceId = enrollment.deviceId) (ht : cfg.trace = later ++ s :: older)
    (hs : s.ev = ⟨.redisSet (.challenge cid) record ttl, .ok ()⟩)
    (hothers : ∀ x ∈ later, ∀ signature, x.call ≠ .verifyResponse cid record.deviceId signature)
    (hanswer : ValidAnswer env cfg.store record device signature) :
    let answer : Call := .verifyResponse cid record.deviceId signature
    let received := env.clock cfg.store.steps
    let judged := env.clock (cfg.store.steps + 4)
    ∃ status reason,
      (cfg.alone (hub env) answer).calls[cfg.calls.length]? =
        some (answer, .done (.ok (.verified ⟨true, status, reason⟩))) ∧
      (cfg.alone (hub env) answer).store.statusOf record.participantId = some status ∧
      (status = .verified ↔ PolicyService.Fresh device.lastHeartbeat judged) ∧
      (status = .stale ↔ ¬ PolicyService.Fresh device.lastHeartbeat judged) ∧
      (since + 30 * 1000 < received → judged ≤ received + 4 * 60 * 1000 → status = .verified) := by
  intro answer received judged
  have reach := h.reachable
  obtain ⟨hvalid, hverified, hstale⟩ := valid_verdict hanswer
  obtain ⟨hreply, hstatus⟩ := issued_verdict reach ht hs (kept_unless_named reach ht hs hothers)
    hanswer.found (valid_alive reach ht hs hanswer) hanswer.accepted hvalid
  refine ⟨_, (answerResult env cfg.store record device signature).reason, ?_, hstatus, hverified,
    hstale, ?_⟩
  · rw [← hreply]
    exact List.getElem?_concat_length
  · intro hlong hsoon
    exact hverified.mpr (h.fresh hsocket hontime hlong (hdevice ▸ hanswer.found) hsoon)

section Sample

/-- The calls of a connect of alice's laptop. -/
def connects (socket : String) : List Call :=
  [.socket (.connection socket), .socket (.deviceConnect socket "laptop-1")]

/-- In the world `w` the device of the challenge is ACTIVE, with the key `publicKeyPem`, and the
challenge has not expired. -/
def answerableAt (env : Env) (record : ChallengeRecord) (publicKeyPem : String) (w : World) :
    Bool :=
  (w.devices.find? record.deviceId).any (fun device =>
    device.publicKeyPem = publicKeyPem && device.status = .active) &&
  decide (env.clock (w.steps + 1) ≤ record.expiresAt)

theorem valid_of_answerableAt {jump late : Nat} {publicKeyPem : String} {w : World}
    (h : answerableAt (Sample.env jump late) record publicKeyPem w = true) :
    ∃ device, ValidAnswer (Sample.env jump late) w record device
      (Sample.sign publicKeyPem (ChallengeService.signedMaterial record)) := by
  obtain ⟨hdevice, hinTime⟩ := Bool.and_eq_true_iff.mp h
  obtain ⟨device, hfound, hfields⟩ := (Option.any_eq_true _ _).mp hdevice
  simp only [Bool.and_eq_true, decide_eq_true_eq] at hfields
  obtain ⟨rfl, hactive⟩ := hfields
  exact ⟨device, hfound, hactive, Sample.verify_sign _ _ _ _, of_decide_eq_true hinTime,
    fun _ _ => rfl⟩

/-- The event belongs to an answer. -/
def isAnswer (e : HubEntry) : Bool :=
  match e.call with
  | .verifyResponse _ _ _ => true
  | _ => false

/-- A heartbeat is due at step 22. -/
def steady : Env := Sample.env 22 29100

/-- Alice's laptop connects and is bound; after its first heartbeat it is challenged. -/
def steadyRun : HubConfig :=
  Sample.run steady (Sample.setUp ++ connects "socket-1" ++
    [Sample.bind steady 10 (Sample.uuid 4) (Sample.uuid 7) "laptop-1" "pem-1",
      .heartbeat "laptop-1", .issueChallenge (Sample.uuid 4)])

def steadyChallenge : ChallengeRecord :=
  Sample.record steady 26 "tenant-acme" (Sample.uuid 4) (Sample.uuid 7) "laptop-1" "alice"

theorem steady_linked : ∃ agent, Linked steady aliceEnrollment steadyRun agent (steady.clock 13) ∧
    agent.socket = some "socket-1" ∧ agent.OnTime (steady.clock steadyRun.store.steps) := by
  have hlaunch : Linked steady aliceEnrollment _ .start 0 :=
    .launch (Sample.run_reachable steady Sample.setUp)
  have hsteps : (Sample.run steady Sample.setUp).store.steps = 13 := by decide +kernel
  have hconnect := hlaunch.connect "socket-1" rfl
  rw [hsteps] at hconnect
  have hbind := hconnect.alone (Sample.bind steady 10 (Sample.uuid 4) (Sample.uuid 7) "laptop-1"
    "pem-1") (by rintro timer ⟨⟩; decide +kernel)
  have hbeat := hbind.heartbeat rfl rfl (by decide +kernel) rfl
  have hissue := hbeat.alone (.issueChallenge (Sample.uuid 4)) (by rintro timer ⟨⟩; decide +kernel)
  refine ⟨_, hissue, rfl, ?_⟩
  rintro timer ⟨⟩
  decide +kernel

theorem steady_stored : ∃ later s older, steadyRun.trace = later ++ s :: older ∧
    s.ev = ⟨.redisSet (.challenge steadyChallenge.challengeId) steadyChallenge 15, .ok ()⟩ ∧
    ∀ x ∈ later, isAnswer x = false := by
  have hany : (steadyRun.trace.find? fun e =>
      Sample.storesChallenge steadyChallenge e || isAnswer e).any
        (Sample.storesChallenge steadyChallenge) = true := by decide +kernel
  obtain ⟨later, s, older, ht, hs, hquiet⟩ := Sample.exists_event_quiet hany
  exact ⟨later, s, older, ht, Sample.ev_of_storesChallenge hs, hquiet⟩

/-- The answer comes after more than 30 seconds. -/
theorem live_answer_sample : ∃ agent, Linked steady aliceEnrollment steadyRun agent
      (steady.clock 13) ∧
    ∃ reason, (steadyRun.alone (hub steady) (Sample.answer steadyChallenge "pem-1")).calls[
        steadyRun.calls.length]? = some (Sample.answer steadyChallenge "pem-1",
          .done (.ok (.verified ⟨true, .verified, reason⟩))) := by
  obtain ⟨agent, hlinked, hsocket, hontime⟩ := steady_linked
  obtain ⟨later, s, older, ht, hs, hquiet⟩ := steady_stored
  have hanswerable : answerableAt steady steadyChallenge "pem-1" steadyRun.store = true := by
    decide +kernel
  have hlong : steady.clock 13 + 30 * 1000 < steady.clock steadyRun.store.steps := by
    decide +kernel
  have hsoon : steady.clock (steadyRun.store.steps + 4) ≤
      steady.clock steadyRun.store.steps + 4 * 60 * 1000 := by decide +kernel
  obtain ⟨device, hvalid⟩ := valid_of_answerableAt hanswerable
  have hothers : ∀ x ∈ later, ∀ signature,
      x.call ≠ .verifyResponse steadyChallenge.challengeId steadyChallenge.deviceId signature := by
    intro x hx signature hcall
    have hanswer := hquiet x hx
    unfold isAnswer at hanswer
    rw [hcall] at hanswer
    cases hanswer
  obtain ⟨status, reason, hreply, -, -, -, hverified⟩ :=
    live_answer hlinked hsocket hontime rfl ht hs hothers hvalid
  rw [hverified hlong hsoon] at hreply
  exact ⟨agent, hlinked, reason, hreply⟩

/-- From step 23 on it is 400 seconds later. -/
def outage : Env := Sample.env 23 400000

/-- Alice's laptop connects, is bound and disconnects. After the outage it is back, and
challenged. -/
def outageRun : HubConfig :=
  Sample.run outage (Sample.setUp ++ connects "socket-1" ++
    [Sample.bind outage 10 (Sample.uuid 4) (Sample.uuid 7) "laptop-1" "pem-1",
      .socket (.disconnect "socket-1")] ++ connects "socket-2" ++
    [.issueChallenge (Sample.uuid 4)])

def outageChallenge : ChallengeRecord :=
  Sample.record outage 27 "tenant-acme" (Sample.uuid 4) (Sample.uuid 7) "laptop-1" "alice"

theorem outage_linked : ∃ agent since, Linked outage aliceEnrollment outageRun agent since ∧
    agent.socket = some "socket-2" ∧ agent.OnTime (outage.clock outageRun.store.steps) := by
  have hlaunch : Linked outage aliceEnrollment _ .start 0 :=
    .launch (Sample.run_reachable outage Sample.setUp)
  have hconnect := hlaunch.connect "socket-1" rfl
  have hbind := hconnect.alone (Sample.bind outage 10 (Sample.uuid 4) (Sample.uuid 7) "laptop-1"
    "pem-1") (by rintro timer ⟨⟩; decide +kernel)
  have hgone := hbind.disconnect (by rintro timer ⟨⟩; decide +kernel) rfl
  have hback := hgone.connect "socket-2" rfl
  have hissue := hback.alone (.issueChallenge (Sample.uuid 4)) (by rintro timer ⟨⟩; decide +kernel)
  refine ⟨_, _, hissue, rfl, ?_⟩
  rintro timer ⟨⟩
  decide +kernel

/-- The agent is connected and registered, the challenge has come in on its connection, its answer
is valid and in time, and the verdict is STALE. -/
theorem live_agent_stale : ∃ agent since device,
    Linked outage aliceEnrollment outageRun agent since ∧
    agent.socket = some "socket-2" ∧ agent.OnTime (outage.clock outageRun.store.steps) ∧
    Gateway.mapGet outageRun.store.gateway.deviceSockets "laptop-1" = some "socket-2" ∧
    ("socket-2", .challengeIssue outageChallenge.toChallengePayload) ∈
      outageRun.store.gateway.sent ∧
    (WebSocketService.onChallengeIssue aliceEnrollment (Sample.sign "pem-1")
      outageChallenge.toChallengePayload.message).map (deliver "socket-2") =
        [Sample.answer outageChallenge "pem-1"] ∧
    ValidAnswer outage outageRun.store outageChallenge device
      (Sample.sign "pem-1" (ChallengeService.signedMaterial outageChallenge)) ∧
    aloneResult outage (Sample.answer outageChallenge "pem-1") outageRun.store =
      .ok (.verified ⟨true, .stale, "Device heartbeat stale (404s ago)"⟩) ∧
    (outageRun.alone (hub outage) (Sample.answer outageChallenge "pem-1")).store.statusOf
      (Sample.uuid 7) = some .stale := by
  obtain ⟨agent, since, hlinked, hsocket, hontime⟩ := outage_linked
  have hanswerable : answerableAt outage outageChallenge "pem-1" outageRun.store = true := by
    decide +kernel
  obtain ⟨device, hvalid⟩ := valid_of_answerableAt hanswerable
  refine ⟨agent, since, device, hlinked, hsocket, hontime, ?_, ?_, ?_, hvalid, ?_, ?_⟩
  all_goals decide +kernel

end Sample

end TroofAI.Hub
