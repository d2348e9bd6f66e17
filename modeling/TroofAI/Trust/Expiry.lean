import TroofAI.History.Bindings
import TroofAI.History.Alone
import TroofAI.Hub.Sample

/-!
The two expiries of a join token.

`issueJoinToken` reads the clock for `expires_at`, which the device signs, and Redis counts the
30 seconds of the key from the moment the SET takes effect. `bindDevice` looks at the second
only. So a token can be honoured after it has expired, for as long as the SET came after the
reading of the clock and no longer (`token_expiry`).
-/

namespace TroofAI.Hub

open TroofAI.Await MeetingService

variable {env : Env} {cfg : HubConfig} {token : String} {parsed : JoinToken} {deadline : Nat}

/-- Whatever hub holds the token in Redis and whenever it handles a bind with it, the bind is
accepted only if the token is read no later than its `expires_at`. -/
def HonouredInTime (token : String) (parsed : JoinToken) (deadline : Nat) : Prop :=
  ∀ (env : Env) (w : World) (meetingId deviceId signature : String) (device : Device),
    w.redis.entry (.joinToken token) = some (parsed, deadline) →
    BindsAlone env w meetingId token deviceId signature parsed device →
    env.clock w.steps ≤ parsed.expiresAt

section Late

/-- A hub at the instant `now` that takes every signature for valid. -/
def lenient (env : Env) (now : Date) : Env :=
  { env with
    clock := fun _ => now
    clock_mono := monotone_const
    rejects := fun _ => false
    verify := fun _ _ _ => .ok true }

/-- The token's participant, and a device. -/
def tokenWorld (token : String) (parsed : JoinToken) (deadline : Nat) : World :=
  { World.init .empty with
    devices := ⟨[⟨"laptop-1", "", "", "", "", "", false, .active, none, 0⟩], by simp⟩
    participants := ⟨[⟨parsed.participantId, parsed.meetingId, "", none, "", .unknown, none, 0,
      none, none⟩], by simp⟩
    redis := Expiring.empty.set (.joinToken token) parsed deadline }

/-- A token that is still there can be honoured. -/
theorem lenient_binds (env : Env) {now : Date} (h : now ≤ deadline) :
    ∃ device, BindsAlone (lenient env now) (tokenWorld token parsed deadline) parsed.meetingId token
      "laptop-1" "" parsed device := by
  refine ⟨_, ?_, rfl, rfl, rfl, ?_, fun _ _ => rfl⟩
  · exact Expiring.get_eq_some.mpr ⟨deadline, Expiring.set_entry_self .., h⟩
  · simp [tokenWorld, Table.find?]

end Late

theorem honouredInTime_iff (env : Env) :
    HonouredInTime token parsed deadline ↔ deadline ≤ parsed.expiresAt := by
  constructor
  · intro h
    obtain ⟨device, hbinds⟩ := @lenient_binds token parsed deadline env _ (Nat.le_refl deadline)
    exact h _ _ _ _ _ _ (Expiring.set_entry_self ..) hbinds
  · intro hle env w meetingId deviceId signature device hentry hbinds
    obtain ⟨deadline', hentry', hlive⟩ := Expiring.get_eq_some.mp hbinds.live
    rw [hentry] at hentry'
    cases hentry'
    exact Nat.le_trans hlive hle

/-- `issueJoinToken` reads the clock right before it stores the token. -/
theorem token_computed (reach : Reachable env cfg) {later older : Trace} {s : HubEntry} {ttl : Nat}
    (ht : cfg.trace = later ++ s :: older)
    (hs : s.ev = ⟨.redisSet (.joinToken token) parsed ttl, .ok ()⟩) :
    ∃ between c rest, older = between ++ c :: rest ∧ c.id = s.id ∧
      c.ev = ⟨.now, .ok (env.clock c.before.steps)⟩ ∧
      parsed.expiresAt = env.clock c.before.steps + 30000 ∧
      env.clock c.before.steps ≤ env.clock s.before.steps := by
  have hset := hub_set reach ht (congrArg Ev.op hs)
  generalize s.call = call at hset
  generalize hown : own s.id older = past at hset
  cases hset with
  | @joinToken meetingId participantId p _ t =>
    have hclock : own s.id older = [] ++ _ :: _ := hown
    obtain ⟨between, c, rest, rfl, hid, hc, -⟩ := own_split hclock
    have hnow := exec_now_ok (hub_did reach (ht ▸ by simp) hc)
    subst hnow
    have horder := (reach.steps World.steps fun _ _ => exec_steps).1
    rw [ht] at horder
    have hbefore := (List.pairwise_cons.mp (List.pairwise_append.mp horder).2.1).1 c (by simp)
    exact ⟨between, c, rest, rfl, hid, hc, rfl, env.clock_mono (Nat.le_of_lt hbefore)⟩

/-- A stored join token: `issueJoinToken` computed its expiry at the event `c` and stored it at
the event `s`. As long as it has not been used, it is there up to its expiry; it is read no later
after its expiry than `s` came after `c`; and it is honoured in time, whatever hub reads it when,
exactly if `s` came at the very instant of `c`. -/
theorem token_expiry (reach : Reachable env cfg) {later older : Trace} {s : HubEntry} {ttl : Nat}
    (ht : cfg.trace = later ++ s :: older)
    (hs : s.ev = ⟨.redisSet (.joinToken token) parsed ttl, .ok ()⟩) :
    ∃ between c rest, older = between ++ c :: rest ∧ c.id = s.id ∧
      c.ev = ⟨.now, .ok (env.clock c.before.steps)⟩ ∧
      parsed.expiresAt = env.clock c.before.steps + 30000 ∧
      ((∀ x ∈ later, x.ev ≠ ⟨.redisDel (.joinToken token), .ok ()⟩) →
        ∀ r, r ≤ parsed.expiresAt → cfg.store.redis.get r (.joinToken token) = some parsed) ∧
      (∀ g ∈ cfg.trace, ∀ read : JoinToken,
        g.ev = ⟨.redisGet (.joinToken token), .ok (some read)⟩ → read = parsed ∧
          env.clock g.before.steps ≤ parsed.expiresAt +
            (env.clock s.before.steps - env.clock c.before.steps)) ∧
      (HonouredInTime token parsed (env.clock s.before.steps + 30000) ↔
        env.clock s.before.steps = env.clock c.before.steps) := by
  have hmem : s ∈ cfg.trace := by simp [ht]
  have hissued := (stored_token reach ht hs).event
  obtain rfl : ttl = 30 := by
    rw [hs] at hissued
    cases hissued
    rfl
  obtain ⟨between, c, rest, hcut, hid, hc, hexpires, hle⟩ := token_computed reach ht hs
  refine ⟨between, c, rest, hcut, hid, hc, hexpires, ?_, ?_, ?_⟩
  · intro hkept r hr
    refine Expiring.get_eq_some.mpr ⟨_, record_kept reach ht hs hkept, ?_⟩
    unfold Date at *
    omega
  · intro g hg read hget
    refine ⟨read_record reach hmem (congrArg Ev.op hs) hg hget, ?_⟩
    obtain ⟨newer, earlier, htg⟩ := List.append_of_mem hg
    obtain ⟨since, s', older', deadline, rfl, hstored, hlive⟩ := read_stored reach htg hget
    obtain ⟨ttl', hs', rfl⟩ := hstored.ev
    -- the record was stored once
    obtain rfl : s' = s := (redis_set_once reach _).eq (htg ▸ by simp) hmem
      ⟨_, ttl', congrArg Ev.op hs'⟩ ⟨_, 30, congrArg Ev.op hs⟩
    obtain rfl : ttl' = 30 := by
      rw [hs] at hs'
      cases hs'
      rfl
    unfold Date at *
    omega
  · rw [honouredInTime_iff env]
    unfold Date at *
    omega

section Sample

/-- The clock jumps over the expiry of the token, to a moment before Redis drops it. -/
def tardy : Env := Sample.env 13 29850

/-- The newest event has stored the token. -/
def justStored (token : String) (trace : Trace) : Bool :=
  trace.head?.any fun e => Sample.storesToken token e && e.ev.res.isOk

theorem trace_of_justStored {trace : Trace} (h : justStored token trace = true) :
    ∃ s older parsed ttl, trace = [] ++ s :: older ∧
      s.ev = ⟨.redisSet (.joinToken token) parsed ttl, .ok ()⟩ := by
  obtain ⟨s, hhead, hs⟩ := (Option.any_eq_true _ _).mp h
  obtain ⟨older, rfl⟩ := List.head?_eq_some_iff.mp hhead
  obtain ⟨hop, hres⟩ := Bool.and_eq_true_iff.mp hs
  obtain ⟨parsed, ttl, hop⟩ := Sample.op_of_storesToken hop
  obtain ⟨id, c, before, op, res⟩ := s
  obtain rfl : op = _ := hop
  cases res with
  | ok u => exact ⟨_, older, parsed, ttl, rfl, rfl⟩
  | error e => cases hres

/-- Alice's join token is there up to its expiry. -/
theorem token_expiry_sample : ∃ cfg parsed, Reachable (Sample.env 0 0) cfg ∧
    ∀ r, r ≤ parsed.expiresAt →
      cfg.store.redis.get r (.joinToken (Sample.uuid 10)) = some parsed := by
  have hrun := Sample.run_reachable (Sample.env 0 0) Sample.setUp
  have hstored : justStored (Sample.uuid 10) (Sample.run (Sample.env 0 0) Sample.setUp).trace =
      true := by decide +kernel
  generalize Sample.run (Sample.env 0 0) Sample.setUp = cfg at hrun hstored
  obtain ⟨s, older, parsed, ttl, ht, hs⟩ := trace_of_justStored hstored
  obtain ⟨_, _, _, -, -, -, -, hpresent, -⟩ := token_expiry hrun ht hs
  exact ⟨cfg, parsed, hrun, hpresent (by simp)⟩

/-- The reply is a participant's row. -/
def isParticipant (reply : Except HubError Reply) : Bool :=
  match reply with
  | .ok (.participant _) => true
  | _ => false

theorem eq_of_isParticipant {reply : Except HubError Reply} (h : isParticipant reply = true) :
    ∃ row, reply = .ok (.participant row) := by
  unfold isParticipant at h
  split at h
  · next row => exact ⟨row, rfl⟩
  · cases h

/-- A bind is accepted although its token had expired when it was read. -/
theorem expired_token_honoured : ∃ cfg parsed row, Reachable tardy cfg ∧
    cfg.store.redis.get (tardy.clock cfg.store.steps) (.joinToken (Sample.uuid 10)) =
      some parsed ∧
    parsed.expiresAt < tardy.clock cfg.store.steps ∧
    aloneResult tardy (Sample.bind tardy 10 (Sample.uuid 4) (Sample.uuid 7) "laptop-1" "pem-1")
      cfg.store = .ok (.participant row) := by
  have hrun := Sample.run_reachable tardy Sample.setUp
  have hlive : ((Sample.run tardy Sample.setUp).store.redis.get
      (tardy.clock (Sample.run tardy Sample.setUp).store.steps)
      (.joinToken (Sample.uuid 10))).any
        (fun parsed => decide (parsed.expiresAt <
          tardy.clock (Sample.run tardy Sample.setUp).store.steps)) = true := by decide +kernel
  have hbound : isParticipant (aloneResult tardy
      (Sample.bind tardy 10 (Sample.uuid 4) (Sample.uuid 7) "laptop-1" "pem-1")
      (Sample.run tardy Sample.setUp).store) = true := by decide +kernel
  generalize Sample.run tardy Sample.setUp = cfg at hrun hlive hbound
  obtain ⟨parsed, hget, hlate⟩ := (Option.any_eq_true _ _).mp hlive
  obtain ⟨row, hrow⟩ := eq_of_isParticipant hbound
  exact ⟨cfg, parsed, row, hrun, hget, of_decide_eq_true hlate, hrow⟩

end Sample

end TroofAI.Hub
