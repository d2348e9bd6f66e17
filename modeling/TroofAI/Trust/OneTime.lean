import TroofAI.History.Bindings
import TroofAI.Hub.Sample

/-!
One-time use of challenges and join tokens.

Both are read with `redis.get` and deleted with a later `redis.del`; between the two the
call looks up the device and checks a signature. Calls that overlap there all go on
(`replayed_verdict`, `double_bind`). `NoOverlap` forbids just that: a call reads a live
record while another one that goes on with it has read it and not deleted it yet. In runs
without overlap a key is deleted at most once (`deleted_once`), and everything a call does
after its deletion inherits that.
-/

namespace TroofAI.Hub

open TroofAI.Await MeetingService ChallengeService

/-- The call goes on when it reads `value` under `key`: a bind in the token's meeting, an
answer by the device that was challenged. -/
def Call.Presents : Call → (key : RedisKey) → key.Value → Prop
  | .bindDevice meetingId joinToken _ _, .joinToken token, parsed =>
      joinToken = token ∧ parsed.meetingId = meetingId
  | .verifyResponse challengeId deviceId _, .challenge cid, challenge =>
      challengeId = cid ∧ challenge.deviceId = deviceId
  | _, _, _ => False

/-- Call `j` has read `value` under `key`, goes on with it, and has not deleted it yet. -/
def Using (cfg : HubConfig) (j : Nat) (key : RedisKey) (value : key.Value) : Prop :=
  ∃ c op k, cfg.calls[j]? = some (c, .await op k) ∧ c.Presents key value ∧
    ⟨.redisGet key, .ok (some value)⟩ ∈ own j cfg.trace ∧
    ⟨.redisDel key, .ok ()⟩ ∉ own j cfg.trace

/-- Call `i` may perform `op`: unless it reads a live record under `key` and goes on with it
while another call is using it. -/
def NoOverlap (env : Env) (key : RedisKey) (cfg : HubConfig) (i : Nat) (op : Op) : Prop :=
  ∀ c p value, op = .redisGet key → cfg.calls[i]? = some (c, p) →
    cfg.store.redis.get (env.clock cfg.store.steps) key = some value → c.Presents key value →
    ∀ j, ¬ Using cfg j key value

/-- How many events a call has performed when it deletes `key`. -/
def RedisKey.deletedAfter : RedisKey → Nat
  | .challenge _ => 3
  | .joinToken _ => 2

variable {env : Env} {key : RedisKey} {cfg : HubConfig}

theorem RedisDel.length {c : Call} {past : List Event} (h : RedisDel env c past key) :
    past.length = key.deletedAfter := by
  cases h with
  | bind hacc =>
    rw [hacc.past_eq]
    rfl
  | verify hacc =>
    rw [hacc.past_eq]
    rfl

theorem RedisDel.presents {c : Call} {past : List Event} (h : RedisDel env c past key) :
    ∃ value, c.Presents key value ∧ ⟨.redisGet key, .ok (some value)⟩ ∈ past := by
  cases h with
  | @bind _ _ _ _ parsed _ _ hacc =>
    refine ⟨parsed, ⟨rfl, hacc.meeting⟩, ?_⟩
    rw [hacc.past_eq]
    simp
  | @verify _ _ _ challenge _ _ _ hacc =>
    refine ⟨challenge, ⟨rfl, hacc.device_eq⟩, ?_⟩
    rw [hacc.past_eq]
    simp

/-- A call that deletes a key has read it, and goes on with what it read. -/
theorem del_presents {ok : HubConfig → Nat → Op → Prop} {init : World → Prop}
    (reach : Reach (hub env) ok init cfg) {d : HubEntry} (hd : d ∈ cfg.trace)
    (hev : d.ev = ⟨.redisDel key, .ok ()⟩) :
    ∃ g ∈ cfg.trace, ∃ value, g.id = d.id ∧ g.ev = ⟨.redisGet key, .ok (some value)⟩ ∧
      g.call.Presents key value := by
  obtain ⟨later, earlier, ht⟩ := List.append_of_mem hd
  obtain ⟨value, hpresents, hget⟩ := (hub_del reach ht (congrArg Ev.op hev)).presents
  obtain ⟨g, hg, hid, hgev⟩ := mem_own.mp hget
  have hmem : g ∈ cfg.trace := by
    rw [ht]
    simp [hg]
  refine ⟨g, hmem, value, hid, hgev, ?_⟩
  rwa [reach.same_call hmem hd hid]

/-- Without overlap, no call reads the key between the read and the deletion of another. -/
theorem no_read_between {later between earlier : Trace} {g g' d : HubEntry}
    {value value' : key.Value} (reach : Reach (hub env) (NoOverlap env key) World.IsInit cfg)
    (ht : cfg.trace = later ++ g :: (between ++ g' :: earlier))
    (hg : g.ev = ⟨.redisGet key, .ok (some value)⟩) (hgp : g.call.Presents key value)
    (hg' : g'.ev = ⟨.redisGet key, .ok (some value')⟩) (hgp' : g'.call.Presents key value')
    (hd : d ∈ later) (hid : d.id = g'.id) : False := by
  obtain ⟨pre, k, hpre, htrace, hstore, hcall, -, hok, hdone⟩ := reach.cut_done ht
  have hlive := exec_redisGet_ok (hub_did reach (ht ▸ by simp) hg)
  have hlive' := exec_redisGet_ok (hub_did reach (ht ▸ by simp) hg')
  -- both have read the one record that is ever stored under the key
  have hvalue : value' = value := by
    obtain ⟨since, s, older, _, rfl, hstored, -⟩ :=
      read_stored reach (show cfg.trace = (later ++ g :: between) ++ g' :: earlier by simp [ht]) hg'
    obtain ⟨ttl, hs, -⟩ := hstored.ev
    exact (read_record reach (by simp [ht]) (congrArg Ev.op hs) (by simp [ht]) hg).symm
  subst hvalue
  rw [hg] at hok
  rw [← hstore] at hlive
  refine hok g.call _ value' rfl hcall hlive hgp g'.id ?_
  -- the other call has read the record, and goes on later to delete it
  have hmem' : g' ∈ pre.trace := by simp [htrace]
  obtain ⟨p, hp⟩ := hpre.entry_call g' hmem'
  cases p with
  | done r => exact absurd hid ((hdone _ _ _ hp).2 d hd)
  | await op k' =>
    refine ⟨g'.call, op, k', hp, hgp', mem_own.mpr ⟨g', hmem', rfl, hg'⟩, fun hdel => ?_⟩
    obtain ⟨d', hd', -, hdev⟩ := mem_own.mp hdel
    obtain ⟨l, l', hl⟩ := List.append_of_mem hd'
    rw [htrace] at hl
    rw [hl] at ht
    exact not_read_after_del reach ht hg hdev

/-- Without overlap, a key is deleted at most once. -/
theorem deleted_once (reach : Reach (hub env) (NoOverlap env key) World.IsInit cfg) :
    AtMostOnce (fun e => e.ev = ⟨.redisDel key, .ok ()⟩) cfg.trace := by
  apply atMostOnce_of_length key.deletedAfter
  · intro later d earlier ht hd
    exact (hub_del reach ht (congrArg Ev.op hd)).length
  · intro d hd d' hd' hdev hdev'
    by_contra hne
    obtain ⟨g, hg, value, hid, hgev, hgp⟩ := del_presents reach hd hdev
    obtain ⟨g', hg', value', hid', hgev', hgp'⟩ := del_presents reach hd' hdev'
    obtain ⟨later, earlier, ht⟩ := List.append_of_mem hg
    obtain ⟨later', earlier', ht'⟩ := List.append_of_mem hg'
    -- the call that read first deletes after the other's read
    rcases split_cases (ht.symm.trans ht') with ⟨m, rfl, rfl⟩ | ⟨-, rfl, -⟩ | ⟨m, rfl, rfl⟩
    · have hafter := del_after_read reach ht' hgev' hd hdev
      exact no_read_between reach ht' hgev' hgp' hgev hgp hafter hid.symm
    · exact hne (hid.symm.trans hid')
    · have hafter := del_after_read reach ht hgev hd' hdev'
      exact no_read_between reach ht hgev hgp hgev' hgp' hafter hid'.symm

/-- Without overlap, what a call does at a fixed time after it has deleted the key happens
at most once. -/
theorem once_after_del {Use : HubEntry → Prop} (n : Nat)
    (reach : Reach (hub env) (NoOverlap env key) World.IsInit cfg)
    (huse : ∀ later e earlier, cfg.trace = later ++ e :: earlier → Use e →
      (own e.id earlier).length = n ∧ ⟨.redisDel key, .ok ()⟩ ∈ own e.id earlier) :
    AtMostOnce Use cfg.trace := by
  refine atMostOnce_of_length n (fun later e earlier ht hu => (huse _ _ _ ht hu).1) ?_
  intro e he e' he' hu hu'
  have hdel : ∀ x ∈ cfg.trace, Use x → ∃ d ∈ cfg.trace, d.id = x.id ∧
      d.ev = ⟨.redisDel key, .ok ()⟩ := by
    intro x hx hux
    obtain ⟨later, earlier, ht⟩ := List.append_of_mem hx
    obtain ⟨d, hd, hid, hev⟩ := mem_own.mp (huse _ _ _ ht hux).2
    refine ⟨d, ?_, hid, hev⟩
    rw [ht]
    simp [hd]
  obtain ⟨d, hd, hid, hev⟩ := hdel e he hu
  obtain ⟨d', hd', hid', hev'⟩ := hdel e' he' hu'
  rw [← hid, ← hid', (deleted_once reach).eq hd hd' hev hev']

/-- Calls that run one after the other do not overlap. -/
theorem noOverlap_of_onlyRunning {ok : HubConfig → Nat → Op → Prop} {init : World → Prop}
    {i : Nat} {c : Call} {op : Op} {k : Except HubError op.Resp → Service Reply}
    (reach : Reach (hub env) ok init cfg) (hcall : cfg.calls[i]? = some (c, .await op k))
    (honly : cfg.OnlyRunning i) : NoOverlap env key cfg i op := by
  rintro c' p value rfl hcall' hlive hpresents j ⟨c₂, op₂, k₂, hj, -, hread, -⟩
  by_cases hij : j = i
  · subst hij
    -- the call itself has read nothing before its first event
    have hpoint := (reach.obeys (body_obeys env) j c _ hcall).1
    rw [point_redisGet hpoint] at hread
    cases hread
  · obtain ⟨r, hr⟩ := honly j c₂ _ hj hij
    cases hr

theorem run_noOverlap (env : Env) (key : RedisKey) (cs : List Call) :
    Reach (hub env) (NoOverlap env key) World.IsInit (Sample.run env cs) :=
  reach_sequence_ok cs
    (fun _ _ _ _ _ _ reach _ hcall honly => noOverlap_of_onlyRunning reach hcall honly)
    (by simp [Sample.start]) (.init ⟨_, rfl⟩)

/-! ### Challenges -/

/-- The challenge id in the details of an audit event. -/
def AuditCreate.carries (data : AuditCreate) (challengeId : String) : Prop :=
  ("challenge_id", Json.str challengeId) ∈ data.details

/-- The status write of a verdict on the challenge. -/
def VerdictWrite (challengeId : String) (e : HubEntry) : Prop :=
  ∃ deviceId signature p data, e.call = .verifyResponse challengeId deviceId signature ∧
    e.ev.op = .participantUpdate p data

/-- The CHALLENGE_PASSED or CHALLENGE_FAILED audit event of the challenge. -/
def VerdictAudit (challengeId : String) (e : HubEntry) : Prop :=
  ∃ data, e.ev.op = .auditCreate data ∧ data.carries challengeId ∧
    (data.eventType = .challengePassed ∨ data.eventType = .challengeFailed)

/-- The emission of a verdict on the challenge. -/
def VerdictEmission (challengeId : String) (e : HubEntry) : Prop :=
  ∃ deviceId signature meetingId payload, e.call = .verifyResponse challengeId deviceId signature ∧
    e.ev.op = .emitMeetingUpdate meetingId payload

theorem carries_verdictLog {challengeId challengeId' deviceId : String}
    {challenge : ChallengeRecord} {device : Device} {isValid : Bool} {result : PolicyResult}
    (h : (AuditService.row (verdictLog challengeId' deviceId challenge device isValid
      result)).carries challengeId) : challengeId' = challengeId := by
  unfold AuditCreate.carries AuditService.row verdictLog at h
  simpa [eq_comm] using h

variable {challengeId : String}

/-- Without overlap of the answers to a challenge, at most one verdict on it takes effect:
one status write, one audit event and one emission. -/
theorem verdict_once (reach : Reach (hub env) (NoOverlap env (.challenge challengeId))
    World.IsInit cfg) :
    AtMostOnce (VerdictWrite challengeId) cfg.trace ∧
      AtMostOnce (VerdictAudit challengeId) cfg.trace ∧
      AtMostOnce (VerdictEmission challengeId) cfg.trace := by
  have hstage : ∀ (Use : HubEntry → Prop) (n : Nat), (∀ e ∈ cfg.trace, Use e →
      (∃ deviceId signature, e.call = .verifyResponse challengeId deviceId signature) ∧
        verdictStage e.ev.op = some n) → AtMostOnce Use cfg.trace := by
    intro Use n huse
    refine once_after_del n reach fun later e earlier ht hu => ?_
    obtain ⟨⟨deviceId, signature, hcall⟩, hn⟩ := huse e (ht ▸ by simp) hu
    have hpoint := hub_point reach ht
    rw [hcall] at hpoint
    exact VerifyPoint.stage hpoint hn
  refine ⟨hstage _ 6 ?_, hstage _ 7 ?_, hstage _ 8 ?_⟩
  · rintro e he ⟨deviceId, signature, p, data, hcall, hop⟩
    exact ⟨⟨deviceId, signature, hcall⟩, by rw [hop]; rfl⟩
  · rintro e he ⟨data, hop, hcarries, htype⟩
    obtain ⟨later, earlier, ht⟩ := List.append_of_mem he
    have hpoint := hub_point reach ht
    rw [hop] at hpoint
    obtain ⟨cid, deviceId, signature, challenge, device, isValid, result, hcall, rfl⟩ :=
      point_verdictAudit hpoint htype
    obtain rfl := carries_verdictLog hcarries
    exact ⟨⟨deviceId, signature, hcall⟩, by rw [hop]; rfl⟩
  · rintro e he ⟨deviceId, signature, meetingId, payload, hcall, hop⟩
    exact ⟨⟨deviceId, signature, hcall⟩, by rw [hop]; rfl⟩

/-- Two answers one after the other. -/
theorem verdict_once_sample :
    let env := Sample.env 0 0
    let answer := Sample.answer (Sample.challenge env) "pem-1"
    AtMostOnce (VerdictWrite (Sample.uuid 22))
      (Sample.run env (Sample.challenged env ++ [answer, answer])).trace :=
  (verdict_once (run_noOverlap _ _ _)).1

/-- Two copies of an answer that both read the challenge before one of them deletes it. -/
theorem replayed_verdict : ∃ cfg, Reachable (Sample.env 0 0) cfg ∧
    ¬ AtMostOnce (VerdictWrite (Sample.uuid 22)) cfg.trace := by
  let env := Sample.env 0 0
  let answer := Sample.answer (Sample.challenge env) "pem-1"
  let schedule : List (Sched Call) := [.start answer, .start answer, .step 6, .step 7] ++
    List.replicate 8 (.step 6) ++ List.replicate 8 (.step 7)
  have hrun := Sample.run_reachable env (Sample.challenged env)
  have htwo : 1 < ((Sample.run env (Sample.challenged env)).play (hub env) schedule).trace.countP
      (Sample.writesStatus answer (Sample.uuid 7) .verified) := by decide +kernel
  refine ⟨_, reach_play schedule hrun, Sample.not_atMostOnce (fun e he => ?_) htwo⟩
  obtain ⟨hcall, data, hop, -⟩ := Sample.writesStatus_iff.mp he
  exact ⟨_, _, _, data, hcall, hop⟩

/-! ### Join tokens -/

/-- The write by which a `bindDevice` call with the token binds a participant. -/
def BindWrite (joinToken : String) (e : HubEntry) : Prop :=
  ∃ meetingId deviceId signature p data,
    e.call = .bindDevice meetingId joinToken deviceId signature ∧
    e.ev.op = .participantUpdate p data

/-- A bind with another token than `joinToken` wrote to the row of `p`. -/
def OtherBind (joinToken p : String) (e : HubEntry) : Prop :=
  ∃ meetingId token deviceId signature data row, token ≠ joinToken ∧
    e.call = .bindDevice meetingId token deviceId signature ∧
    e.ev = ⟨.participantUpdate p data, .ok row⟩

/-- `w` is the successful write of the call `i` that bound the participant `p` to `d`. -/
structure Bound (trace : Trace) (i : Nat) (p d : String) (row : Participant) (later : Trace)
    (w : HubEntry) (earlier : Trace) : Prop where
  split : trace = later ++ w :: earlier
  id : w.id = i
  event : ∃ data, w.ev = ⟨.participantUpdate p data, .ok row⟩ ∧ data.deviceId = some d

variable {joinToken : String}

theorem bindWrite_stage {ok : HubConfig → Nat → Op → Prop} {init : World → Prop}
    (reach : Reach (hub env) ok init cfg) {later earlier : Trace} {e : HubEntry}
    (ht : cfg.trace = later ++ e :: earlier) (hu : BindWrite joinToken e) :
    (own e.id earlier).length = 4 ∧
      ⟨.redisDel (.joinToken joinToken), .ok ()⟩ ∈ own e.id earlier := by
  obtain ⟨meetingId, deviceId, signature, p, data, hcall, hop⟩ := hu
  have hpoint := hub_point reach ht
  rw [hcall, hop] at hpoint
  generalize own e.id earlier = past at hpoint
  cases hpoint with
  | bind hacc =>
    rw [hacc.past_eq]
    simp

/-- Without overlap, a token binds at most once. -/
theorem bind_once (reach : Reach (hub env) (NoOverlap env (.joinToken joinToken))
    World.IsInit cfg) : AtMostOnce (BindWrite joinToken) cfg.trace :=
  once_after_del 4 reach fun _ _ _ ht hu => bindWrite_stage reach ht hu

/-- A `bindDevice` call that has succeeded has written the binding. -/
theorem bound_of_success {ok : HubConfig → Nat → Op → Prop} {init : World → Prop}
    (reach : Reach (hub env) ok init cfg) {i : Nat} {meetingId d signature : String} {r : Reply}
    (hdone : cfg.calls[i]? = some (.bindDevice meetingId joinToken d signature, .done (.ok r))) :
    ∃ p row later w earlier, r = .participant row ∧ Bound cfg.trace i p d row later w earlier ∧
      w.call = .bindDevice meetingId joinToken d signature := by
  obtain ⟨row, rfl, hfinal⟩ := reach.final (body_obeys env) hdone
  generalize hown : own i cfg.trace = past at hfinal
  cases hfinal with
  | @mk parsed device reads t _ m event hacc =>
    have hsplit : own i cfg.trace = [_, _] ++ _ :: _ := hown
    obtain ⟨later, w, earlier, ht, hid, hev, -⟩ := own_split hsplit
    refine ⟨parsed.participantId, row, later, w, earlier, rfl, ⟨ht, hid, _, hev, rfl⟩, ?_⟩
    obtain ⟨p, hp⟩ := reach.entry_call w (ht ▸ by simp)
    rw [hid, hdone] at hp
    exact (Prod.mk.inj (Option.some.inj hp)).1.symm

/-- Without overlap of the binds with a token, at most one of them succeeds, and the
participant stays bound to its device as long as no bind with another token writes it. -/
theorem token_once (reach : Reach (hub env) (NoOverlap env (.joinToken joinToken))
    World.IsInit cfg) :
    (∀ (i j : Nat) m m' d d' s s' r r',
      cfg.calls[i]? = some (.bindDevice m joinToken d s, .done (.ok r)) →
      cfg.calls[j]? = some (.bindDevice m' joinToken d' s', .done (.ok r')) → i = j) ∧
    ∀ (i : Nat) m d s r, cfg.calls[i]? = some (.bindDevice m joinToken d s, .done (.ok r)) →
      ∃ p row later w earlier, r = .participant row ∧
        Bound cfg.trace i p d row later w earlier ∧
        ((∀ x ∈ later, ¬ OtherBind joinToken p x) →
          cfg.store.BoundTo p d) := by
  constructor
  · intro i j m m' d d' s s' r r' hi hj
    obtain ⟨p, row, later, w, earlier, -, ⟨ht, rfl, data, hev, -⟩, hw⟩ := bound_of_success reach hi
    obtain ⟨p', row', later', w', earlier', -, ⟨ht', rfl, data', hev', -⟩, hw'⟩ :=
      bound_of_success reach hj
    have heq := (bind_once reach).eq (ht ▸ by simp) (ht' ▸ by simp)
      ⟨m, d, s, p, data, hw, by rw [hev]⟩ ⟨m', d', s', p', data', hw', by rw [hev']⟩
    rw [heq]
  · intro i m d s r hi
    obtain ⟨p, row, later, w, earlier, hr, hbound, hw⟩ := bound_of_success reach hi
    refine ⟨p, row, later, w, earlier, hr, hbound, fun hother => ?_⟩
    obtain ⟨ht, -, data, hev, hd⟩ := hbound
    refine binds_kept reach ht ⟨data, row, hev, hd⟩ fun x hx d' hbinds => ?_
    obtain ⟨l, l', rfl⟩ := List.append_of_mem hx
    have hsplit : cfg.trace = l ++ x :: (l' ++ w :: earlier) := by simp [ht]
    obtain ⟨m', token, s', parsed, device, hcall, -, -⟩ := binds_by reach hsplit hbinds
    obtain ⟨data', row', hxev, -⟩ := hbinds
    by_cases htoken : token = joinToken
    · -- the same token would have bound twice
      subst htoken
      exact bind_once reach _ _ _ _ _ hsplit ⟨m', d', s', p, data', hcall, by rw [hxev]⟩
        ⟨m, d, s, p, data, hw, by rw [hev]⟩
    · exact hother x hx ⟨m', token, d', s', data', row', htoken, hcall, hxev⟩

section Sample

/-- The bind of a device with the token of step 10. -/
def bindWith (deviceId publicKeyPem : String) : Call :=
  Sample.bind (Sample.env 0 0) 10 (Sample.uuid 4) (Sample.uuid 7) deviceId publicKeyPem

/-- A second device is enrolled before the token is used. -/
def twoDevices : List Call :=
  Sample.setUp ++ [Sample.enroll "tenant-acme" "laptop-2" "bob" "pem-2"]

/-- Two devices present the token one after the other: only the first bind succeeds. -/
theorem token_once_sample :
    let cfg := Sample.run (Sample.env 0 0)
      (twoDevices ++ [bindWith "laptop-1" "pem-1", bindWith "laptop-2" "pem-2"])
    ∀ (j : Nat) m d s r, cfg.calls[j]? = some (.bindDevice m (Sample.uuid 10) d s, .done (.ok r)) →
      5 = j := by
  intro cfg j m d s r hj
  have hret : Sample.returned (Sample.run (Sample.env 0 0)
      (twoDevices ++ [bindWith "laptop-1" "pem-1", bindWith "laptop-2" "pem-2"])) 5
      (bindWith "laptop-1" "pem-1") = true := by decide +kernel
  obtain ⟨r', hi⟩ := Sample.calls_of_returned hret
  exact (token_once (run_noOverlap _ _ _)).1 5 j _ _ _ _ _ _ _ _ hi hj

/-- The two binds overlap: both succeed, and the participant that the first call returned as
bound to `laptop-1` is bound to `laptop-2`. -/
theorem double_bind : ∃ cfg r r', Reachable (Sample.env 0 0) cfg ∧
    cfg.calls[5]? = some (bindWith "laptop-1" "pem-1", .done (.ok r)) ∧
    cfg.calls[6]? = some (bindWith "laptop-2" "pem-2", .done (.ok r')) ∧
    (cfg.store.participants.find? (Sample.uuid 7)).bind (·.deviceId) = some "laptop-2" := by
  let schedule : List (Sched Call) :=
    [.start (bindWith "laptop-1" "pem-1"), .start (bindWith "laptop-2" "pem-2"),
        .step 5, .step 6] ++
      List.replicate 6 (.step 5) ++ List.replicate 6 (.step 6)
  have hrun := reach_play schedule (Sample.run_reachable (Sample.env 0 0) twoDevices)
  have h₁ : Sample.returned ((Sample.run (Sample.env 0 0) twoDevices).play (hub (Sample.env 0 0))
      schedule) 5 (bindWith "laptop-1" "pem-1") = true := by decide +kernel
  have h₂ : Sample.returned ((Sample.run (Sample.env 0 0) twoDevices).play (hub (Sample.env 0 0))
      schedule) 6 (bindWith "laptop-2" "pem-2") = true := by decide +kernel
  have hdevice : (((Sample.run (Sample.env 0 0) twoDevices).play (hub (Sample.env 0 0))
      schedule).store.participants.find? (Sample.uuid 7)).bind (·.deviceId) = some "laptop-2" := by
    decide +kernel
  obtain ⟨r, hr⟩ := Sample.calls_of_returned h₁
  obtain ⟨r', hr'⟩ := Sample.calls_of_returned h₂
  exact ⟨_, r, r', hrun, hr, hr', hdevice⟩

end Sample

end TroofAI.Hub
