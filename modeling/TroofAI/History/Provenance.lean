import TroofAI.Hub.System

/-!
Where the records in Redis come from.

* `redis_stored`: a live record was stored by an event of the run, and no later event
  deleted it.
* `redis_set_once`: no key is stored twice, since challenge ids and join tokens are
  drawn afresh.
* `read_stored`: what a call reads was stored before.
* `not_read_after_del`: once a key has been deleted it is never read again.
-/

namespace TroofAI.Hub

open TroofAI.Await MeetingService ChallengeService

variable {env : Env} {ok : HubConfig → Nat → Op → Prop} {init : World → Prop} {cfg : HubConfig}

/-! ### Events of a run -/

theorem hub_point (reach : Reach (hub env) ok init cfg) {later earlier : Trace} {e : HubEntry}
    (ht : cfg.trace = later ++ e :: earlier) : e.call.Point env (own e.id earlier) e.ev.op :=
  reach.point (body_obeys env) ht

/-- A write to a participant's row is one that its call makes with the history it has. -/
theorem hub_write (reach : Reach (hub env) ok init cfg) {later earlier : Trace} {e : HubEntry}
    {p : String} {data : ParticipantUpdate} (ht : cfg.trace = later ++ e :: earlier)
    (hop : e.ev.op = .participantUpdate p data) :
    ParticipantWrite env e.call (own e.id earlier) p data :=
  point_participantUpdate (hop ▸ hub_point reach ht)

/-- The same of a record that is stored. -/
theorem hub_set (reach : Reach (hub env) ok init cfg) {later earlier : Trace} {e : HubEntry}
    {key : RedisKey} {value : key.Value} {ttl : Nat} (ht : cfg.trace = later ++ e :: earlier)
    (hop : e.ev.op = .redisSet key value ttl) : RedisSet e.call (own e.id earlier) key value ttl :=
  point_redisSet (hop ▸ hub_point reach ht)

/-- And of one that is deleted. -/
theorem hub_del (reach : Reach (hub env) ok init cfg) {later earlier : Trace} {e : HubEntry}
    {key : RedisKey} (ht : cfg.trace = later ++ e :: earlier) (hop : e.ev.op = .redisDel key) :
    RedisDel env e.call (own e.id earlier) key :=
  point_redisDel (hop ▸ hub_point reach ht)

/-- A successful event is a successful operation on the store it met. -/
theorem hub_did (reach : Reach (hub env) ok init cfg) {e : HubEntry} (he : e ∈ cfg.trace)
    {op : Op} {a : op.Resp} (hev : e.ev = ⟨op, .ok a⟩) : (exec env op e.before).1 = .ok a := by
  obtain ⟨later, earlier, ht⟩ := List.append_of_mem he
  obtain ⟨-, -, -, -, -, -, hres, -⟩ := reach.cut ht
  rw [hev] at hres
  exact hres.symm

/-- The answer of an event is that of the operation on the store it met. -/
theorem hub_ev (reach : Reach (hub env) ok init cfg) {e : HubEntry} (he : e ∈ cfg.trace) :
    e.ev = ⟨e.ev.op, (exec env e.ev.op e.before).1⟩ := by
  obtain ⟨later, earlier, ht⟩ := List.append_of_mem he
  obtain ⟨-, -, -, -, -, -, hres, -⟩ := reach.cut ht
  exact congrArg (Ev.mk e.ev.op) hres

theorem hub_participant (reach : Reach (hub env) ok init cfg) {e : HubEntry} (he : e ∈ cfg.trace)
    (p : String) : ParticipantStep env e.before p e.ev
      ((exec env e.ev.op e.before).2.participants.find? p) := by
  rw [hub_ev reach he]
  exact exec_participant p

theorem hub_device (reach : Reach (hub env) ok init cfg) {e : HubEntry} (he : e ∈ cfg.trace)
    (d : String) :
    DeviceStep env e.before d e.ev ((exec env e.ev.op e.before).2.devices.find? d) := by
  rw [hub_ev reach he]
  exact exec_device d

theorem hub_meeting (reach : Reach (hub env) ok init cfg) {e : HubEntry} (he : e ∈ cfg.trace)
    (m : String) :
    MeetingStep env e.before m e.ev ((exec env e.ev.op e.before).2.meetings.find? m) := by
  rw [hub_ev reach he]
  exact exec_meeting m

/-- The same of a call's own history. -/
theorem hub_did_own (reach : Reach (hub env) ok init cfg) {i : Nat} {op : Op} {a : op.Resp}
    (hev : (⟨op, .ok a⟩ : Event) ∈ own i cfg.trace) :
    ∃ e ∈ cfg.trace, e.id = i ∧ (exec env op e.before).1 = .ok a := by
  obtain ⟨e, he, hid, heq⟩ := mem_own.mp hev
  exact ⟨e, he, hid, hub_did reach he heq⟩

theorem hub_step_eq (reach : Reach (hub env) ok init cfg) {e e' : HubEntry} (he : e ∈ cfg.trace)
    (he' : e' ∈ cfg.trace) (h : e.before.steps = e'.before.steps) : e = e' :=
  reach.step_inj World.steps (fun _ _ => exec_steps) he he' h

/-- No value is drawn twice. -/
theorem hub_drawn_once (reach : Reach (hub env) ok init cfg) {e e' : HubEntry}
    (he : e ∈ cfg.trace) (he' : e' ∈ cfg.trace) {s : String}
    (hev : e.ev = ⟨.randomUUID, .ok s⟩) (hev' : e'.ev = ⟨.randomUUID, .ok s⟩) : e = e' := by
  have h := exec_randomUUID_ok (hub_did reach he hev)
  have h' := exec_randomUUID_ok (hub_did reach he' hev')
  exact hub_step_eq reach he he' (env.uuid_injective (h.symm.trans h'))

/-! ### Drawn ids -/

/-- What a call has drawn is one of the ids. -/
theorem drawn_own (reach : Reach (hub env) ok init cfg) {i : Nat} {drawn : String}
    (h : ⟨.randomUUID, .ok drawn⟩ ∈ own i cfg.trace) : ∃ n, drawn = env.uuid n := by
  obtain ⟨d, -, -, hd⟩ := hub_did_own reach h
  exact ⟨_, exec_randomUUID_ok hd⟩

/-- A join token that the hub has stored is a drawn id. -/
theorem joinToken_drawn (reach : Reach (hub env) ok init cfg) {s : HubEntry} (hs : s ∈ cfg.trace)
    {token : String} {parsed : JoinToken} {ttl : Nat}
    (hop : s.ev.op = .redisSet (.joinToken token) parsed ttl) : ∃ n, token = env.uuid n := by
  obtain ⟨later, earlier, ht⟩ := List.append_of_mem hs
  obtain ⟨pre, -, hpre, rfl, -⟩ := reach.cut ht
  exact drawn_own hpre (List.mem_of_getElem? (hub_set reach ht hop).joinToken_drawn)

/-- And so is the id of a stored challenge. -/
theorem challenge_drawn (reach : Reach (hub env) ok init cfg) {s : HubEntry} (hs : s ∈ cfg.trace)
    {cid : String} {record : ChallengeRecord} {ttl : Nat}
    (hop : s.ev.op = .redisSet (.challenge cid) record ttl) : ∃ n, cid = env.uuid n := by
  obtain ⟨later, earlier, ht⟩ := List.append_of_mem hs
  obtain ⟨pre, -, hpre, rfl, -⟩ := reach.cut ht
  exact drawn_own hpre (List.mem_of_getElem? (hub_set reach ht hop).challenge_drawn)

/-- The id of a participant was drawn for it. -/
theorem participant_drawn (reach : Reach (hub env) ok World.IsInit cfg) {p : String}
    {row : Participant} (hrow : cfg.store.participants.find? p = some row) :
    ∃ n, p = env.uuid n := by
  refine reach.throughout (fun w => ∀ row, w.participants.find? p = some row →
    ∃ n, p = env.uuid n) ?_ ?_ row hrow
  · rintro w ⟨tenants, rfl⟩ row hnone
    cases hnone
  · intro x hx ih row' hrow'
    have hstep : ParticipantStep env x.before p x.ev (some row') :=
      hrow' ▸ hub_participant reach hx p
    rcases hstep.found with ⟨old, hold, -⟩ | ⟨huuid, -⟩
    · exact ih old hold
    · exact ⟨_, huuid⟩

/-- The id of a meeting was drawn for it. -/
theorem meeting_drawn (reach : Reach (hub env) ok World.IsInit cfg) {m : String} {row : Meeting}
    (hrow : cfg.store.meetings.find? m = some row) : ∃ n, m = env.uuid n := by
  refine reach.throughout (fun w => ∀ row, w.meetings.find? m = some row →
    ∃ n, m = env.uuid n) ?_ ?_ row hrow
  · rintro w ⟨tenants, rfl⟩ row hnone
    cases hnone
  · intro x hx ih row' hrow'
    have hstep : MeetingStep env x.before m x.ev (some row') := hrow' ▸ hub_meeting reach hx m
    rcases hstep.found with hold | ⟨huuid, -⟩
    · exact ih row' hold
    · exact ⟨_, huuid⟩

/-! ### Records in Redis -/

/-- `s` stored `value` under `key`, and none of the events `since` deleted it. -/
structure StoredBy (env : Env) (key : RedisKey) (value : key.Value) (deadline : Nat)
    (since : Trace) (s : HubEntry) : Prop where
  ev : ∃ ttl, s.ev = ⟨.redisSet key value ttl, .ok ()⟩ ∧
    deadline = env.clock s.before.steps + ttl * 1000
  kept : ∀ x ∈ since, x.ev ≠ ⟨.redisDel key, .ok ()⟩

theorem redis_stored (reach : Reach (hub env) ok World.IsInit cfg) {key : RedisKey}
    {value : key.Value} {deadline : Nat}
    (hentry : cfg.store.redis.entry key = some (value, deadline)) :
    ∃ since s earlier, cfg.trace = since ++ s :: earlier ∧
      StoredBy env key value deadline since s := by
  induction reach with
  | init hs =>
    obtain ⟨tenants, rfl⟩ := hs
    cases hentry
  | start c _ ih => exact ih hentry
  | @perform cfg i c op k hr hcall hop ih =>
    have hstep : RedisStep env cfg.store key ⟨op, (exec env op cfg.store).1⟩
        ((exec env op cfg.store).2.redis.entry key) := exec_redis_entry key
    change (exec env op cfg.store).2.redis.entry key = some (value, deadline) at hentry
    rw [hentry] at hstep
    change ∃ since s earlier, ⟨i, c, cfg.store, ⟨op, (exec env op cfg.store).1⟩⟩ :: cfg.trace =
      since ++ s :: earlier ∧ _
    generalize (⟨op, (exec env op cfg.store).1⟩ : Event) = ev at hstep
    generalize hnew : some (value, deadline) = new at hstep
    cases hstep with
    | same hkeep =>
      obtain ⟨since, s, earlier, ht, hstored⟩ := ih hnew.symm
      refine ⟨_ :: since, s, earlier, congrArg _ ht, hstored.ev, ?_⟩
      intro x hx
      rcases List.mem_cons.mp hx with rfl | hx
      · exact hkeep
      · exact hstored.kept x hx
    | @set value' ttl =>
      obtain ⟨rfl, rfl⟩ := Prod.mk.inj (Option.some.inj hnew)
      exact ⟨[], _, cfg.trace, rfl, ⟨ttl, rfl, rfl⟩, by simp⟩
    | del => cases hnew

/-- No record is stored twice under one key. -/
theorem redis_set_once (reach : Reach (hub env) ok init cfg) (key : RedisKey) :
    AtMostOnce (fun e => ∃ value ttl, e.ev.op = .redisSet key value ttl) cfg.trace := by
  have hnodup := reach.trace_nodup World.steps fun _ _ => exec_steps
  have hdraw : ∀ s, ∀ d ∈ cfg.trace, ∀ d' ∈ cfg.trace, d.ev = ⟨.randomUUID, .ok s⟩ →
      d'.ev = ⟨.randomUUID, .ok s⟩ → d = d' :=
    fun s d hd d' hd' => hub_drawn_once reach hd hd'
  -- a challenge is stored three events after its id was drawn, a join token one event after
  have huse : ∀ (n : Nat) (s : String), (∀ later e earlier, cfg.trace = later ++ e :: earlier →
      (∃ value ttl, e.ev.op = .redisSet key value ttl) →
      (own e.id earlier)[n]? = some (⟨.randomUUID, .ok s⟩ : Event)) →
      AtMostOnce (fun e => ∃ value ttl, e.ev.op = .redisSet key value ttl) cfg.trace := by
    intro n s hown
    refine once_per_draw (D := fun d => d.ev = ⟨.randomUUID, .ok s⟩) n hnodup ?_ (hdraw s)
    intro later e earlier ht hu
    have := hown later e earlier ht hu
    rw [own, List.getElem?_map, Option.map_eq_some_iff] at this
    exact this
  cases key with
  | challenge cid =>
    apply huse 3 cid
    rintro later e earlier ht ⟨value, ttl, hop⟩
    exact (hub_set reach ht hop).challenge_drawn
  | joinToken token =>
    apply huse 1 token
    rintro later e earlier ht ⟨value, ttl, hop⟩
    exact (hub_set reach ht hop).joinToken_drawn

/-- What a call reads was stored before and not deleted in between. -/
theorem read_stored (reach : Reach (hub env) ok World.IsInit cfg) {later earlier : Trace}
    {g : HubEntry} {key : RedisKey} {value : key.Value} (ht : cfg.trace = later ++ g :: earlier)
    (hg : g.ev = ⟨.redisGet key, .ok (some value)⟩) :
    ∃ since s older deadline, earlier = since ++ s :: older ∧
      StoredBy env key value deadline since s ∧ env.clock g.before.steps ≤ deadline := by
  have hget := exec_redisGet_ok (hub_did reach (ht ▸ by simp) hg)
  obtain ⟨deadline, hentry, hle⟩ := Expiring.get_eq_some.mp hget
  obtain ⟨pre, -, hpre, rfl, hstore, -⟩ := reach.cut ht
  rw [← hstore] at hentry
  obtain ⟨since, s, older, htrace, hstored⟩ := redis_stored hpre hentry
  exact ⟨since, s, older, deadline, htrace, hstored, hle⟩

/-- What a call reads under a key is the one record that is ever stored there. -/
theorem read_record (reach : Reach (hub env) ok World.IsInit cfg) {s g : HubEntry}
    {key : RedisKey} {value value' : key.Value} {ttl : Nat} (hs : s ∈ cfg.trace)
    (hset : s.ev.op = .redisSet key value ttl) (hg : g ∈ cfg.trace)
    (hget : g.ev = ⟨.redisGet key, .ok (some value')⟩) : value' = value := by
  obtain ⟨later, earlier, ht⟩ := List.append_of_mem hg
  obtain ⟨since, s', older, deadline, rfl, hstored, -⟩ := read_stored reach ht hget
  obtain ⟨ttl', hs', -⟩ := hstored.ev
  have hmem : s' ∈ cfg.trace := by simp [ht]
  have heq := (redis_set_once reach key).eq hmem hs ⟨value', ttl', by rw [hs']⟩ ⟨value, ttl, hset⟩
  rw [← heq, hs'] at hset
  cases hset
  rfl

/-- A record that has been stored stays until it is deleted. -/
theorem record_kept (reach : Reach (hub env) ok init cfg) {later older : Trace} {s : HubEntry}
    {key : RedisKey} {value : key.Value} {ttl : Nat} (ht : cfg.trace = later ++ s :: older)
    (hs : s.ev = ⟨.redisSet key value ttl, .ok ()⟩)
    (hkept : ∀ x ∈ later, x.ev ≠ ⟨.redisDel key, .ok ()⟩) :
    cfg.store.redis.entry key = some (value, env.clock s.before.steps + ttl * 1000) := by
  refine reach.carry (fun w => w.redis.entry key =
    some (value, env.clock s.before.steps + ttl * 1000)) ht ?_ ?_
  · have hdid := hub_did reach (ht ▸ by simp) hs
    change (exec env s.ev.op s.before).2.redis.entry key = _
    rw [hs, exec_redisSet_ok hdid, Expiring.set_entry_self]
  · intro x hx hentry
    change (exec env x.ev.op x.before).2.redis.entry key = _
    have hmem : x ∈ cfg.trace := ht ▸ List.mem_append_left _ hx
    have hstep : RedisStep env x.before key x.ev
        ((exec env x.ev.op x.before).2.redis.entry key) := by
      rw [hub_ev reach hmem]
      exact exec_redis_entry key
    generalize (exec env x.ev.op x.before).2.redis.entry key = new at hstep ⊢
    generalize hev : x.ev = ev at hstep
    cases hstep with
    | same => exact hentry
    | @set value' ttl' =>
      -- a key is stored once
      obtain ⟨l, l', rfl⟩ := List.append_of_mem hx
      have htx : cfg.trace = l ++ x :: (l' ++ s :: older) := by simp [ht]
      exact absurd ⟨value, ttl, by rw [hs]⟩ (redis_set_once reach key _ x _ s _ htx
        ⟨value', ttl', by rw [hev]⟩)
    | del => exact absurd hev (hkept x hx)

/-- A key is deleted only by a call that has read it. -/
theorem del_read (reach : Reach (hub env) ok init cfg) {later earlier : Trace} {d : HubEntry}
    {key : RedisKey} (ht : cfg.trace = later ++ d :: earlier) (hd : d.ev.op = .redisDel key) :
    ∃ between g older value, earlier = between ++ g :: older ∧ g.id = d.id ∧
      g.ev = ⟨.redisGet key, .ok (some value)⟩ := by
  obtain ⟨newer, older, value, hown⟩ := (hub_del reach ht hd).read
  obtain ⟨between, g, rest, hearlier, hid, hev, -⟩ := own_split hown
  exact ⟨between, g, rest, value, hearlier, hid, hev⟩

/-- Once a key has been deleted no call reads it again. -/
theorem not_read_after_del (reach : Reach (hub env) ok World.IsInit cfg)
    {later between earlier : Trace} {g d : HubEntry} {key : RedisKey} {value : key.Value}
    (ht : cfg.trace = later ++ g :: (between ++ d :: earlier))
    (hg : g.ev = ⟨.redisGet key, .ok (some value)⟩) (hd : d.ev = ⟨.redisDel key, .ok ()⟩) :
    False := by
  obtain ⟨since, s, older, deadline, hcut, hstored, -⟩ := read_stored reach ht hg
  obtain ⟨ttl, hs, -⟩ := hstored.ev
  -- the record `g` reads was stored after `d`
  have hlater : ∃ mid, between = since ++ s :: mid := by
    rcases split_cases hcut with ⟨mid, hmid, -⟩ | ⟨-, rfl, -⟩ | ⟨mid, rfl, -⟩
    · exact ⟨mid, hmid⟩
    · rw [hd] at hs
      cases hs
    · exact absurd hd (hstored.kept d (by simp))
  obtain ⟨mid, rfl⟩ := hlater
  -- and the record that was deleted was stored before `d`
  have htd : cfg.trace = (later ++ g :: (since ++ s :: mid)) ++ d :: earlier := by simp [ht]
  obtain ⟨mid', g', older', value', rfl, -, hg'⟩ := del_read reach htd (by rw [hd])
  have htg : cfg.trace = (later ++ g :: (since ++ s :: mid) ++ d :: mid') ++ g' :: older' := by
    simp [ht]
  obtain ⟨since', s', older'', _, rfl, hstored', -⟩ := read_stored reach htg hg'
  obtain ⟨ttl', hs', -⟩ := hstored'.ev
  have hts : cfg.trace = (later ++ g :: since) ++
      s :: ((mid ++ d :: (mid' ++ g' :: since')) ++ s' :: older'') := by
    simp [ht]
  exact redis_set_once reach key _ s _ s' older'' hts ⟨value, ttl, by rw [hs]⟩
    ⟨value', ttl', by rw [hs']⟩

theorem del_after_read (reach : Reach (hub env) ok World.IsInit cfg) {later earlier : Trace}
    {g d : HubEntry} {key : RedisKey} {value : key.Value} (ht : cfg.trace = later ++ g :: earlier)
    (hg : g.ev = ⟨.redisGet key, .ok (some value)⟩) (hd : d ∈ cfg.trace)
    (hdev : d.ev = ⟨.redisDel key, .ok ()⟩) : d ∈ later := by
  obtain ⟨later', earlier', ht'⟩ := List.append_of_mem hd
  rcases split_cases (ht.symm.trans ht') with ⟨m, rfl, -⟩ | ⟨-, rfl, -⟩ | ⟨m, -, rfl⟩
  · simp
  · rw [hg] at hdev
    cases hdev
  · exact (not_read_after_del reach ht hg hdev).elim

end TroofAI.Hub
