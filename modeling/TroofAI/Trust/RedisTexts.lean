import TroofAI.Base.Lowering
import TroofAI.History.Provenance
import TroofAI.Hub.Redis
import TroofAI.Hub.Sample

/-!
The hub over the texts of Redis.

The other modules let Redis hold records. The code holds texts there: it builds the keys by a
prefix, stores `JSON.stringify` of a record and parses what it reads. `texts` carries out every
operation of the hub in this way. The runs of that hub are the runs of the hub over records, step by
step and under every interleaving (`redis_texts`), so all that is said of one holds of the other.
The times of the clock must be times that JavaScript can write as a date.
-/

namespace TroofAI.Hub

open TroofAI.Await

/-- The operations of the hub, with those on Redis as `RedisService` has them. -/
inductive TextOp where
  | hub (op : Op)
  | set (key value : String) (ttlSeconds : Option Nat)
  | get (key : String)
  | del (key : String)

abbrev TextOp.Resp : TextOp → Type
  | .hub op => op.Resp
  | .set _ _ _ => Unit
  | .get _ => Option String
  | .del _ => Unit

/-- The world with the texts of Redis; the records of `world` are not used. -/
structure TextWorld where
  world : World
  redis : Redis

namespace TextWorld

/-- One call of Redis: it is rejected or has its effect, and is counted. -/
def redisCall {α : Type} (env : Env) (s : TextWorld) (answer : α) (redis : Redis) :
    Except HubError α × TextWorld :=
  if env.rejects s.world.steps then (.error .rejected, ⟨s.world.tick, s.redis⟩)
  else (.ok answer, ⟨s.world.tick, redis⟩)

end TextWorld

def textExec (env : Env) : (op : TextOp) → TextWorld → Except HubError op.Resp × TextWorld
  | .hub op, s => ((exec env op s.world).1, ⟨(exec env op s.world).2, s.redis⟩)
  | .set key value ttlSeconds, s =>
      s.redisCall env ()
        (RedisService.set key value ttlSeconds (env.clock s.world.steps) s.redis)
  | .get key, s => s.redisCall env (RedisService.get key (env.clock s.world.steps) s.redis) s.redis
  | .del key, s => s.redisCall env () (RedisService.del key s.redis)

/-- The operation that carries out one of the hub. -/
def Op.text : Op → TextOp
  | .redisSet key value ttlSeconds => .set key.text (key.encode value) (some ttlSeconds)
  | .redisGet key => .get key.text
  | .redisDel key => .del key.text
  | op => .hub op

/-- What is made of the answer of Redis. A text that is no record never comes back
(`RedisKey.decode_encode`); reading its members would fail. -/
def RedisKey.answer (key : RedisKey) : Option String → Except HubError (Option key.Value)
  | none => .ok none
  | some text =>
      match key.decode text with
      | some value => .ok (some value)
      | none => .error .typeError

/-- The hub over the texts. -/
def texts : Lowering Op.Resp TextOp.Resp HubError where
  op := Op.text
  answer
    | .redisGet key => fun r => r.bind key.answer
    | .redisSet _ _ _ | .redisDel _ | .now | .randomUUID | .randomBytes | .tenantFindFirst _
    | .tenantCreate _ | .deviceFindUnique _ | .deviceCreate _ | .deviceUpdate _ _
    | .meetingFindUnique _ | .meetingCreate _ _ | .participantFindUnique _ | .participantFindMany _
    | .participantCreate _ | .participantUpdate _ _ | .auditCreate _ | .emitChallengeToDevice _ _
    | .emitMeetingUpdate _ _ | .socket _ | .revoke _ => fun r => r

/-! ### The texts of a world -/

/-- The texts that stand for the records. -/
noncomputable def Redis.ofRecords (redis : Expiring RedisKey RedisKey.Value) : Redis where
  entry text := (Function.partialInv RedisKey.text text).bind fun key =>
    (redis.entry key).map fun p => (key.encode p.1, some p.2)

noncomputable def World.texts (w : World) : TextWorld :=
  ⟨{ w with redis := .empty }, .ofRecords w.redis⟩

theorem ofRecords_text (redis : Expiring RedisKey RedisKey.Value) (key : RedisKey) :
    (Redis.ofRecords redis).entry key.text =
      (redis.entry key).map fun p => (key.encode p.1, some p.2) := by
  simp [Redis.ofRecords, Function.partialInv_left RedisKey.text_injective]

/-- A change of one entry is a change of one text. -/
theorem ofRecords_update {redis redis' : Expiring RedisKey RedisKey.Value} {key : RedisKey}
    {new : Option (String × Option Date)}
    (hsame : ∀ k, k ≠ key → redis'.entry k = redis.entry k)
    (hnew : (redis'.entry key).map (fun p => (key.encode p.1, some p.2)) = new) :
    (⟨Function.update (Redis.ofRecords redis).entry key.text new⟩ : Redis) =
      .ofRecords redis' := by
  refine congrArg Redis.mk (funext fun text => ?_)
  by_cases htext : text = key.text
  · subst htext
    rw [Function.update_self]
    exact hnew.symm.trans (ofRecords_text redis' key).symm
  · rw [Function.update_of_ne htext]
    cases hkey : Function.partialInv RedisKey.text text with
    | none => simp [Redis.ofRecords, hkey]
    | some k =>
      have hk : k ≠ key := by
        rintro rfl
        exact htext ((RedisKey.text_injective.isPartialInv k text).mp hkey).symm
      simp [Redis.ofRecords, hkey, hsame k hk]

theorem set_ofRecords (redis : Expiring RedisKey RedisKey.Value) (key : RedisKey)
    (value : key.Value) {ttl : Nat} (httl : ttl ≠ 0) (now : Date) :
    RedisService.set key.text (key.encode value) (some ttl) now (.ofRecords redis) =
      .ofRecords (redis.set key value (now + ttl * 1000)) := by
  rw [RedisService.set_of_pos httl]
  apply ofRecords_update
  · intro k hk
    exact Expiring.set_entry_ne redis value _ hk
  · rw [Expiring.set_entry_self]
    rfl

theorem del_ofRecords (redis : Expiring RedisKey RedisKey.Value) (key : RedisKey) :
    RedisService.del key.text (.ofRecords redis) = .ofRecords (redis.del key) := by
  apply ofRecords_update
  · intro k hk
    exact Expiring.del_entry_ne redis hk
  · rw [Expiring.del_entry_self]
    rfl

theorem get_ofRecords (redis : Expiring RedisKey RedisKey.Value) (key : RedisKey) (now : Date) :
    RedisService.get key.text now (.ofRecords redis) = (redis.get now key).map key.encode := by
  unfold RedisService.get Expiring.get
  rw [ofRecords_text]
  cases redis.entry key with
  | none => rfl
  | some p =>
    simp only [Option.map_some]
    split <;> rfl

/-! ### One operation -/

/-- Every record that is stored can be read back. -/
def World.Readable (w : World) : Prop :=
  ∀ key value deadline, w.redis.entry key = some (value, deadline) → key.InTime value

variable {env : Env} {w : World}

/-- An operation that is none of Redis does not see it. -/
theorem effect_without_redis {op : Op} (h : op.part ≠ .redis) (hget : ∀ key, op ≠ .redisGet key)
    (redis : Expiring RedisKey RedisKey.Value) :
    effect env { w with redis } op =
      ((effect env w op).1, { (effect env w op).2 with redis }) := by
  cases op with
  | redisSet _ _ _ => exact absurd rfl h
  | redisDel _ => exact absurd rfl h
  | redisGet key => exact absurd rfl (hget key)
  | tenantCreate name =>
    simp only [effect, World.createTenant]
    split <;> rfl
  | deviceCreate data =>
    simp only [effect, World.createDevice]
    split
    · rfl
    · split <;> rfl
  | deviceUpdate id data =>
    simp only [effect, World.updateDevice]
    split <;> rfl
  | meetingCreate tenantId name =>
    simp only [effect, World.createMeeting]
    split
    · rfl
    · split <;> rfl
  | participantCreate data =>
    simp only [effect, World.createParticipant]
    split
    · rfl
    · split <;> rfl
  | participantUpdate id data =>
    simp only [effect, World.updateParticipant]
    split
    · split <;> rfl
    · rfl
  | auditCreate data =>
    simp only [effect, World.createAudit]
    split
    · rfl
    · split <;> rfl
  | _ => rfl

theorem exec_without_redis {op : Op} (h : op.part ≠ .redis) (hget : ∀ key, op ≠ .redisGet key)
    (redis : Expiring RedisKey RedisKey.Value) :
    exec env op { w with redis } = ((exec env op w).1, { (exec env op w).2 with redis }) := by
  unfold exec
  rw [effect_without_redis h hget]
  show (if (op.awaited && env.rejects w.steps) = true then _ else _) = _
  split <;> rfl

/-- So its text has the same effect. -/
theorem texts_sound_other {op : Op} (h : op.part ≠ .redis) (hget : ∀ key, op ≠ .redisGet key) :
    texts.Sound (hub env) (textExec env) World.texts op w := by
  have hredis : (exec env op w).2.redis = w.redis := exec_redis h
  have hexec : textExec env (.hub op) w.texts = ((exec env op w).1, (exec env op w).2.texts) := by
    have hwithout : exec env op { w with redis := .empty } = _ := exec_without_redis h hget .empty
    show ((exec env op { w with redis := .empty }).1,
      (⟨(exec env op { w with redis := .empty }).2, .ofRecords w.redis⟩ : TextWorld)) = _
    rw [hwithout, ← hredis]
    rfl
  cases op with
  | redisSet _ _ _ => exact absurd rfl h
  | redisDel _ => exact absurd rfl h
  | redisGet key => exact absurd rfl (hget key)
  | _ => exact ⟨congrArg Prod.fst hexec, congrArg Prod.snd hexec⟩

/-- A call of Redis is rejected at both levels, or answers and writes the same at both. -/
theorem texts_sound_redis {op : Op} {a : op.Resp} {records : Expiring RedisKey RedisKey.Value}
    {answer : op.text.Resp} {redis : Redis} (hawaited : op.awaited = true)
    (htext : textExec env op.text w.texts = w.texts.redisCall env answer redis)
    (heffect : effect env w op = (.ok a, { w with redis := records }))
    (hredis : redis = .ofRecords records) (hanswer : texts.answer op (.ok answer) = .ok a)
    (hrejected : texts.answer op (.error .rejected) = .error .rejected) :
    texts.Sound (hub env) (textExec env) World.texts op w := by
  cases hrejects : env.rejects w.steps with
  | true =>
    have hcall : w.texts.redisCall env answer redis = (.error .rejected, w.tick.texts) :=
      if_pos hrejects
    have hexec : exec env op w = (.error .rejected, w.tick) := by
      unfold exec
      rw [hawaited, hrejects]
      rfl
    constructor
    · show texts.answer op (textExec env op.text w.texts).1 = (exec env op w).1
      rw [htext, hcall, hexec]
      exact hrejected
    · show (textExec env op.text w.texts).2 = (exec env op w).2.texts
      rw [htext, hcall, hexec]
  | false =>
    have hcall : w.texts.redisCall env answer redis = (.ok answer, ⟨w.texts.world.tick, redis⟩) :=
      if_neg (by rw [Bool.not_eq_true]; exact hrejects)
    have hexec : exec env op w = _ := exec_accepted (.inr hrejects)
    rw [heffect] at hexec
    constructor
    · show texts.answer op (textExec env op.text w.texts).1 = (exec env op w).1
      rw [htext, hcall, hexec]
      exact hanswer
    · show (textExec env op.text w.texts).2 = (exec env op w).2.texts
      rw [htext, hcall, hexec, hredis]
      rfl

/-- What an operation does to the records, its text does to the texts. -/
theorem texts_sound {op : Op} (hread : w.Readable)
    (hset : ∀ key value ttl, op = .redisSet key value ttl → ttl ≠ 0) :
    texts.Sound (hub env) (textExec env) World.texts op w := by
  cases op with
  | redisSet key value ttl =>
    have hstored := set_ofRecords w.redis key value (hset key value ttl rfl) (env.clock w.steps)
    exact texts_sound_redis rfl rfl rfl hstored rfl rfl
  | redisGet key =>
    have hfound := get_ofRecords w.redis key (env.clock w.steps)
    refine texts_sound_redis rfl rfl rfl rfl ?_ rfl
    show key.answer (RedisService.get key.text (env.clock w.steps) (.ofRecords w.redis)) =
      .ok (w.redis.get (env.clock w.steps) key)
    rw [hfound]
    cases hget : w.redis.get (env.clock w.steps) key with
    | none => rfl
    | some value =>
      obtain ⟨deadline, hentry, -⟩ := Expiring.get_eq_some.mp hget
      simp [RedisKey.answer, RedisKey.decode_encode (hread key value deadline hentry)]
  | redisDel key => exact texts_sound_redis rfl rfl rfl (del_ofRecords w.redis key) rfl rfl
  | _ => exact texts_sound_other (by rintro ⟨⟩) (by rintro _ ⟨⟩)

/-! ### Runs -/

/-- The hub over texts. -/
def textHub (env : Env) : System Call TextWorld TextOp.Resp HubError Reply :=
  (hub env).lower texts (textExec env)

/-- What any interleaving of any calls leads to, over texts. -/
abbrev TextReachable (env : Env) (cfg : Config Call TextWorld TextOp.Resp HubError Reply) : Prop :=
  Reach (textHub env) (fun _ _ _ => True) (fun s => ∃ w, World.IsInit w ∧ s = w.texts) cfg

/-- The clock shows times that JavaScript can write as a date, and so are the expiries it gives
rise to. -/
def Env.InTime (env : Env) : Prop := ∀ n, env.clock n + 30000 ≤ maxTime

/-- Every record that the hub has stored can be read back. -/
theorem reachable_readable {cfg : HubConfig} (htime : env.InTime) (reach : Reachable env cfg) :
    cfg.store.Readable := by
  intro key value deadline hentry
  obtain ⟨since, s, earlier, ht, hstored⟩ := redis_stored reach hentry
  obtain ⟨ttl, hs, -⟩ := hstored.ev
  have hwrite := hub_set reach ht (congrArg Ev.op hs)
  obtain ⟨pre, -, hpre, rfl, -⟩ := reach.cut ht
  -- the dates are readings of the clock, and some seconds more
  have hclock : ∀ t, ⟨.now, .ok t⟩ ∈ own s.id pre.trace → t + 30000 ≤ maxTime := by
    intro t hnow
    obtain ⟨e, -, -, hdid⟩ := hub_did_own hpre hnow
    rw [exec_now_ok hdid]
    exact htime _
  generalize own s.id pre.trace = past at hwrite hclock
  generalize s.call = c at hwrite
  cases hwrite with
  | @challenge _ _ _ _ _ _ _ _ t t' =>
    have hissued := Nat.le_trans (Nat.le_add_right t 30000) (hclock t (by simp))
    have hexpires := Nat.le_trans (Nat.add_le_add_left (by decide : 10000 ≤ 30000) t')
      (hclock t' (by simp))
    exact ⟨hissued, hexpires⟩
  | @joinToken _ _ _ _ t => exact hclock t (by simp)

/-- What a call of the hub waits for is carried out by its text. -/
theorem reachable_sound {cfg : HubConfig} (htime : env.InTime) (reach : Reachable env cfg)
    {i : Nat} {c : Call} {op : Op} {k : Except HubError op.Resp → Service Reply}
    (hcall : cfg.calls[i]? = some (c, .await op k)) :
    texts.Sound (hub env) (textExec env) World.texts op cfg.store := by
  refine texts_sound (reachable_readable htime reach) ?_
  rintro key value ttl rfl
  have hwrite := point_redisSet (reach.obeys (body_obeys env) i c _ hcall).1
  generalize own i cfg.trace = past at hwrite
  cases hwrite <;> decide

/-- The runs of the hub over texts are those of the hub over records, seen as texts. -/
theorem redis_texts (htime : env.InTime)
    {cfg' : Config Call TextWorld TextOp.Resp HubError Reply} :
    TextReachable env cfg' ↔
      ∃ cfg, Reachable env cfg ∧ cfg' = cfg.lower texts (textExec env) World.texts :=
  reach_lower_iff fun _ _ _ _ _ reach hcall => reachable_sound htime reach hcall

/-- The environment of the sample runs, at one instant. -/
def stillEnv : Env :=
  { Sample.env 0 0 with
    clock := fun _ => 1700000000000
    clock_mono := fun _ _ _ => Nat.le_refl _ }

theorem stillEnv_inTime : stillEnv.InTime := by
  intro n
  show 1700000000000 + 30000 ≤ 8640000000000000
  decide

/-- The challenge of Alice's device lies in Redis as a text. -/
theorem redis_texts_sample : ∃ cfg', TextReachable stillEnv cfg' ∧
    (cfg'.store.redis.entry ("challenge:" ++ Sample.uuid 22)).isSome := by
  refine ⟨_, (redis_texts stillEnv_inTime).mpr
    ⟨_, Sample.run_reachable stillEnv (Sample.challenged stillEnv), rfl⟩, ?_⟩
  have hentry : ((Sample.run stillEnv (Sample.challenged stillEnv)).store.redis.entry
      (.challenge (Sample.uuid 22))).isSome = true := by
    decide +kernel
  show ((Redis.ofRecords (Sample.run stillEnv (Sample.challenged stillEnv)).store.redis).entry
    (RedisKey.text (.challenge (Sample.uuid 22)))).isSome = true
  rw [ofRecords_text, Option.isSome_map]
  exact hentry

end TroofAI.Hub
