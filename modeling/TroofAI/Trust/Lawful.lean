import TroofAI.History.Alone
import TroofAI.Trust.Authentic

/-!
The two operations that grant trust, held against the trust policy.

`bindDevice` writes VERIFIED without asking the policy, and `verifyResponse` asks it with a
binding that is always there. `Grounds` collects what an operation rests its grant on, and
`Lawful` is the policy's answer on the rows as they are when it writes. `grants_lawful_iff` says,
of any run, which grants of VERIFIED are lawful: those whose device has been read as the policy
asks and has been left so since (`GrantStands`). `sequence_lawful_iff` says it of calls that run
one after the other, by the state in which each starts.
-/

namespace TroofAI.Hub

open TroofAI.Await MeetingService ChallengeService

variable {env : Env} {w : World}

/-! ### Lawful grants -/

/-- What an operation rests a grant of trust on. -/
structure Grounds where
  deviceId : String
  /-- the text whose signature it has checked -/
  signedMaterial : String
  signature : String
  /-- the text is not valid after this time -/
  expiresAt : Date
  /-- the clock reading for the expiry -/
  checkedAt : Date
  /-- the clock reading for the heartbeat -/
  now : Date

/-- The grounds of a call, by the events it has performed when it writes the status: the
join token or the challenge it has read, and its clock readings. `bindDevice` reads the
clock once. -/
inductive Grounds.Of : Call → List Event → Grounds → Prop where
  | bind {meetingId joinToken deviceId signature parsed device t} :
      Grounds.Of (.bindDevice meetingId joinToken deviceId signature)
        [⟨.now, .ok t⟩, ⟨.redisDel (.joinToken joinToken), .ok ()⟩,
          ⟨.deviceFindUnique deviceId, .ok (some device)⟩,
          ⟨.redisGet (.joinToken joinToken), .ok (some parsed)⟩]
        ⟨deviceId, MeetingService.signedMaterial joinToken meetingId parsed.participantId deviceId
          (toISOString parsed.expiresAt), signature, parsed.expiresAt, t, t⟩
  | answer {challengeId deviceId signature challenge device checkedAt now t} :
      Grounds.Of (.verifyResponse challengeId deviceId signature)
        [⟨.now, .ok t⟩, ⟨.now, .ok now⟩, ⟨.redisDel (.challenge challengeId), .ok ()⟩,
          ⟨.deviceFindUnique deviceId, .ok (some device)⟩, ⟨.now, .ok checkedAt⟩,
          ⟨.redisGet (.challenge challengeId), .ok (some challenge)⟩]
        ⟨deviceId, ChallengeService.signedMaterial challenge, signature, challenge.expiresAt,
          checkedAt, now⟩

/-- The policy grants VERIFIED on the rows of `w`: the row of the device, the check of the
signature under its key, and the participant's binding; and the device has a heartbeat. -/
def Lawful (env : Env) (w : World) (p : String) (g : Grounds) : Prop :=
  ∃ device, w.devices.find? g.deviceId = some device ∧ device.lastHeartbeat.isSome ∧
    (PolicyService.evaluate
      { device := ⟨device.status, device.lastHeartbeat, device.hardwareBound⟩
        signatureValid := checkSignature env device.publicKeyPem g.signedMaterial g.signature
        challengeExpired := g.checkedAt > g.expiresAt
        hasMeetingBinding := w.BoundTo p g.deviceId } g.now).status = .verified

/-- Every device has a heartbeat: enrolment sets one. -/
theorem device_heartbeat {cfg : HubConfig} (reach : Reachable env cfg) {d : String}
    {device : Device} (h : cfg.store.devices.find? d = some device) :
    device.lastHeartbeat.isSome := by
  refine reach.throughout (fun w => ∀ device, w.devices.find? d = some device →
    device.lastHeartbeat.isSome) ?_ ?_ device h
  · rintro w ⟨tenants, rfl⟩ device hnone
    cases hnone
  · intro x hx ih device hfind
    have hstep : DeviceStep env x.before d x.ev (some device) := hfind ▸ hub_device reach hx d
    generalize x.ev = ev at hstep
    generalize hnew : some device = new at hstep
    cases hstep with
    | same => exact ih device hnew.symm
    | @update data row hrow =>
      cases hnew
      have := ih row hrow
      cases hdata : data.lastHeartbeat <;> simp [DeviceUpdate.apply, hdata, this]
    | create =>
      cases hnew
      rfl
    | @revoke row hrow =>
      cases hnew
      exact ih row hrow

/-- The rules of the policy on the row of the device. -/
theorem lawful_iff {p : String} {g : Grounds} {device : Device}
    (hfind : w.devices.find? g.deviceId = some device) (hheartbeat : device.lastHeartbeat.isSome) :
    Lawful env w p g ↔ device.status = .active ∧ g.checkedAt ≤ g.expiresAt ∧
      checkSignature env device.publicKeyPem g.signedMaterial g.signature = true ∧
      w.BoundTo p g.deviceId ∧ PolicyService.Fresh device.lastHeartbeat g.now := by
  have hrules : Lawful env w p g ↔ (PolicyService.evaluate
      { device := ⟨device.status, device.lastHeartbeat, device.hardwareBound⟩
        signatureValid := checkSignature env device.publicKeyPem g.signedMaterial g.signature
        challengeExpired := g.checkedAt > g.expiresAt
        hasMeetingBinding := w.BoundTo p g.deviceId } g.now).status = .verified := by
    constructor
    · rintro ⟨device', hfind', -, hlawful⟩
      obtain rfl : device = device' := Option.some.inj (hfind.symm.trans hfind')
      exact hlawful
    · intro hlawful
      exact ⟨device, hfind, hheartbeat, hlawful⟩
  rw [hrules, PolicyService.evaluate_verified_iff]
  simp

theorem Grounds.Of.unique {c : Call} {past : List Event} {g g' : Grounds}
    (h : Grounds.Of c past g) (h' : Grounds.Of c past g') : g = g' := by
  cases h <;> cases h' <;> rfl

/-- The event wrote VERIFIED to the row of `p`. -/
def WroteVerified (p : String) (e : HubEntry) : Prop :=
  ∃ data row, e.ev = ⟨.participantUpdate p data, .ok row⟩ ∧ data.trustStatus = some .verified

/-- Where the event grants VERIFIED, the grant is lawful on the rows it leaves. -/
def LawfulGrant (env : Env) (c : Call) (past : List Event) (w : World) (ev : Event) : Prop :=
  ∀ p data row, ev = ⟨.participantUpdate p data, .ok row⟩ → data.trustStatus = some .verified →
    ∃ g, Grounds.Of c past g ∧ Lawful env (exec env ev.op w).2 p g

variable {cfg : HubConfig} {p : String}

/-! ### Any run -/

/-- What an operation has read of the device, in `device`, still stands after the events `between`:
the newest of the revocations and re-enrolments among them is a re-enrolment with a key under which
the signature is valid, or there is none and the device was read so; and the newest heartbeat
among them is fresh, or there is none and the one that was read is. -/
structure Stands (env : Env) (between : Trace) (g : Grounds) (device : Device) : Prop where
  trusted : Newest (SetsTrust g.deviceId)
    (fun x => ∃ key, ReEnrols g.deviceId key x ∧
      checkSignature env key g.signedMaterial g.signature = true)
    (device.status = .active ∧
      checkSignature env device.publicKeyPem g.signedMaterial g.signature = true) between
  fresh : Newest (fun x => ∃ t, Beats g.deviceId t x)
    (fun x => ∃ t, Beats g.deviceId t x ∧ g.now ≤ t + PolicyService.heartbeatStaleMs)
    (PolicyService.Fresh device.lastHeartbeat g.now) between

/-- The condition for a lawful grant, on the events before it: what the operation read of the device
still stands, the token or the challenge was not past its `expires_at`, and an answer comes
from the device of the newest bind since the challenge was issued. -/
def GrantStands (env : Env) (earlier : Trace) (e : HubEntry) (p : String) : Prop :=
  ∃ g device between r rest, Grounds.Of e.call (own e.id earlier) g ∧
    earlier = between ++ r :: rest ∧ r.id = e.id ∧
    r.ev = ⟨.deviceFindUnique g.deviceId, .ok (some device)⟩ ∧ Stands env between g device ∧
    g.checkedAt ≤ g.expiresAt ∧
    ∀ challengeId signature, e.call = .verifyResponse challengeId g.deviceId signature →
      BoundSince earlier challengeId p g.deviceId

/-- An operation reads the device its grounds are about. -/
theorem Grounds.Of.read {c : Call} {i : Nat} {earlier : Trace} {g : Grounds}
    (h : Grounds.Of c (own i earlier) g) : ∃ device between r rest,
      earlier = between ++ r :: rest ∧ r.id = i ∧
      r.ev = ⟨.deviceFindUnique g.deviceId, .ok (some device)⟩ := by
  have hmem : ∃ device, ⟨.deviceFindUnique g.deviceId, .ok (some device)⟩ ∈ own i earlier := by
    generalize own i earlier = past at h
    cases h with
    | @bind _ _ _ _ _ device => exact ⟨device, by simp⟩
    | @answer _ _ _ _ device => exact ⟨device, by simp⟩
  obtain ⟨device, hmem⟩ := hmem
  obtain ⟨r, hr, hid, hev⟩ := mem_own.mp hmem
  obtain ⟨between, rest, rfl⟩ := List.append_of_mem hr
  exact ⟨device, between, r, rest, rfl, hid, hev⟩

/-- The policy on the rows as they are, by what has been done to the device since it was read. -/
theorem lawful_stands_iff (reach : Reachable env cfg) {later earlier between rest : Trace}
    {e r : HubEntry} {g : Grounds} {device : Device} {data : ParticipantUpdate} {row : Participant}
    (ht : cfg.trace = later ++ e :: earlier) (hev : e.ev = ⟨.participantUpdate p data, .ok row⟩)
    (hearlier : earlier = between ++ r :: rest)
    (hread : r.ev = ⟨.deviceFindUnique g.deviceId, .ok (some device)⟩) :
    Lawful env (exec env e.ev.op e.before).2 p g ↔ Stands env between g device ∧
      g.checkedAt ≤ g.expiresAt ∧ (exec env e.ev.op e.before).2.BoundTo p g.deviceId := by
  obtain ⟨pre, -, hpre, htrace, hstore, -⟩ := reach.cut ht
  rw [hearlier] at htrace
  have hfind := exec_deviceFindUnique_ok (hub_did hpre (htrace ▸ by simp) hread)
  have hafter : (exec env r.ev.op r.before).2.devices.find? g.deviceId = some device := by
    rw [congrArg Ev.op hread, exec_devices (by simp [Op.part])]
    exact hfind
  -- the row of the device when the status is written
  obtain ⟨now, hnow⟩ := (device_since hpre htrace hfind).1
  have hwritten : (exec env e.ev.op e.before).2.devices.find? g.deviceId = some now := by
    rw [congrArg Ev.op hev, exec_devices (by simp [Op.part]), ← hstore]
    exact hnow
  have htrusted := trusted_newest hpre
    (fun key => checkSignature env key g.signedMaterial g.signature = true) htrace hfind
  have hfresh := beats_newest hpre g.now htrace hfind
  simp only [World.Trusted, World.BeatsAt, hnow, hafter, Option.some.injEq,
    exists_eq_left'] at htrusted hfresh
  rw [lawful_iff hwritten (device_heartbeat hpre hnow)]
  constructor
  · rintro ⟨hactive, hle, hvalid, hbound, hbeat⟩
    exact ⟨⟨htrusted.mp ⟨hactive, hvalid⟩, hfresh.mp hbeat⟩, hle, hbound⟩
  · rintro ⟨hstands, hle, hbound⟩
    obtain ⟨hactive, hvalid⟩ := htrusted.mpr hstands.trusted
    exact ⟨hactive, hle, hvalid, hbound, hfresh.mpr hstands.fresh⟩

/-- Where a call has read a challenge, the binds since its issue say how the participant is bound. -/
theorem answer_since_iff (reach : Reachable env cfg) {later earlier : Trace} {e : HubEntry}
    {challengeId : String} {challenge : ChallengeRecord} (ht : cfg.trace = later ++ e :: earlier)
    (hget : ⟨.redisGet (.challenge challengeId), .ok (some challenge)⟩ ∈ own e.id earlier) :
    e.before.BoundTo challenge.participantId challenge.deviceId ↔
      BoundSince earlier challengeId challenge.participantId challenge.deviceId := by
  obtain ⟨pre, -, hpre, rfl, hstore, -⟩ := reach.cut ht
  obtain ⟨g, hg, -, hev⟩ := mem_own.mp hget
  obtain ⟨between, rest, htg⟩ := List.append_of_mem hg
  obtain ⟨since, s, older, deadline, rfl, hstored, -⟩ := read_stored hpre htg hev
  obtain ⟨ttl, hs, -⟩ := hstored.ev
  have hts : pre.trace = (between ++ g :: since) ++ s :: older := by simp [htg]
  rw [← hstore]
  exact bound_since_iff hpre hts hs

/-- A grant rests on grounds. A bind leaves the participant with the device; an answer does so where
the binds since the challenge was issued do. -/
theorem verified_grounds (reach : Reachable env cfg) {later earlier : Trace} {e : HubEntry}
    (ht : cfg.trace = later ++ e :: earlier) (h : WroteVerified p e) :
    ∃ g, Grounds.Of e.call (own e.id earlier) g ∧
      ((exec env e.ev.op e.before).2.BoundTo p g.deviceId ↔
        ∀ challengeId signature, e.call = .verifyResponse challengeId g.deviceId signature →
          BoundSince earlier challengeId p g.deviceId) := by
  obtain ⟨data, row, hev, hverified⟩ := h
  have hwrite := hub_write reach ht (congrArg Ev.op hev)
  have hdid := hub_did reach (ht ▸ by simp) hev
  generalize hcall : e.call = c at hwrite
  generalize hown : own e.id earlier = past at hwrite
  rw [congrArg Ev.op hev]
  cases hwrite with
  | bind hacc =>
    obtain ⟨-, -, rfl⟩ := hacc
    refine ⟨_, .bind, iff_of_true ((boundTo_update hdid).mpr (.inl rfl)) ?_⟩
    rintro challengeId signature ⟨⟩
  | noDevice => cases hverified
  | @verdict challengeId deviceId signature challenge device checkedAt reads now t hacc =>
    obtain rfl := hacc.device_eq
    rw [hacc.past_eq] at hown ⊢
    refine ⟨_, .answer, ?_⟩
    -- the update names no device, so the participant is bound as it was before
    have hsame : (exec env (.participantUpdate challenge.participantId
        (verdictData (ChallengeService.verdict env challenge device signature checkedAt now) t))
        e.before).2.BoundTo challenge.participantId challenge.deviceId ↔
        e.before.BoundTo challenge.participantId challenge.deviceId := by
      rw [boundTo_update hdid]
      simp [verdictData]
    have hget : ⟨.redisGet (.challenge challengeId), .ok (some challenge)⟩ ∈ own e.id earlier := by
      simp [hown]
    rw [hsame, answer_since_iff reach ht hget]
    constructor
    · rintro hsince _ _ ⟨⟩
      exact hsince
    · intro hsince
      exact hsince challengeId signature rfl

/-- A grant of VERIFIED is lawful exactly when what it rests on still stands. -/
theorem grant_lawful_iff (reach : Reachable env cfg) {later earlier : Trace} {e : HubEntry}
    (ht : cfg.trace = later ++ e :: earlier) (h : WroteVerified p e) :
    LawfulGrant env e.call (own e.id earlier) e.before e.ev ↔ GrantStands env earlier e p := by
  obtain ⟨g, hg, hbound⟩ := verified_grounds reach ht h
  obtain ⟨data, row, hev, hverified⟩ := h
  constructor
  · intro hgrant
    obtain ⟨g', hg', hlawful⟩ := hgrant p data row hev hverified
    obtain rfl := hg.unique hg'
    obtain ⟨device, between, r, rest, hearlier, hid, hread⟩ := hg.read
    obtain ⟨hstands, hle, hafter⟩ :=
      (lawful_stands_iff reach ht hev hearlier hread).mp hlawful
    exact ⟨g, device, between, r, rest, hg, hearlier, hid, hread, hstands, hle, hbound.mp hafter⟩
  · rintro ⟨g', device, between, r, rest, hg', hearlier, -, hread, hstands, hle, hsince⟩
    obtain rfl := hg.unique hg'
    rintro p' data' row' hev' -
    rw [hev] at hev'
    cases hev'
    exact ⟨g, hg, (lawful_stands_iff reach ht hev hearlier hread).mpr
      ⟨hstands, hle, hbound.mpr hsince⟩⟩

/-- In any interleaving, from the initial state on: every grant of VERIFIED is lawful on the rows
it leaves, exactly when what each rests on still stands when it is written. -/
theorem grants_lawful_iff (reach : Reachable env cfg) :
    (∀ later e earlier, cfg.trace = later ++ e :: earlier →
      LawfulGrant env e.call (own e.id earlier) e.before e.ev) ↔
    ∀ later e earlier p, cfg.trace = later ++ e :: earlier → WroteVerified p e →
      GrantStands env earlier e p := by
  constructor
  · intro hall later e earlier p ht h
    exact (grant_lawful_iff reach ht h).mp (hall later e earlier ht)
  · intro hall later e earlier ht p data row hev hverified
    have h : WroteVerified p e := ⟨data, row, hev, hverified⟩
    exact (grant_lawful_iff reach ht h).mpr (hall later e earlier p ht h) p data row hev hverified

/-! ### Calls that run alone -/

/-- The grounds of a bind that runs alone from `w`. -/
def bindGrounds (env : Env) (w : World) (meetingId joinToken deviceId signature : String)
    (parsed : JoinToken) : Grounds where
  deviceId := deviceId
  signedMaterial := MeetingService.signedMaterial joinToken meetingId parsed.participantId deviceId
    (toISOString parsed.expiresAt)
  signature := signature
  expiresAt := parsed.expiresAt
  checkedAt := env.clock (w.steps + 3)
  now := env.clock (w.steps + 3)

/-- The grounds of an answer that runs alone from `w`. -/
def answerGrounds (env : Env) (w : World) (deviceId signature : String)
    (challenge : ChallengeRecord) : Grounds where
  deviceId := deviceId
  signedMaterial := ChallengeService.signedMaterial challenge
  signature := signature
  expiresAt := challenge.expiresAt
  checkedAt := env.clock (w.steps + 1)
  now := env.clock (w.steps + 4)

/-- The condition for lawful grants of a call that starts after the run `cfg`. A bind that gets
as far as its write finds the device active with a heartbeat at most five minutes old, and
the join token not past its `expires_at`. Where the policy has nothing against an answer, the
binds since the challenge was issued leave the participant with the device that answers. -/
def GrantsLawfully (env : Env) (cfg : HubConfig) : Call → Prop
  | .bindDevice meetingId joinToken deviceId signature => ∀ parsed device,
      BindsAlone env cfg.store meetingId joinToken deviceId signature parsed device →
        device.status = .active ∧
        PolicyService.Fresh device.lastHeartbeat (env.clock (cfg.store.steps + 3)) ∧
        env.clock (cfg.store.steps + 3) ≤ parsed.expiresAt
  | .verifyResponse challengeId deviceId signature => ∀ challenge device,
      AnswersAlone env cfg.store challengeId deviceId challenge device →
        device.status = .active → env.clock (cfg.store.steps + 1) ≤ challenge.expiresAt →
        responseValid env challenge device signature = true →
        PolicyService.Fresh device.lastHeartbeat (env.clock (cfg.store.steps + 4)) →
        BoundSince cfg.trace challengeId challenge.participantId deviceId
  | _ => True

/-- In a run the binding of an answered challenge is what the binds since its issue made it. -/
theorem AnswersAlone.since_iff (reach : Reachable env cfg) {challengeId deviceId : String}
    {challenge : ChallengeRecord} {device : Device}
    (h : AnswersAlone env cfg.store challengeId deviceId challenge device) :
    cfg.store.BoundTo challenge.participantId deviceId ↔
      BoundSince cfg.trace challengeId challenge.participantId deviceId := by
  obtain ⟨deadline, hentry, -⟩ := Expiring.get_eq_some.mp h.live
  obtain ⟨since, s, earlier, ht, hstored⟩ := redis_stored reach hentry
  obtain ⟨ttl, hs, -⟩ := hstored.ev
  have hiff := bound_since_iff reach ht hs
  rwa [h.device_eq] at hiff

variable {w' : World} {before after : List (World × Event)} {data : ParticipantUpdate}
  {row : Participant}

/-- A bind that runs alone is lawful, on the rows it leaves, when the device's row and the
token's time are as the policy asks: the code asks neither. -/
theorem bind_lawful_iff (reach : Reachable env cfg)
    {meetingId joinToken deviceId signature : String}
    (hlog : aloneLog env (.bindDevice meetingId joinToken deviceId signature) cfg.store =
      before ++ (w', ⟨.participantUpdate p data, .ok row⟩) :: after) :
    ∃ parsed device,
      BindsAlone env cfg.store meetingId joinToken deviceId signature parsed device ∧
      Grounds.Of (.bindDevice meetingId joinToken deviceId signature)
        (before.map Prod.snd).reverse
        (bindGrounds env cfg.store meetingId joinToken deviceId signature parsed) ∧
      (Lawful env (exec env (.participantUpdate p data) w').2 p
          (bindGrounds env cfg.store meetingId joinToken deviceId signature parsed) ↔
        device.status = .active ∧
        PolicyService.Fresh device.lastHeartbeat (env.clock (cfg.store.steps + 3)) ∧
        env.clock (cfg.store.steps + 3) ≤ parsed.expiresAt) := by
  obtain ⟨parsed, device, hbinds, rfl, rfl, hpast, hahead⟩ := bind_log_inv hlog
  refine ⟨parsed, device, hbinds, hpast ▸ .bind, ?_⟩
  have hfind : (exec env (.participantUpdate parsed.participantId
      (bindData deviceId device (env.clock (cfg.store.steps + 3)))) w').2.devices.find? deviceId =
        some device := by
    rw [exec_devices (by simp [Op.part]), hahead.devices]
    exact hbinds.found
  rw [lawful_iff hfind (device_heartbeat reach hbinds.found), boundTo_update (alone_ok hlog).1]
  constructor
  · rintro ⟨hactive, hle, -, -, hfresh⟩
    exact ⟨hactive, hfresh, hle⟩
  · rintro ⟨hactive, hfresh, hle⟩
    -- the signature was checked and the binding has just been made
    exact ⟨hactive, hle, hbinds.valid, .inl rfl, hfresh⟩

/-- A verdict VERIFIED of a call that runs alone is lawful, on the rows it leaves, when the
participant is bound to the device: the policy has asked everything else. -/
theorem answer_lawful_iff (reach : Reachable env cfg) {challengeId deviceId signature : String}
    (hlog : aloneLog env (.verifyResponse challengeId deviceId signature) cfg.store =
      before ++ (w', ⟨.participantUpdate p data, .ok row⟩) :: after)
    (hverified : data.trustStatus = some .verified) :
    ∃ challenge device, AnswersAlone env cfg.store challengeId deviceId challenge device ∧
      (device.status = .active ∧ env.clock (cfg.store.steps + 1) ≤ challenge.expiresAt ∧
        responseValid env challenge device signature = true ∧
        PolicyService.Fresh device.lastHeartbeat (env.clock (cfg.store.steps + 4))) ∧
      Grounds.Of (.verifyResponse challengeId deviceId signature) (before.map Prod.snd).reverse
        (answerGrounds env cfg.store deviceId signature challenge) ∧
      (Lawful env (exec env (.participantUpdate p data) w').2 p
          (answerGrounds env cfg.store deviceId signature challenge) ↔
        cfg.store.BoundTo challenge.participantId deviceId) := by
  obtain ⟨challenge, device, hanswers, rfl, rfl, hpast, hahead⟩ := answer_log_inv hlog
  have hasked : (answerResult env cfg.store challenge device signature).status = .verified :=
    Option.some.inj hverified
  obtain ⟨hactive, hexpired, hvalid, -, hfresh⟩ := PolicyService.evaluate_verified_iff.mp hasked
  have hle : env.clock (cfg.store.steps + 1) ≤ challenge.expiresAt := by simpa using hexpired
  refine ⟨challenge, device, hanswers, ⟨hactive, hle, hvalid, hfresh⟩, hpast ▸ .answer, ?_⟩
  have hfind : (exec env (.participantUpdate challenge.participantId
      (verdictData (answerResult env cfg.store challenge device signature)
        (env.clock (cfg.store.steps + 5)))) w').2.devices.find? deviceId = some device := by
    rw [exec_devices (by simp [Op.part]), hahead.devices]
    exact hanswers.found
  have hbound : w'.BoundTo challenge.participantId deviceId ↔
      cfg.store.BoundTo challenge.participantId deviceId := by
    unfold World.BoundTo
    rw [hahead.participants]
  rw [lawful_iff hfind (device_heartbeat reach hanswers.found), boundTo_update (alone_ok hlog).1]
  constructor
  · rintro ⟨-, -, -, hbind | ⟨-, hbind⟩, -⟩
    · cases hbind
    · exact hbound.mp hbind
  · intro hbind
    exact ⟨hactive, hle, hvalid, .inr ⟨rfl, hbound.mpr hbind⟩, hfresh⟩

/-- The grants of a call that runs alone are lawful exactly under the condition. -/
theorem call_lawful_iff (reach : Reachable env cfg) (c : Call) :
    (∀ before w' ev after, aloneLog env c cfg.store = before ++ (w', ev) :: after →
      LawfulGrant env c (before.map Prod.snd).reverse w' ev) ↔ GrantsLawfully env cfg c := by
  constructor
  · intro hall
    cases c with
    | bindDevice meetingId joinToken deviceId signature =>
      intro parsed device hbinds
      obtain ⟨before, w', row, after, hlog⟩ := bind_log hbinds
      obtain ⟨parsed', device', hbinds', hgrounds, hiff⟩ := bind_lawful_iff reach hlog
      obtain ⟨rfl, rfl⟩ := hbinds.unique hbinds'
      obtain ⟨g, hg, hlawful⟩ := hall _ _ _ _ hlog _ _ _ rfl rfl
      obtain rfl := hg.unique hgrounds
      exact hiff.mp hlawful
    | verifyResponse challengeId deviceId signature =>
      intro challenge device hanswers hactive hle hvalid hfresh
      have hverified : (answerResult env cfg.store challenge device signature).status =
          .verified :=
        PolicyService.evaluate_verified_iff.mpr ⟨hactive, by simpa using hle, hvalid, rfl, hfresh⟩
      obtain ⟨before, w', row, after, hlog⟩ := answer_log signature hanswers
      have hstatus := congrArg some hverified
      obtain ⟨challenge', device', hanswers', -, hgrounds, hiff⟩ :=
        answer_lawful_iff reach hlog hstatus
      obtain ⟨rfl, rfl⟩ := hanswers.unique hanswers'
      obtain ⟨g, hg, hlawful⟩ := hall _ _ _ _ hlog _ _ _ rfl hstatus
      obtain rfl := hg.unique hgrounds
      exact (hanswers.since_iff reach).mp (hiff.mp hlawful)
    | _ => trivial
  · rintro hwhen before w' ev after hlog p data row rfl hverified
    have hwrite := point_participantUpdate (alone_point hlog).1
    generalize hpast : (before.map Prod.snd).reverse = past at hwrite ⊢
    cases hwrite with
    | bind hacc =>
      obtain ⟨parsed, device, hbinds, hgrounds, hiff⟩ := bind_lawful_iff reach hlog
      exact ⟨_, hpast ▸ hgrounds, hiff.mpr (hwhen parsed device hbinds)⟩
    | noDevice => cases hverified
    | verdict hacc =>
      obtain ⟨challenge, device, hanswers, ⟨hactive, hle, hvalid, hfresh⟩, hgrounds, hiff⟩ :=
        answer_lawful_iff reach hlog hverified
      have hsince := hwhen challenge device hanswers hactive hle hvalid hfresh
      exact ⟨_, hpast ▸ hgrounds, hiff.mpr ((hanswers.since_iff reach).mpr hsince)⟩

/-- From any reachable configuration on, when calls run one after the other: every grant of
VERIFIED they make is lawful on the rows it leaves, exactly when every call meets the
condition in the configuration in which it starts. -/
theorem sequence_lawful_iff (reach : Reachable env cfg) (cs : List Call) :
    (∀ later e since, (cfg.sequence (hub env) cs).trace = later ++ e :: (since ++ cfg.trace) →
      LawfulGrant env e.call (own e.id (since ++ cfg.trace)) e.before e.ev) ↔
    ∀ cs₁ c cs₂, cs = cs₁ ++ c :: cs₂ → GrantsLawfully env (cfg.sequence (hub env) cs₁) c := by
  refine (sequence_forall_iff reach cs (LawfulGrant env)).trans ?_
  refine forall_congr' fun cs₁ => forall₃_congr fun c cs₂ _ => ?_
  exact call_lawful_iff (reach_sequence cs₁ reach) c

section Sample

/-- The join token is issued and the device revoked. -/
def revokedRun : HubConfig :=
  Sample.run (Sample.env 0 0) (Sample.setUp ++ [.revoke "laptop-1"])

/-- The device presents the token. -/
def revokedBind : Call :=
  Sample.bind (Sample.env 0 0) 10 (Sample.uuid 4) (Sample.uuid 7) "laptop-1" "pem-1"

theorem revokedRun_reachable : Reachable (Sample.env 0 0) revokedRun :=
  Sample.run_reachable _ _

theorem revokedBind_grants : ∃ before w' data row after,
    aloneLog (Sample.env 0 0) revokedBind revokedRun.store =
      before ++ (w', ⟨.participantUpdate (Sample.uuid 7) data, .ok row⟩) :: after ∧
    data.trustStatus = some .verified := by
  have hany : (aloneLog (Sample.env 0 0) revokedBind revokedRun.store).any
      (Sample.grants (Sample.uuid 7) .verified) = true := by decide +kernel
  exact Sample.log_of_grants hany

/-- The run in which it does. -/
def unlawfulRun : HubConfig := revokedRun.sequence (hub (Sample.env 0 0)) [revokedBind]

theorem unlawfulRun_reachable : Reachable (Sample.env 0 0) unlawfulRun :=
  reach_sequence [revokedBind] revokedRun_reachable

/-- The condition decides that run. -/
theorem grants_lawful_iff_revoked :
    (∀ later e earlier, unlawfulRun.trace = later ++ e :: earlier →
      LawfulGrant (Sample.env 0 0) e.call (own e.id earlier) e.before e.ev) ↔
    ∀ later e earlier p, unlawfulRun.trace = later ++ e :: earlier → WroteVerified p e →
      GrantStands (Sample.env 0 0) earlier e p :=
  grants_lawful_iff unlawfulRun_reachable

/-- A revoked device binds, and the participant is VERIFIED. -/
theorem revoked_bind_unlawful :
    let env := Sample.env 0 0
    Reachable env unlawfulRun ∧
    ∃ later e earlier, unlawfulRun.trace = later ++ e :: earlier ∧
      WroteVerified (Sample.uuid 7) e ∧
      ¬ LawfulGrant env e.call (own e.id earlier) e.before e.ev := by
  obtain ⟨before, w', data, row, after, hlog, hverified⟩ := revokedBind_grants
  obtain ⟨parsed, device, hbinds, hgrounds, hiff⟩ := bind_lawful_iff revokedRun_reachable hlog
  obtain ⟨later, e, since, ht, hcall, hbefore, hev, hown⟩ :=
    alone_sequence revokedRun_reachable hlog
  refine ⟨unlawfulRun_reachable, later, e, since ++ revokedRun.trace, ht,
    ⟨data, row, hev, hverified⟩, fun hgrant => ?_⟩
  rw [hcall, hown, hbefore, hev] at hgrant
  obtain ⟨g, hg, hlawful⟩ := hgrant _ data row rfl hverified
  obtain rfl := hg.unique hgrounds
  have hactive := (hiff.mp hlawful).1
  have hrevoked : (revokedRun.store.devices.find? "laptop-1").map (·.status) = some .revoked := by
    decide +kernel
  rw [hbinds.found, Option.map_some, hactive] at hrevoked
  cases hrevoked

end Sample

end TroofAI.Hub
