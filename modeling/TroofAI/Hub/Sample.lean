import TroofAI.Hub.System

/-!
Concrete environments, in which the runs of the later modules take place.

Step `n` happens at 100 ms times `n`, later by `late` from step `jump` on. The id drawn
at step `n` is `uuid n`, so the ids of a run can be written down before it takes place.
A signature names the key and the text it signs.
-/

namespace TroofAI.Hub.Sample

open TroofAI.Await

def uuid (n : Nat) : String := "00000000-0000-4000-8000-" ++ padNat 12 n

theorem uuid_injective : Function.Injective uuid := by
  intro a b h
  unfold uuid at h
  have hl := congrArg String.toList h
  rw [String.toList_append, String.toList_append] at hl
  exact padNat_injective 12 (String.toList_inj.mp (List.append_cancel_left hl))

theorem uuid_chars (n : Nat) : ∀ c ∈ (uuid n).toList, isUuidChar c = true := by
  intro c hc
  unfold uuid at hc
  rw [String.toList_append] at hc
  rcases List.mem_append.mp hc with hc | hc
  · exact List.all_eq_true.mp (by decide +kernel) c hc
  · simp [isUuidChar, padNat_isDigit c hc]

theorem uuid_length (n : Nat) : 36 ≤ (uuid n).length := by
  have hprefix : "00000000-0000-4000-8000-".length = 24 := by decide
  unfold uuid
  rw [String.length_append, hprefix]
  have := le_length_padNat 12 n
  omega

def nonce (n : Nat) : String := padNat 44 n

theorem nonce_chars (n : Nat) : ∀ c ∈ (nonce n).toList, isBase64Char c = true := by
  intro c hc
  simp [isBase64Char, Char.isAlphanum, padNat_isDigit c hc]

def clock (jump late n : Nat) : Nat := 1700000000000 + 100 * n + if jump ≤ n then late else 0

theorem clock_mono (jump late : Nat) : Monotone (clock jump late) := by
  intro a b hab
  unfold clock
  split <;> split <;> omega

def sign (publicKeyPem signedMaterial : String) : String :=
  "signed by " ++ publicKeyPem ++ ": " ++ signedMaterial

def env (jump late : Nat) : Env where
  clock := clock jump late
  clock_mono := clock_mono jump late
  uuid := uuid
  uuid_injective := uuid_injective
  participantOrder _ := default
  tenantOrder := default
  uuid_chars := uuid_chars
  uuid_length := uuid_length
  nonce := nonce
  nonce_chars := nonce_chars
  rejects _ := false
  verify publicKeyPem signedMaterial signature :=
    .ok (signature = sign publicKeyPem signedMaterial)

theorem verify_sign (jump late : Nat) (publicKeyPem signedMaterial : String) :
    (env jump late).verify publicKeyPem signedMaterial (sign publicKeyPem signedMaterial) =
      .ok true := by
  simp [env]

/-- The first step of a run, with two tenants provisioned. -/
def start : HubConfig :=
  ⟨World.init ⟨[⟨"tenant-acme", "Acme"⟩, ⟨"tenant-globex", "Globex"⟩], by decide⟩, [], []⟩

def enroll (tenantId deviceId userId publicKeyPem : String) : Call :=
  .enroll ⟨tenantId, deviceId, userId, userId, publicKeyPem, .missing, .missing⟩

/-- The bind of a device with the token drawn at step `k`. -/
def bind (e : Env) (k : Nat) (meetingId participantId deviceId publicKeyPem : String) : Call :=
  .bindDevice meetingId (uuid k) deviceId
    (sign publicKeyPem (MeetingService.signedMaterial (uuid k) meetingId participantId deviceId
      (toISOString (e.clock (k + 1) + 30000))))

/-- The record of the challenge drawn from step `k` on. -/
def record (e : Env) (k : Nat) (tenantId meetingId participantId deviceId userId : String) :
    ChallengeRecord where
  challengeId := uuid k
  nonce := nonce (k + 1)
  meetingId := meetingId
  participantId := participantId
  issuedAt := e.clock (k + 2)
  expiresAt := e.clock (k + 3) + 10000
  tenantId := tenantId
  deviceId := deviceId
  userId := userId

/-- The answer of a device to a challenge. -/
def answer (challenge : ChallengeRecord) (publicKeyPem : String) : Call :=
  .verifyResponse challenge.challengeId challenge.deviceId
    (sign publicKeyPem (ChallengeService.signedMaterial challenge))

theorem start_reachable (e : Env) : Reachable e start := .init ⟨_, rfl⟩

/-- Calls one after the other. -/
def run (e : Env) (cs : List Call) : HubConfig := start.sequence (hub e) cs

theorem run_reachable (e : Env) (cs : List Call) : Reachable e (run e cs) :=
  reach_sequence cs (start_reachable e)

/-- A device of alice's, the meeting of step 4, alice's participant of step 7, and the join
token of step 10. -/
def setUp : List Call :=
  [enroll "tenant-acme" "laptop-1" "alice" "pem-1", .create "tenant-acme" "Standup",
    .addParticipant (uuid 4) "alice" "Alice", .issueJoinToken (uuid 4) (uuid 7)]

/-- The participant is bound to the device with that token. -/
def bound (e : Env) : List Call :=
  setUp ++ [bind e 10 (uuid 4) (uuid 7) "laptop-1" "pem-1"]

/-- And challenged, from step 20 to step 28. -/
def challenged (e : Env) : List Call := bound e ++ [.issueChallenge (uuid 4)]

/-- The challenge alice's device gets. -/
def challenge (e : Env) : ChallengeRecord :=
  record e 22 "tenant-acme" (uuid 4) (uuid 7) "laptop-1" "alice"

/-! ### Finding events -/

/-- A trace that holds an event with a decidable property. -/
theorem exists_event {trace : Trace} {f : HubEntry → Bool} (h : trace.any f = true) :
    ∃ later e earlier, trace = later ++ e :: earlier ∧ f e = true := by
  obtain ⟨e, he, hf⟩ := List.any_eq_true.mp h
  obtain ⟨later, earlier, ht⟩ := List.append_of_mem he
  exact ⟨later, e, earlier, ht, hf⟩

/-- Every event of a trace, with the later and the earlier ones. -/
def positions : Trace → List (Trace × HubEntry × Trace)
  | [] => []
  | e :: earlier => ([], e, earlier) :: (positions earlier).map fun x => (e :: x.1, x.2)

theorem append_of_mem_positions {trace later earlier : Trace} {e : HubEntry}
    (h : (later, e, earlier) ∈ positions trace) : trace = later ++ e :: earlier := by
  induction trace generalizing later with
  | nil => cases h
  | cons x trace ih =>
    rcases List.mem_cons.mp h with h | h
    · cases h
      rfl
    · obtain ⟨⟨later', e', earlier'⟩, hx, heq⟩ := List.mem_map.mp h
      cases heq
      rw [ih hx]
      rfl

/-- A position of a trace with a decidable property. -/
theorem exists_position {trace : Trace} {f : Trace → HubEntry → Trace → Bool}
    (h : ((positions trace).any fun x => f x.1 x.2.1 x.2.2) = true) :
    ∃ later e earlier, trace = later ++ e :: earlier ∧ f later e earlier = true := by
  obtain ⟨⟨later, e, earlier⟩, hx, hf⟩ := List.any_eq_true.mp h
  exact ⟨later, e, earlier, append_of_mem_positions hx, hf⟩

/-- The newest event with the property `f`, when no later one has the property `g`. -/
theorem exists_event_quiet {trace : Trace} {f g : HubEntry → Bool}
    (h : (trace.find? fun e => f e || g e).any f = true) :
    ∃ later e earlier, trace = later ++ e :: earlier ∧ f e = true ∧ ∀ x ∈ later, g x = false := by
  obtain ⟨e, he, hf⟩ := (Option.any_eq_true _ _).mp h
  obtain ⟨-, later, earlier, ht, hlater⟩ := List.find?_eq_some_iff_append.mp he
  refine ⟨later, e, earlier, ht, hf, fun x hx => ?_⟩
  have := hlater x hx
  simp_all

/-- Call `i` is `c` and has returned. -/
def returned (cfg : HubConfig) (i : Nat) (c : Call) : Bool :=
  match cfg.calls[i]? with
  | some (c', .done (.ok _)) => c' = c
  | _ => false

theorem calls_of_returned {cfg : HubConfig} {i : Nat} {c : Call} (h : returned cfg i c = true) :
    ∃ r, cfg.calls[i]? = some (c, .done (.ok r)) := by
  unfold returned at h
  split at h
  · next c' r hcall =>
    obtain rfl := of_decide_eq_true h
    exact ⟨r, hcall⟩
  · cases h

/-- Call `i` is `c` and has answered `reply`. -/
def answered (cfg : HubConfig) (i : Nat) (c : Call) (reply : Reply) : Bool :=
  match cfg.calls[i]? with
  | some (c', .done (.ok reply')) => c' = c && reply' = reply
  | _ => false

theorem calls_of_answered {cfg : HubConfig} {i : Nat} {c : Call} {reply : Reply}
    (h : answered cfg i c reply = true) : cfg.calls[i]? = some (c, .done (.ok reply)) := by
  unfold answered at h
  split at h
  · next c' reply' hcall =>
    obtain ⟨rfl, rfl⟩ : c' = c ∧ reply' = reply := by simpa using h
    exact hcall
  · cases h

/-- The program has come to its end. -/
def ended (p : Service Reply) : Bool :=
  match p with
  | .done _ => true
  | .await _ _ => false

theorem done_of_ended {p : Service Reply} (h : ended p = true) : ∃ r, p = .done r := by
  cases p with
  | done r => exact ⟨r, rfl⟩
  | await op k => cases h

/-- A trace with two events of a kind. -/
theorem not_atMostOnce {trace : Trace} {Use : HubEntry → Prop} {f : HubEntry → Bool}
    (huse : ∀ e, f e = true → Use e) (h : 1 < trace.countP f) : ¬ AtMostOnce Use trace := by
  intro honce
  have hany : trace.any f = true := by
    rw [List.any_eq_true]
    exact List.countP_pos_iff.mp (Nat.lt_trans Nat.zero_lt_one h)
  obtain ⟨later, e, earlier, ht, hf, hlater⟩ :=
    exists_newest (List.any_eq_true.mp hany)
  have hzero : later.countP f = 0 := List.countP_eq_zero.mpr hlater
  rw [ht, List.countP_append, List.countP_cons_of_pos hf, hzero] at h
  obtain ⟨e', he', hf'⟩ := List.countP_pos_iff.mp (by omega : 0 < earlier.countP f)
  obtain ⟨between, rest, rfl⟩ := List.append_of_mem he'
  exact honce later e between e' rest ht (huse e hf) (huse e' hf')

def isStoreOf (record : ChallengeRecord) : Op → Bool
  | .redisSet (.challenge challengeId) value ttl =>
      challengeId = record.challengeId && (value : ChallengeRecord) = record && ttl = 15
  | _ => false

/-- The event stores the challenge `record`. -/
def storesChallenge (record : ChallengeRecord) (e : HubEntry) : Bool :=
  isStoreOf record e.ev.op && e.ev.res.isOk

theorem eq_of_isStoreOf {record : ChallengeRecord} {op : Op} (h : isStoreOf record op = true) :
    op = .redisSet (.challenge record.challengeId) record 15 := by
  unfold isStoreOf at h
  split at h
  · simp only [Bool.and_eq_true, decide_eq_true_eq] at h
    obtain ⟨⟨rfl, hvalue⟩, rfl⟩ := h
    exact congrArg (fun v => Op.redisSet (.challenge record.challengeId) v 15) hvalue
  · cases h

theorem ev_of_storesChallenge {record : ChallengeRecord} {e : HubEntry}
    (h : storesChallenge record e = true) :
    e.ev = ⟨.redisSet (.challenge record.challengeId) record 15, .ok ()⟩ := by
  obtain ⟨hop, hres⟩ := Bool.and_eq_true_iff.mp h
  obtain ⟨id, c, before, op, res⟩ := e
  obtain rfl := eq_of_isStoreOf hop
  cases res with
  | ok u => rfl
  | error e => cases hres

/-- The event stores a join token. -/
def storesToken (token : String) (e : HubEntry) : Bool :=
  match e.ev.op with
  | .redisSet (.joinToken t) _ _ => t = token
  | _ => false

theorem op_of_storesToken {token : String} {e : HubEntry} (h : storesToken token e = true) :
    ∃ parsed ttl, e.ev.op = .redisSet (.joinToken token) parsed ttl := by
  unfold storesToken at h
  split at h
  · next t parsed ttl hop =>
    obtain rfl := of_decide_eq_true h
    exact ⟨parsed, ttl, hop⟩
  · cases h

/-- The event writes to a participant's row. -/
def updatesParticipant (e : HubEntry) : Bool :=
  match e.ev.op with
  | .participantUpdate _ _ => true
  | _ => false

theorem op_ne_of_not_updatesParticipant {e : HubEntry} (h : updatesParticipant e = false)
    (p : String) (data : ParticipantUpdate) : e.ev.op ≠ .participantUpdate p data := by
  intro heq
  unfold updatesParticipant at h
  rw [heq] at h
  cases h

/-- Call `c` writes the status `status` on the participant `p`. -/
def writesStatus (c : Call) (p : String) (status : TrustStatus) (e : HubEntry) : Bool :=
  decide (e.call = c) && match e.ev.op with
    | .participantUpdate id data => id = p && data.trustStatus = some status
    | _ => false

theorem writesStatus_iff {c : Call} {p : String} {status : TrustStatus} {e : HubEntry} :
    writesStatus c p status e = true ↔
      e.call = c ∧ ∃ data, e.ev.op = .participantUpdate p data ∧
        data.trustStatus = some status := by
  unfold writesStatus
  cases e.ev.op <;> simp

/-- The event has written the status `status` on the participant `p`. -/
def grants (p : String) (status : TrustStatus) (x : World × Event) : Bool :=
  (match x.2.op with
    | .participantUpdate id data => id = p && data.trustStatus = some status
    | _ => false) && x.2.res.isOk

theorem log_of_grants {log : List (World × Event)} {p : String} {status : TrustStatus}
    (h : log.any (grants p status) = true) : ∃ before w data row after,
    log = before ++ (w, ⟨.participantUpdate p data, .ok row⟩) :: after ∧
      data.trustStatus = some status := by
  obtain ⟨⟨w, op, res⟩, hx, hgrants⟩ := List.any_eq_true.mp h
  obtain ⟨before, after, hlog⟩ := List.append_of_mem hx
  obtain ⟨hop, hres⟩ := Bool.and_eq_true_iff.mp hgrants
  cases op <;> simp only [Bool.false_eq_true, Bool.and_eq_true, decide_eq_true_eq] at hop
  obtain ⟨rfl, hstatus⟩ := hop
  cases res with
  | ok row => exact ⟨before, w, _, row, after, hlog, hstatus⟩
  | error e => cases hres

/-- The event has bound the participant `p` to the device `d`. -/
def binds (p d : String) (e : HubEntry) : Bool :=
  (match e.ev.op with
    | .participantUpdate id data => id = p && data.deviceId = some d
    | _ => false) && e.ev.res.isOk

theorem ev_of_binds {p d : String} {e : HubEntry} (h : binds p d e = true) :
    ∃ data row, e.ev = ⟨.participantUpdate p data, .ok row⟩ ∧ data.deviceId = some d := by
  obtain ⟨hop, hres⟩ := Bool.and_eq_true_iff.mp h
  obtain ⟨id, c, before, op, res⟩ := e
  cases op <;> simp only [Bool.false_eq_true, Bool.and_eq_true, decide_eq_true_eq] at hop
  obtain ⟨rfl, hdevice⟩ := hop
  cases res with
  | ok row => exact ⟨_, row, rfl, hdevice⟩
  | error e => cases hres

/-- The event has answered the device `d` with the key `publicKeyPem`. -/
def readsKey (d publicKeyPem : String) (ev : Event) : Bool :=
  match ev with
  | ⟨.deviceFindUnique id, .ok (some device)⟩ => id = d && device.publicKeyPem = publicKeyPem
  | _ => false

theorem ev_of_readsKey {d publicKeyPem : String} {ev : Event}
    (h : readsKey d publicKeyPem ev = true) :
    ∃ device, ev = ⟨.deviceFindUnique d, .ok (some device)⟩ ∧
      device.publicKeyPem = publicKeyPem := by
  unfold readsKey at h
  split at h
  · next id device =>
    obtain ⟨rfl, rfl⟩ : id = d ∧ device.publicKeyPem = publicKeyPem := by simpa using h
    exact ⟨device, rfl, rfl⟩
  · cases h

end TroofAI.Hub.Sample
