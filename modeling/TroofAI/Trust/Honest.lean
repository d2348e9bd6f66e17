import TroofAI.History.Exact
import TroofAI.Trust.Latest

/-!
Honest answers.

A device that answers in time, with a signature valid under its stored key, is judged VERIFIED
as long as the challenge is stored (`honest_verified`). `verifyResponse` deletes the challenge
of every message that names it together with its device, whatever the signature is. So an
answer cannot be pre-empted by other messages (`honest_not_preempted`), but it is by one of
those (`preempted_answer`).
-/

namespace TroofAI.Hub

open TroofAI.Await MeetingService ChallengeService

/-- An answer to the challenge `record`, stored at `storedAt`, that is handled alone from `w` on,
finds the device ACTIVE with a fresh heartbeat, and comes before `expires_at` and before Redis
drops the record. No store call is rejected. -/
structure Timely (env : Env) (w : World) (record : ChallengeRecord) (storedAt : Date)
    (device : Device) : Prop where
  found : w.devices.find? record.deviceId = some device
  active : device.status = .active
  fresh : PolicyService.Fresh device.lastHeartbeat (env.clock (w.steps + 4))
  alive : env.clock w.steps ≤ storedAt + 15000
  inTime : env.clock (w.steps + 1) ≤ record.expiresAt
  accepted : ∀ k ∈ [0, 2, 3, 6, 7], env.rejects (w.steps + k) = false

/-- And the answer `signature` is the device's own: valid under the key that is stored now. -/
structure HonestAnswer (env : Env) (w : World) (record : ChallengeRecord) (storedAt : Date)
    (device : Device) (signature : String) : Prop extends Timely env w record storedAt device where
  valid :
    env.verify device.publicKeyPem (ChallengeService.signedMaterial record) signature = .ok true

variable {env : Env} {cfg : HubConfig} {cid signature : String} {record : ChallengeRecord}
  {later older : Trace} {s : HubEntry} {ttl : Nat} {device : Device}

/-- The rows of the meeting and the tenant of a challenge are there. -/
theorem issued_rows (reach : Reachable env cfg) (ht : cfg.trace = later ++ s :: older)
    (hs : s.ev = ⟨.redisSet (.challenge cid) record ttl, .ok ()⟩) :
    (cfg.store.tenants.find? record.tenantId).isSome ∧
      (cfg.store.meetings.find? record.meetingId).isSome := by
  obtain ⟨m, rows, row, hm, -, -, -, -, -, htenant, -⟩ := (stored_issued reach ht hs).reads
  have hread : ⟨.meetingFindUnique record.meetingId, .ok (some m)⟩ ∈ own s.id cfg.trace := by
    rw [ht, own_append, own_cons_self]
    simp [hm]
  have hmeeting := meeting_read reach hread
  constructor
  · rw [← htenant]
    exact meeting_tenant reach hmeeting
  · rw [hmeeting]
    rfl

/-- A challenge that is still stored meets all that an answer of its device needs to be judged. -/
theorem issued_answers (reach : Reachable env cfg) (ht : cfg.trace = later ++ s :: older)
    (hs : s.ev = ⟨.redisSet (.challenge cid) record ttl, .ok ()⟩)
    (hkept : ∀ x ∈ later, x.ev ≠ ⟨.redisDel (.challenge cid), .ok ()⟩)
    (hfound : cfg.store.devices.find? record.deviceId = some device)
    (halive : env.clock cfg.store.steps ≤ env.clock s.before.steps + 15000)
    (haccepted : ∀ k ∈ [0, 2, 3, 6, 7], env.rejects (cfg.store.steps + k) = false) :
    AnswersAlone env cfg.store cid record.deviceId record device where
  live := by
    have hentry := record_kept reach ht hs hkept
    have hissued := (stored_issued reach ht hs).event
    rw [hs] at hissued
    cases hissued
    exact Expiring.get_eq_some.mpr ⟨_, hentry, halive⟩
  device_eq := rfl
  found := hfound
  row := by
    obtain ⟨d, row, hrow, -⟩ := bound_stays reach ht (stored_bound reach ht hs)
    rw [hrow]
    rfl
  accepted := by
    intro k hk
    apply haccepted
    simp only [List.mem_cons, List.not_mem_nil, or_false] at hk ⊢
    omega

/-- A valid answer to it gets the verdict of the policy, and the participant has that status
after it. -/
theorem issued_verdict (reach : Reachable env cfg) (ht : cfg.trace = later ++ s :: older)
    (hs : s.ev = ⟨.redisSet (.challenge cid) record ttl, .ok ()⟩)
    (hkept : ∀ x ∈ later, x.ev ≠ ⟨.redisDel (.challenge cid), .ok ()⟩)
    (hfound : cfg.store.devices.find? record.deviceId = some device)
    (halive : env.clock cfg.store.steps ≤ env.clock s.before.steps + 15000)
    (haccepted : ∀ k ∈ [0, 2, 3, 6, 7], env.rejects (cfg.store.steps + k) = false)
    (hvalid : responseValid env record device signature = true) :
    let result := answerResult env cfg.store record device signature
    aloneResult env (.verifyResponse cid record.deviceId signature) cfg.store =
      .ok (.verified ⟨true, result.status, result.reason⟩) ∧
    (aloneStore env (.verifyResponse cid record.deviceId signature) cfg.store).statusOf
      record.participantId = some result.status := by
  have hanswers := issued_answers reach ht hs hkept hfound halive haccepted
  obtain ⟨htenant, hmeeting⟩ := issued_rows reach ht hs
  have hreply := answer_reply signature hanswers (haccepted 7 (by simp)) htenant hmeeting
  rw [hvalid] at hreply
  exact ⟨hreply, answer_status signature hanswers⟩

/-- An honest answer to a challenge that is still stored is judged VERIFIED. -/
theorem honest_verified (reach : Reachable env cfg) (ht : cfg.trace = later ++ s :: older)
    (hs : s.ev = ⟨.redisSet (.challenge cid) record ttl, .ok ()⟩)
    (hkept : ∀ x ∈ later, x.ev ≠ ⟨.redisDel (.challenge cid), .ok ()⟩)
    (h : HonestAnswer env cfg.store record (env.clock s.before.steps) device signature) :
    (∃ reason, aloneResult env (.verifyResponse cid record.deviceId signature) cfg.store =
      .ok (.verified ⟨true, .verified, reason⟩)) ∧
    (aloneStore env (.verifyResponse cid record.deviceId signature) cfg.store).statusOf
      record.participantId = some .verified := by
  have hvalid : responseValid env record device signature = true := by
    unfold responseValid checkSignature
    rw [h.valid]
  have hverdict : (answerResult env cfg.store record device signature).status = .verified := by
    have hexpired : decide (env.clock (cfg.store.steps + 1) > record.expiresAt) = false := by
      simpa using h.inTime
    exact PolicyService.evaluate_verified_iff.mpr ⟨h.active, hexpired, hvalid, rfl, h.fresh⟩
  obtain ⟨hreply, hstatus⟩ := issued_verdict reach ht hs hkept h.found h.alive h.accepted hvalid
  rw [hverdict] at hreply hstatus
  exact ⟨⟨_, hreply⟩, hstatus⟩

/-- A challenge is deleted by a message that names it and its device. -/
theorem taken_by_answer (reach : Reachable env cfg) (hs : s ∈ cfg.trace)
    (hset : s.ev.op = .redisSet (.challenge cid) record ttl) {x : HubEntry} (hx : x ∈ cfg.trace)
    (hdel : x.ev.op = .redisDel (.challenge cid)) :
    ∃ signature, x.call = .verifyResponse cid record.deviceId signature := by
  obtain ⟨newer, earlier, htx⟩ := List.append_of_mem hx
  have htake := hub_del reach htx hdel
  generalize hcall : x.call = c at htake
  generalize hown : own x.id earlier = past at htake
  cases htake with
  | @verify _ deviceId signature challenge device checkedAt _ hacc =>
    have hread : ⟨.redisGet (.challenge cid), .ok (some challenge)⟩ ∈ own x.id earlier := by
      rw [hown, hacc.past_eq]
      simp
    obtain ⟨g, hg, -, hgev⟩ := mem_own.mp hread
    have hgmem : g ∈ cfg.trace := by simp [htx, hg]
    have hsame := read_record reach hs hset hgmem hgev
    exact ⟨signature, by rw [← hacc.device_eq, hsame]⟩

/-- So it stays stored as long as there is no such message. -/
theorem kept_unless_named (reach : Reachable env cfg) (ht : cfg.trace = later ++ s :: older)
    (hs : s.ev = ⟨.redisSet (.challenge cid) record ttl, .ok ()⟩)
    (hothers : ∀ x ∈ later, ∀ signature, x.call ≠ .verifyResponse cid record.deviceId signature) :
    ∀ x ∈ later, x.ev ≠ ⟨.redisDel (.challenge cid), .ok ()⟩ := by
  intro x hx hev
  obtain ⟨signature', hcall⟩ := taken_by_answer reach (ht ▸ by simp) (congrArg Ev.op hs)
    (ht ▸ List.mem_append_left _ hx) (congrArg Ev.op hev)
  exact hothers x hx signature' hcall

/-- A challenge was stored by the event `s`; whatever calls have run since, in any interleaving,
as long as none of them was a message that names the challenge and its device. Then an honest
answer that is handled now is judged VERIFIED, and the participant is VERIFIED after it. -/
theorem honest_not_preempted (reach : Reachable env cfg) (ht : cfg.trace = later ++ s :: older)
    (hs : s.ev = ⟨.redisSet (.challenge cid) record ttl, .ok ()⟩)
    (hothers : ∀ x ∈ later, ∀ signature, x.call ≠ .verifyResponse cid record.deviceId signature)
    (h : HonestAnswer env cfg.store record (env.clock s.before.steps) device signature) :
    (∃ reason, (cfg.alone (hub env) (.verifyResponse cid record.deviceId signature)).calls[
        cfg.calls.length]? = some (.verifyResponse cid record.deviceId signature,
          .done (.ok (.verified ⟨true, .verified, reason⟩)))) ∧
    (cfg.alone (hub env) (.verifyResponse cid record.deviceId signature)).store.statusOf
      record.participantId = some .verified := by
  have hkept := kept_unless_named reach ht hs hothers
  obtain ⟨⟨reason, hreply⟩, hstatus⟩ := honest_verified reach ht hs hkept h
  refine ⟨⟨reason, ?_⟩, hstatus⟩
  rw [← hreply]
  exact List.getElem?_concat_length

section Sample

/-- In the world `w` the device of the challenge `record`, stored at step `k`, is there in time,
with the key `publicKeyPem`. -/
def timelyAt (record : ChallengeRecord) (k : Nat) (publicKeyPem : String) (w : World) : Bool :=
  let env := Sample.env 0 0
  (w.devices.find? record.deviceId).any (fun device =>
    device.publicKeyPem = publicKeyPem && device.status = .active &&
    device.lastHeartbeat.all fun t =>
      env.clock (w.steps + 4) ≤ t + PolicyService.heartbeatStaleMs) &&
  decide (env.clock w.steps ≤ env.clock k + 15000) &&
  decide (env.clock (w.steps + 1) ≤ record.expiresAt)

theorem timely_of_timelyAt {k : Nat} {publicKeyPem : String} {w : World}
    (h : timelyAt record k publicKeyPem w = true) :
    ∃ device, device.publicKeyPem = publicKeyPem ∧
      Timely (Sample.env 0 0) w record ((Sample.env 0 0).clock k) device := by
  simp only [timelyAt, Bool.and_eq_true, decide_eq_true_eq] at h
  obtain ⟨⟨hdevice, halive⟩, hinTime⟩ := h
  obtain ⟨device, hfound, hfields⟩ := (Option.any_eq_true _ _).mp hdevice
  simp only [Bool.and_eq_true, decide_eq_true_eq] at hfields
  obtain ⟨⟨hkey, hactive⟩, hfresh⟩ := hfields
  refine ⟨device, hkey, hfound, hactive, ?_, halive, hinTime, fun _ _ => rfl⟩
  intro t ht
  rw [ht, Option.all_some] at hfresh
  exact of_decide_eq_true hfresh

/-- The answer of alice's device. -/
def honestSignature : String :=
  Sample.sign "pem-1" (ChallengeService.signedMaterial (Sample.challenge (Sample.env 0 0)))

theorem honest_of_timelyAt {w : World}
    (h : timelyAt (Sample.challenge (Sample.env 0 0)) 26 "pem-1" w = true) :
    ∃ device, HonestAnswer (Sample.env 0 0) w (Sample.challenge (Sample.env 0 0))
      ((Sample.env 0 0).clock 26) device honestSignature := by
  obtain ⟨device, hkey, htimely⟩ := timely_of_timelyAt h
  refine ⟨device, htimely, ?_⟩
  rw [hkey, honestSignature]
  exact Sample.verify_sign 0 0 _ _

/-- The event stores the challenge at step 26. -/
def storesAt26 (e : HubEntry) : Bool :=
  Sample.storesChallenge (Sample.challenge (Sample.env 0 0)) e && decide (e.before.steps = 26)

/-- The message names the challenge and its device. -/
def namesChallenge (e : HubEntry) : Bool :=
  match e.call with
  | .verifyResponse challengeId deviceId _ => challengeId = Sample.uuid 22 && deviceId = "laptop-1"
  | _ => false

/-- Another client has answered in the name of another device. -/
def otherDeviceRun : HubConfig :=
  Sample.run (Sample.env 0 0) (Sample.challenged (Sample.env 0 0) ++
    [.verifyResponse (Sample.uuid 22) "laptop-9" "forged"])

/-- The honest answer is judged VERIFIED all the same. -/
theorem honest_not_preempted_sample :
    let answer := Sample.answer (Sample.challenge (Sample.env 0 0)) "pem-1"
    let after := otherDeviceRun.alone (hub (Sample.env 0 0)) answer
    (∃ reason, after.calls[otherDeviceRun.calls.length]? =
      some (answer, .done (.ok (.verified ⟨true, .verified, reason⟩)))) ∧
    after.store.statusOf (Sample.uuid 7) = some .verified := by
  have hany : (otherDeviceRun.trace.find? fun e =>
      storesAt26 e || namesChallenge e).any storesAt26 = true := by decide +kernel
  have htimely : timelyAt (Sample.challenge (Sample.env 0 0)) 26 "pem-1" otherDeviceRun.store =
      true := by decide +kernel
  obtain ⟨later, s, older, ht, hs, hquiet⟩ := Sample.exists_event_quiet hany
  obtain ⟨hstores, hstep⟩ := Bool.and_eq_true_iff.mp hs
  obtain ⟨device, hanswer⟩ := honest_of_timelyAt htimely
  rw [← of_decide_eq_true hstep] at hanswer
  refine honest_not_preempted (Sample.run_reachable _ _) ht (Sample.ev_of_storesChallenge hstores)
    ?_ hanswer
  intro x hx signature hcall
  have := hquiet x hx
  simp [namesChallenge, hcall, Sample.challenge, Sample.record] at this

/-- Another client has answered in the name of alice's device, without its key. -/
def preemptedRun : HubConfig :=
  Sample.run (Sample.env 0 0) (Sample.challenged (Sample.env 0 0) ++
    [.verifyResponse (Sample.uuid 22) "laptop-1" "forged"])

/-- The honest answer, in time, is refused, and the participant is FAILED. -/
theorem preempted_answer :
    let env := Sample.env 0 0
    let answer := Sample.answer (Sample.challenge env) "pem-1"
    Reachable env preemptedRun ∧
    (∃ s ∈ preemptedRun.trace, ∃ device,
      s.ev = ⟨.redisSet (.challenge (Sample.uuid 22)) (Sample.challenge env) 15, .ok ()⟩ ∧
      HonestAnswer env preemptedRun.store (Sample.challenge env) (env.clock s.before.steps) device
        honestSignature) ∧
    env.verify "pem-1" (ChallengeService.signedMaterial (Sample.challenge env)) "forged" =
      .ok false ∧
    aloneResult env answer preemptedRun.store =
      .ok (.verified ⟨false, .failed, "Challenge expired or not found"⟩) ∧
    (preemptedRun.alone (hub env) answer).store.statusOf (Sample.uuid 7) = some .failed := by
  intro env answer
  have hany : preemptedRun.trace.any storesAt26 = true := by decide +kernel
  have htimely : timelyAt (Sample.challenge (Sample.env 0 0)) 26 "pem-1" preemptedRun.store =
      true := by decide +kernel
  have hforged : (Sample.env 0 0).verify "pem-1" (ChallengeService.signedMaterial
      (Sample.challenge (Sample.env 0 0))) "forged" = .ok false := by decide +kernel
  have hreply : aloneResult (Sample.env 0 0) (Sample.answer (Sample.challenge (Sample.env 0 0))
      "pem-1") preemptedRun.store =
        .ok (.verified ⟨false, .failed, "Challenge expired or not found"⟩) := by decide +kernel
  have hstatus : (preemptedRun.alone (hub (Sample.env 0 0)) (Sample.answer
      (Sample.challenge (Sample.env 0 0)) "pem-1")).store.statusOf (Sample.uuid 7) =
        some .failed := by decide +kernel
  obtain ⟨s, hmem, hs⟩ := List.any_eq_true.mp hany
  obtain ⟨hstores, hstep⟩ := Bool.and_eq_true_iff.mp hs
  obtain ⟨device, hanswer⟩ := honest_of_timelyAt htimely
  rw [← of_decide_eq_true hstep] at hanswer
  exact ⟨Sample.run_reachable _ _, ⟨s, hmem, device, Sample.ev_of_storesChallenge hstores, hanswer⟩,
    hforged, hreply, hstatus⟩

end Sample

end TroofAI.Hub
