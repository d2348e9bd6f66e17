import TroofAI.Trust.Latest

/-!
`verifyResponse` against the specification of its verdict.

`Spec` states what SPEC.md asks for: the text of section 4b, the checks of section 4d and the
table of section 5, of which the first matching rule decides, with the heartbeat of section 6
that VERIFIED needs. The hub goes by the same table. It differs from it in two places: a
challenge counts as unexpired at the very millisecond it expires, and a missing heartbeat counts
as fresh (`verify_refines_iff`).
-/

namespace TroofAI.Hub

open TroofAI.Await ChallengeService

namespace Spec

/-- What the table of section 5 is about. -/
structure Inputs where
  active : Bool
  unexpired : Bool
  signatureValid : Bool
  bound : Bool
  freshHeartbeat : Bool

/-- The rules in order. -/
def rules : List ((Inputs → Bool) × TrustStatus) :=
  [(fun i => !i.active, .failed), (fun i => !i.unexpired, .failed),
    (fun i => !i.signatureValid, .failed), (fun i => !i.bound, .unknown),
    (fun i => !i.freshHeartbeat, .stale)]

/-- The first rule that matches decides; if none does, all pass. -/
def status (i : Inputs) : TrustStatus :=
  ((rules.find? fun rule => rule.1 i).map Prod.snd).getD .verified

/-- Section 4b. -/
def signingString (challenge : ChallengeRecord) : String :=
  "\n".intercalate ["troofai-v1", challenge.challengeId, challenge.tenantId, challenge.deviceId,
    challenge.userId, challenge.meetingId, challenge.participantId, challenge.nonce,
    toISOString challenge.issuedAt, toISOString challenge.expiresAt]

/-- The inputs for an answer to `challenge`, checked at `checkedAt` (section 4d, step 2) and
judged at `now`: `expires_at > now()`, and a heartbeat no more than 5 minutes ago. -/
def inputs (env : Env) (challenge : ChallengeRecord) (device : Device) (signature : String)
    (bound : Bool) (checkedAt now : Date) : Inputs where
  active := device.status = .active
  unexpired := challenge.expiresAt > checkedAt
  signatureValid :=
    match env.verify device.publicKeyPem (signingString challenge) signature with
    | .ok isValid => isValid
    | .error _ => false
  bound := bound
  freshHeartbeat := device.lastHeartbeat.any fun t => now ≤ t + 5 * 60 * 1000

theorem status_eq (i : Inputs) : status i =
    if i.active = true ∧ i.unexpired = true ∧ i.signatureValid = true then
      if i.bound = true then if i.freshHeartbeat = true then .verified else .stale else .unknown
    else .failed := by
  obtain ⟨a, u, s, b, f⟩ := i
  cases a <;> cases u <;> cases s <;> cases b <;> cases f <;> rfl

end Spec

variable {env : Env} {w : World} {challengeId deviceId : String} {challenge : ChallengeRecord}
  {device : Device}

/-- The code checks the text of the specification. -/
theorem spec_signatureValid (signature : String) (bound : Bool) (checkedAt now : Date) :
    (Spec.inputs env challenge device signature bound checkedAt now).signatureValid =
      responseValid env challenge device signature := by
  have htext : Spec.signingString challenge = signedMaterial challenge :=
    (joinLines_eq_intercalate _).symm
  exact congrArg (fun text => checkSignature env device.publicKeyPem text signature) htext

/-- Where only the heartbeat is left to look at, the two agree on every heartbeat that exists. -/
theorem heartbeat_agrees_iff (lastHeartbeat : Option Date) (now : Date) :
    ((if (now : Int) - (lastHeartbeat.getD now : Nat) > PolicyService.heartbeatStaleMs
        then TrustStatus.stale else .verified) =
      if (lastHeartbeat.any fun t => now ≤ t + 5 * 60 * 1000) = true then .verified else .stale) ↔
    lastHeartbeat ≠ none := by
  cases lastHeartbeat with
  | none => simp [PolicyService.heartbeatStaleMs]
  | some t =>
    unfold Date at *
    by_cases hfresh : now ≤ t + 5 * 60 * 1000
    · have hage : ¬ (now : Int) - t > PolicyService.heartbeatStaleMs := by
        unfold PolicyService.heartbeatStaleMs
        omega
      simp [hfresh, hage]
    · have hage : (now : Int) - t > PolicyService.heartbeatStaleMs := by
        unfold PolicyService.heartbeatStaleMs
        omega
      simp [hfresh, hage]

/-- Judged for a bound device, code and specification agree if a rule before the expiry check
decides, or the one after it, or the answer is too late, or in time from a device with a
heartbeat. -/
theorem verdict_agrees_iff (signature : String) (checkedAt now : Date) :
    (verdict env challenge device signature checkedAt now).status =
        Spec.status (Spec.inputs env challenge device signature true checkedAt now) ↔
      device.status ≠ .active ∨ responseValid env challenge device signature = false ∨
        checkedAt > challenge.expiresAt ∨
        (checkedAt < challenge.expiresAt ∧ device.lastHeartbeat ≠ none) := by
  have hspec := Spec.status_eq (Spec.inputs env challenge device signature true checkedAt now)
  rw [spec_signatureValid] at hspec
  rw [hspec]
  unfold verdict
  rw [PolicyService.evaluate_status]
  dsimp only [Spec.inputs]
  by_cases hactive : device.status = .active
  · by_cases hvalid : responseValid env challenge device signature = true
    · rcases Nat.lt_trichotomy checkedAt challenge.expiresAt with hlt | heq | hgt
      · -- in time: only the heartbeat matters
        have hagree := heartbeat_agrees_iff device.lastHeartbeat now
        simp only [hactive, hvalid, Nat.lt_asymm hlt, hlt, gt_iff_lt, decide_true, decide_false,
          and_self, ↓reduceIte, ne_eq, not_true_eq_false, Bool.true_eq_false, false_or,
          true_and] at hagree ⊢
        exact hagree
      · -- at the moment of expiry the code goes on and the specification stops
        subst heq
        simp only [hactive, hvalid, gt_iff_lt, lt_irrefl, decide_true, decide_false, and_self,
          ↓reduceIte, Bool.false_eq_true, false_and, and_false]
        split <;> simp
      · -- too late for both
        simp [hactive, hvalid, hgt, Nat.lt_asymm hgt]
    · simp [hvalid]
  · simp [hactive]

/-- An answer that is handled alone, while the store calls it needs are answered, of the device
that is named and still bound: the status written is that of the specification, exactly if the
device is revoked, its signature is not valid, the challenge has expired, or it has not and the
device has sent a heartbeat. -/
theorem verify_refines_iff (signature : String)
    (h : AnswersAlone env w challengeId deviceId challenge device)
    (hbound : w.BoundTo challenge.participantId deviceId) :
    (aloneStore env (.verifyResponse challengeId deviceId signature) w).statusOf
        challenge.participantId =
      some (Spec.status (Spec.inputs env challenge device signature
        (w.BoundTo challenge.participantId deviceId) (env.clock (w.steps + 1))
        (env.clock (w.steps + 4)))) ↔
    device.status ≠ .active ∨ responseValid env challenge device signature = false ∨
      env.clock (w.steps + 1) > challenge.expiresAt ∨
      (env.clock (w.steps + 1) < challenge.expiresAt ∧ device.lastHeartbeat ≠ none) := by
  rw [answer_status signature h, Option.some_inj, decide_eq_true hbound]
  exact verdict_agrees_iff signature _ _

section Sample

/-- The clock stands at the expiry of alice's challenge when her answer is checked. -/
def lastMoment : Env := Sample.env 29 9500

/-- The valid answer of alice's device. -/
def aliceSignature (env : Env) : String :=
  Sample.sign "pem-1" (signedMaterial (Sample.challenge env))

/-- Alice's challenge is live, for her device, which is bound. -/
def answerable (env : Env) (w : World) : Bool :=
  decide (w.redis.get (env.clock w.steps) (.challenge (Sample.uuid 22)) =
      some (Sample.challenge env)) &&
    decide (w.BoundTo (Sample.uuid 7) "laptop-1") &&
    (w.devices.find? "laptop-1").any fun device =>
      device.publicKeyPem = "pem-1" && device.status = .active && device.lastHeartbeat ≠ none

theorem answers_of_answerable {env : Env} {w : World} (hquiet : ∀ n, env.rejects n = false)
    (h : answerable env w = true) : ∃ device, device.publicKeyPem = "pem-1" ∧
      device.status = .active ∧ device.lastHeartbeat ≠ none ∧
      AnswersAlone env w (Sample.uuid 22) "laptop-1" (Sample.challenge env) device ∧
      w.BoundTo (Sample.challenge env).participantId "laptop-1" := by
  simp only [answerable, Bool.and_eq_true, decide_eq_true_eq] at h
  obtain ⟨⟨hget, hbound⟩, hdevice⟩ := h
  obtain ⟨device, hfound, hfields⟩ := (Option.any_eq_true _ _).mp hdevice
  simp only [Bool.and_eq_true, decide_eq_true_eq] at hfields
  obtain ⟨⟨hkey, hactive⟩, hheartbeat⟩ := hfields
  obtain ⟨row, hrow, -⟩ := id hbound
  have hisSome : (w.participants.find? (Sample.challenge env).participantId).isSome := by
    show (w.participants.find? (Sample.uuid 7)).isSome = true
    rw [hrow]
    rfl
  exact ⟨device, hkey, hactive, hheartbeat, ⟨hget, rfl, hfound, hisSome, fun _ _ => hquiet _⟩,
    hbound⟩

/-- An answer in good time gets the status of the specification. -/
theorem verify_refines_sample : ∃ cfg device, Reachable (Sample.env 0 0) cfg ∧
    (aloneStore (Sample.env 0 0) (.verifyResponse (Sample.uuid 22) "laptop-1" "forged")
        cfg.store).statusOf (Sample.challenge (Sample.env 0 0)).participantId =
      some (Spec.status (Spec.inputs (Sample.env 0 0) (Sample.challenge (Sample.env 0 0)) device
        "forged" (cfg.store.BoundTo (Sample.challenge (Sample.env 0 0)).participantId "laptop-1")
        ((Sample.env 0 0).clock (cfg.store.steps + 1))
        ((Sample.env 0 0).clock (cfg.store.steps + 4)))) := by
  have hrun := Sample.run_reachable (Sample.env 0 0) (Sample.challenged (Sample.env 0 0))
  have hready : answerable (Sample.env 0 0)
      (Sample.run (Sample.env 0 0) (Sample.challenged (Sample.env 0 0))).store = true := by
    decide +kernel
  have htime : (Sample.env 0 0).clock
      ((Sample.run (Sample.env 0 0) (Sample.challenged (Sample.env 0 0))).store.steps + 1) <
        (Sample.challenge (Sample.env 0 0)).expiresAt := by decide +kernel
  generalize Sample.run (Sample.env 0 0) (Sample.challenged (Sample.env 0 0)) = cfg
    at hrun hready htime
  obtain ⟨device, -, -, hheartbeat, hanswers, hbound⟩ :=
    answers_of_answerable (fun _ => rfl) hready
  exact ⟨cfg, device, hrun, (verify_refines_iff "forged" hanswers hbound).mpr
    (.inr (.inr (.inr ⟨htime, hheartbeat⟩)))⟩

/-- At the moment of expiry alice is VERIFIED where the specification says FAILED. -/
theorem verified_at_expiry : ∃ cfg device, Reachable lastMoment cfg ∧
    AnswersAlone lastMoment cfg.store (Sample.uuid 22) "laptop-1" (Sample.challenge lastMoment)
      device ∧
    cfg.store.BoundTo (Sample.challenge lastMoment).participantId "laptop-1" ∧
    (aloneStore lastMoment
      (.verifyResponse (Sample.uuid 22) "laptop-1" (aliceSignature lastMoment))
      cfg.store).statusOf (Sample.challenge lastMoment).participantId = some .verified ∧
    Spec.status (Spec.inputs lastMoment (Sample.challenge lastMoment) device
      (aliceSignature lastMoment)
      (cfg.store.BoundTo (Sample.challenge lastMoment).participantId "laptop-1")
      (lastMoment.clock (cfg.store.steps + 1)) (lastMoment.clock (cfg.store.steps + 4))) =
        .failed := by
  have hrun := Sample.run_reachable lastMoment (Sample.challenged lastMoment)
  have hready : answerable lastMoment
      (Sample.run lastMoment (Sample.challenged lastMoment)).store = true := by decide +kernel
  have htime : lastMoment.clock
      ((Sample.run lastMoment (Sample.challenged lastMoment)).store.steps + 1) =
        (Sample.challenge lastMoment).expiresAt := by decide +kernel
  have hstatus : (aloneStore lastMoment
      (.verifyResponse (Sample.uuid 22) "laptop-1" (aliceSignature lastMoment))
      (Sample.run lastMoment (Sample.challenged lastMoment)).store).statusOf
      (Sample.challenge lastMoment).participantId = some .verified := by decide +kernel
  generalize Sample.run lastMoment (Sample.challenged lastMoment) = cfg
    at hrun hready htime hstatus
  obtain ⟨device, -, -, -, hanswers, hbound⟩ := answers_of_answerable (fun _ => rfl) hready
  refine ⟨cfg, device, hrun, hanswers, hbound, hstatus, ?_⟩
  rw [Spec.status_eq, htime]
  simp [Spec.inputs]

end Sample

end TroofAI.Hub
