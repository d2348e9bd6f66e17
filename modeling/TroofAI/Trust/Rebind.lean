import TroofAI.Trust.Lawful

/-!
Verdicts and the current binding.

A challenge names the device that the participant was bound to when it was issued, and
`verifyResponse` compares the answering device with that name. It passes the policy
`hasMeetingBinding: true` and does not read the participant's row. So when the participant
has been bound to another device in the meantime, an answer of the earlier device still
gets VERIFIED or STALE (`rebound_verdict`).
-/

namespace TroofAI.Hub

open TroofAI.Await MeetingService ChallengeService

variable {env : Env} {cfg : HubConfig} {w w' : World} {before after : List (World × Event)}
  {p : String} {data : ParticipantUpdate} {row : Participant}

/-- Where the event writes VERIFIED or STALE on a participant for `verifyResponse`, the row it
leaves is bound to the device that answered. -/
def BoundVerdict (env : Env) (c : Call) (w : World) (ev : Event) : Prop :=
  ∀ challengeId deviceId signature p data row,
    c = .verifyResponse challengeId deviceId signature → ev = ⟨.participantUpdate p data, .ok row⟩ →
    data.trustStatus = some .verified ∨ data.trustStatus = some .stale →
    (exec env ev.op w).2.BoundTo p deviceId

/-- The condition for that, when the call starts after the run `cfg`: where rules 1 to 3 of the
policy have nothing against the answer, the binds since the challenge was issued leave the
participant with the device that answers. -/
def AnswersBound (env : Env) (cfg : HubConfig) : Call → Prop
  | .verifyResponse challengeId deviceId signature => ∀ challenge device,
      AnswersAlone env cfg.store challengeId deviceId challenge device →
        device.status = .active → env.clock (cfg.store.steps + 1) ≤ challenge.expiresAt →
        responseValid env challenge device signature = true →
        BoundSince cfg.trace challengeId challenge.participantId deviceId
  | _ => True

theorem trusted_iff {challenge : ChallengeRecord} {device : Device} {signature : String} :
    ((answerResult env w challenge device signature).status = .verified ∨
      (answerResult env w challenge device signature).status = .stale) ↔
    device.status = .active ∧ env.clock (w.steps + 1) ≤ challenge.expiresAt ∧
      responseValid env challenge device signature = true := by
  refine PolicyService.evaluate_verified_or_stale_iff.trans ?_
  simp

/-- A verdict changes no binding, and neither does what the call does before. -/
theorem answer_bound_iff {challengeId deviceId signature d : String}
    (hlog : aloneLog env (.verifyResponse challengeId deviceId signature) w =
      before ++ (w', ⟨.participantUpdate p data, .ok row⟩) :: after) :
    (exec env (.participantUpdate p data) w').2.BoundTo p d ↔ w.BoundTo p d := by
  obtain ⟨challenge, device, -, rfl, rfl, -, hahead⟩ := answer_log_inv hlog
  have hsame : w'.BoundTo challenge.participantId d ↔ w.BoundTo challenge.participantId d := by
    unfold World.BoundTo
    rw [hahead.participants]
  rw [boundTo_update (alone_ok hlog).1, ← hsame]
  constructor
  · rintro (hbind | ⟨-, hbound⟩)
    · cases hbind
    · exact hbound
  · intro hbound
    exact .inr ⟨rfl, hbound⟩

/-- The verdicts of a call that runs alone are about the binding exactly under the condition. -/
theorem call_bound_iff (reach : Reachable env cfg) (c : Call) :
    (∀ before w' ev after, aloneLog env c cfg.store = before ++ (w', ev) :: after →
      BoundVerdict env c w' ev) ↔ AnswersBound env cfg c := by
  constructor
  · intro hall
    cases c with
    | verifyResponse challengeId deviceId signature =>
      intro challenge device hanswers hactive hle hvalid
      obtain ⟨before, w', row, after, hlog⟩ := answer_log signature hanswers
      have htrusted := trusted_iff.mpr ⟨hactive, hle, hvalid⟩
      have hbound := hall _ _ _ _ hlog _ _ _ _ _ _ rfl rfl
        (htrusted.imp (congrArg some) (congrArg some))
      exact (hanswers.since_iff reach).mp ((answer_bound_iff hlog).mp hbound)
    | _ => trivial
  · rintro hwhen before w' ev after hlog challengeId deviceId signature p data row rfl rfl hstatus
    rw [answer_bound_iff hlog]
    obtain ⟨challenge, device, hanswers, rfl, rfl, -⟩ := answer_log_inv hlog
    obtain ⟨hactive, hle, hvalid⟩ := trusted_iff.mp (hstatus.imp Option.some.inj Option.some.inj)
    exact (hanswers.since_iff reach).mpr (hwhen challenge device hanswers hactive hle hvalid)

/-- From any reachable configuration on, when calls run one after the other: every verdict
VERIFIED or STALE leaves the participant bound to the device that answered, exactly when at
every answer that gets one, the newest bind of the participant since `issueChallenge` read it, if
there is one, was of the answering device. -/
theorem verdicts_bound_iff (reach : Reachable env cfg) (cs : List Call) :
    (∀ later e since, (cfg.sequence (hub env) cs).trace = later ++ e :: (since ++ cfg.trace) →
      BoundVerdict env e.call e.before e.ev) ↔
    ∀ cs₁ c cs₂, cs = cs₁ ++ c :: cs₂ → AnswersBound env (cfg.sequence (hub env) cs₁) c := by
  refine (sequence_forall_iff reach cs fun c _ w ev => BoundVerdict env c w ev).trans ?_
  refine forall_congr' fun cs₁ => forall₃_congr fun c cs₂ _ => ?_
  exact call_bound_iff (reach_sequence cs₁ reach) c

section Sample

/-- Alice's participant is bound to `laptop-1` with the token of step 10 and challenged, the
challenge being drawn at step 26; then it is bound to `laptop-2` with the token of step 34. -/
def reboundRun : HubConfig :=
  let env := Sample.env 0 0
  Sample.run env (Sample.setUp ++
    [Sample.enroll "tenant-acme" "laptop-2" "alice" "pem-2",
      Sample.bind env 10 (Sample.uuid 4) (Sample.uuid 7) "laptop-1" "pem-1",
      .issueChallenge (Sample.uuid 4), .issueJoinToken (Sample.uuid 4) (Sample.uuid 7),
      Sample.bind env 34 (Sample.uuid 4) (Sample.uuid 7) "laptop-2" "pem-2"])

/-- The answer of `laptop-1`. -/
def earlierAnswer : Call :=
  Sample.answer (Sample.record (Sample.env 0 0) 26 "tenant-acme" (Sample.uuid 4) (Sample.uuid 7)
    "laptop-1" "alice") "pem-1"

theorem reboundRun_reachable : Reachable (Sample.env 0 0) reboundRun :=
  Sample.run_reachable _ _

/-- There the condition decides the answer. -/
theorem verdicts_bound_iff_rebound :
    let env := Sample.env 0 0
    (∀ later e since, (reboundRun.sequence (hub env) [earlierAnswer]).trace =
        later ++ e :: (since ++ reboundRun.trace) → BoundVerdict env e.call e.before e.ev) ↔
    ∀ cs₁ c cs₂, [earlierAnswer] = cs₁ ++ c :: cs₂ →
      AnswersBound env (reboundRun.sequence (hub env) cs₁) c :=
  verdicts_bound_iff reboundRun_reachable [earlierAnswer]

/-- The participant is bound to `laptop-2`, and the answer of `laptop-1` makes it VERIFIED. -/
theorem rebound_verdict :
    let env := Sample.env 0 0
    Reachable env reboundRun ∧
    ∃ later e since, (reboundRun.sequence (hub env) [earlierAnswer]).trace =
        later ++ e :: (since ++ reboundRun.trace) ∧
      e.call = earlierAnswer ∧ WroteVerified (Sample.uuid 7) e ∧
      (exec env e.ev.op e.before).2.BoundTo (Sample.uuid 7) "laptop-2" ∧
      ¬ BoundVerdict env e.call e.before e.ev := by
  have hany : (aloneLog (Sample.env 0 0) earlierAnswer reboundRun.store).any
      (Sample.grants (Sample.uuid 7) .verified) = true := by decide +kernel
  obtain ⟨before, w', data, row, after, hlog, hverified⟩ := Sample.log_of_grants hany
  have hsecond : reboundRun.store.BoundTo (Sample.uuid 7) "laptop-2" := by decide +kernel
  have hfirst : ¬ reboundRun.store.BoundTo (Sample.uuid 7) "laptop-1" := by decide +kernel
  obtain ⟨later, e, since, ht, hcall, hbefore, hev, -⟩ := alone_sequence reboundRun_reachable hlog
  refine ⟨reboundRun_reachable, later, e, since, ht, hcall, ⟨data, row, hev, hverified⟩, ?_, ?_⟩
  · rw [hbefore, hev]
    exact (answer_bound_iff hlog).mpr hsecond
  · rw [hcall, hbefore, hev]
    intro hverdict
    have hbound := hverdict _ _ _ _ data row rfl rfl (.inl hverified)
    exact hfirst ((answer_bound_iff hlog).mp hbound)

end Sample

end TroofAI.Hub
