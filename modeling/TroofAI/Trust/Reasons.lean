import TroofAI.Trust.States

/-!
What a participant's row tells.

Each status comes with the reason that the hub gives for it and with the times that go with that
reason. UNKNOWN is the status of those who have neither been bound nor challenged, and of nobody else:
rule 4 of the policy, the one verdict UNKNOWN, is never reached (`row_told`).
-/

namespace TroofAI.Hub

open TroofAI.Await MeetingService ChallengeService

/-- The verdicts on a participant that is bound, with their reasons. -/
inductive Verdict : TrustStatus → String → Prop where
  | revoked : Verdict .failed "Device has been revoked"
  | expired : Verdict .failed "Challenge response expired"
  | invalid : Verdict .failed "Invalid signature — key mismatch or tampering"
  | stale (seconds : Int) : 300 ≤ seconds →
      Verdict .stale ("Device heartbeat stale (" ++ toString seconds ++ "s ago)")
  | verified (hardwareBound : Bool) :
      Verdict .verified ("Enrolled device, valid signature" ++
        if hardwareBound then ", hardware-backed key" else "")

/-- What a row can tell of its participant. -/
inductive Participant.Told (row : Participant) : Prop where
  | joined : row.trustStatus = .unknown → row.statusReason = none → row.deviceId = none →
      row.boundAt = none → row.lastChallengeAt = none → row.Told
  | bound (hardwareBound : Bool) : row.trustStatus = .verified →
      row.statusReason = some ("Device bound and enrolled" ++
        if hardwareBound then " (hardware-backed)" else "") →
      row.deviceId.isSome → row.boundAt.isSome → row.Told
  | noDevice : row.trustStatus = .failed →
      row.statusReason = some "No device binding — cannot verify" →
      (row.deviceId.isSome ↔ row.boundAt.isSome) → row.lastChallengeAt.isSome → row.Told
  | judged {reason : String} : Verdict row.trustStatus reason → row.statusReason = some reason →
      row.deviceId.isSome → row.boundAt.isSome → row.lastChallengeAt.isSome → row.Told

/-- The policy on a participant that is bound. -/
theorem evaluate_verdict {input : PolicyInput} {now : Date}
    (hbinding : input.hasMeetingBinding = true) :
    Verdict (PolicyService.evaluate input now).status
      (PolicyService.evaluate input now).reason := by
  unfold PolicyService.evaluate
  split
  · exact .revoked
  split
  · exact .expired
  split
  · exact .invalid
  rw [hbinding]
  simp only [Bool.not_true, Bool.false_eq_true, ↓reduceIte]
  split
  · next hstale =>
    refine .stale _ ?_
    unfold PolicyService.roundSeconds
    unfold PolicyService.heartbeatStaleMs at hstale
    omega
  · exact .verified _

variable {env : Env} {cfg : HubConfig} {p : String}

theorem Participant.Told.boundAt {row : Participant} (h : row.Told) :
    row.deviceId.isSome ↔ row.boundAt.isSome := by
  cases h with
  | joined _ _ hdevice hbound => simp [hdevice, hbound]
  | bound _ _ _ hdevice hbound => simp [hdevice, hbound]
  | noDevice _ _ hbound => exact hbound
  | judged _ _ hdevice hbound => simp [hdevice, hbound]

/-- UNKNOWN are those who have neither been bound nor challenged. -/
theorem Participant.Told.unknown_iff {row : Participant} (h : row.Told) :
    row.trustStatus = .unknown ↔ row.deviceId = none ∧ row.lastChallengeAt = none := by
  cases h with
  | joined hstatus _ hdevice _ hchallenged => simp [hstatus, hdevice, hchallenged]
  | bound _ hstatus _ hdevice =>
    rw [hstatus]
    refine ⟨nofun, ?_⟩
    rintro ⟨hnone, -⟩
    simp [hnone] at hdevice
  | noDevice hstatus _ _ hchallenged =>
    rw [hstatus]
    refine ⟨nofun, ?_⟩
    rintro ⟨-, hnone⟩
    simp [hnone] at hchallenged
  | judged hverdict _ hdevice =>
    constructor
    · intro hstatus
      rw [hstatus] at hverdict
      cases hverdict
    · rintro ⟨hnone, -⟩
      simp [hnone] at hdevice

/-- What a write leaves in a row, when a verdict is only written to one that is bound. -/
theorem ParticipantWrite.told {c : Call} {past : List Event} {data : ParticipantUpdate}
    (h : ParticipantWrite env c past p data) {row : Participant} (htold : row.Told)
    (hverdict : (∃ challengeId deviceId signature,
      c = .verifyResponse challengeId deviceId signature) → row.deviceId.isSome) :
    (data.apply row).Told := by
  cases h with
  | @bind _ _ _ _ _ device => exact .bound device.hardwareBound rfl rfl rfl rfl
  | noDevice => exact .noDevice rfl rfl htold.boundAt rfl
  | verdict =>
    have hdevice := hverdict ⟨_, _, _, rfl⟩
    exact .judged (evaluate_verdict rfl) rfl hdevice (htold.boundAt.mp hdevice) rfl

/-- In every reachable state each row tells one of these, and UNKNOWN are those who have neither been
bound nor challenged. -/
theorem row_told (reach : Reachable env cfg) {row : Participant}
    (hrow : cfg.store.participants.find? p = some row) :
    row.Told ∧ (row.trustStatus = .unknown ↔
      row.deviceId = none ∧ row.lastChallengeAt = none) := by
  have htold : row.Told := by
    refine reach.throughout (fun w => ∀ row, w.participants.find? p = some row → row.Told)
      ?_ ?_ row hrow
    · rintro w ⟨tenants, rfl⟩ row ⟨⟩
    · intro x hx ih row hrow
      have hstep : ParticipantStep env x.before p x.ev (some row) :=
        hrow ▸ hub_participant reach hx p
      obtain ⟨later, earlier, ht⟩ := List.append_of_mem hx
      generalize hev : x.ev = ev at hstep
      generalize hnew : some row = new at hstep
      cases hstep with
      | same => exact ih row hnew.symm
      | @update data old hold =>
        cases hnew
        refine (hub_write reach ht (congrArg Ev.op hev)).told (ih old hold) ?_
        rintro ⟨challengeId, deviceId, signature, hcall⟩
        obtain ⟨d, r, hr, hd⟩ := verdict_bound reach ht hcall (congrArg Ev.op hev)
        rw [hold] at hr
        cases hr
        rw [hd]
        rfl
      | @create data =>
        cases hnew
        have hpoint := hub_point reach ht
        rw [hev] at hpoint
        obtain ⟨_, _, _, _, -, rfl, -⟩ := point_participantCreate hpoint
        exact .joined rfl rfl rfl rfl rfl
  exact ⟨htold, htold.unknown_iff⟩

/-- Alice's participant, bound and challenged. -/
theorem row_told_sample : ∃ cfg row, Reachable (Sample.env 0 0) cfg ∧
    cfg.store.participants.find? (Sample.uuid 7) = some row ∧ row.trustStatus = .verified ∧
    row.Told ∧ (row.trustStatus = .unknown ↔
      row.deviceId = none ∧ row.lastChallengeAt = none) := by
  let cfg := Sample.run (Sample.env 0 0) (Sample.challenged (Sample.env 0 0))
  have hreach : Reachable (Sample.env 0 0) cfg := Sample.run_reachable _ _
  have hverified : (cfg.store.participants.find? (Sample.uuid 7)).any
      (·.trustStatus = .verified) = true := by
    decide +kernel
  obtain ⟨row, hrow, hverified⟩ := (Option.any_eq_true _ _).mp hverified
  exact ⟨cfg, row, hreach, hrow, of_decide_eq_true hverified, row_told hreach hrow⟩

end TroofAI.Hub
