import TroofAI.Trust.OneTime

/-!
The order of a challenge's audit events.

`issueChallenge` emits a challenge to the device before it awaits the insertion of
CHALLENGE_ISSUED, where the other paths log first and emit last. An answer that is handled in
between is logged before the challenge it answers (`answered_before_issued`). `TakesLogged`
forbids an answer to take a challenge that is not logged yet; then the order holds
(`verdict_after_issue`).
-/

namespace TroofAI.Hub

open TroofAI.Await MeetingService ChallengeService

/-- The event inserted the CHALLENGE_ISSUED audit event of the challenge. -/
def IssuedAudit (challengeId : String) (e : HubEntry) : Prop :=
  ∃ data row, e.ev = ⟨.auditCreate data, .ok row⟩ ∧ data.eventType = .challengeIssued ∧
    data.carries challengeId

/-- A step may delete a challenge only when its CHALLENGE_ISSUED event has been inserted. -/
def TakesLogged (cfg : HubConfig) (_ : Nat) (op : Op) : Prop :=
  ∀ challengeId, op = .redisDel (.challenge challengeId) →
    ∃ x ∈ cfg.trace, IssuedAudit challengeId x

variable {env : Env} {cfg : HubConfig} {challengeId : String}

/-- The call that logs a verdict has deleted the challenge. -/
theorem verdict_deleted {ok : HubConfig → Nat → Op → Prop} {init : World → Prop}
    (reach : Reach (hub env) ok init cfg) {later earlier : Trace} {e : HubEntry}
    (ht : cfg.trace = later ++ e :: earlier) (h : VerdictAudit challengeId e) :
    ⟨.redisDel (.challenge challengeId), .ok ()⟩ ∈ own e.id earlier := by
  obtain ⟨data, hop, hcarries, htype⟩ := h
  have hpoint := hub_point reach ht
  rw [hop] at hpoint
  obtain ⟨cid, deviceId, signature, challenge, device, isValid, result, hcall, rfl⟩ :=
    point_verdictAudit hpoint htype
  obtain rfl := carries_verdictLog hcarries
  rw [hcall] at hpoint
  exact (VerifyPoint.stage hpoint rfl).2

/-- In runs where only logged challenges are taken, every verdict on a challenge is logged after
the challenge. -/
theorem verdict_after_issue (reach : Reach (hub env) TakesLogged World.IsInit cfg)
    {later earlier : Trace} {e : HubEntry} (ht : cfg.trace = later ++ e :: earlier)
    (h : VerdictAudit challengeId e) : ∃ x ∈ earlier, IssuedAudit challengeId x := by
  obtain ⟨d, hd, -, hdev⟩ := mem_own.mp (verdict_deleted reach ht h)
  obtain ⟨between, older, rfl⟩ := List.append_of_mem hd
  have htd : cfg.trace = (later ++ e :: between) ++ d :: older := by simp [ht]
  obtain ⟨pre, -, -, hpre, -, -, -, hok⟩ := reach.cut htd
  rw [hdev] at hok
  obtain ⟨x, hx, hissued⟩ := hok challengeId rfl
  rw [hpre] at hx
  exact ⟨x, by simp [hx], hissued⟩

section Sample

/-- The event has inserted an audit event of the type, with the challenge id. -/
def logs (type : EventType) (challengeId : String) (e : HubEntry) : Bool :=
  (match e.ev.op with
    | .auditCreate data =>
        data.eventType = type && data.details.contains ("challenge_id", .str challengeId)
    | _ => false) && e.ev.res.isOk

theorem logs_iff {type : EventType} {e : HubEntry} : logs type challengeId e = true ↔
    ∃ data row, e.ev = ⟨.auditCreate data, .ok row⟩ ∧ data.eventType = type ∧
      data.carries challengeId := by
  obtain ⟨id, c, before, op, res⟩ := e
  unfold logs AuditCreate.carries
  cases op <;> cases res <;> simp [Except.isOk, Except.toBool]

/-- Alice's device answers after the challenge has been logged. -/
theorem verdict_after_issue_sample : ∃ cfg later e earlier, Reachable (Sample.env 0 0) cfg ∧
    cfg.trace = later ++ e :: earlier ∧ VerdictAudit (Sample.uuid 22) e ∧
    ∃ x ∈ earlier, IssuedAudit (Sample.uuid 22) x := by
  let env := Sample.env 0 0
  have hissued : (Sample.run env (Sample.challenged env)).trace.any
      (logs .challengeIssued (Sample.uuid 22)) = true := by decide +kernel
  have hpassed : ((Sample.run env (Sample.challenged env)).sequence (hub env)
      [Sample.answer (Sample.challenge env) "pem-1"]).trace.any
      (logs .challengePassed (Sample.uuid 22)) = true := by decide +kernel
  -- only the answer deletes a challenge, and that one has been logged
  have hbefore : Reach (hub env) TakesLogged World.IsInit
      (Sample.run env (Sample.challenged env)) := by
    refine reach_sequence_ok _ ?_ (by simp [Sample.start]) (.init ⟨_, rfl⟩)
    rintro cfg i c op k hc reach - hcall - cid rfl
    have hdel := point_redisDel (reach.obeys (body_obeys env) i c _ hcall).1
    generalize own i cfg.trace = past at hdel
    cases hdel
    simp [Sample.challenged, Sample.bound, Sample.setUp, Sample.bind, Sample.enroll] at hc
  obtain ⟨x, hx, hlogged⟩ := List.any_eq_true.mp hissued
  have hreach : Reach (hub env) TakesLogged World.IsInit
      ((Sample.run env (Sample.challenged env)).sequence (hub env)
      [Sample.answer (Sample.challenge env) "pem-1"]) := by
    refine reach_sequence_ok _ ?_ ?_ hbefore
    · rintro cfg i c op k hc reach ⟨newer, ht⟩ hcall - cid rfl
      have hdel := point_redisDel (reach.obeys (body_obeys env) i c _ hcall).1
      rw [List.mem_singleton.mp hc, Sample.answer] at hdel
      generalize own i cfg.trace = past at hdel
      cases hdel
      exact ⟨x, by simp [ht, hx], logs_iff.mp hlogged⟩
    · have hended : (Sample.run env (Sample.challenged env)).calls.all
          (fun x => Sample.ended x.2) = true := by decide +kernel
      exact fun x hx => Sample.done_of_ended (List.all_eq_true.mp hended x hx)
  obtain ⟨later, e, earlier, ht, hf⟩ := Sample.exists_event hpassed
  obtain ⟨data, row, hev, htype, hcarries⟩ := logs_iff.mp hf
  have hverdict : VerdictAudit (Sample.uuid 22) e := ⟨data, by rw [hev], hcarries, .inl htype⟩
  refine ⟨_, later, e, earlier, reach_sequence _ (Sample.run_reachable env _), ht, hverdict, ?_⟩
  exact verdict_after_issue hreach ht hverdict

/-- Alice's device has a socket when it is challenged. -/
def connected (e : Env) : List Call :=
  Sample.bound e ++ [.socket (.connection "agent"), .socket (.deviceConnect "agent" "laptop-1")]

/-- The answer to the challenge drawn at step 24. -/
def promptAnswer (e : Env) : Call :=
  Sample.answer (Sample.record e 24 "tenant-acme" (Sample.uuid 4) (Sample.uuid 7) "laptop-1"
    "alice") "pem-1"

/-- The answer comes as soon as the challenge is emitted. -/
theorem answered_before_issued : ∃ cfg later e earlier, Reachable (Sample.env 0 0) cfg ∧
    cfg.trace = later ++ e :: earlier ∧ VerdictAudit (Sample.uuid 24) e ∧
    (∃ x ∈ later, IssuedAudit (Sample.uuid 24) x) ∧
    ∀ x ∈ earlier, ¬ IssuedAudit (Sample.uuid 24) x := by
  let env := Sample.env 0 0
  let schedule : List (Sched Call) := [.start (.issueChallenge (Sample.uuid 4))] ++
    List.replicate 8 (.step 7) ++ [.start (promptAnswer env)] ++ List.replicate 9 (.step 8) ++
    [.step 7]
  have hrun := reach_play schedule (Sample.run_reachable env (connected env))
  have hany : ((Sample.positions ((Sample.run env (connected env)).play (hub env)
      schedule).trace).any fun x => logs .challengePassed (Sample.uuid 24) x.2.1 &&
        x.1.any (logs .challengeIssued (Sample.uuid 24)) &&
        x.2.2.all fun y => !logs .challengeIssued (Sample.uuid 24) y) = true := by
    decide +kernel
  obtain ⟨later, e, earlier, ht, hf⟩ := Sample.exists_position (f := fun later e earlier =>
    logs .challengePassed (Sample.uuid 24) e &&
      later.any (logs .challengeIssued (Sample.uuid 24)) &&
        earlier.all fun y => !logs .challengeIssued (Sample.uuid 24) y) hany
  simp only [Bool.and_eq_true, List.any_eq_true, List.all_eq_true] at hf
  obtain ⟨⟨hpassed, x, hx, hissued⟩, hnone⟩ := hf
  obtain ⟨data, row, hev, htype, hcarries⟩ := logs_iff.mp hpassed
  refine ⟨_, later, e, earlier, hrun, ht, ⟨data, by rw [hev], hcarries, .inl htype⟩,
    ⟨x, hx, logs_iff.mp hissued⟩, fun y hy h => ?_⟩
  have := hnone y hy
  rw [logs_iff.mpr h] at this
  cases this

end Sample

end TroofAI.Hub
