import TroofAI.Trust.Outputs

/-!
What is left of an answer when the stores fail on the way.

`verifyResponse` deletes the challenge, writes the verdict and logs it in three awaits without a
transaction, in the order of SPEC.md section 4d. So a call whose write is rejected has used the
challenge up and left no verdict (`consumed_unrecorded`); `verify_consumed` says that this, and a
verdict that is not logged, are all that can be missing.
-/

namespace TroofAI.Hub

open TroofAI.Await ChallengeService

variable {env : Env} {cfg : HubConfig} {challengeId deviceId signature : String}
  {record : ChallengeRecord}

/-- Between the worlds `w` and `w'` the challenge has been deleted. -/
def Consumed (w w' : World) (challengeId : String) : Prop :=
  (w.redis.entry (.challenge challengeId)).isSome ∧ w'.redis.entry (.challenge challengeId) = none

instance (w w' : World) (challengeId : String) : Decidable (Consumed w w' challengeId) :=
  inferInstanceAs (Decidable (_ ∧ _))

/-- Participants, audit log and Redis are as before. -/
structure StoresKept (w w' : World) : Prop where
  participants : w'.participants = w.participants
  audit : w'.audit = w.audit
  redis : w'.redis = w.redis

theorem World.Untouched.storesKept {w w' : World} (h : w.Untouched w') : StoresKept w w' := by
  unfold World.Untouched at h
  rw [h]
  exact ⟨rfl, rfl, rfl⟩

theorem StoresKept.not_consumed {w w' : World} (h : StoresKept w w') :
    ¬ Consumed w w' challengeId := by
  rintro ⟨hsome, hnone⟩
  rw [← h.redis, hnone] at hsome
  cases hsome

/-- How an answer ends whose challenge was used up: with its verdict recorded; with the verdict
in the participant's row and not in the log, when the insert into the log is rejected; or with
neither, when the update of the row is rejected. -/
inductive ConsumedEnd (env : Env) (w w' : World) (challengeId : String) (record : ChallengeRecord)
    (result : PolicyResult) : Except HubError Reply → Prop where
  | recorded {valid} : OneVerdict w w' challengeId record result.status result.reason →
      ConsumedEnd env w w' challengeId record result
        (.ok (.verified ⟨valid, result.status, result.reason⟩))
  | unlogged : env.rejects (w.steps + 7) = true →
      RowVerdict w w' record result.status result.reason → w'.audit = w.audit →
      ConsumedEnd env w w' challengeId record result (.error .rejected)
  | unwritten : env.rejects (w.steps + 6) = true → w'.participants = w.participants →
      w'.audit = w.audit → ConsumedEnd env w w' challengeId record result (.error .rejected)

/-- What is promised of an answer that the hub handles alone in the world `w`, whatever store
calls are rejected. -/
def AnswerEnd (env : Env) (w : World) (challengeId deviceId signature : String)
    (reply : Except HubError Reply) (w' : World) : Prop :=
  (¬ Consumed w w' challengeId → StoresKept w w') ∧
  (Consumed w w' challengeId → ∃ record device,
    w.redis.get (env.clock w.steps) (.challenge challengeId) = some record ∧
    record.deviceId = deviceId ∧ w.devices.find? deviceId = some device ∧
    ConsumedEnd env w w' challengeId record (answerResult env w record device signature) reply)

theorem StoresKept.answerEnd {w w' : World} (h : StoresKept w w')
    (reply : Except HubError Reply) :
    AnswerEnd env w challengeId deviceId signature reply w' :=
  ⟨fun _ => h, fun hconsumed => absurd hconsumed h.not_consumed⟩

/-- The end of a call that has deleted the challenge. -/
theorem ConsumedEnd.answerEnd {w w' : World} {device : Device}
    {reply : Except HubError Reply}
    (hget : w.redis.get (env.clock w.steps) (.challenge challengeId) = some record)
    (hdevice : record.deviceId = deviceId) (hfound : w.devices.find? deviceId = some device)
    (hdel : w'.redis = w.redis.del (.challenge challengeId))
    (h : ConsumedEnd env w w' challengeId record (answerResult env w record device signature)
      reply) : AnswerEnd env w challengeId deviceId signature reply w' := by
  have hconsumed : Consumed w w' challengeId := by
    obtain ⟨deadline, hentry, -⟩ := Expiring.get_eq_some.mp hget
    refine ⟨by rw [hentry]; rfl, ?_⟩
    rw [hdel, Expiring.del_entry_self]
  exact ⟨fun hnot => absurd hconsumed hnot, fun _ => ⟨record, device, hget, hdevice, hfound, h⟩⟩

/-- The three awaits after the verdict. -/
theorem recordVerdict_ends (reach : Reachable env cfg) {device : Device}
    (hget : cfg.store.redis.get (env.clock cfg.store.steps) (.challenge challengeId) = some record)
    (hdevice : record.deviceId = deviceId)
    (hfound : cfg.store.devices.find? deviceId = some device)
    (hacc : ∀ k ∈ [0, 2, 3], env.rejects (cfg.store.steps + k) = false) :
    let Post := AnswerEnd env cfg.store challengeId deviceId signature
    Prog.Ends (exec env) (fun r => Post (.ok (.verified r))) (fun e => Post (.error e))
      (verifyResponse env challengeId deviceId signature) cfg.store := by
  intro Post
  obtain ⟨hrow, htenant, hmeeting, hne⟩ := live_rows reach hget
  obtain ⟨row, hrow'⟩ := Option.isSome_iff_exists.mp hrow
  by_cases hwrite : env.rejects (cfg.store.steps + 6) = true
  · rw [verify_judged_ends hget hdevice hfound hacc]
    refine (ends_rejected rfl hwrite).mpr ?_
    exact ConsumedEnd.answerEnd hget hdevice hfound rfl (.unwritten hwrite rfl rfl)
  have hwrite := Bool.eq_false_iff.mpr hwrite
  have hanswers : AnswersAlone env cfg.store challengeId deviceId record device := by
    refine ⟨hget, hdevice, hfound, hrow, fun k hk => ?_⟩
    simp only [List.mem_cons, List.not_mem_nil, or_false] at hk
    rcases hk with rfl | rfl | rfl | rfl
    exacts [hacc 0 (by simp), hacc 2 (by simp), hacc 3 (by simp), hwrite]
  by_cases hlog : env.rejects (cfg.store.steps + 7) = true
  · rw [verify_judged_ends hget hdevice hfound hacc]
    refine Iff.mpr (ends_call (.inr hwrite) (effect_participantUpdate hrow' ?_)) ?_
    · rintro d ⟨⟩
    refine (ends_rejected rfl hlog).mpr ?_
    have hverdict : OneVerdict cfg.store
        (answerStore env cfg.store challengeId deviceId signature record device) challengeId record
        _ _ := answerStore_oneVerdict hrow hne
    exact ConsumedEnd.answerEnd hget hdevice hfound rfl
      (.unlogged hlog ⟨hverdict.row, hverdict.others⟩ rfl)
  · refine (verify_ends hanswers (Bool.eq_false_iff.mpr hlog) htenant hmeeting).mpr ?_
    exact ConsumedEnd.answerEnd hget hdevice hfound rfl
      (.recorded (answerStore_oneVerdict hrow hne))

/-- An answer that the hub handles alone, whatever store calls are rejected: as long as the
challenge is there, nothing is written and the answer can be sent again; once it has been used
up, the verdict is recorded, unless the very call that would record it was rejected. -/
theorem verify_consumed (reach : Reachable env cfg) (challengeId deviceId signature : String) :
    AnswerEnd env cfg.store challengeId deviceId signature
      (aloneResult env (.verifyResponse challengeId deviceId signature) cfg.store)
      (aloneStore env (.verifyResponse challengeId deviceId signature) cfg.store) := by
  apply (alone_ends rfl).mpr
  by_cases h₀ : env.rejects cfg.store.steps = true
  · refine (ends_rejected rfl h₀).mpr ?_
    exact (World.untouched_of_eq rfl).storesKept.answerEnd _
  have h₀ := Bool.eq_false_iff.mpr h₀
  cases hget : cfg.store.redis.get (env.clock cfg.store.steps) (.challenge challengeId) with
  | none =>
    refine (verify_absent_ends h₀ hget).mpr ?_
    exact (World.untouched_of_eq rfl).storesKept.answerEnd _
  | some record =>
    by_cases hdevice : record.deviceId = deviceId
    · by_cases h₂ : env.rejects (cfg.store.steps + 2) = true
      · refine (verify_find_rejected_ends h₀ hget hdevice h₂).mpr ?_
        exact (World.untouched_of_eq rfl).storesKept.answerEnd _
      have h₂ := Bool.eq_false_iff.mpr h₂
      cases hfound : cfg.store.devices.find? deviceId with
      | none =>
        refine (verify_unknown_ends h₀ h₂ hget hdevice hfound).mpr ?_
        exact (World.untouched_of_eq rfl).storesKept.answerEnd _
      | some device =>
        by_cases h₃ : env.rejects (cfg.store.steps + 3) = true
        · refine (verify_del_rejected_ends h₀ h₂ hget hdevice hfound h₃).mpr ?_
          exact (World.untouched_of_eq rfl).storesKept.answerEnd _
        · refine recordVerdict_ends reach hget hdevice hfound ?_
          simp [h₀, h₂, h₃]
    · refine (verify_mismatch_ends h₀ hget hdevice).mpr ?_
      exact (World.untouched_of_eq rfl).storesKept.answerEnd _

section Sample

/-- The call leaves its verdict in row and log when it deletes the challenge, and nothing
otherwise. -/
def LeavesVerdict (env : Env) (w : World) (challengeId deviceId signature : String) : Prop :=
  let w' := aloneStore env (.verifyResponse challengeId deviceId signature) w
  (¬ Consumed w w' challengeId → StoresKept w w') ∧
  (Consumed w w' challengeId → ∃ record device,
    w.redis.get (env.clock w.steps) (.challenge challengeId) = some record ∧
    w.devices.find? deviceId = some device ∧
    let result := answerResult env w record device signature
    RowVerdict w w' record result.status result.reason ∧
    ∃ event, w'.audit = w.audit ++ [event] ∧ event.eventType =
      if result.status = .verified then .challengePassed else .challengeFailed)

/-- The store call of step `k` is rejected. -/
def rejecting (k : Nat) : Env := { Sample.env 0 0 with rejects := fun n => n = k }

/-- What the last theorem says of a forged answer to alice's challenge whose write is rejected. -/
theorem verify_consumed_sample : ∃ cfg, Reachable (rejecting 35) cfg ∧
    AnswerEnd (rejecting 35) cfg.store (Sample.uuid 22) "laptop-1" "forged"
      (aloneResult (rejecting 35) (.verifyResponse (Sample.uuid 22) "laptop-1" "forged") cfg.store)
      (aloneStore (rejecting 35) (.verifyResponse (Sample.uuid 22) "laptop-1" "forged")
        cfg.store) :=
  have hrun := Sample.run_reachable (rejecting 35) (Sample.challenged (rejecting 35))
  ⟨_, hrun, verify_consumed hrun (Sample.uuid 22) "laptop-1" "forged"⟩

/-- The challenge of that answer is gone, and alice is still VERIFIED. -/
theorem consumed_unrecorded : ∃ cfg, Reachable (rejecting 35) cfg ∧
    let w' := aloneStore (rejecting 35) (.verifyResponse (Sample.uuid 22) "laptop-1" "forged")
      cfg.store
    Consumed cfg.store w' (Sample.uuid 22) ∧ w'.statusOf (Sample.uuid 7) = some .verified ∧
      ¬ LeavesVerdict (rejecting 35) cfg.store (Sample.uuid 22) "laptop-1" "forged" := by
  have hrun := Sample.run_reachable (rejecting 35) (Sample.challenged (rejecting 35))
  have hconsumed : Consumed
      (Sample.run (rejecting 35) (Sample.challenged (rejecting 35))).store
      (aloneStore (rejecting 35) (.verifyResponse (Sample.uuid 22) "laptop-1" "forged")
        (Sample.run (rejecting 35) (Sample.challenged (rejecting 35))).store)
      (Sample.uuid 22) := by decide +kernel
  have hstatus : (aloneStore (rejecting 35)
      (.verifyResponse (Sample.uuid 22) "laptop-1" "forged")
      (Sample.run (rejecting 35) (Sample.challenged (rejecting 35))).store).statusOf
      (Sample.uuid 7) = some .verified := by decide +kernel
  have haudit : (aloneStore (rejecting 35)
      (.verifyResponse (Sample.uuid 22) "laptop-1" "forged")
      (Sample.run (rejecting 35) (Sample.challenged (rejecting 35))).store).audit.length =
      (Sample.run (rejecting 35) (Sample.challenged (rejecting 35))).store.audit.length := by
    decide +kernel
  generalize Sample.run (rejecting 35) (Sample.challenged (rejecting 35)) = cfg
    at hrun hconsumed hstatus haudit
  refine ⟨cfg, hrun, hconsumed, hstatus, ?_⟩
  rintro ⟨-, hleaves⟩
  obtain ⟨record, device, -, -, -, event, hevent, -⟩ := hleaves hconsumed
  rw [hevent, List.length_append] at haudit
  simp at haudit

end Sample

end TroofAI.Hub
