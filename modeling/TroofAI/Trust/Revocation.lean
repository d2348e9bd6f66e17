import TroofAI.History.Bindings
import TroofAI.Hub.Sample

/-!
What a revocation holds against.

An administrator sets a device's status to REVOKED in the database. Nothing an agent or a
dashboard does takes that back but a re-enrolment of the device, which writes ACTIVE
(`reEnrolled_active`); until one has, the device stays revoked and none of its answers is
accepted (`revoked_until_reEnrolled`).
-/

namespace TroofAI.Hub

open TroofAI.Await MeetingService ChallengeService

/-- The device `d` exists and is revoked. -/
def World.Revoked (w : World) (d : String) : Prop :=
  ∃ row, w.devices.find? d = some row ∧ row.status = .revoked

/-- The device `d` exists and is active. -/
def World.Active (w : World) (d : String) : Prop :=
  ∃ row, w.devices.find? d = some row ∧ row.status = .active

instance (w : World) (d : String) : Decidable (w.Revoked d) :=
  decidable_of_iff ((w.devices.find? d).any fun row => row.status = .revoked) (by
    unfold World.Revoked
    cases w.devices.find? d <;> simp)

instance (w : World) (d : String) : Decidable (w.Active d) :=
  decidable_of_iff ((w.devices.find? d).any fun row => row.status = .active) (by
    unfold World.Active
    cases w.devices.find? d <;> simp)

/-- The runs that start where the device `d` is revoked. -/
abbrev ReachRevoked (env : Env) (d : String) (cfg : HubConfig) : Prop :=
  Reach (hub env) (fun _ _ _ => True) (fun w => w.Revoked d) cfg

variable {env : Env} {cfg : HubConfig} {d : String}

/-- Without a re-enrolment the device stays revoked. -/
theorem revoked_kept (reach : ReachRevoked env d cfg)
    (hquiet : ∀ x ∈ cfg.trace, ∀ key, ¬ ReEnrols d key x) : cfg.store.Revoked d := by
  refine reach.throughout (fun w => w.Revoked d) (fun w hw => hw) ?_
  rintro x hx ⟨row, hrow, hrevoked⟩
  obtain ⟨row', hrow', hkept⟩ := device_step reach hx hrow
  refine ⟨row', hrow', ?_⟩
  rcases (hkept.kept (hquiet x hx)).2 with hsame | ⟨-, hagain⟩
  · rw [hsame, hrevoked]
  · exact hagain

/-- A `verifyResponse` call that writes VERIFIED has read the device as active. -/
theorem verified_read_active (reach : ReachRevoked env d cfg) {later earlier : Trace} {e : HubEntry}
    {challengeId signature p : String} {data : ParticipantUpdate}
    (ht : cfg.trace = later ++ e :: earlier)
    (hcall : e.call = .verifyResponse challengeId d signature)
    (hop : e.ev.op = .participantUpdate p data) (hverified : data.trustStatus = some .verified) :
    ∃ newer r older, earlier = newer ++ r :: older ∧ r.before.Active d := by
  have hwrite := hub_write reach ht hop
  rw [hcall] at hwrite
  obtain ⟨record, device, checkedAt, now, t, -, -, rfl, hown⟩ := hwrite.answer
  have hv : (verdict env record device signature checkedAt now).status = .verified :=
    Option.some.inj hverified
  obtain ⟨hactive, -⟩ := PolicyService.evaluate_verified_iff.mp hv
  have hread : own e.id earlier = [_, _, _] ++ _ :: [_, _] := hown
  obtain ⟨newer, r, older, rfl, -, hev, -⟩ := own_split hread
  have hfind := exec_deviceFindUnique_ok (hub_did reach (ht ▸ by simp) hev)
  exact ⟨newer, r, older, rfl, device, hfind, hactive⟩

/-- From any state in which the device is revoked, in any interleaving: the device stays
revoked, and no `verifyResponse` call accepts it, until an `enroll` call has updated its row;
that update makes it active. -/
theorem revoked_until_reEnrolled (reach : ReachRevoked env d cfg) :
    ((∀ x ∈ cfg.trace, ∀ key, ¬ ReEnrols d key x) → cfg.store.Revoked d) ∧
    (∀ later e earlier challengeId signature p data, cfg.trace = later ++ e :: earlier →
      e.call = .verifyResponse challengeId d signature → e.ev.op = .participantUpdate p data →
      data.trustStatus = some .verified → ∃ x ∈ earlier, ∃ key, ReEnrols d key x) ∧
    (∀ x ∈ cfg.trace, ∀ key, ReEnrols d key x → (exec env x.ev.op x.before).2.Active d) := by
  refine ⟨revoked_kept reach, ?_, ?_⟩
  · intro later e earlier challengeId signature p data ht hcall hop hverified
    obtain ⟨newer, r, older, rfl, device, hfind, hactive⟩ :=
      verified_read_active reach ht hcall hop hverified
    have htr : cfg.trace = (later ++ e :: newer) ++ r :: older := by simp [ht]
    obtain ⟨pre, -, hpre, rfl, hstore, -⟩ := reach.cut htr
    by_contra hnone
    -- otherwise the device was still revoked when the call read it
    have hquiet : ∀ x ∈ pre.trace, ∀ key, ¬ ReEnrols d key x :=
      fun x hx key h => hnone ⟨x, by simp [hx], key, h⟩
    obtain ⟨row, hrow, hrevoked⟩ := revoked_kept hpre hquiet
    rw [hstore, hfind] at hrow
    cases hrow
    rw [hactive] at hrevoked
    cases hrevoked
  · intro x hx key h
    obtain ⟨row, hrow, -, hactive⟩ := reEnrols_after reach hx h
    exact ⟨row, hrow, hactive⟩

section Sample

/-- The hub with alice's device challenged and then revoked, and nothing under way. -/
def revokedState : HubConfig :=
  let env := Sample.env 0 0
  ⟨(Sample.run env (Sample.challenged env ++ [.revoke "laptop-1"])).store, [], []⟩

theorem revokedState_reach : ReachRevoked (Sample.env 0 0) "laptop-1" revokedState := by
  have hrevoked : revokedState.store.Revoked "laptop-1" := by decide +kernel
  exact .init hrevoked

/-- A heartbeat and an answer of the device leave it revoked, and the answer is not accepted. -/
theorem revoked_until_reEnrolled_answer :
    let env := Sample.env 0 0
    let answer := Sample.answer (Sample.challenge env) "pem-1"
    let cfg := revokedState.sequence (hub env) [.heartbeat "laptop-1", answer]
    cfg.store.Revoked "laptop-1" ∧ ∀ e ∈ cfg.trace, ∀ p data, e.call = answer →
      e.ev.op = .participantUpdate p data → data.trustStatus ≠ some .verified := by
  intro env answer cfg
  have hrun := revoked_until_reEnrolled
    (reach_sequence [.heartbeat "laptop-1", answer] revokedState_reach)
  have hcalls : (cfg.trace.all fun x =>
      x.call = .heartbeat "laptop-1" || x.call = answer) = true := by decide +kernel
  have hquiet : ∀ x ∈ cfg.trace, ∀ key, ¬ ReEnrols "laptop-1" key x := by
    rintro x hx key ⟨dto, t, row, hcall, -⟩
    have hx := List.all_eq_true.mp hcalls x hx
    rw [hcall] at hx
    simp [answer, Sample.answer] at hx
  refine ⟨hrun.1 hquiet, fun e he p data hcall hop hverified => ?_⟩
  obtain ⟨later, earlier, ht⟩ := List.append_of_mem he
  obtain ⟨x, hx, key, hkey⟩ := hrun.2.1 later e earlier _ _ p data ht hcall hop hverified
  exact hquiet x (ht ▸ by simp [hx]) key hkey

/-- The agent enrols the device again, and it is active. -/
theorem reEnrolled_active : ∃ cfg, ReachRevoked (Sample.env 0 0) "laptop-1" cfg ∧
    cfg.calls.map Prod.fst = [Sample.enroll "tenant-acme" "laptop-1" "alice" "pem-1"] ∧
    cfg.store.Active "laptop-1" := by
  have hrun := reach_sequence [Sample.enroll "tenant-acme" "laptop-1" "alice" "pem-1"]
    revokedState_reach
  have hactive : (revokedState.sequence (hub (Sample.env 0 0))
      [Sample.enroll "tenant-acme" "laptop-1" "alice" "pem-1"]).store.Active "laptop-1" := by
    decide +kernel
  exact ⟨_, hrun, rfl, hactive⟩

end Sample

end TroofAI.Hub
