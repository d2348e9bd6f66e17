import TroofAI.Hub.Schema
import Mathlib.Tactic.Common

/-!
`PolicyService`: the trust verdict on an answered challenge, per SPEC.md section 5.
The rules are tried in order and the first that matches decides.
-/

namespace TroofAI.Hub

/-- The part of a device's row the policy reads. -/
structure PolicyDevice where
  status : DeviceStatus
  lastHeartbeat : Option Date
  hardwareBound : Bool

structure PolicyInput where
  device : PolicyDevice
  signatureValid : Bool
  challengeExpired : Bool
  hasMeetingBinding : Bool

structure PolicyResult where
  status : TrustStatus
  reason : String
deriving DecidableEq, Repr

namespace PolicyService

/-- `HEARTBEAT_STALE_MS`, 5 minutes. -/
def heartbeatStaleMs : Nat := 5 * 60 * 1000

/-- `Math.round(ms / 1000)`: a half goes up. -/
def roundSeconds (ms : Int) : Int := (ms + 500) / 1000

/-- `evaluate`, with the reading `now` of `Date.now()`. -/
def evaluate (input : PolicyInput) (now : Date) : PolicyResult :=
  -- Rule 1: Device must be active
  if input.device.status ≠ .active then ⟨.failed, "Device has been revoked"⟩
  -- Rule 2: Challenge must not be expired
  else if input.challengeExpired then ⟨.failed, "Challenge response expired"⟩
  -- Rule 3: Signature must be valid
  else if !input.signatureValid then ⟨.failed, "Invalid signature — key mismatch or tampering"⟩
  -- Rule 4: Must have meeting-presence binding
  else if !input.hasMeetingBinding then ⟨.unknown, "No meeting-presence binding"⟩
  else
    -- Rule 5: Heartbeat must be fresh
    let ageMs : Int := (now : Int) - (input.device.lastHeartbeat.getD now : Nat)
    if ageMs > heartbeatStaleMs then
      ⟨.stale, "Device heartbeat stale (" ++ toString (roundSeconds ageMs) ++ "s ago)"⟩
    else
      ⟨.verified, "Enrolled device, valid signature" ++
        if input.device.hardwareBound then ", hardware-backed key" else ""⟩

/-- A heartbeat counts as fresh at `now`; no heartbeat at all counts too. -/
def Fresh (lastHeartbeat : Option Date) (now : Date) : Prop :=
  ∀ t, lastHeartbeat = some t → now ≤ t + heartbeatStaleMs

variable {input : PolicyInput} {now : Date}

/-- The verdict by the first rule that matches, without the reasons. -/
theorem evaluate_status : (evaluate input now).status =
    if input.device.status = .active ∧ input.challengeExpired = false ∧
        input.signatureValid = true then
      if input.hasMeetingBinding = true then
        if (now : Int) - (input.device.lastHeartbeat.getD now : Nat) > heartbeatStaleMs then .stale
        else .verified
      else .unknown
    else .failed := by
  unfold evaluate
  by_cases h₁ : input.device.status = .active
  · by_cases h₂ : input.challengeExpired = true
    · simp [h₁, h₂]
    · by_cases h₃ : input.signatureValid = true
      · by_cases h₄ : input.hasMeetingBinding = true
        · simp only [h₁, h₂, h₃, h₄]
          simp [apply_ite PolicyResult.status]
        · simp [h₁, h₂, h₃, h₄]
      · simp [h₁, h₂, h₃]
  · simp [h₁]

theorem fresh_iff {lastHeartbeat : Option Date} : Fresh lastHeartbeat now ↔
    ¬ (now : Int) - (lastHeartbeat.getD now : Nat) > heartbeatStaleMs := by
  cases lastHeartbeat with
  | none => simp [Fresh, heartbeatStaleMs]
  | some t =>
    have hfresh : Fresh (some t) now ↔ now ≤ t + heartbeatStaleMs := by simp [Fresh]
    rw [hfresh, Option.getD_some]
    unfold Date at *
    omega

/-- VERIFIED is given exactly when no rule objects. -/
theorem evaluate_verified_iff : (evaluate input now).status = .verified ↔
    input.device.status = .active ∧ input.challengeExpired = false ∧
      input.signatureValid = true ∧ input.hasMeetingBinding = true ∧
      Fresh input.device.lastHeartbeat now := by
  rw [evaluate_status, fresh_iff]
  split
  · next h =>
    obtain ⟨h₁, h₂, h₃⟩ := h
    split
    · next h₄ => split <;> simp_all
    · next h₄ => simp [h₄]
  · next h =>
    constructor
    · intro hf
      cases hf
    · rintro ⟨h₁, h₂, h₃, -, -⟩
      exact absurd ⟨h₁, h₂, h₃⟩ h

/-- VERIFIED or STALE is given exactly when none of the rules 1 to 4 objects. -/
theorem evaluate_verified_or_stale_iff :
    ((evaluate input now).status = .verified ∨ (evaluate input now).status = .stale) ↔
    input.device.status = .active ∧ input.challengeExpired = false ∧
      input.signatureValid = true ∧ input.hasMeetingBinding = true := by
  rw [evaluate_status]
  split
  · next h =>
    obtain ⟨h₁, h₂, h₃⟩ := h
    split
    · next h₄ => split <;> simp_all
    · next h₄ => simp [h₄]
  · next h =>
    constructor
    · rintro (hf | hf) <;> cases hf
    · rintro ⟨h₁, h₂, h₃, -⟩
      exact absurd ⟨h₁, h₂, h₃⟩ h

/-- Then the heartbeat decides between the two. -/
theorem evaluate_by_heartbeat (hactive : input.device.status = .active)
    (hexpired : input.challengeExpired = false) (hvalid : input.signatureValid = true)
    (hbinding : input.hasMeetingBinding = true) :
    ((evaluate input now).status = .verified ↔ Fresh input.device.lastHeartbeat now) ∧
      ((evaluate input now).status = .stale ↔ ¬ Fresh input.device.lastHeartbeat now) := by
  have heither := (@evaluate_verified_or_stale_iff input now).mpr
    ⟨hactive, hexpired, hvalid, hbinding⟩
  have hfresh : (evaluate input now).status = .verified ↔ Fresh input.device.lastHeartbeat now := by
    rw [evaluate_verified_iff]
    simp [hactive, hexpired, hvalid, hbinding]
  refine ⟨hfresh, ?_⟩
  rw [← hfresh]
  constructor
  · intro hstale hverified
    cases hstale.symm.trans hverified
  · exact heither.resolve_left

/-- The verdicts of the policy. -/
theorem evaluate_status_mem :
    (evaluate input now).status ∈ [.unknown, .verified, .stale, .failed] := by
  rw [evaluate_status]
  split
  · split
    · split <;> simp
    · simp
  · simp

/-- The reasons the policy gives for FAILED. -/
theorem evaluate_failed_reason (h : (evaluate input now).status = .failed) :
    (evaluate input now).reason ∈ ["Device has been revoked", "Challenge response expired",
      "Invalid signature — key mismatch or tampering"] := by
  unfold evaluate at h ⊢
  split at h
  · next h₁ => simp [h₁]
  · next h₁ =>
    split at h
    · next h₂ => simp [h₁, h₂]
    · next h₂ =>
      split at h
      · next h₃ => simp [h₁, h₂, h₃]
      · split at h
        · cases h
        · dsimp only at h
          split at h <;> cases h

end PolicyService

end TroofAI.Hub
