import TroofAI.Base.Binary64
import TroofAI.Hub.Store

/-!
`StatsController`: the numbers on the dashboard.

Eight counts are read, and one rate is computed from two of them in double precision. The
counts of devices, meetings and audit events are those of the tenant that is asked for.

`getStats` takes all counts from one state. The source runs the queries at the same time and
each may meet another state: `StatsQuery.count` is what one of them answers, and `collect` what
is returned for the eight answers.
-/

namespace TroofAI.Hub

structure DeviceStats where
  total : Nat
  active : Nat
  hardwareBound : Nat
deriving DecidableEq, Repr

structure ParticipantStats where
  total : Nat
  verified : Nat
  failed : Nat
  verifiedRate : Nat
deriving DecidableEq, Repr

structure Stats where
  devices : DeviceStats
  meetings : Nat
  participants : ParticipantStats
  auditEvents : Nat
  threatsDetected : Nat
deriving DecidableEq, Repr

namespace StatsController

open Binary64

/-- `Math.round` of a number that is not negative: halves are rounded up. -/
def mathRound (x : Float) : Nat :=
  let whole := x.toUInt64.toNat
  if 0.5 ≤ x - Float.ofNat whole then whole + 1 else whole

theorem denotes_hundred : Denotes (100 : Float).toModel.unpack 100 := by
  have h : Denotes (.finite .positive (25 * 2 ^ 48) (-46) (by decide)) _ :=
    .finite (by decide) (by decide) (by decide) (.inr (by decide))
  norm_num at h
  exact h

theorem not_half_le {x : Float} (h : x.toModel.unpack = .zero .positive ∨
    x.toModel.unpack = .notANumber) : ¬ (0.5 : Float) ≤ x := by
  intro hhalf
  have hle : (0.5 : Float).toModel.unpack.le x.toModel.unpack = true := of_decide_eq_true hhalf
  rcases h with h | h <;> rw [h] at hle <;> revert hle <;> decide +kernel

/-- A double that stands for at most 100 is not rounded above. -/
theorem mathRound_le {x : Float} {v : ℚ} (hx : Denotes x.toModel.unpack v) (hv : v ≤ 100) :
    mathRound x ≤ 100 := by
  have hwhole : x.toUInt64.toNat ≤ v := toUInt64_le hx
  have hle : x.toUInt64.toNat ≤ 100 := by exact_mod_cast hwhole.trans hv
  unfold mathRound
  dsimp only
  rcases hle.lt_or_eq with hlt | heq
  · split <;> omega
  · -- there the double is 100, and the rest is zero
    rw [heq] at hwhole ⊢
    obtain rfl : v = 100 := le_antisymm hv hwhole
    have hrest : (x - Float.ofNat 100).toModel.unpack = .zero .positive :=
      sub_self_zero hx denotes_hundred
    rw [if_neg (not_half_le (.inl hrest))]

theorem mathRound_nan {x : Float} (hx : x.toModel.unpack = .notANumber) : mathRound x = 0 := by
  have hwhole : x.toUInt64.toNat = 0 := by
    show x.toModel.unpack.toUInt64.toNat = 0
    rw [hx]
    rfl
  have hrest : (x - Float.ofNat 0).toModel.unpack = .notANumber := by
    show (Float.Model.pack (Float.Model.UnpackedFloat.sub .binary64 x.toModel.unpack _)).unpack = _
    rw [hx]
    rfl
  unfold mathRound
  dsimp only
  rw [hwhole, if_neg (not_half_le (.inr hrest))]

/-- In percent, and 0 where there is nobody. -/
def verifiedRate (verified total : Nat) : Nat :=
  if 0 < total then mathRound (Float.ofNat verified / Float.ofNat total * 100) else 0

/-- A part is at most 100 percent of the whole, also after the roundings. -/
theorem verifiedRate_le {verified total : Nat} (h : verified ≤ total) :
    verifiedRate verified total ≤ 100 := by
  unfold verifiedRate
  split
  · next hpos =>
    rcases float_div_spec h hpos with hnan | ⟨x, hx, hdenotes⟩
    · have hproduct : (Float.ofNat verified / Float.ofNat total * 100).toModel.unpack =
          .notANumber := by
        show (Float.Model.pack (Float.Model.UnpackedFloat.mul .binary64
          (Float.ofNat verified / Float.ofNat total).toModel.unpack _)).unpack = _
        rw [hnan]
        rfl
      rw [mathRound_nan hproduct]
      exact Nat.zero_le _
    · have hrange : (100 : ℚ) < 2 ^ 1024 :=
        calc (100 : ℚ) < 2 ^ 7 := by norm_num
          _ < 2 ^ 1024 := pow_lt_pow_right₀ one_lt_two (by decide)
      obtain ⟨y, hy, hproduct⟩ :=
        float_mul_le hdenotes denotes_hundred denotes_hundred (by linarith) hrange
      exact mathRound_le hproduct hy
  · exact Nat.zero_le _

-- the quotient is rounded to a double that is less than 0.145
example : verifiedRate 29 200 = 14 := by decide +kernel

/-- `tenantId ? { tenantId } : {}`: no filter where the tenant is missing or empty. -/
def within (tenantId : Option String) (owner : String) : Bool :=
  match tenantId.filter (· ≠ "") with
  | some t => owner = t
  | none => true

def getStats (tenantId : Option String) (w : World) : Stats :=
  let devices := w.devices.rows.filter fun row => within tenantId row.tenantId
  let meetings := w.meetings.rows.filter fun row => within tenantId row.tenantId
  let auditEvents := w.audit.filter fun row => within tenantId row.tenantId
  let participants := w.participants.rows
  let total := participants.length
  let verified := participants.countP (·.trustStatus = .verified)
  let failed := participants.countP (·.trustStatus = .failed)
  { devices :=
      { total := devices.length
        active := devices.countP (·.status = .active)
        hardwareBound := devices.countP (·.hardwareBound) }
    meetings := meetings.length
    participants := ⟨total, verified, failed, verifiedRate verified total⟩
    auditEvents := auditEvents.length
    threatsDetected := failed }

/-! ### One query at a time -/

/-- The queries of `getStats`. -/
inductive StatsQuery where
  | totalDevices
  | activeDevices
  | hwBoundDevices
  | totalMeetings
  | totalParticipants
  | verifiedParticipants
  | failedParticipants
  | totalAuditEvents
deriving DecidableEq, Repr

/-- What a query answers in the state it meets. -/
def StatsQuery.count (tenantId : Option String) (w : World) : StatsQuery → Nat
  | .totalDevices => w.devices.rows.countP fun row => within tenantId row.tenantId
  | .activeDevices =>
      w.devices.rows.countP fun row => within tenantId row.tenantId && row.status = .active
  | .hwBoundDevices =>
      w.devices.rows.countP fun row => within tenantId row.tenantId && row.hardwareBound
  | .totalMeetings => w.meetings.rows.countP fun row => within tenantId row.tenantId
  | .totalParticipants => w.participants.rows.length
  | .verifiedParticipants => w.participants.rows.countP (·.trustStatus = .verified)
  | .failedParticipants => w.participants.rows.countP (·.trustStatus = .failed)
  | .totalAuditEvents => w.audit.countP fun row => within tenantId row.tenantId

/-- What `getStats` returns for the answers. -/
def collect (count : StatsQuery → Nat) : Stats where
  devices :=
    { total := count .totalDevices
      active := count .activeDevices
      hardwareBound := count .hwBoundDevices }
  meetings := count .totalMeetings
  participants :=
    { total := count .totalParticipants
      verified := count .verifiedParticipants
      failed := count .failedParticipants
      verifiedRate := verifiedRate (count .verifiedParticipants) (count .totalParticipants) }
  auditEvents := count .totalAuditEvents
  threatsDetected := count .failedParticipants

/-- Where all queries meet one state. -/
theorem collect_count (tenantId : Option String) (w : World) :
    collect (StatsQuery.count tenantId w) = getStats tenantId w := by
  simp only [collect, StatsQuery.count, getStats, List.countP_filter,
    ← List.countP_eq_length_filter, Bool.and_comm]

end StatsController

end TroofAI.Hub
