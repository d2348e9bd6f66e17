import Mathlib.Data.Rat.Floor

/-!
The trust score of a meeting, as the dashboard, the list of meetings and the hub's statistics
compute it: the share of VERIFIED participants, rounded to a whole percent. The pages are
modelled with exact quotients.

The dashboard classes a meeting by the rounded number. So 'perfect' allows for one participant
in 200 who is not VERIFIED, and a meeting in which fewer than one in 200 is counts as 'none'
(`score_thresholds`).
-/

namespace TroofAI.Web

/-- `Math.round`: a half goes up. -/
def mathRound (x : ℚ) : ℤ := ⌊x + 1 / 2⌋

/-- `Math.round((verified / total) * 100)` -/
def percent (verified total : Nat) : ℤ := mathRound (verified / total * 100)

/-- What a page reads of a participant. -/
structure Participant where
  trustStatus : String
deriving DecidableEq, Repr

/-- `m.participants.filter(p => p.trustStatus === 'VERIFIED').length` -/
def verified (participants : List Participant) : Nat :=
  (participants.filter (·.trustStatus = "VERIFIED")).length

namespace DashboardPage

def score (participants : List Participant) : ℤ :=
  if participants.length > 0 then percent (verified participants) participants.length else 0

def scoreClass (score : ℤ) : String :=
  if score = 100 then "perfect" else if score > 0 then "partial" else "none"

end DashboardPage

namespace MeetingsPage

def score (participants : List Participant) : ℤ :=
  let total := participants.length
  if total > 0 then percent (verified participants) total else 0

end MeetingsPage

namespace StatsController

/-- `verifiedRate` with an exact quotient. -/
def verifiedRate (verified total : Nat) : ℤ := if total > 0 then percent verified total else 0

end StatsController

/-! ### Rounding -/

variable {v total : Nat}

/-- The percentage as a quotient of whole numbers. -/
theorem percent_eq (h : 0 < total) : percent v total = ((200 * v + total) / (2 * total) : Nat) := by
  have hquotient : (v / total * 100 + 1 / 2 : ℚ) = (200 * v + total : Nat) / (2 * total : Nat) := by
    have hne : (total : ℚ) ≠ 0 := by exact_mod_cast h.ne'
    push_cast
    field_simp
    ring
  unfold percent mathRound
  rw [hquotient, Rat.floor_natCast_div_natCast, Int.natCast_ediv]

theorem percent_eq_hundred_iff (h : 0 < total) (hle : v ≤ total) :
    percent v total = 100 ↔ 200 * (total - v) ≤ total := by
  rw [percent_eq h, show (100 : ℤ) = (100 : Nat) from rfl, Int.natCast_inj,
    Nat.div_eq_iff (by omega)]
  omega

theorem percent_eq_zero_iff (h : 0 < total) : percent v total = 0 ↔ 200 * v < total := by
  rw [percent_eq h, show (0 : ℤ) = (0 : Nat) from rfl, Int.natCast_inj, Nat.div_eq_iff (by omega)]
  omega

theorem percent_nonneg (h : 0 < total) : 0 ≤ percent v total := by
  rw [percent_eq h]
  exact Int.natCast_nonneg _

/-! ### The three places -/

variable {participants : List Participant}

theorem verified_le (participants : List Participant) :
    verified participants ≤ participants.length := List.length_filter_le ..

theorem verified_eq_length_iff : verified participants = participants.length ↔
    ∀ p ∈ participants, p.trustStatus = "VERIFIED" := by
  simp [verified, List.length_filter_eq_length_iff]

theorem verified_eq_zero_iff : verified participants = 0 ↔
    ∀ p ∈ participants, p.trustStatus ≠ "VERIFIED" := by
  simp [verified]

theorem score_eq (h : participants ≠ []) :
    DashboardPage.score participants = percent (verified participants) participants.length :=
  if_pos (List.length_pos_of_ne_nil h)

theorem perfect_iff {score : ℤ} : DashboardPage.scoreClass score = "perfect" ↔ score = 100 := by
  unfold DashboardPage.scoreClass
  split
  · next h => simp [h]
  · next h => split <;> simp [h]

theorem none_iff {score : ℤ} (hnonneg : 0 ≤ score) :
    DashboardPage.scoreClass score = "none" ↔ score = 0 := by
  unfold DashboardPage.scoreClass
  split
  · next h => simp [h]
  · split
    · next h => simp [h.ne']
    · next h => simp [le_antisymm (not_lt.mp h) hnonneg]

/-- A meeting is 'perfect' if at most one participant in 200 is not VERIFIED, and 'none' if
fewer than one in 200 is; the rate of the hub is 100 and 0 in the same cases. With fewer than
200 participants that is: all of them, and none. -/
theorem score_thresholds :
    (∀ participants : List Participant, participants ≠ [] →
      MeetingsPage.score participants = DashboardPage.score participants ∧
      (DashboardPage.scoreClass (DashboardPage.score participants) = "perfect" ↔
        200 * (participants.length - verified participants) ≤ participants.length) ∧
      (DashboardPage.scoreClass (DashboardPage.score participants) = "none" ↔
        200 * verified participants < participants.length) ∧
      (participants.length < 200 →
        (DashboardPage.scoreClass (DashboardPage.score participants) = "perfect" ↔
          ∀ p ∈ participants, p.trustStatus = "VERIFIED") ∧
        (DashboardPage.scoreClass (DashboardPage.score participants) = "none" ↔
          ∀ p ∈ participants, p.trustStatus ≠ "VERIFIED"))) ∧
    ∀ verified total : Nat, 0 < total → verified ≤ total →
      (StatsController.verifiedRate verified total = 100 ↔ 200 * (total - verified) ≤ total) ∧
      (StatsController.verifiedRate verified total = 0 ↔ 200 * verified < total) ∧
      (total < 200 →
        (StatsController.verifiedRate verified total = 100 ↔ verified = total) ∧
        (StatsController.verifiedRate verified total = 0 ↔ verified = 0)) := by
  constructor
  · intro participants hne
    have hpos := List.length_pos_of_ne_nil hne
    have hle := verified_le participants
    have hperfect := percent_eq_hundred_iff hpos hle
    have hnone : percent (verified participants) participants.length = 0 ↔
        200 * verified participants < participants.length := percent_eq_zero_iff hpos
    rw [perfect_iff, none_iff (score_eq hne ▸ percent_nonneg hpos), score_eq hne, hperfect, hnone,
      ← verified_eq_length_iff, ← verified_eq_zero_iff]
    refine ⟨score_eq hne, Iff.rfl, Iff.rfl, fun hsmall => ⟨?_, ?_⟩⟩ <;> omega
  · intro v total hpos hle
    have hrate : StatsController.verifiedRate v total = percent v total := if_pos hpos
    rw [hrate, percent_eq_hundred_iff hpos hle, percent_eq_zero_iff hpos]
    refine ⟨Iff.rfl, Iff.rfl, fun hsmall => ⟨?_, ?_⟩⟩ <;> omega

theorem score_thresholds_sample :
    DashboardPage.scoreClass (DashboardPage.score [⟨"VERIFIED"⟩, ⟨"VERIFIED"⟩]) = "perfect" ∧
      StatsController.verifiedRate 0 3 = 0 := by
  have hpage := (score_thresholds.1 [⟨"VERIFIED"⟩, ⟨"VERIFIED"⟩] (by simp)).2.2.2 (by decide)
  have hrate := (score_thresholds.2 0 3 (by omega) (by omega)).2.2 (by omega)
  exact ⟨hpage.1.mpr (by simp), hrate.2.mpr rfl⟩

/-- With 199 of 200 participants VERIFIED a meeting is 'perfect', and with 1 of 201 it is 'none'. -/
theorem score_rounds_to_extremes :
    let all (n m : Nat) := List.replicate n (Participant.mk "VERIFIED") ++
      List.replicate m (Participant.mk "FAILED")
    ¬ (DashboardPage.scoreClass (DashboardPage.score (all 199 1)) = "perfect" ↔
        ∀ p ∈ all 199 1, p.trustStatus = "VERIFIED") ∧
      ¬ (DashboardPage.scoreClass (DashboardPage.score (all 1 200)) = "none" ↔
        ∀ p ∈ all 1 200, p.trustStatus ≠ "VERIFIED") ∧
      StatsController.verifiedRate 199 200 = 100 ∧ StatsController.verifiedRate 1 201 = 0 := by
  decide +kernel

end TroofAI.Web
