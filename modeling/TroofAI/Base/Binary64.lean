import Mathlib

/-!
Rounding to double precision.

The kernel computes with `Float` through `Float.Model`: a result is cut off behind its last bit
and rounded to the nearest, halves to the even. For numbers that are not negative this file says
what each operation rounds, over the rational numbers.

* `Rounds x y`: `y` is the double that `x` is rounded to. `Rounds.mono`: rounding preserves order.
* `Denotes f x`: the double `f` stands for `x`.
* `div_spec`, `mul_spec`: a result denotes what the exact result is rounded to.
* `float_div_spec`, `float_mul_le`, `toUInt64_le`, `sub_self_zero`: what follows for `Float`.
-/

namespace TroofAI.Binary64

open Float.Model Float.Model.UnpackedFloat

/-! ### Rounding to a whole number -/

/-- `m` is `x` without its fraction, and the accuracy says what the fraction is like. -/
def CutOff (x : ℚ) (m : ℕ) : Accuracy → Prop
  | .exact => x = m
  | .inexact .lt => m < x ∧ x < m + 1 / 2
  | .inexact .eq => x = m + 1 / 2
  | .inexact .gt => m + 1 / 2 < x ∧ x < m + 1

variable {x x' y y' : ℚ} {m m' n : ℕ} {acc acc' : Accuracy}

/-- Nothing is cut off a whole number. -/
theorem cutOff_natCast (n : ℕ) : CutOff n n .exact := rfl

theorem CutOff.floor (h : CutOff x m acc) : m ≤ x ∧ x < m + 1 := by
  rcases acc with _ | ⟨_ | _ | _⟩ <;> simp only [CutOff] at h <;> constructor <;> linarith

/-- Two numbers in one order are rounded in this order. -/
theorem CutOff.mono (h : CutOff x m acc) (h' : CutOff x' m' acc') (hle : x ≤ x') :
    acc.roundToNearestEven m ≤ acc'.roundToNearestEven m' := by
  have hround (m : ℕ) (acc : Accuracy) :
      m ≤ acc.roundToNearestEven m ∧ acc.roundToNearestEven m ≤ m + 1 := by
    rcases acc with _ | ⟨_ | _ | _⟩ <;> simp only [Accuracy.roundToNearestEven] <;> omega
  have hmm : m < m' + 1 := by
    have hcast : (m : ℚ) < (m' + 1 : ℕ) := by
      push_cast
      linarith [h.floor.1, h'.floor.2]
    exact_mod_cast hcast
  rcases Nat.lt_succ_iff_lt_or_eq.mp hmm with hlt | rfl
  · have := hround m acc
    have := hround m' acc'
    omega
  · -- with one whole part, the fractions are in that order
    rcases acc with _ | ⟨_ | _ | _⟩ <;> rcases acc' with _ | ⟨_ | _ | _⟩ <;>
      simp only [CutOff, Accuracy.roundToNearestEven] at h h' ⊢ <;>
      first | omega | (exfalso; linarith)

theorem CutOff.round_le (h : CutOff x m acc) (hle : x ≤ n) : acc.roundToNearestEven m ≤ n :=
  h.mono (cutOff_natCast n) hle

theorem CutOff.le_round (h : CutOff x m acc) (hle : n ≤ x) : n ≤ acc.roundToNearestEven m :=
  (cutOff_natCast n).mono h hle

/-- One bit less. -/
theorem CutOff.half {em : ExtendedMantissa} (h : CutOff x em.mantissa em.accuracy) :
    CutOff (x / 2) em.shiftRightOne.mantissa em.shiftRightOne.accuracy := by
  obtain ⟨m, roundBit, stickyBit⟩ := em
  have hm : m = 2 * (m / 2) + m % 2 := (Nat.div_add_mod m 2).symm
  have hcast : (m : ℚ) = 2 * (m / 2 : ℕ) + (m % 2 : ℕ) := by exact_mod_cast hm
  have hodd : ((1 : ℕ) != 0) = true := rfl
  rcases Nat.mod_two_eq_zero_or_one m with hbit | hbit <;> cases roundBit <;> cases stickyBit <;>
    simp only [ExtendedMantissa.shiftRightOne, ExtendedMantissa.accuracy, CutOff, hbit, hcast, hodd,
      Bool.or_self, Bool.or_true, Bool.true_or, bne_self_eq_false, Nat.cast_zero,
      Nat.cast_one] at h ⊢ <;>
    first | linarith | (constructor <;> linarith)

theorem CutOff.shift {em : ExtendedMantissa} (h : CutOff x em.mantissa em.accuracy) (k : ℕ) :
    CutOff (x / 2 ^ k) (em >>> k).mantissa (em >>> k).accuracy := by
  induction k with
  | zero =>
    rw [pow_zero, div_one]
    exact h
  | succ k ih =>
    rw [pow_succ, ← div_div]
    exact ih.half

/-! ### Rounding to 53 bits -/

/-- The last bit of a double next to `x` stands for `2 ^ t`. -/
structure Scale (x : ℚ) (t : ℤ) : Prop where
  low : -1074 ≤ t
  upper : x < 2 ^ 53 * 2 ^ t
  normal : t = -1074 ∨ 2 ^ 52 * 2 ^ t ≤ x

/-- `y` is `x` rounded to the nearest double, where the exponent has no upper bound. -/
def Rounds (x y : ℚ) : Prop :=
  ∃ t m acc, Scale x t ∧ CutOff (x / 2 ^ t) m acc ∧ y = acc.roundToNearestEven m * 2 ^ t

variable {t t' : ℤ}

theorem two_zpow_pos (t : ℤ) : (0 : ℚ) < 2 ^ t := zpow_pos two_pos t

/-- A larger scale begins where a smaller one ends. -/
theorem scale_le (h : t < t') : (2 : ℚ) ^ 53 * 2 ^ t ≤ 2 ^ 52 * 2 ^ t' := by
  have hpow : (2 : ℚ) ^ (t + 1) ≤ 2 ^ t' := zpow_le_zpow_right₀ one_le_two h
  rw [zpow_add_one₀ two_ne_zero] at hpow
  linarith

theorem Scale.le (h : Scale x t) (h' : Scale x' t') (hle : x ≤ x') : t ≤ t' := by
  by_contra hlt
  rcases h.normal with rfl | hnormal
  · exact hlt h'.low
  · linarith [h'.upper, scale_le (not_le.mp hlt)]

/-- Rounding preserves order. -/
theorem Rounds.mono (h : Rounds x y) (h' : Rounds x' y') (hle : x ≤ x') : y ≤ y' := by
  obtain ⟨t, m, acc, hscale, hcut, rfl⟩ := h
  obtain ⟨t', m', acc', hscale', hcut', rfl⟩ := h'
  have hpos := two_zpow_pos t
  have hpos' := two_zpow_pos t'
  rcases (hscale.le hscale' hle).lt_or_eq with hlt | rfl
  · -- a power of two lies between the two
    have hx : x / 2 ^ t ≤ (2 ^ 53 : ℕ) := by
      rw [div_le_iff₀ hpos, Nat.cast_pow, Nat.cast_ofNat]
      exact hscale.upper.le
    have hx' : (2 ^ 52 : ℕ) ≤ x' / 2 ^ t' := by
      rw [le_div_iff₀ hpos', Nat.cast_pow, Nat.cast_ofNat]
      exact hscale'.normal.resolve_left (by have := hscale.low; omega)
    have hbelow : (acc.roundToNearestEven m : ℚ) ≤ 2 ^ 53 := by exact_mod_cast hcut.round_le hx
    have habove : 2 ^ 52 ≤ (acc'.roundToNearestEven m' : ℚ) := by
      exact_mod_cast hcut'.le_round hx'
    calc (acc.roundToNearestEven m : ℚ) * 2 ^ t
        ≤ 2 ^ 53 * 2 ^ t := mul_le_mul_of_nonneg_right hbelow hpos.le
      _ ≤ 2 ^ 52 * 2 ^ t' := scale_le hlt
      _ ≤ acc'.roundToNearestEven m' * 2 ^ t' := mul_le_mul_of_nonneg_right habove hpos'.le
  · have hround : acc.roundToNearestEven m ≤ acc'.roundToNearestEven m' :=
      hcut.mono hcut' (div_le_div_of_nonneg_right hle hpos.le)
    exact mul_le_mul_of_nonneg_right (by exact_mod_cast hround) hpos.le

theorem Rounds.unique (h : Rounds x y) (h' : Rounds x y') : y = y' :=
  le_antisymm (h.mono h' le_rfl) (h'.mono h le_rfl)

/-- `f` stands for `x`, which is not negative. -/
inductive Denotes : UnpackedFloat → ℚ → Prop where
  | zero : Denotes (.zero .positive) 0
  | finite {m e} (hm : 0 < m) : m < 2 ^ 53 → -1074 ≤ e → (e = -1074 ∨ 2 ^ 52 ≤ m) →
      Denotes (.finite .positive m e hm) (m * 2 ^ e)

/-- What is a double already is rounded to itself. -/
theorem Denotes.rounds_self {f : UnpackedFloat} (h : Denotes f x) : Rounds x x := by
  cases h with
  | zero =>
    refine ⟨-1074, 0, .exact, ⟨le_rfl, by positivity, .inl rfl⟩, ?_, ?_⟩
    · simp [CutOff]
    · simp [Accuracy.roundToNearestEven]
  | @finite m e hm hlt hlow hnormal =>
    have hpos := two_zpow_pos e
    refine ⟨e, m, .exact, ⟨hlow, ?_, ?_⟩, ?_, rfl⟩
    · exact mul_lt_mul_of_pos_right (by exact_mod_cast hlt) hpos
    · exact hnormal.imp_right fun hle =>
        mul_le_mul_of_nonneg_right (by exact_mod_cast hle) hpos.le
    · exact mul_div_cancel_right₀ _ hpos.ne'

/-! ### What the operations round -/

/-- The scale of a number whose whole part is `m` at the exponent `e`. -/
theorem targetExponent_eq (m : ℕ) (e : ℤ) :
    Format.binary64.targetExponent (totalExponent m e) = max (m.log2 + e - 52) (-1074) := by
  show max (((m.log2 : ℤ) + 1 + e) - 53) (-1074) = _
  congr 1
  omega

theorem two_pow_mul (k : ℕ) (t : ℤ) : (2 : ℚ) ^ k * 2 ^ t = 2 ^ (k + t) := by
  rw [zpow_add₀ two_ne_zero, zpow_natCast]

theorem scale_of_cutOff {e : ℤ} (h : CutOff x m acc) (hplace : e ≤ -1074 ∨ 2 ^ 52 ≤ m)
    (ht : t = max (m.log2 + e - 52) (-1074)) : e ≤ t ∧ Scale (x * 2 ^ e) t := by
  obtain ⟨hle, hlt⟩ := h.floor
  have hlog : e ≤ -1074 ∨ 52 ≤ m.log2 :=
    hplace.imp_right fun hm => (Nat.le_log2 (by omega)).mpr hm
  have hpos := two_zpow_pos e
  refine ⟨by omega, by omega, ?_, ?_⟩
  · have hm : m + 1 ≤ 2 ^ (m.log2 + 1) := Nat.lt_log2_self
    have hx : x < 2 ^ (m.log2 + 1) := hlt.trans_le (by exact_mod_cast hm)
    calc x * 2 ^ e < 2 ^ (m.log2 + 1) * 2 ^ e := mul_lt_mul_of_pos_right hx hpos
      _ = 2 ^ ((m.log2 + 1 : ℕ) + e) := two_pow_mul _ _
      _ ≤ 2 ^ ((53 : ℕ) + t) := zpow_le_zpow_right₀ one_le_two (by omega)
      _ = 2 ^ 53 * 2 ^ t := (two_pow_mul 53 t).symm
  · rcases eq_or_ne t (-1074) with hmin | hmin
    · exact .inl hmin
    · right
      have hm : 2 ^ m.log2 ≤ m := Nat.log2_self_le <| by
        rintro rfl
        rw [Nat.log2_zero] at hlog ht
        omega
      have hx : 2 ^ m.log2 ≤ x := le_trans (by exact_mod_cast hm) hle
      calc (2 : ℚ) ^ 52 * 2 ^ t = 2 ^ ((52 : ℕ) + t) := two_pow_mul 52 t
        _ = 2 ^ (m.log2 + e) := by congr 1; omega
        _ = 2 ^ m.log2 * 2 ^ e := (two_pow_mul _ _).symm
        _ ≤ x * 2 ^ e := mul_le_mul_of_nonneg_right hx hpos.le

/-- After rounding, a mantissa of 54 bits is shifted once more. -/
theorem shift_rounded (hn : n ≤ 2 ^ 53) (ht : -1074 ≤ t) :
    shiftToTargetExponent .binary64 n t .exact =
      if n < 2 ^ 53 then (⟨n, false, false⟩, t) else (⟨2 ^ 52, false, false⟩, t + 1) := by
  unfold shiftToTargetExponent
  rw [targetExponent_eq]
  split
  · next hlt =>
    have hlog : n.log2 ≤ 52 := by
      rcases eq_or_ne n 0 with rfl | hne
      · simp
      · exact Nat.lt_succ_iff.mp ((Nat.log2_lt hne).mpr hlt)
    have hshift : (max ((n.log2 : ℤ) + t - 52) (-1074) - t).toNat = 0 := by omega
    simp only [shiftToExponent, hshift]
    simp [HShiftRight.hShiftRight, Nat.repeat, ExtendedMantissa.ofMantissaAndAccuracy]
  · next hge =>
    obtain rfl : n = 2 ^ 53 := by omega
    have hshift : (max (((2 ^ 53 : ℕ).log2 : ℤ) + t - 52) (-1074) - t).toNat = 1 := by
      rw [Nat.log2_two_pow]
      omega
    simp only [shiftToExponent, hshift]
    rfl

theorem round_spec {e : ℤ} (h : CutOff x m acc) (hplace : e ≤ -1074 ∨ 2 ^ 52 ≤ m) :
    ∃ y, Rounds (x * 2 ^ e) y ∧ Denotes (roundWithAccuracy .binary64 .positive m e acc) y := by
  generalize ht : max ((m.log2 : ℤ) + e - 52) (-1074) = t
  obtain ⟨hle, hscale⟩ := scale_of_cutOff h hplace ht.symm
  have hpos := two_zpow_pos t
  generalize hem : ExtendedMantissa.ofMantissaAndAccuracy m acc >>> (t - e).toNat = em
  have hfirst : shiftToTargetExponent .binary64 m e acc = (em, t) := by
    unfold shiftToTargetExponent shiftToExponent
    rw [targetExponent_eq, ht]
    simp only [hem, Prod.mk.injEq, true_and]
    omega
  have hcut : CutOff (x * 2 ^ e / 2 ^ t) em.mantissa em.accuracy := by
    have hem' : CutOff x (ExtendedMantissa.ofMantissaAndAccuracy m acc).mantissa
        (ExtendedMantissa.ofMantissaAndAccuracy m acc).accuracy := by
      rcases acc with _ | ⟨_ | _ | _⟩ <;> exact h
    have hx : x * 2 ^ e / 2 ^ t = x / 2 ^ (t - e).toNat := by
      have hpow : (2 : ℚ) ^ t = 2 ^ (t - e).toNat * 2 ^ e := by
        rw [two_pow_mul]
        congr 1
        omega
      rw [hpow, mul_div_mul_right _ _ (two_zpow_pos e).ne']
    rw [hx, ← hem]
    exact hem'.shift _
  have hupper : em.roundedMantissa ≤ 2 ^ 53 := by
    apply hcut.round_le
    rw [div_le_iff₀ hpos, Nat.cast_pow, Nat.cast_ofNat]
    exact hscale.upper.le
  have hnormal : t = -1074 ∨ 2 ^ 52 ≤ em.roundedMantissa := by
    refine hscale.normal.imp_right fun hx => hcut.le_round ?_
    rw [le_div_iff₀ hpos, Nat.cast_pow, Nat.cast_ofNat]
    exact hx
  refine ⟨em.roundedMantissa * 2 ^ t, ⟨t, _, _, hscale, hcut, rfl⟩, ?_⟩
  rw [roundWithAccuracy, hfirst]
  dsimp only
  generalize hlast : shiftToTargetExponent .binary64 em.roundedMantissa t .exact = last
  rw [shift_rounded hupper hscale.low] at hlast
  generalize em.roundedMantissa = n at hupper hnormal hlast
  by_cases hlt : n < 2 ^ 53
  · rw [if_pos hlt] at hlast
    subst hlast
    by_cases hzero : n = 0
    · rw [dif_pos hzero, hzero, Nat.cast_zero, zero_mul]
      exact .zero
    · rw [dif_neg hzero]
      exact .finite _ hlt hscale.low hnormal
  · obtain rfl : n = 2 ^ 53 := by omega
    have hvalue : ((2 ^ 53 : ℕ) : ℚ) * 2 ^ t = (2 ^ 52 : ℕ) * 2 ^ (t + 1) := by
      rw [zpow_add_one₀ two_ne_zero]
      push_cast
      ring
    rw [if_neg hlt] at hlast
    subst hlast
    rw [hvalue]
    have hlow : -1074 ≤ t + 1 := Int.le_add_one hscale.low
    exact .finite (m := 2 ^ 52) (by decide) (by decide) hlow (.inr le_rfl)

/-- A whole number. -/
theorem ofNat_spec (n : ℕ) : ∃ y, Rounds n y ∧ Denotes (UnpackedFloat.ofNat .binary64 n) y := by
  rcases Nat.eq_zero_or_pos n with rfl | hn
  · exact ⟨0, by simpa using Denotes.zero.rounds_self, .zero⟩
  · unfold UnpackedFloat.ofNat UnpackedFloat.ofInt UnpackedFloat.normalize
    rw [Int.compare_eq_gt.mpr (by omega)]
    unfold UnpackedFloat.round
    simp only [targetExponent_eq, decreaseExponent, Int.toNat_natCast]
    generalize hk : (0 - max ((n.log2 : ℤ) + 0 - 52) (-1074)).toNat = k
    have hplace : 0 - (k : ℤ) ≤ -1074 ∨ 2 ^ 52 ≤ n <<< k := by
      right
      calc 2 ^ 52 ≤ 2 ^ (n.log2 + k) := Nat.pow_le_pow_right two_pos (by omega)
        _ = 2 ^ n.log2 * 2 ^ k := pow_add _ _ _
        _ ≤ n * 2 ^ k := Nat.mul_le_mul_right _ (Nat.log2_self_le hn.ne')
        _ = n <<< k := (Nat.shiftLeft_eq n k).symm
    have hvalue : ((n <<< k : ℕ) : ℚ) * 2 ^ (0 - (k : ℤ)) = n := by
      rw [Nat.shiftLeft_eq, Nat.cast_mul, Nat.cast_pow, Nat.cast_ofNat, mul_assoc, two_pow_mul]
      simp
    obtain ⟨y, hy, hdenotes⟩ := round_spec (cutOff_natCast (n <<< k)) hplace
    rw [hvalue] at hy
    exact ⟨y, hy, hdenotes⟩

theorem mul_spec {f g : UnpackedFloat} (hf : Denotes f x) (hg : Denotes g x') :
    ∃ y, Rounds (x * x') y ∧ Denotes (UnpackedFloat.mul .binary64 f g) y := by
  cases hf with
  | zero =>
    refine ⟨0, by simpa using Denotes.zero.rounds_self, ?_⟩
    cases hg <;> exact .zero
  | @finite m e hm hlt hlow hnormal =>
    cases hg with
    | zero => exact ⟨0, by simpa using Denotes.zero.rounds_self, .zero⟩
    | @finite m' e' hm' hlt' hlow' hnormal' =>
      have hplace : e + e' ≤ -1074 ∨ 2 ^ 52 ≤ m * m' := by
        rcases hnormal with rfl | h52
        · rcases hnormal' with rfl | h52
          · left
            decide
          · exact .inr (h52.trans (Nat.le_mul_of_pos_left m' hm))
        · exact .inr (h52.trans (Nat.le_mul_of_pos_right m hm'))
      have hvalue : (m : ℚ) * 2 ^ e * (m' * 2 ^ e') = (m * m' : ℕ) * 2 ^ (e + e') := by
        rw [zpow_add₀ two_ne_zero]
        push_cast
        ring
      rw [hvalue]
      exact round_spec (cutOff_natCast (m * m')) hplace

theorem cutOff_div (num : ℕ) {den : ℕ} (hden : 0 < den) :
    CutOff (num / den) (num / den) (accuracyOfFraction (num % den) den) := by
  have hpos : (0 : ℚ) < den := by exact_mod_cast hden
  have hvalue : (num : ℚ) / den = (num / den : ℕ) + (num % den : ℕ) / den := by
    have hnum : (num : ℚ) = den * (num / den : ℕ) + (num % den : ℕ) := by
      exact_mod_cast (Nat.div_add_mod num den).symm
    rw [hnum, add_div, mul_div_cancel_left₀ _ hpos.ne']
  rw [hvalue]
  have hlt := Nat.mod_lt num hden
  generalize num % den = r at hlt
  have hlt' : (r : ℚ) / den < 1 := (div_lt_one hpos).mpr (by exact_mod_cast hlt)
  unfold accuracyOfFraction
  split
  · next hzero => simp [CutOff, hzero]
  · next hzero =>
    have hr : (0 : ℚ) < r / den := div_pos (by exact_mod_cast Nat.pos_of_ne_zero hzero) hpos
    rcases lt_trichotomy (2 * r) den with h | h | h
    · rw [Nat.compare_eq_lt.mpr h]
      have hcast : 2 * (r : ℚ) < den := by exact_mod_cast h
      have : (r : ℚ) / den < 1 / 2 := by rw [div_lt_iff₀ hpos]; linarith
      constructor <;> linarith
    · rw [Nat.compare_eq_eq.mpr h]
      have hcast : 2 * (r : ℚ) = den := by exact_mod_cast h
      have : (r : ℚ) / den = 1 / 2 := by rw [div_eq_iff hpos.ne']; linarith
      show _ = _
      linarith
    · rw [Nat.compare_eq_gt.mpr h]
      have hcast : (den : ℚ) < 2 * r := by exact_mod_cast h
      have : 1 / 2 < (r : ℚ) / den := by rw [lt_div_iff₀ hpos]; linarith
      constructor <;> linarith

theorem div_spec {f g : UnpackedFloat} (hf : Denotes f x) (hg : Denotes g x') (hpos : 0 < x') :
    ∃ y, Rounds (x / x') y ∧ Denotes (UnpackedFloat.div .binary64 f g) y := by
  cases hg with
  | zero => exact absurd hpos (lt_irrefl _)
  | @finite m' e' hm' hlt' hlow' hnormal' =>
    cases hf with
    | zero => exact ⟨0, by simpa using Denotes.zero.rounds_self, .zero⟩
    | @finite m e hm hlt hlow hnormal =>
      -- the exponent of the quotient, and how far the numerator is shifted to reach it
      generalize hq : min (e - e') (Format.binary64.targetExponent
        (totalExponent m e - totalExponent m' e')) = q
      generalize hk : (e - e' - q).toNat = k
      have htarget : Format.binary64.targetExponent (totalExponent m e - totalExponent m' e') =
          max ((m.log2 : ℤ) + e - (m'.log2 + e') - 53) (-1074) := by
        show max (((m.log2 : ℤ) + 1 + e - (m'.log2 + 1 + e')) - 53) (-1074) = _
        congr 1
        omega
      have hplace : q ≤ -1074 ∨ 2 ^ 52 ≤ (m <<< k) / m' := by
        rw [htarget] at hq
        rcases le_or_gt q (-1074) with hmin | hmin
        · exact .inl hmin
        · right
          rw [Nat.le_div_iff_mul_le hm', Nat.shiftLeft_eq]
          calc 2 ^ 52 * m' ≤ 2 ^ 52 * 2 ^ (m'.log2 + 1) :=
                Nat.mul_le_mul_left _ Nat.lt_log2_self.le
            _ = 2 ^ (52 + (m'.log2 + 1)) := (pow_add _ _ _).symm
            _ ≤ 2 ^ (m.log2 + k) := Nat.pow_le_pow_right two_pos (by omega)
            _ = 2 ^ m.log2 * 2 ^ k := pow_add _ _ _
            _ ≤ m * 2 ^ k := Nat.mul_le_mul_right _ (Nat.log2_self_le hm.ne')
      have hvalue : (m : ℚ) * 2 ^ e / (m' * 2 ^ e') = (m <<< k : ℕ) / m' * 2 ^ q := by
        have hpow : (2 : ℚ) ^ e = 2 ^ k * 2 ^ q * 2 ^ e' := by
          rw [two_pow_mul, ← zpow_add₀ two_ne_zero]
          congr 1
          omega
        have he' := (two_zpow_pos e').ne'
        have hm'' : (m' : ℚ) ≠ 0 := by exact_mod_cast hm'.ne'
        rw [hpow, Nat.shiftLeft_eq]
        push_cast
        field_simp
      rw [hvalue]
      obtain ⟨y, hy, hdenotes⟩ := round_spec (cutOff_div (m <<< k) hm') hplace
      refine ⟨y, hy, ?_⟩
      unfold UnpackedFloat.div divCore
      dsimp only
      rw [hq, hk]
      exact hdenotes

/-- The difference of a double and itself. -/
theorem sub_self_eq {f g : UnpackedFloat} (hf : Denotes f x) (hg : Denotes g x) :
    UnpackedFloat.sub .binary64 f g = .zero .positive := by
  generalize hx : x = x' at hg
  cases hf with
  | zero =>
    cases hg with
    | zero => rfl
    | @finite m' e' hm' =>
      have : (0 : ℚ) < m' * 2 ^ e' := mul_pos (by exact_mod_cast hm') (two_zpow_pos e')
      linarith
  | @finite m e hm =>
    cases hg with
    | zero =>
      have : (0 : ℚ) < m * 2 ^ e := mul_pos (by exact_mod_cast hm) (two_zpow_pos e)
      linarith
    | @finite m' e' hm' =>
      have hsame : m <<< (e - min e e').toNat = m' <<< (e' - min e e').toNat := by
        have hshift (m : ℕ) (a : ℤ) (h : min e e' ≤ a) :
            ((m <<< (a - min e e').toNat : ℕ) : ℚ) * 2 ^ min e e' = m * 2 ^ a := by
          rw [Nat.shiftLeft_eq, Nat.cast_mul, Nat.cast_pow, Nat.cast_ofNat, mul_assoc, two_pow_mul]
          congr 2
          omega
        have heq := (hshift m e (min_le_left _ _)).trans
          (hx.trans (hshift m' e' (min_le_right _ _)).symm)
        exact_mod_cast mul_right_cancel₀ (two_zpow_pos _).ne' heq
      simp only [UnpackedFloat.sub, decreaseExponent, hsame, sub_self]
      rfl

/-- Without the fraction. -/
theorem toInt_spec {f : UnpackedFloat} (hf : Denotes f x) (a b : ℤ) :
    ((f.toInt a b).toNat : ℚ) ≤ x ∧ x < (f.toInt a b).toNat + 1 := by
  cases hf with
  | zero => simp [UnpackedFloat.toInt]
  | @finite m e hm =>
    have hcut : CutOff ((m <<< (e - 0).toNat : ℕ) : ℚ)
        (ExtendedMantissa.ofMantissaAndAccuracy (m <<< (e - 0).toNat) .exact).mantissa
        (ExtendedMantissa.ofMantissaAndAccuracy (m <<< (e - 0).toNat) .exact).accuracy := rfl
    have hfloor := (hcut.shift (0 - (e - (e - 0).toNat)).toNat).floor
    have hvalue : ((m <<< (e - 0).toNat : ℕ) : ℚ) / 2 ^ (0 - (e - (e - 0).toNat)).toNat =
        m * 2 ^ e := by
      rw [div_eq_iff (by positivity), Nat.shiftLeft_eq, Nat.cast_mul, Nat.cast_pow, Nat.cast_ofNat,
        mul_assoc, mul_comm ((2 : ℚ) ^ e), two_pow_mul, ← zpow_natCast]
      congr 2
      omega
    rw [hvalue] at hfloor
    exact hfloor

/-! ### Doubles -/

/-- A double whose mantissa has a leading bit. -/
theorem unpack_normal {b : ℕ} (hb : 0 < b) (hb' : b < 2047) (m : BitVec 52) :
    UnpackedFloat.unpack .binary64 (packComponents .binary64 .positive (BitVec.ofNat 11 b) m) =
      .finite .positive (2 ^ 52 + m.toNat) (b - 1075) (by omega) := by
  have htoNat : (BitVec.ofNat 11 b).toNat = b := by
    rw [BitVec.toNat_ofNat]
    exact Nat.mod_eq_of_lt (by omega)
  have hnan : BitVec.ofNat 11 b ≠ -1#11 := by
    intro h
    have := congrArg BitVec.toNat h
    rw [htoNat] at this
    simp at this
    omega
  have hzero : BitVec.ofNat 11 b ≠ 0#11 := by
    intro h
    have := congrArg BitVec.toNat h
    rw [htoNat] at this
    simp at this
    omega
  have hlead : (1#1 ++ m).toNat = 2 ^ 52 + m.toNat := by
    rw [BitVec.toNat_append, ← Nat.shiftLeft_add_eq_or_of_lt m.isLt]
    rfl
  unfold UnpackedFloat.unpack
  simp only [unpackExponent_packComponents, unpackMantissa_packComponents, if_neg hnan,
    if_neg hzero]
  rw [UnpackedFloat.finite.injEq, unpackSign_packComponents, Sign.ofBitVec_toBitVec, htoNat]
  exact ⟨rfl, hlead, rfl⟩

/-- And one whose mantissa has none. -/
theorem unpack_subnormal {m : BitVec 52} {n : ℕ} (hn : m.toNat = n) (hpos : 0 < n) :
    UnpackedFloat.unpack .binary64 (packComponents .binary64 .positive 0#11 m) =
      .finite .positive n (-1074) hpos := by
  subst hn
  have hzero : m ≠ 0#52 := by
    rintro rfl
    exact absurd hpos (by decide)
  unfold UnpackedFloat.unpack
  simp only [unpackExponent_packComponents, unpackMantissa_packComponents]
  rw [if_neg (by decide), if_pos trivial, dif_neg hzero, unpackSign_packComponents,
    Sign.ofBitVec_toBitVec]
  rfl

theorem pack_finite {m : ℕ} {e : ℤ} (hm : 0 < m) :
    UnpackedFloat.pack .binary64 (.finite .positive m e hm) =
      if 2048 ≤ (e + 1023 + 52).toNat + 1 then packedInfinity .binary64 .positive
      else if m.log2 + 1 = 53 then
        packComponents .binary64 .positive (BitVec.ofNat 11 (e + 1023 + 52).toNat)
          (BitVec.ofNat 52 m)
      else packComponents .binary64 .positive 0#11 (BitVec.ofNat 52 m) := rfl

/-- Where the values of a mantissa of at most 53 bits leave the range of the doubles. -/
theorem mantissa_value_lt_iff {m : ℕ} {e : ℤ} (hlt : m < 2 ^ 53)
    (hnormal : e = -1074 ∨ 2 ^ 52 ≤ m) : (m : ℚ) * 2 ^ e < 2 ^ 1024 ↔ e ≤ 971 := by
  have hpos := two_zpow_pos e
  constructor
  · intro hx
    by_contra he
    have hm : 2 ^ 52 ≤ (m : ℚ) := by exact_mod_cast hnormal.resolve_left (by omega)
    have hle : (2 : ℚ) ^ (1024 : ℕ) ≤ m * 2 ^ e :=
      calc (2 : ℚ) ^ (1024 : ℕ) ≤ 2 ^ ((52 : ℕ) + e) := by
            rw [← zpow_natCast]
            exact zpow_le_zpow_right₀ one_le_two (by omega)
        _ = 2 ^ 52 * 2 ^ e := (two_pow_mul 52 e).symm
        _ ≤ m * 2 ^ e := mul_le_mul_of_nonneg_right hm hpos.le
    exact absurd hx (not_lt.mpr hle)
  · intro he
    calc (m : ℚ) * 2 ^ e < 2 ^ 53 * 2 ^ e :=
          mul_lt_mul_of_pos_right (by exact_mod_cast hlt) hpos
      _ = 2 ^ ((53 : ℕ) + e) := two_pow_mul 53 e
      _ ≤ 2 ^ ((1024 : ℕ) : ℤ) := zpow_le_zpow_right₀ one_le_two (by omega)
      _ = 2 ^ 1024 := zpow_natCast _ _

theorem unpack_pack {f : UnpackedFloat} (h : Denotes f x) :
    (Float.Model.pack f).unpack = if x < 2 ^ 1024 then f else .infinity .positive := by
  cases h with
  | zero =>
    rw [if_pos (by positivity)]
    rfl
  | @finite m e hm hlt hlow hnormal =>
    have hsize := mantissa_value_lt_iff hlt hnormal
    show UnpackedFloat.unpack .binary64 (UnpackedFloat.pack .binary64 _) = _
    rw [pack_finite]
    by_cases he : e ≤ 971
    · rw [if_neg (by omega), if_pos (hsize.mpr he)]
      by_cases hlead : 2 ^ 52 ≤ m
      · have hlog : m.log2 = 52 := (Nat.log2_eq_iff hm.ne').mpr ⟨hlead, hlt⟩
        rw [if_pos (by omega), unpack_normal (by omega) (by omega)]
        simp only [BitVec.toNat_ofNat, UnpackedFloat.finite.injEq, true_and]
        omega
      · have hlog : m.log2 < 52 := (Nat.log2_lt hm.ne').mpr (not_le.mp hlead)
        obtain rfl := hnormal.resolve_right hlead
        have hmod : (BitVec.ofNat 52 m).toNat = m := by
          rw [BitVec.toNat_ofNat]
          exact Nat.mod_eq_of_lt (not_le.mp hlead)
        rw [if_neg (by omega), unpack_subnormal hmod hm]
    · rw [if_pos (by omega), if_neg (fun hx => he (hsize.mp hx))]
      rfl

theorem denotes_one : Denotes (1 : Float).toModel.unpack 1 := by
  have h : Denotes (.finite .positive (2 ^ 52) (-52) (by decide)) _ :=
    .finite (by decide) (by decide) (by decide) (.inr le_rfl)
  norm_num at h
  exact h

/-- A whole number is rounded, and packed. -/
theorem float_ofNat_spec (n : ℕ) :
    ∃ f y, Rounds n y ∧ Denotes f y ∧ (Float.ofNat n).toModel = .pack f := by
  show ∃ f y, _ ∧ _ ∧ (Float.ofScientific n false 0).toModel = _
  unfold Float.ofScientific
  split
  · next hsmall =>
    obtain ⟨y, hy, hdenotes⟩ := ofNat_spec n
    have hsize : y < 2 ^ 1024 := by
      have hmax : Denotes (.finite .positive (2 ^ 52) 1 (by decide)) _ :=
        .finite (by decide) (by decide) (by decide) (.inr le_rfl)
      have hn : (n : ℚ) ≤ (2 ^ 52 : ℕ) * 2 ^ (1 : ℤ) := by
        have hcast : (n : ℚ) < (2 ^ 53 : ℕ) := by exact_mod_cast hsmall.1
        norm_num at hcast ⊢
        exact hcast.le
      refine (hy.mono hmax.rounds_self hn).trans_lt ?_
      calc ((2 ^ 52 : ℕ) : ℚ) * 2 ^ (1 : ℤ) = 2 ^ 53 := by norm_num
        _ < 2 ^ 1024 := pow_lt_pow_right₀ one_lt_two (by decide)
    obtain ⟨z, hz, hdz⟩ := mul_spec hdenotes denotes_one
    rw [mul_one] at hz
    obtain rfl := hz.unique hdenotes.rounds_self
    refine ⟨_, _, hy, hdz, ?_⟩
    have hnat : n.toUInt64.toNat = n := Nat.mod_eq_of_lt (by omega)
    show Float.Model.pack (UnpackedFloat.mul .binary64
      (Float.Model.pack (UnpackedFloat.ofNat .binary64 n.toUInt64.toNat)).unpack
      (1 : Float).toModel.unpack) = _
    rw [hnat, unpack_pack hdenotes, if_pos hsize]
  · next hlarge =>
    have hn : 2 ^ 53 ≤ n := by omega
    have hplace : -53 + 0 ≤ (-1074 : ℤ) ∨ 2 ^ 52 ≤ (n <<< 53) * 10 ^ 0 := by
      right
      rw [Nat.shiftLeft_eq]
      omega
    have hvalue : ((n <<< 53 * 10 ^ 0 : ℕ) : ℚ) * 2 ^ (-53 + 0 : ℤ) = n := by
      rw [Nat.shiftLeft_eq]
      push_cast
      ring
    obtain ⟨y, hy, hdenotes⟩ := round_spec (cutOff_natCast (n <<< 53 * 10 ^ 0)) hplace
    rw [hvalue] at hy
    refine ⟨_, y, hy, hdenotes, ?_⟩
    show Float.Model.pack (UnpackedFloat.ofScientific .binary64 n 0) = _
    unfold UnpackedFloat.ofScientific
    rw [dif_neg (by omega), if_neg (by decide),
      if_neg (not_lt.mpr (neg_nonpos.mpr (by positivity))), if_pos le_rfl]
    rfl

/-- The quotient of two whole numbers in order is at most one, however large they are. It is not a
number where both are out of range. -/
theorem float_div_spec {n d : ℕ} (hle : n ≤ d) (hd : 0 < d) :
    (Float.ofNat n / Float.ofNat d).toModel.unpack = .notANumber ∨
      ∃ x ≤ 1, Denotes (Float.ofNat n / Float.ofNat d).toModel.unpack x := by
  obtain ⟨f, y, hy, hf, hfn⟩ := float_ofNat_spec n
  obtain ⟨g, z, hz, hg, hgd⟩ := float_ofNat_spec d
  have hyz : y ≤ z := hy.mono hz (by exact_mod_cast hle)
  have hone : 1 ≤ z := denotes_one.rounds_self.mono hz (by exact_mod_cast hd)
  have hdiv : (Float.ofNat n / Float.ofNat d).toModel.unpack =
      (Float.Model.pack (UnpackedFloat.div .binary64 (Float.Model.pack f).unpack
        (Float.Model.pack g).unpack)).unpack := by
    rw [← hfn, ← hgd]
    rfl
  rw [hdiv, unpack_pack hf, unpack_pack hg]
  rcases lt_or_ge z (2 ^ 1024) with hsize | hsize
  · rw [if_pos (hyz.trans_lt hsize), if_pos hsize]
    obtain ⟨q, hq, hdq⟩ := div_spec hf hg (by linarith)
    have hq1 : q ≤ 1 :=
      hq.mono denotes_one.rounds_self ((div_le_one (by linarith)).mpr hyz)
    refine .inr ⟨q, hq1, ?_⟩
    rw [unpack_pack hdq, if_pos (hq1.trans_lt (one_lt_pow₀ one_lt_two (by decide)))]
    exact hdq
  · rw [if_neg (not_lt.mpr hsize)]
    split
    · right
      refine ⟨0, zero_le_one, ?_⟩
      have hzero : UnpackedFloat.div .binary64 f (.infinity .positive) = .zero .positive := by
        cases hf <;> rfl
      rw [hzero]
      exact .zero
    · exact .inl rfl

theorem float_mul_le {a b c : Float} (ha : Denotes a.toModel.unpack x)
    (hb : Denotes b.toModel.unpack x') (hc : Denotes c.toModel.unpack y) (hle : x * x' ≤ y)
    (hy : y < 2 ^ 1024) : ∃ z ≤ y, Denotes (a * b).toModel.unpack z := by
  obtain ⟨z, hz, hdz⟩ := mul_spec ha hb
  have hzy : z ≤ y := hz.mono hc.rounds_self hle
  refine ⟨z, hzy, ?_⟩
  show Denotes (Float.Model.pack (UnpackedFloat.mul .binary64 a.toModel.unpack
    b.toModel.unpack)).unpack z
  rw [unpack_pack hdz, if_pos (hzy.trans_lt hy)]
  exact hdz

theorem toUInt64_le {a : Float} (ha : Denotes a.toModel.unpack x) : (a.toUInt64.toNat : ℚ) ≤ x := by
  have hclamp (k : ℕ) : (UInt64.ofNatClamp k).toNat ≤ k := by
    unfold UInt64.ofNatClamp
    split
    · exact le_rfl
    · next h => exact (Nat.sub_le _ 1).trans (not_lt.mp h)
  have hint := (toInt_spec ha 0 (UInt64.size - 1)).1
  exact le_trans (by exact_mod_cast hclamp _) hint

theorem sub_self_zero {a b : Float} (ha : Denotes a.toModel.unpack x)
    (hb : Denotes b.toModel.unpack x) : (a - b).toModel.unpack = .zero .positive := by
  show (Float.Model.pack (UnpackedFloat.sub .binary64 a.toModel.unpack b.toModel.unpack)).unpack = _
  rw [sub_self_eq ha hb]
  rfl

end TroofAI.Binary64
