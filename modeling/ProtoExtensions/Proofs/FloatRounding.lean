import Mathlib.Tactic.Linarith
import Mathlib.Tactic.Ring
import ProtoExtensions.Float.Shortest

/-!
Rounding a quotient gives the magnitude in whose rounding interval the quotient lies
(`roundQuotient_eq_of_contains`). A finite magnitude is `significand * 2 ^ scale` units of the
smallest subnormal number, and its interval reaches half of the spacing to both sides; only below a
power of two, where the spacing halves, it reaches a quarter. All comparisons are of natural
numbers: both sides are multiplied by their denominators, and quarters of the spacing are counted. A
quotient just below a power of two has the scale before the one of the power, and is rounded up.
-/

namespace ProtoExtensions

namespace FloatFormat

variable {f : FloatFormat} {magnitude : Nat}

/-! ## Significand and scale -/

theorem scale_eq (f : FloatFormat) (magnitude : Nat) :
    f.scale magnitude = magnitude / 2 ^ f.fractionBits - 1 := by
  rw [scale, Nat.shiftRight_eq_div_pow]

theorem scale_mul_add_significand (f : FloatFormat) (magnitude : Nat) :
    f.scale magnitude * 2 ^ f.fractionBits + f.significand magnitude = magnitude := by
  have hle : f.scale magnitude * 2 ^ f.fractionBits ≤ magnitude := by
    rw [scale_eq]
    exact le_trans (Nat.mul_le_mul_right _ (Nat.sub_le _ 1)) (Nat.div_mul_le_self _ _)
  rw [significand, Nat.shiftLeft_eq, Nat.add_sub_cancel' hle]

/-- Above the smallest scale there is a leading one in front of the fraction. -/
theorem significand_eq (f : FloatFormat) (magnitude : Nat) :
    f.significand magnitude = min 1 (magnitude / 2 ^ f.fractionBits) * 2 ^ f.fractionBits +
      magnitude % 2 ^ f.fractionBits := by
  have hadd := scale_mul_add_significand f magnitude
  have hdiv := Nat.div_add_mod' magnitude (2 ^ f.fractionBits)
  rw [scale_eq] at hadd
  generalize magnitude / 2 ^ f.fractionBits = quotient at *
  cases quotient with
  | zero =>
    rw [Nat.min_zero]
    omega
  | succ quotient =>
    rw [Nat.succ_mul] at hdiv
    simp only [Nat.add_sub_cancel] at hadd
    rw [Nat.min_eq_left (Nat.succ_le_succ (Nat.zero_le quotient))]
    omega

theorem significand_lt (f : FloatFormat) (magnitude : Nat) :
    f.significand magnitude < 2 ^ (f.fractionBits + 1) := by
  have hmod := Nat.mod_lt magnitude (Nat.two_pow_pos f.fractionBits)
  have hone : min 1 (magnitude / 2 ^ f.fractionBits) * 2 ^ f.fractionBits ≤
      1 * 2 ^ f.fractionBits := Nat.mul_le_mul_right _ (Nat.min_le_left _ _)
  rw [significand_eq, Nat.pow_succ]
  omega

theorem le_significand (h : 0 < f.scale magnitude) :
    2 ^ f.fractionBits ≤ f.significand magnitude := by
  rw [scale_eq] at h
  rw [significand_eq, Nat.min_eq_left (by omega), Nat.one_mul]
  exact Nat.le_add_right _ _

theorem scale_le (h : magnitude < f.infinity) : f.scale magnitude ≤ 2 ^ f.exponentBits - 3 := by
  have hquotient : magnitude / 2 ^ f.fractionBits < 2 ^ f.exponentBits - 1 := by
    rw [infinity, Nat.shiftLeft_eq, Nat.shiftLeft_eq, Nat.one_mul] at h
    exact Nat.div_lt_of_lt_mul (by rwa [Nat.mul_comm])
  rw [scale_eq]
  omega

theorem significand_pos (h : 0 < magnitude) : 0 < f.significand magnitude := by
  rcases Nat.eq_zero_or_pos (f.scale magnitude) with hscale | hscale
  · have hadd := scale_mul_add_significand f magnitude
    rw [hscale] at hadd
    omega
  · exact Nat.lt_of_lt_of_le (Nat.two_pow_pos _) (le_significand hscale)

/-! ## Rounding -/

/-- The integer that is nearest to a quotient, and the even one of two. -/
theorem roundHalfEven_eq {a b n : Nat} (hb : 0 < b) (hlow : 2 * n * b ≤ 2 * a + b)
    (hhigh : 2 * a ≤ 2 * n * b + b)
    (hodd : n % 2 = 1 → 2 * n * b < 2 * a + b ∧ 2 * a < 2 * n * b + b) :
    roundHalfEven a b = n := by
  have hdiv := Nat.div_add_mod a b
  have hmod := Nat.mod_lt a hb
  unfold roundHalfEven
  generalize a / b = q at *
  generalize a % b = r at *
  have hq : n = q ∨ n = q + 1 := by
    have hle : q ≤ n := by
      by_contra h
      have hmul : (n + 1) * b ≤ q * b := Nat.mul_le_mul_right b (by omega)
      linarith
    have hge : n ≤ q + 1 := by
      by_contra h
      have hmul : (q + 2) * b ≤ n * b := Nat.mul_le_mul_right b (by omega)
      linarith
    omega
  rcases hq with rfl | rfl
  · have hmul : 2 * n * b = 2 * (b * n) := by ring
    rw [if_pos]
    simp only [Bool.or_eq_true, Bool.and_eq_true, decide_eq_true_eq]
    omega
  · have hmul : 2 * (q + 1) * b = 2 * (b * q) + 2 * b := by ring
    rw [if_neg]
    simp only [Bool.or_eq_true, Bool.and_eq_true, decide_eq_true_eq]
    omega

end FloatFormat

/-! ## The rounding interval -/

namespace RoundingInterval

/-- Whether a point lies in an interval. -/
def Contains (i : RoundingInterval) (point : Nat) : Prop :=
  i.center ≤ point + i.below ∧ point ≤ i.center + i.above ∧
    (i.closed = false → i.center < point + i.below ∧ point < i.center + i.above)

end RoundingInterval

namespace FloatFormat

variable {f : FloatFormat} {magnitude : Nat}

/-- How far the rounding interval of a magnitude reaches down, in quarters of the spacing. -/
def quartersBelow (f : FloatFormat) (magnitude : Nat) : Nat :=
  if f.significand magnitude = 2 ^ f.fractionBits ∧ 0 < f.scale magnitude then 1 else 2

theorem quartersBelow_pos (f : FloatFormat) (magnitude : Nat) : 0 < f.quartersBelow magnitude := by
  unfold quartersBelow
  split <;> omega

theorem quartersBelow_le (f : FloatFormat) (magnitude : Nat) : f.quartersBelow magnitude ≤ 2 := by
  unfold quartersBelow
  split <;> omega

/-- Whether a quotient of units of the smallest subnormal number lies in the rounding interval of a
magnitude. -/
structure Near (f : FloatFormat) (magnitude units denominator : Nat) : Prop where
  low : 4 * f.significand magnitude * (denominator * 2 ^ f.scale magnitude) ≤
    4 * units + f.quartersBelow magnitude * (denominator * 2 ^ f.scale magnitude)
  high : 4 * units ≤ (4 * f.significand magnitude + 2) * (denominator * 2 ^ f.scale magnitude)
  odd : f.significand magnitude % 2 = 1 →
    4 * f.significand magnitude * (denominator * 2 ^ f.scale magnitude) <
      4 * units + f.quartersBelow magnitude * (denominator * 2 ^ f.scale magnitude) ∧
    4 * units < (4 * f.significand magnitude + 2) * (denominator * 2 ^ f.scale magnitude)

theorem center_roundingInterval (f : FloatFormat) (magnitude : Nat) :
    (f.roundingInterval magnitude).center =
      4 * f.significand magnitude * (5 ^ f.fineness * 2 ^ f.scale magnitude) := by
  simp only [roundingInterval, Nat.shiftLeft_eq, Nat.pow_eq]

theorem below_roundingInterval (f : FloatFormat) (magnitude : Nat) :
    (f.roundingInterval magnitude).below =
      f.quartersBelow magnitude * (5 ^ f.fineness * 2 ^ f.scale magnitude) := by
  simp only [roundingInterval, quartersBelow, Nat.shiftLeft_eq, Nat.one_mul, Nat.pow_eq]
  split <;> simp

theorem above_roundingInterval (f : FloatFormat) (magnitude : Nat) :
    (f.roundingInterval magnitude).above = 2 * (5 ^ f.fineness * 2 ^ f.scale magnitude) := by
  simp only [roundingInterval, Nat.shiftLeft_eq, Nat.pow_eq]

theorem le_iff_of_scaled {a b c d x y : Nat} (hx : 0 < x) (hy : 0 < y) (hac : a * x = y * c)
    (hbd : b * x = y * d) : a ≤ b ↔ c ≤ d := by
  rw [← Nat.mul_le_mul_right_iff hx, hac, hbd, Nat.mul_le_mul_left_iff hy]

theorem lt_iff_of_scaled {a b c d x y : Nat} (hx : 0 < x) (hy : 0 < y) (hac : a * x = y * c)
    (hbd : b * x = y * d) : a < b ↔ c < d := by
  rw [← not_le, ← not_le, le_iff_of_scaled hx hy hbd hac]

theorem near_of_contains {numerator denominator point : Nat}
    (hpoint : (f.roundingInterval magnitude).Contains point)
    (hvalue : 4 * 10 ^ f.fineness * numerator = point * denominator)
    (hdenominator : 0 < denominator) :
    f.Near magnitude (numerator * 2 ^ f.fineness) denominator := by
  -- The interval counts quarters of `10 ^ -fineness`; without `5 ^ fineness` these are units.
  have hfive : 0 < 5 ^ f.fineness := Nat.pow_pos (by decide)
  have hunits : point * denominator = 5 ^ f.fineness * (4 * (numerator * 2 ^ f.fineness)) := by
    rw [← hvalue, show 10 = 5 * 2 by rfl, Nat.mul_pow]
    ring
  have habove : (f.roundingInterval magnitude).center + (f.roundingInterval magnitude).above =
      (4 * f.significand magnitude + 2) * (5 ^ f.fineness * 2 ^ f.scale magnitude) := by
    rw [center_roundingInterval, above_roundingInterval]
    ring
  have hscaled (x : Nat) : x * (5 ^ f.fineness * 2 ^ f.scale magnitude) * denominator =
      5 ^ f.fineness * (x * (denominator * 2 ^ f.scale magnitude)) := by ring
  have hshifted (x : Nat) :
      (point + x * (5 ^ f.fineness * 2 ^ f.scale magnitude)) * denominator =
        5 ^ f.fineness * (4 * (numerator * 2 ^ f.fineness) +
          x * (denominator * 2 ^ f.scale magnitude)) := by
    rw [Nat.add_mul, hunits]
    ring
  obtain ⟨hlow, hhigh, hopen⟩ := hpoint
  rw [habove] at hhigh
  rw [center_roundingInterval, below_roundingInterval] at hlow
  refine ⟨(le_iff_of_scaled hdenominator hfive (hscaled _) (hshifted _)).1 hlow,
    (le_iff_of_scaled hdenominator hfive hunits (hscaled _)).1 hhigh, fun hodd => ?_⟩
  have hclosed : (f.roundingInterval magnitude).closed = false := by
    simpa [roundingInterval] using hodd
  obtain ⟨hlow, hhigh⟩ := hopen hclosed
  rw [habove] at hhigh
  rw [center_roundingInterval, below_roundingInterval] at hlow
  exact ⟨(lt_iff_of_scaled hdenominator hfive (hscaled _) (hshifted _)).1 hlow,
    (lt_iff_of_scaled hdenominator hfive hunits (hscaled _)).1 hhigh⟩

/-! ## Rounding into the interval -/

/-- The scale of a quotient is the least one at which it fits the significand. -/
theorem log2_div_sub_eq {units denominator bits scale : Nat} (hdenominator : 0 < denominator)
    (hlow : 0 < scale → 2 ^ bits * (denominator * 2 ^ scale) ≤ units)
    (hhigh : units < 2 ^ (bits + 1) * (denominator * 2 ^ scale)) :
    (units / denominator).log2 - bits = scale := by
  have hupper : units / denominator < 2 ^ (bits + scale + 1) := by
    refine Nat.div_lt_of_lt_mul (lt_of_lt_of_eq hhigh ?_)
    ring
  rcases Nat.eq_zero_or_pos scale with rfl | hscale
  · by_cases hzero : units / denominator = 0
    · simp [hzero]
    · have hlog := (Nat.log2_lt hzero).2 hupper
      omega
  · have hlower : 2 ^ (bits + scale) ≤ units / denominator := by
      rw [Nat.le_div_iff_mul_le hdenominator]
      refine le_of_eq_of_le ?_ (hlow hscale)
      ring
    have hne : units / denominator ≠ 0 :=
      Nat.ne_of_gt (Nat.lt_of_lt_of_le (Nat.two_pow_pos _) hlower)
    rw [(Nat.log2_eq_iff hne).2 ⟨hlower, hupper⟩, Nat.add_sub_cancel_left]

theorem roundQuotient_eq_add {numerator denominator scale rounded : Nat}
    (hdenominator : 0 < denominator)
    (hlow : 0 < scale →
      2 ^ f.fractionBits * (denominator * 2 ^ scale) ≤ numerator * 2 ^ f.fineness)
    (hhigh : numerator * 2 ^ f.fineness < 2 ^ (f.fractionBits + 1) * (denominator * 2 ^ scale))
    (hrounded : roundHalfEven (numerator * 2 ^ f.fineness) (denominator * 2 ^ scale) = rounded)
    (hfinite : scale * 2 ^ f.fractionBits + rounded < f.infinity) :
    f.roundQuotient numerator denominator = scale * 2 ^ f.fractionBits + rounded := by
  unfold roundQuotient
  simp only [Nat.shiftLeft_eq]
  rw [log2_div_sub_eq hdenominator hlow hhigh, hrounded, Nat.min_eq_right hfinite.le]

/-- Only powers of two have quotients of a smaller scale in their interval. -/
theorem Near.significand_eq {units denominator : Nat} (h : f.Near magnitude units denominator)
    (hscale : 0 < f.scale magnitude)
    (hless : units < 2 ^ f.fractionBits * (denominator * 2 ^ f.scale magnitude)) :
    f.significand magnitude = 2 ^ f.fractionBits := by
  refine le_antisymm (Nat.le_of_not_lt fun hgreater => ?_) (le_significand hscale)
  have hlow := h.low
  have hmul : (2 ^ f.fractionBits + 1) * (denominator * 2 ^ f.scale magnitude) ≤
      f.significand magnitude * (denominator * 2 ^ f.scale magnitude) :=
    Nat.mul_le_mul_right _ hgreater
  have hquarters : f.quartersBelow magnitude * (denominator * 2 ^ f.scale magnitude) ≤
      2 * (denominator * 2 ^ f.scale magnitude) :=
    Nat.mul_le_mul_right _ (quartersBelow_le f magnitude)
  have hunit := Nat.zero_le (denominator * 2 ^ f.scale magnitude)
  linarith

/-- Just below a power of two, a quotient has the scale before the one of the power, and is rounded
up
to the power. -/
theorem roundQuotient_eq_of_near_of_lt {numerator denominator : Nat}
    (hmagnitude : magnitude < f.infinity) (hdenominator : 0 < denominator)
    (h : f.Near magnitude (numerator * 2 ^ f.fineness) denominator)
    (hscale : 0 < f.scale magnitude) (hless : numerator * 2 ^ f.fineness <
      2 ^ f.fractionBits * (denominator * 2 ^ f.scale magnitude)) :
    f.roundQuotient numerator denominator = magnitude := by
  have hlow := h.low
  have hadd := scale_mul_add_significand f magnitude
  have hsignificand := h.significand_eq hscale hless
  have hquarters : f.quartersBelow magnitude = 1 := if_pos ⟨hsignificand, hscale⟩
  rw [hquarters, hsignificand] at hlow
  rw [hsignificand] at hadd
  obtain ⟨before, hbefore⟩ : ∃ before, f.scale magnitude = before + 1 :=
    ⟨f.scale magnitude - 1, by omega⟩
  have hunit : denominator * 2 ^ f.scale magnitude = 2 * (denominator * 2 ^ before) := by
    rw [hbefore]
    ring
  have hrounded : before * 2 ^ f.fractionBits + 2 ^ (f.fractionBits + 1) = magnitude := by
    rw [← hadd, hbefore]
    ring
  rw [hunit] at hlow hless
  have hpositive : 0 < denominator * 2 ^ before := Nat.mul_pos hdenominator (Nat.two_pow_pos _)
  have hmul : 1 * (denominator * 2 ^ before) ≤ 2 ^ f.fractionBits * (denominator * 2 ^ before) :=
    Nat.mul_le_mul_right _ (Nat.two_pow_pos _)
  have heven : 2 ^ (f.fractionBits + 1) % 2 = 0 := by rw [Nat.pow_succ, Nat.mul_mod_left]
  calc f.roundQuotient numerator denominator
      = before * 2 ^ f.fractionBits + 2 ^ (f.fractionBits + 1) := by
        refine roundQuotient_eq_add hdenominator (fun _ => by linarith) ?_ ?_
          (lt_of_eq_of_lt hrounded hmagnitude)
        · rw [Nat.pow_succ]
          linarith
        · refine roundHalfEven_eq hpositive ?_ ?_ fun hodd => absurd hodd (by omega)
          · rw [Nat.pow_succ]
            linarith
          · rw [Nat.pow_succ]
            linarith
    _ = magnitude := hrounded

theorem roundQuotient_eq_of_near {numerator denominator : Nat} (hmagnitude : magnitude < f.infinity)
    (hdenominator : 0 < denominator)
    (h : f.Near magnitude (numerator * 2 ^ f.fineness) denominator) :
    f.roundQuotient numerator denominator = magnitude := by
  -- At the scale of the magnitude a quotient is its significand, after rounding; but it may lie
  -- below the least significand of this scale.
  by_cases hbinade : 0 < f.scale magnitude ∧ numerator * 2 ^ f.fineness <
      2 ^ f.fractionBits * (denominator * 2 ^ f.scale magnitude)
  · exact roundQuotient_eq_of_near_of_lt hmagnitude hdenominator h hbinade.1 hbinade.2
  · obtain ⟨hlow, hhigh, hodd⟩ := h
    have hadd := scale_mul_add_significand f magnitude
    have hunit : 0 < denominator * 2 ^ f.scale magnitude :=
      Nat.mul_pos hdenominator (Nat.two_pow_pos _)
    have hquarters : f.quartersBelow magnitude * (denominator * 2 ^ f.scale magnitude) ≤
        2 * (denominator * 2 ^ f.scale magnitude) :=
      Nat.mul_le_mul_right _ (quartersBelow_le f magnitude)
    have hfits : (f.significand magnitude + 1) * (denominator * 2 ^ f.scale magnitude) ≤
        2 ^ (f.fractionBits + 1) * (denominator * 2 ^ f.scale magnitude) :=
      Nat.mul_le_mul_right _ (significand_lt f magnitude)
    calc f.roundQuotient numerator denominator
        = f.scale magnitude * 2 ^ f.fractionBits + f.significand magnitude := by
          refine roundQuotient_eq_add hdenominator (fun hscale => ?_) (by linarith) ?_
            (lt_of_eq_of_lt hadd hmagnitude)
          · exact Nat.le_of_not_lt fun hless => hbinade ⟨hscale, hless⟩
          · exact roundHalfEven_eq hunit (by linarith) (by linarith)
              fun h => ⟨by linarith [(hodd h).1], by linarith [(hodd h).2]⟩
      _ = magnitude := hadd

/-- **Rounding finds the magnitude in whose interval a quotient lies.** -/
theorem roundQuotient_eq_of_contains {numerator denominator point : Nat}
    (hmagnitude : magnitude < f.infinity) (hdenominator : 0 < denominator)
    (hpoint : (f.roundingInterval magnitude).Contains point)
    (hvalue : 4 * 10 ^ f.fineness * numerator = point * denominator) :
    f.roundQuotient numerator denominator = magnitude :=
  roundQuotient_eq_of_near hmagnitude hdenominator (near_of_contains hpoint hvalue hdenominator)

end FloatFormat

end ProtoExtensions
