import ProtoExtensions.Float.Reading
import ProtoExtensions.Proofs.FloatRounding
import ProtoExtensions.Proofs.Numerals

/-!
The shortest decimal of a magnitude reads back as the magnitude (`ofDecimal_shortest`). The search
ends at a point of the rounding interval, as its finest grid holds the center; and every decimal in
the interval of a finite magnitude reads as the magnitude (`ofDecimal_eq_of_contains`). The latter
takes the range of a format into account: reading does not raise powers of ten beyond a bound, and
the decimals of finite magnitudes have to stay within it (`WithinReach`).
-/

namespace ProtoExtensions

/-! ## The search -/

namespace RoundingInterval

variable {i : RoundingInterval} {tie : Tie} {unit multiple : Nat}

theorem reaches_iff {distance reach : Nat} :
    i.reaches distance reach = true ↔
      distance ≤ reach ∧ (i.closed = false → distance < reach) := by
  unfold reaches
  cases i.closed <;> simp
  omega

/-- The point of a grid that is taken lies in the interval. -/
theorem contains_of_nearest? (hunit : 0 < unit) (hbelow : 0 < i.below) (habove : 0 < i.above)
    (h : i.nearest? tie unit = some multiple) : i.Contains (multiple * unit) := by
  have hfloor : i.center / unit * unit ≤ i.center := Nat.div_mul_le_self _ _
  have hceil : i.center < (i.center / unit + 1) * unit := by
    rw [Nat.mul_comm]
    exact Nat.lt_mul_div_succ _ hunit
  have hdown (hreaches : i.reaches (i.center - i.center / unit * unit) i.below = true) :
      i.Contains (i.center / unit * unit) := by
    rw [reaches_iff] at hreaches
    exact ⟨by omega, by omega, fun hopen => ⟨by have := hreaches.2 hopen; omega, by omega⟩⟩
  have hup (hreaches : i.reaches ((i.center / unit + 1) * unit - i.center) i.above = true) :
      i.Contains ((i.center / unit + 1) * unit) := by
    rw [reaches_iff] at hreaches
    exact ⟨by omega, by omega, fun hopen => ⟨by omega, by have := hreaches.2 hopen; omega⟩⟩
  simp only [nearest?] at h
  split at h
  · next hfirst hsecond =>
    split at h
    · cases h
      exact hdown hfirst
    · cases h
      exact hup hsecond
  · next hfirst hsecond =>
    cases h
    exact hdown hfirst
  · next hfirst hsecond =>
    cases h
    exact hup hsecond
  · cases h

/-- The search ends in the interval: in the finest grid there is the center. -/
theorem contains_firstHit (hbelow : 0 < i.below) (habove : 0 < i.above) (hcenter : 4 ∣ i.center)
    (n : Nat) : i.Contains ((i.firstHit tie n).1 * (4 * 10 ^ (i.firstHit tie n).2)) := by
  induction n with
  | zero =>
    have hpoint : i.center / 4 * (4 * 10 ^ 0) = i.center := by
      rw [Nat.pow_zero, Nat.mul_one, Nat.div_mul_cancel hcenter]
    simp only [firstHit, hpoint]
    exact ⟨by omega, by omega, fun _ => ⟨by omega, by omega⟩⟩
  | succ n ih =>
    simp only [firstHit]
    split
    · next multiple h => exact contains_of_nearest? (by positivity) hbelow habove h
    · exact ih

end RoundingInterval

namespace FloatFormat

variable {f : FloatFormat} {magnitude : Nat}

/-- The shortest decimal of a magnitude lies in its rounding interval. -/
theorem contains_shortest (f : FloatFormat) (tie : Tie) (magnitude : Nat) :
    ∃ place : Nat, (f.shortest tie magnitude).exponent = place - f.fineness ∧
      (f.roundingInterval magnitude).Contains
        ((f.shortest tie magnitude).digits * (4 * 10 ^ place)) := by
  have hstep : 0 < 5 ^ f.fineness * 2 ^ f.scale magnitude :=
    Nat.mul_pos (Nat.pow_pos (by decide)) (Nat.two_pow_pos _)
  have hbelow : 0 < (f.roundingInterval magnitude).below := by
    rw [below_roundingInterval]
    exact Nat.mul_pos (quartersBelow_pos f magnitude) hstep
  have habove : 0 < (f.roundingInterval magnitude).above := by
    rw [above_roundingInterval]
    exact Nat.mul_pos (by decide) hstep
  have hcenter : 4 ∣ (f.roundingInterval magnitude).center := by
    rw [center_roundingInterval, Nat.mul_assoc]
    exact Nat.dvd_mul_right 4 _
  exact ⟨_, rfl, RoundingInterval.contains_firstHit hbelow habove hcenter _⟩

end FloatFormat

/-! ## The reach of reading -/

theorem pow_length_toDigits {n : Nat} (hn : 0 < n) :
    n < 10 ^ (Nat.toDigits 10 n).length ∧ 10 ^ (Nat.toDigits 10 n).length ≤ 10 * n := by
  refine ⟨(Nat.length_toDigits_le_iff (by decide) Nat.length_toDigits_pos).1 (Nat.le_refl _), ?_⟩
  refine toDigits_induction (by decide) (P := fun n digits => 0 < n → 10 ^ digits.length ≤ 10 * n)
    (fun digit _ hdigit => ?_) (fun n hn ih _ => ?_) n hn
  · exact Nat.mul_le_mul_left 10 hdigit
  · have hquotient := ih (Nat.div_pos hn (by decide))
    rw [List.length_append, List.length_singleton, Nat.pow_succ]
    omega

namespace FloatFormat

variable {f : FloatFormat} {magnitude : Nat}

/-- Whether the finite magnitudes of a format are within the reach of reading: the greatest one lies
below, and the smallest subnormal number above the bound. -/
structure WithinReach (f : FloatFormat) : Prop where
  greatest : 2 ^ (f.fractionBits + 1 + (2 ^ f.exponentBits - 3)) <
    10 ^ decimalReach.toNat * 2 ^ f.fineness
  smallest : 2 ^ f.fineness < 10 ^ decimalReach.toNat

theorem withinReach_single : single.WithinReach := ⟨by decide +kernel, by decide +kernel⟩

theorem withinReach_double : double.WithinReach := ⟨by decide +kernel, by decide +kernel⟩

/-- The points of the rounding interval are within reach. -/
theorem bounds_of_contains (hreach : f.WithinReach) (hpositive : 0 < magnitude)
    (hmagnitude : magnitude < f.infinity) {point : Nat}
    (hpoint : (f.roundingInterval magnitude).Contains point) :
    2 * 5 ^ f.fineness ≤ point ∧ point < 4 * 10 ^ (decimalReach.toNat + f.fineness) := by
  have hstep : 5 ^ f.fineness * 1 ≤ 5 ^ f.fineness * 2 ^ f.scale magnitude :=
    Nat.mul_le_mul_left _ (Nat.two_pow_pos _)
  obtain ⟨hlow, hhigh, -⟩ := hpoint
  rw [center_roundingInterval, below_roundingInterval] at hlow
  rw [center_roundingInterval, above_roundingInterval] at hhigh
  constructor
  · have hsignificand : 1 * (5 ^ f.fineness * 2 ^ f.scale magnitude) ≤
        f.significand magnitude * (5 ^ f.fineness * 2 ^ f.scale magnitude) :=
      Nat.mul_le_mul_right _ (significand_pos hpositive)
    have hquarters : f.quartersBelow magnitude * (5 ^ f.fineness * 2 ^ f.scale magnitude) ≤
        2 * (5 ^ f.fineness * 2 ^ f.scale magnitude) :=
      Nat.mul_le_mul_right _ (quartersBelow_le f magnitude)
    linarith
  · have hsignificand : (f.significand magnitude + 1) * (5 ^ f.fineness * 2 ^ f.scale magnitude) ≤
        2 ^ (f.fractionBits + 1) * (5 ^ f.fineness * 2 ^ f.scale magnitude) :=
      Nat.mul_le_mul_right _ (significand_lt f magnitude)
    have hunit := Nat.zero_le (5 ^ f.fineness * 2 ^ f.scale magnitude)
    have hscale : 2 ^ f.scale magnitude ≤ 2 ^ (2 ^ f.exponentBits - 3) :=
      Nat.pow_le_pow_right (by decide) (scale_le hmagnitude)
    calc point
        ≤ 4 * (2 ^ (f.fractionBits + 1) * (5 ^ f.fineness * 2 ^ f.scale magnitude)) := by linarith
      _ ≤ 4 * (2 ^ (f.fractionBits + 1) * (5 ^ f.fineness * 2 ^ (2 ^ f.exponentBits - 3))) := by
        gcongr
      _ = 4 * 5 ^ f.fineness * 2 ^ (f.fractionBits + 1 + (2 ^ f.exponentBits - 3)) := by ring
      _ < 4 * 5 ^ f.fineness * (10 ^ decimalReach.toNat * 2 ^ f.fineness) :=
        Nat.mul_lt_mul_of_pos_left hreach.greatest (by positivity)
      _ = 4 * 10 ^ (decimalReach.toNat + f.fineness) := by
        rw [Nat.pow_add, show 10 ^ f.fineness = 5 ^ f.fineness * 2 ^ f.fineness by
          rw [← Nat.mul_pow]]
        ring

section

variable {digits point : Nat} {exponent : Int}

/-- A decimal that is not too small has its point within reach: its digits are fewer than the power
of ten above them. -/
theorem neg_decimalReach_le (hreach : f.WithinReach) (hlow : 2 * 5 ^ f.fineness ≤ point)
    (hdigits : 0 < digits)
    (hvalue : 4 * 10 ^ f.fineness * (digits * 10 ^ exponent.toNat) =
      point * 10 ^ (-exponent).toNat) :
    -decimalReach ≤ (Nat.toDigits 10 digits).length + exponent := by
  refine Int.le_of_not_gt fun hbelow => ?_
  have hless := (pow_length_toDigits hdigits).1
  have hbound : (decimalReach.toNat : Int) = decimalReach := rfl
  have hten : 10 ^ f.fineness = 5 ^ f.fineness * 2 ^ f.fineness := by rw [← Nat.mul_pow]
  generalize (Nat.toDigits 10 digits).length = length at *
  have hexponents : length + exponent.toNat + decimalReach.toNat + 1 ≤ (-exponent).toNat := by
    omega
  refine absurd hlow (Nat.not_le.2 (Nat.lt_of_mul_lt_mul_right
    (a := 10 * 10 ^ decimalReach.toNat * 10 ^ (-exponent).toNat) ?_))
  calc point * (10 * 10 ^ decimalReach.toNat * 10 ^ (-exponent).toNat)
      = 4 * 10 ^ f.fineness * (digits * 10 ^ exponent.toNat) * (10 * 10 ^ decimalReach.toNat) := by
        rw [hvalue]
        ring
    _ < 4 * 10 ^ f.fineness * (10 ^ length * 10 ^ exponent.toNat) *
          (10 * 10 ^ decimalReach.toNat) := by gcongr
    _ = 4 * 10 ^ f.fineness * 10 ^ (length + exponent.toNat + decimalReach.toNat + 1) := by ring
    _ ≤ 4 * 10 ^ f.fineness * 10 ^ (-exponent).toNat := by
        gcongr
        decide
    _ = 4 * 5 ^ f.fineness * 2 ^ f.fineness * 10 ^ (-exponent).toNat := by
        rw [hten]
        ring
    _ ≤ 4 * 5 ^ f.fineness * 10 ^ decimalReach.toNat * 10 ^ (-exponent).toNat :=
        Nat.mul_le_mul_right _ (Nat.mul_le_mul_left _ hreach.smallest.le)
    _ ≤ 20 * 5 ^ f.fineness * 10 ^ decimalReach.toNat * 10 ^ (-exponent).toNat := by
        gcongr
        decide
    _ = 2 * 5 ^ f.fineness * (10 * 10 ^ decimalReach.toNat * 10 ^ (-exponent).toNat) := by ring

/-- A decimal that is not too great has its point within reach: its digits are at least the power of
ten below them. -/
theorem le_decimalReach (hhigh : point < 4 * 10 ^ (decimalReach.toNat + f.fineness))
    (hdigits : 0 < digits)
    (hvalue : 4 * 10 ^ f.fineness * (digits * 10 ^ exponent.toNat) =
      point * 10 ^ (-exponent).toNat) :
    (Nat.toDigits 10 digits).length + exponent ≤ decimalReach := by
  refine Int.le_of_not_gt fun habove => ?_
  have hle := (pow_length_toDigits hdigits).2
  have hbound : (decimalReach.toNat : Int) = decimalReach := rfl
  generalize (Nat.toDigits 10 digits).length = length at *
  have hexponents : (-exponent).toNat + decimalReach.toNat + 1 ≤ length + exponent.toNat := by
    omega
  refine absurd hhigh (Nat.not_lt.2 (Nat.le_of_mul_le_mul_right
    (c := 10 * 10 ^ (-exponent).toNat) ?_ (by positivity)))
  calc 4 * 10 ^ (decimalReach.toNat + f.fineness) * (10 * 10 ^ (-exponent).toNat)
      = 4 * 10 ^ f.fineness * 10 ^ ((-exponent).toNat + decimalReach.toNat + 1) := by ring
    _ ≤ 4 * 10 ^ f.fineness * 10 ^ (length + exponent.toNat) := by
        gcongr
        decide
    _ = 4 * 10 ^ f.fineness * (10 ^ length * 10 ^ exponent.toNat) := by ring
    _ ≤ 4 * 10 ^ f.fineness * (10 * digits * 10 ^ exponent.toNat) := by gcongr
    _ = 10 * (4 * 10 ^ f.fineness * (digits * 10 ^ exponent.toNat)) := by ring
    _ = point * (10 * 10 ^ (-exponent).toNat) := by
        rw [hvalue]
        ring

end

/-- **A decimal in the rounding interval of a magnitude reads as the magnitude.** -/
theorem ofDecimal_eq_of_contains (hreach : f.WithinReach) (hpositive : 0 < magnitude)
    (hmagnitude : magnitude < f.infinity) {digits point : Nat} {exponent : Int}
    (hpoint : (f.roundingInterval magnitude).Contains point)
    (hvalue : 4 * 10 ^ f.fineness * (digits * 10 ^ exponent.toNat) =
      point * 10 ^ (-exponent).toNat) :
    f.ofDecimal digits exponent = magnitude := by
  obtain ⟨hlow, hhigh⟩ := bounds_of_contains hreach hpositive hmagnitude hpoint
  have hdigits : 0 < digits := by
    refine Nat.pos_of_ne_zero fun hzero => ?_
    have hproduct : 0 < point * 10 ^ (-exponent).toNat :=
      Nat.mul_pos (Nat.lt_of_lt_of_le (by positivity) hlow) (by positivity)
    rw [← hvalue, hzero] at hproduct
    simp at hproduct
  have hbelow := neg_decimalReach_le hreach hlow hdigits hvalue
  have habove := le_decimalReach hhigh hdigits hvalue
  have hinside : ¬(digits = 0 ∨ (Nat.toDigits 10 digits).length + exponent < -decimalReach) := by
    omega
  unfold ofDecimal
  simp only [Nat.pow_eq]
  rw [if_neg hinside, if_neg (by omega)]
  exact roundQuotient_eq_of_contains hmagnitude (by positivity) hpoint hvalue

/-- The shortest decimal of a magnitude reads back, also with some zeros behind its digits. -/
theorem ofDecimal_shortest (hreach : f.WithinReach) (hpositive : 0 < magnitude)
    (hmagnitude : magnitude < f.infinity) (tie : Tie) (zeros : Nat) :
    f.ofDecimal ((f.shortest tie magnitude).digits * 10 ^ zeros)
      ((f.shortest tie magnitude).exponent - zeros) = magnitude := by
  obtain ⟨place, hplace, hcontains⟩ := contains_shortest f tie magnitude
  refine ofDecimal_eq_of_contains hreach hpositive hmagnitude hcontains ?_
  generalize (f.shortest tie magnitude).digits = digits
  generalize (f.shortest tie magnitude).exponent = exponent at *
  have hexponents : f.fineness + zeros + (exponent - zeros).toNat =
      place + (-(exponent - zeros)).toNat := by omega
  calc 4 * 10 ^ f.fineness * (digits * 10 ^ zeros * 10 ^ (exponent - zeros).toNat)
      = 4 * digits * 10 ^ (f.fineness + zeros + (exponent - zeros).toNat) := by ring
    _ = digits * (4 * 10 ^ place) * 10 ^ (-(exponent - zeros)).toNat := by
        rw [hexponents]
        ring

end FloatFormat

end ProtoExtensions
