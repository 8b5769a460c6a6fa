import FinanceGateway.Decimal.Reading
import FinanceGateway.Proofs.Decimal.Whole

/-!
# Scaled digits are finite numbers

A decimal in a JSON text is read as digits that are multiplied or divided by powers of ten. Division
by a power of ten that is not small keeps the exponent bounded (`below_scaleDown`). A product may be
past the range, which is then no number, but it is never undefined (`isNaN_mul`). So whatever a
decimal is read as is finite (`isFinite_of_scaled?`).
-/

namespace FinanceGateway.Decimal

open Float.Model Float.Model.UnpackedFloat

/-- A number is finite and not zero, and its exponent is no smaller than a bound. -/
def isAbove (bound : Int) : UnpackedFloat → Bool
  | .finite _ _ exponent _ => bound ≤ exponent
  | _ => false

theorem isAbove_mono {bound bound' : Int} {x : UnpackedFloat} (h : isAbove bound x = true)
    (hle : bound' ≤ bound) : isAbove bound' x = true := by
  cases x with
  | finite sign mantissa exponent hpos =>
    exact decide_eq_true (hle.trans (of_decide_eq_true h))
  | zero | infinity | notANumber => cases h

/-! ## Powers of ten -/

/-- A mantissa of at least 53 bits is shifted to 53 bits. -/
theorem shiftToTargetExponent_of_le {mantissa : Nat} {exponent : Int} {accuracy : Accuracy}
    (hmantissa : 2 ^ 52 ≤ mantissa) (hexponent : -1074 ≤ exponent) :
    shiftToTargetExponent Format.binary64 mantissa exponent accuracy =
      (ExtendedMantissa.ofMantissaAndAccuracy mantissa accuracy >>> (mantissa.log2 - 52),
        exponent + (mantissa.log2 - 52 : Nat)) := by
  have hlog : 52 ≤ mantissa.log2 := (Nat.le_log2 (by omega)).2 hmantissa
  have hshift :
      (Format.binary64.targetExponent (totalExponent mantissa exponent) - exponent).toNat =
        mantissa.log2 - 52 := by
    simp only [Format.targetExponent, totalExponent, Format.mantissaBits, Format.minExponent]
    omega
  simp only [shiftToTargetExponent, shiftToExponent, hshift]

theorem div_two_pow_bounds {mantissa : Nat} (hmantissa : 2 ^ 52 ≤ mantissa) :
    2 ^ 52 ≤ mantissa / 2 ^ (mantissa.log2 - 52) ∧
      mantissa / 2 ^ (mantissa.log2 - 52) < 2 ^ 53 := by
  have hne : mantissa ≠ 0 := by omega
  have hlog : 52 ≤ mantissa.log2 := (Nat.le_log2 hne).2 hmantissa
  rw [Nat.le_div_iff_mul_le (Nat.two_pow_pos _), Nat.div_lt_iff_lt_mul (Nat.two_pow_pos _),
    ← Nat.pow_add, ← Nat.pow_add]
  constructor
  · calc 2 ^ (52 + (mantissa.log2 - 52)) = 2 ^ mantissa.log2 := by congr 1; omega
      _ ≤ mantissa := Nat.log2_self_le hne
  · calc mantissa < 2 ^ (mantissa.log2 + 1) := Nat.lt_log2_self
      _ = 2 ^ (53 + (mantissa.log2 - 52)) := by congr 1; omega

theorem le_roundedMantissa (em : ExtendedMantissa) : em.mantissa ≤ em.roundedMantissa := by
  unfold ExtendedMantissa.roundedMantissa
  cases em.accuracy with
  | exact => exact le_rfl
  | inexact order => cases order <;> simp only [Accuracy.roundToNearestEven] <;> omega

/-- What is rounded from at least 53 bits has 53 bits and the exponent that these call for, or one
more. -/
theorem exists_roundWithAccuracy (sign : Sign) {mantissa : Nat} {exponent : Int}
    (accuracy : Accuracy) (hmantissa : 2 ^ 52 ≤ mantissa) (hexponent : -1074 ≤ exponent) :
    ∃ mantissa' exponent' hpos, roundWithAccuracy Format.binary64 sign mantissa exponent accuracy =
        .finite sign mantissa' exponent' hpos ∧ mantissa'.log2 = 52 ∧
      exponent + (mantissa.log2 - 52 : Nat) ≤ exponent' ∧
      exponent' ≤ exponent + (mantissa.log2 - 52 : Nat) + 1 := by
  let em := ExtendedMantissa.ofMantissaAndAccuracy mantissa accuracy >>> (mantissa.log2 - 52)
  have hem : em.mantissa = mantissa / 2 ^ (mantissa.log2 - 52) := by
    rw [mantissa_shiftRight, mantissa_ofMantissaAndAccuracy]
  obtain ⟨hlow, hhigh⟩ := div_two_pow_bounds hmantissa
  have hrounded : 2 ^ 52 ≤ em.roundedMantissa := hlow.trans (hem ▸ le_roundedMantissa em)
  have hrounded' : em.roundedMantissa ≤ 2 ^ 53 :=
    (roundedMantissa_le em).trans (by rw [hem]; omega)
  have hlog : em.roundedMantissa.log2 ≤ 53 := by
    refine Nat.le_of_lt_succ ((Nat.log2_lt (by omega)).2 ?_)
    omega
  obtain ⟨hlow', hhigh'⟩ := div_two_pow_bounds hrounded
  have hpos : 0 < em.roundedMantissa / 2 ^ (em.roundedMantissa.log2 - 52) := by omega
  unfold roundWithAccuracy
  rw [shiftToTargetExponent_of_le hmantissa hexponent]
  dsimp only
  rw [shiftToTargetExponent_of_le hrounded (by omega)]
  simp only [mantissa_shiftRight, mantissa_ofMantissaAndAccuracy]
  rw [dif_neg hpos.ne']
  refine ⟨_, _, hpos, rfl, ?_, by omega, by omega⟩
  exact (Nat.log2_eq_iff hpos.ne').2 ⟨hlow', hhigh'⟩

/-- A number of 53 bits keeps its exponent when it is packed, if that is in the range. -/
theorem isAbove_unpack_pack {sign : Sign} {mantissa : Nat} {exponent : Int} {hpos : 0 < mantissa}
    (hmantissa : mantissa.log2 = 52) (hlow : -1074 ≤ exponent)
    (hhigh : exponent ≤ largestExponent) :
    isAbove exponent (Float.Model.pack (.finite sign mantissa exponent hpos)).unpack = true := by
  rw [largestExponent] at hhigh
  change isAbove exponent (UnpackedFloat.unpack Format.binary64
    (UnpackedFloat.pack Format.binary64 (.finite sign mantissa exponent hpos))) = true
  have hbits : mantissa.log2 + 1 = Format.binary64.mantissaBits := by
    rw [hmantissa]
    rfl
  have hfield : (exponent + 1023 + 52).toNat < 2047 ∧ 0 < (exponent + 1023 + 52).toNat := by omega
  have htoNat : (BitVec.ofNat 11 (exponent + 1023 + 52).toNat).toNat =
      (exponent + 1023 + 52).toNat := by
    rw [BitVec.toNat_ofNat]
    omega
  have hones : BitVec.ofNat 11 (exponent + 1023 + 52).toNat ≠ -1#11 := by
    intro h
    rw [h] at htoNat
    change 2047 = _ at htoNat
    omega
  have hzero : BitVec.ofNat 11 (exponent + 1023 + 52).toNat ≠ 0#11 := by
    intro h
    rw [h] at htoNat
    change 0 = _ at htoNat
    omega
  have hpack : UnpackedFloat.pack Format.binary64 (.finite sign mantissa exponent hpos) =
      packComponents Format.binary64 sign (BitVec.ofNat 11 (exponent + 1023 + 52).toNat)
        (BitVec.ofNat 52 mantissa) := by
    simp only [UnpackedFloat.pack]
    rw [if_neg (by change ¬ 2048 ≤ (exponent + 1023 + 52).toNat + 1; omega), if_pos hbits]
    rfl
  rw [hpack]
  simp only [UnpackedFloat.unpack, unpackExponent_packComponents]
  rw [if_neg hones, if_neg hzero]
  refine decide_eq_true ?_
  change exponent ≤ ((BitVec.ofNat 11 (exponent + 1023 + 52).toNat).toNat : Int) - (1023 + 52)
  rw [htoNat]
  omega

/-- A power of ten is one that was rounded from all its bits. -/
theorem ofScientific_one {n : Nat} (hn : n ≤ 308) :
    UnpackedFloat.ofScientific Format.binary64 1 n =
      roundWithAccuracy Format.binary64 .positive (2 ^ 53 * 10 ^ n) (-53) .exact := by
  have hbig : ¬ (n : Int) > 2 ^ Format.binary64.exponentBits := by
    change ¬ (n : Int) > 2 ^ 11
    omega
  have hsmall : ¬ (n : Int) < -(2 ^ Format.binary64.exponentBits + (Nat.log2 1 : Int)) := by
    have : (0 : Int) ≤ 2 ^ Format.binary64.exponentBits := by decide
    omega
  unfold UnpackedFloat.ofScientific
  rw [dif_neg one_ne_zero, if_neg hbig, if_neg hsmall, if_pos (Int.natCast_nonneg n)]
  rfl

/-- The powers of ten are not small. -/
theorem isAbove_powerOfTen {n : Nat} (hn : n ≤ 308) :
    isAbove (-52) (powerOfTen n).toModel.unpack = true := by
  -- The small powers are exact and stand in a table, and the largest one is checked by itself.
  have hsmall : ∀ n < 23, isAbove (-52) (powerOfTen n).toModel.unpack = true := by decide +kernel
  have hlarge : isAbove (-52) (powerOfTen 308).toModel.unpack = true := by decide +kernel
  rcases Nat.lt_or_ge n 23 with hlt | hge
  · exact hsmall n hlt
  rcases hn.lt_or_eq with hlt | rfl
  swap
  · exact hlarge
  have hmodel : (powerOfTen n).toModel = Float.Model.pack (roundWithAccuracy Format.binary64
      .positive (2 ^ 53 * 10 ^ n) (-53) .exact) := by
    unfold powerOfTen Float.ofScientific
    rw [dif_neg (by omega), ← ofScientific_one hn]
    rfl
  have hpower : 0 < 10 ^ n := Nat.pow_pos (by decide)
  have hbits : 2 ^ 53 ≤ 2 ^ 53 * 10 ^ n := Nat.le_mul_of_pos_right _ hpower
  have hlow : 53 ≤ (2 ^ 53 * 10 ^ n).log2 := (Nat.le_log2 (by omega)).2 hbits
  have hhigh : (2 ^ 53 * 10 ^ n).log2 < 1075 := by
    refine (Nat.log2_lt (by omega)).2 ?_
    calc 2 ^ 53 * 10 ^ n ≤ 2 ^ 53 * 10 ^ 307 :=
          Nat.mul_le_mul_left _ (Nat.pow_le_pow_right (by decide) (by omega))
      _ < 2 ^ 1075 := by decide +kernel
  obtain ⟨mantissa, exponent, hpos, hround, hmantissa, hfrom, hto⟩ :=
    exists_roundWithAccuracy .positive .exact (hbits.trans' (by decide))
      (by decide : (-1074 : Int) ≤ -53)
  rw [hmodel, hround]
  refine isAbove_mono (isAbove_unpack_pack hmantissa (by omega) ?_) (by omega)
  rw [largestExponent]
  omega

/-! ## Division -/

/-- A quotient has few bits if the shift of the dividend makes up for its length only. -/
theorem shiftLeft_div_lt {mantissa mantissa' shift : Nat} (hpos : 0 < mantissa)
    (hpos' : 0 < mantissa') (h : mantissa.log2 + shift ≤ mantissa'.log2 + 53) :
    mantissa <<< shift / mantissa' < 2 ^ 54 := by
  rw [Nat.shiftLeft_eq, Nat.div_lt_iff_lt_mul hpos']
  calc mantissa * 2 ^ shift < 2 ^ (mantissa.log2 + 1) * 2 ^ shift :=
        Nat.mul_lt_mul_of_pos_right ((Nat.log2_lt hpos.ne').1 (Nat.lt_succ_self _))
          (Nat.two_pow_pos _)
    _ = 2 ^ (mantissa.log2 + 1 + shift) := (Nat.pow_add ..).symm
    _ ≤ 2 ^ (54 + mantissa'.log2) := Nat.pow_le_pow_right two_pos (by omega)
    _ = 2 ^ 54 * 2 ^ mantissa'.log2 := Nat.pow_add ..
    _ ≤ 2 ^ 54 * mantissa' := Nat.mul_le_mul_left _ (Nat.log2_self_le hpos'.ne')

/-- Division takes the exponent of the divisor away, give or take the bits of a mantissa. -/
theorem below_div {x y : Float} {bound low : Int} (hx : Below bound x.toModel.unpack)
    (hy : isAbove low y.toModel.unpack = true) (hlow : -1074 ≤ bound - low)
    (hhigh : bound - low + 108 ≤ largestExponent) :
    Below (bound - low + 108) (x / y).toModel.unpack := by
  refine below_unpack_pack ?_ (by omega) hhigh
  cases hunpack' : y.toModel.unpack with
  | zero | infinity | notANumber =>
    rw [hunpack'] at hy
    cases hy
  | finite sign' mantissa' exponent' hpos' =>
    rw [hunpack'] at hy
    have hexponent' : low ≤ exponent' := of_decide_eq_true hy
    cases hunpack : x.toModel.unpack with
    | infinity | notANumber =>
      rw [hunpack] at hx
      exact hx.elim
    | zero => trivial
    | finite sign mantissa exponent hpos =>
      rw [hunpack] at hx
      have hexponent : exponent ≤ bound := hx
      have hlog : mantissa.log2 ≤ 52 :=
        Nat.le_of_lt_succ ((Nat.log2_lt hpos.ne').2 (mantissa_lt_of_unpack hunpack))
      have hquotient : ∀ shift, mantissa.log2 + shift ≤ mantissa'.log2 + 53 →
          mantissa <<< shift / mantissa' < 2 ^ 54 := fun _ => shiftLeft_div_lt hpos hpos'
      refine (below_roundWithAccuracy (hquotient _ ?_) ?_ hlow).mono (by omega)
      · simp only [Format.targetExponent, totalExponent, Format.mantissaBits, Format.minExponent]
        omega
      · exact (min_le_left _ _).trans (by omega)

/-- The largest power of ten has the largest exponent. -/
theorem isAbove_powerOfTen_largest :
    isAbove largestExponent (powerOfTen 308).toModel.unpack = true := by
  decide +kernel

/-- What has a small exponent has one that is not much larger when it is divided by a power of
ten. -/
theorem below_scaleDown {x : Float} {n : Nat} (hx : Below 368 x.toModel.unpack) :
    Below 528 (scaleDown x n).toModel.unpack := by
  fun_induction scaleDown x n with
  | case1 x n hn => exact below_div hx (isAbove_powerOfTen hn) (by decide) (by decide)
  | case2 x n _ _ => exact hx.mono (by decide)
  | case3 x n _ _ ih =>
    have hstep := below_div hx isAbove_powerOfTen_largest (by decide) (by decide)
    exact ih (hstep.mono (by decide))

/-! ## Multiplication -/

/-- A number that is neither infinite nor undefined is finite. -/
theorem isFinite_of_not {x : Float} (hnan : x.isNaN = false) (hinf : x.isInf = false) :
    x.isFinite = true := by
  change x.toModel.unpack.isNaN = false at hnan
  change x.toModel.unpack.isInf = false at hinf
  change x.toModel.unpack.isFinite = true
  cases hx : x.toModel.unpack with
  | zero | finite => rfl
  | infinity =>
    rw [hx] at hinf
    cases hinf
  | notANumber =>
    rw [hx] at hnan
    cases hnan

/-- Bits are undefined only if the exponent is all ones and the mantissa is not zero. -/
theorem isNaN_unpack {bits : BitVec Format.binary64.numBits}
    (h : unpackExponent bits ≠ -1#11 ∨ unpackMantissa bits = 0#52) :
    (UnpackedFloat.unpack Format.binary64 bits).isNaN = false := by
  simp only [UnpackedFloat.unpack]
  split
  · next hones =>
    rw [if_pos (h.resolve_left (not_not_intro hones))]
    rfl
  · split
    · split <;> rfl
    · rfl

/-- A number that is not undefined is not when it is packed either. -/
theorem isNaN_unpack_pack {x : UnpackedFloat} (h : x.isNaN = false) :
    (Float.Model.pack x).unpack.isNaN = false := by
  refine isNaN_unpack ?_
  change unpackExponent (UnpackedFloat.pack Format.binary64 x) ≠ -1#11 ∨
    unpackMantissa (UnpackedFloat.pack Format.binary64 x) = 0#52
  cases x with
  | notANumber => cases h
  | infinity sign => exact .inr (unpackMantissa_packComponents ..)
  | zero sign => exact .inr (unpackMantissa_packComponents ..)
  | finite sign mantissa exponent hpos =>
    simp only [UnpackedFloat.pack]
    split
    · exact .inr (unpackMantissa_packComponents ..)
    · next hsmall =>
      change ¬ 2048 ≤ (exponent + 1023 + 52).toNat + 1 at hsmall
      refine .inl ?_
      split
      · rw [unpackExponent_packComponents]
        intro hones
        have htoNat := congrArg BitVec.toNat hones
        rw [BitVec.toNat_ofNat] at htoNat
        change (exponent + 1023 + 52).toNat % 2 ^ 11 = 2047 at htoNat
        omega
      · rw [unpackExponent_packComponents]
        decide

/-- The product of finite numbers is not undefined. -/
theorem isNaN_mul {x y : Float} (hx : x.isFinite = true) (hy : y.isFinite = true) :
    (x * y).isNaN = false := by
  change x.toModel.unpack.isFinite = true at hx
  change y.toModel.unpack.isFinite = true at hy
  refine isNaN_unpack_pack ?_
  cases hunpack : x.toModel.unpack with
  | infinity | notANumber =>
    rw [hunpack] at hx
    cases hx
  | zero =>
    cases hunpack' : y.toModel.unpack with
    | infinity | notANumber =>
      rw [hunpack'] at hy
      cases hy
    | zero | finite => rfl
  | finite =>
    cases hunpack' : y.toModel.unpack with
    | infinity | notANumber =>
      rw [hunpack'] at hy
      cases hy
    | zero => rfl
    | finite =>
      simp only [UnpackedFloat.mul, roundWithAccuracy]
      split <;> rfl

/-! ## Scaling -/

/-- A number that is bounded below is finite. -/
theorem isFinite_of_isAbove {x : Float} {bound : Int} (h : isAbove bound x.toModel.unpack = true) :
    x.isFinite = true := by
  change x.toModel.unpack.isFinite = true
  cases hx : x.toModel.unpack with
  | finite => rfl
  | zero | infinity | notANumber =>
    rw [hx] at h
    cases h

/-- What digits of up to 64 bits are scaled to is finite. -/
theorem isFinite_of_scaled? {digits : Nat} {exponent : Int} {x : Float} (h : digits < 2 ^ 64)
    (hx : scaled? digits exponent = some x) : x.isFinite = true := by
  have hbelow : Below 368 (Float.ofScientific digits false 0).toModel.unpack := below_ofNat h
  unfold scaled? at hx
  dsimp only at hx
  split at hx
  · cases hx
    exact isFinite_of_below (below_scaleDown hbelow)
  · split at hx
    · next hexponent =>
      split at hx
      · cases hx
      · next hinf =>
        cases hx
        have hpower := isFinite_of_isAbove (isAbove_powerOfTen (n := exponent.natAbs) (by omega))
        exact isFinite_of_not (isNaN_mul (isFinite_of_below hbelow) hpower)
          (Bool.eq_false_iff.2 hinf)
    · split at hx
      · cases hx
        exact isFinite_of_below hbelow
      · cases hx

end FinanceGateway.Decimal
