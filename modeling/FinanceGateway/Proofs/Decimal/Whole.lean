import Mathlib

/-!
# Integers as binary64 numbers

An integer of 64 bits, signed or not, has a finite binary64 number (`isFinite_ofInt`). Rounding and
packing cannot reach infinity from so few bits: `Below` bounds the exponent of an unpacked number,
crudely, and every stage of the conversion keeps it far from the largest one.
-/

namespace FinanceGateway.Decimal

open Float.Model Float.Model.UnpackedFloat

/-- The largest exponent of a finite binary64 number with a mantissa of 53 bits. -/
def largestExponent : Int := 971

/-- A number is finite, and its exponent is no larger than a bound. -/
def Below (bound : Int) : UnpackedFloat → Prop
  | .zero _ => True
  | .finite _ _ exponent _ => exponent ≤ bound
  | .infinity _ | .notANumber => False

/-- A bound may be raised. -/
theorem Below.mono {bound bound' : Int} {x : UnpackedFloat} (h : Below bound x)
    (hle : bound ≤ bound') : Below bound' x := by
  cases x with
  | zero => trivial
  | finite => exact le_trans h hle
  | infinity | notANumber => exact h.elim

/-! ## Rounding -/

theorem mantissa_shiftRight (em : ExtendedMantissa) (shift : Nat) :
    (em >>> shift).mantissa = em.mantissa / 2 ^ shift := by
  induction shift with
  | zero => exact (Nat.div_one _).symm
  | succ shift ih =>
    change (em >>> shift).mantissa / 2 = _
    rw [ih, Nat.div_div_eq_div_mul, Nat.pow_succ]

theorem mantissa_ofMantissaAndAccuracy (mantissa : Nat) (accuracy : Accuracy) :
    (ExtendedMantissa.ofMantissaAndAccuracy mantissa accuracy).mantissa = mantissa := by
  cases accuracy with
  | exact => rfl
  | inexact order => cases order <;> rfl

theorem roundedMantissa_le (em : ExtendedMantissa) : em.roundedMantissa ≤ em.mantissa + 1 := by
  unfold ExtendedMantissa.roundedMantissa
  cases em.accuracy with
  | exact => exact Nat.le_succ _
  | inexact order => cases order <;> simp only [Accuracy.roundToNearestEven] <;> omega

/-- Moved to its target, a mantissa of few bits has an exponent that is not much larger. -/
theorem exponent_shiftToTargetExponent_le {mantissa bits : Nat} {exponent bound : Int}
    {accuracy : Accuracy} (hmantissa : mantissa ≤ 2 ^ bits) (hexponent : exponent ≤ bound)
    (hbound : -1074 ≤ bound) :
    (shiftToTargetExponent Format.binary64 mantissa exponent accuracy).2 ≤ bound + bits := by
  have hlog : mantissa.log2 ≤ bits := by
    rcases Nat.eq_zero_or_pos mantissa with rfl | hpos
    · exact Nat.zero_le _
    · refine Nat.le_of_lt_succ ((Nat.log2_lt hpos.ne').2 ?_)
      exact lt_of_le_of_lt hmantissa (Nat.pow_lt_pow_succ one_lt_two)
  simp only [shiftToTargetExponent, shiftToExponent, Format.targetExponent, totalExponent,
    Format.mantissaBits, Format.minExponent]
  omega

/-- Rounding a mantissa of few bits gives an exponent that is not much larger. -/
theorem below_roundWithAccuracy {sign : Sign} {mantissa bits : Nat} {exponent bound : Int}
    {accuracy : Accuracy} (hmantissa : mantissa < 2 ^ bits) (hexponent : exponent ≤ bound)
    (hbound : -1074 ≤ bound) :
    Below (bound + bits + bits)
      (roundWithAccuracy Format.binary64 sign mantissa exponent accuracy) := by
  have hfirst :
      (shiftToTargetExponent Format.binary64 mantissa exponent accuracy).2 ≤ bound + bits :=
    exponent_shiftToTargetExponent_le hmantissa.le hexponent hbound
  have hrounded :
      (shiftToTargetExponent Format.binary64 mantissa exponent accuracy).1.roundedMantissa ≤
        2 ^ bits := by
    refine (roundedMantissa_le _).trans (Nat.succ_le_of_lt (lt_of_le_of_lt ?_ hmantissa))
    rw [shiftToTargetExponent, shiftToExponent, mantissa_shiftRight,
      mantissa_ofMantissaAndAccuracy]
    exact Nat.div_le_self _ _
  have hsecond : (shiftToTargetExponent Format.binary64 _ _ .exact).2 ≤ bound + bits + bits :=
    exponent_shiftToTargetExponent_le hrounded hfirst (by omega)
  unfold roundWithAccuracy
  dsimp only
  split
  · trivial
  · exact hsecond

/-! ## Packing -/

/-- The exponent field of bits. -/
def exponentField (bits : BitVec Format.binary64.numBits) : BitVec 11 :=
  unpackExponent bits

/-- Bits with a small exponent are those of a finite number. -/
theorem below_unpack {bits : BitVec Format.binary64.numBits} {bound : Int}
    (h : ((exponentField bits).toNat : Int) ≤ bound + 1075) (hlow : -1074 ≤ bound)
    (hhigh : bound ≤ largestExponent) :
    Below bound (UnpackedFloat.unpack Format.binary64 bits) := by
  rw [exponentField] at h
  rw [largestExponent] at hhigh
  simp only [UnpackedFloat.unpack]
  split
  · next hones =>
    rw [hones] at h
    change ((2047 : Nat) : Int) ≤ _ at h
    omega
  · split
    · next hzero =>
      rw [hzero]
      split
      · trivial
      · exact hlow
    · change ((unpackExponent bits).toNat : Int) - (1023 + 52) ≤ bound
      omega

/-- A number whose exponent is not too large is still that when it is packed. -/
theorem below_unpack_pack {x : UnpackedFloat} {bound : Int} (h : Below bound x)
    (hlow : -1074 ≤ bound) (hhigh : bound ≤ largestExponent) :
    Below bound (Float.Model.pack x).unpack := by
  have hcomponents : ∀ sign exponent mantissa, (BitVec.toNat exponent : Int) ≤ bound + 1075 →
      Below bound (UnpackedFloat.unpack Format.binary64
        (packComponents Format.binary64 sign exponent mantissa)) := fun sign exponent mantissa h =>
    below_unpack (by rwa [exponentField, unpackExponent_packComponents]) hlow hhigh
  change Below bound (UnpackedFloat.unpack Format.binary64 (UnpackedFloat.pack Format.binary64 x))
  cases x with
  | infinity | notANumber => exact h.elim
  | zero sign => exact hcomponents _ _ _ (by simp; omega)
  | finite sign mantissa exponent hpos =>
    rw [largestExponent] at hhigh
    have hexponent : exponent ≤ bound := h
    have hbias : (exponent + ↑Format.binary64.exponentBias +
        ↑Format.binary64.mantissaBitsWithoutImplicit).toNat = (exponent + 1075).toNat := by
      change (exponent + 1023 + 52).toNat = _
      rw [add_assoc]
      rfl
    simp only [UnpackedFloat.pack, hbias]
    rw [if_neg (by change ¬ 2048 ≤ _; omega)]
    split
    · refine hcomponents _ _ _ ?_
      have := Nat.mod_le (exponent + 1075).toNat (2 ^ 11)
      rw [BitVec.toNat_ofNat]
      change (((exponent + 1075).toNat % 2 ^ 11 : Nat) : Int) ≤ _
      omega
    · exact hcomponents _ _ _ (by simp; omega)

/-- A number is finite if its exponent is bounded. -/
theorem isFinite_of_below {x : Float} {bound : Int} (h : Below bound x.toModel.unpack) :
    x.isFinite = true := by
  change x.toModel.unpack.isFinite = true
  cases hx : x.toModel.unpack with
  | zero | finite => rfl
  | infinity | notANumber =>
    rw [hx] at h
    exact h.elim

/-- The exponent of a finite number is no larger than the largest. -/
theorem below_of_isFinite {x : Float} (h : x.isFinite = true) :
    Below largestExponent x.toModel.unpack := by
  refine below_unpack ?_ (by decide) le_rfl
  have hones : exponentField x.toModel.toBits.toBitVec ≠ -1#11 := by
    intro hones
    change (UnpackedFloat.unpack Format.binary64 x.toModel.toBits.toBitVec).isFinite = true at h
    rw [exponentField] at hones
    simp only [UnpackedFloat.unpack] at h
    rw [if_pos hones] at h
    split at h <;> cases h
  rw [largestExponent]
  have := (exponentField x.toModel.toBits.toBitVec).isLt
  have hne : (exponentField x.toModel.toBits.toBitVec).toNat ≠ 2047 := fun heq =>
    hones (BitVec.eq_of_toNat_eq heq)
  omega

/-! ## Integers -/

/-- The negative of a finite number is finite. -/
theorem isFinite_neg {x : Float} (h : x.isFinite = true) : x.neg.isFinite = true := by
  have hbelow := below_of_isFinite h
  have hneg : Below largestExponent x.toModel.unpack.neg := by
    cases hx : x.toModel.unpack with
    | zero => trivial
    | finite =>
      rw [hx] at hbelow
      exact hbelow
    | infinity | notANumber =>
      rw [hx] at hbelow
      exact hbelow.elim
  exact isFinite_of_below (below_unpack_pack hneg (by decide) le_rfl)

/-- A natural number of up to 53 bits has a number with a small exponent. -/
theorem below_toFloat {n : Nat} (h : n < 2 ^ 53) : Below 210 n.toUInt64.toFloat.toModel.unpack := by
  have htoNat : n.toUInt64.toNat = n := by
    simp; omega
  refine below_unpack_pack ?_ (by decide) (by decide)
  change Below 210 (UnpackedFloat.normalize Format.binary64 (n.toUInt64.toNat : Int) 0 .positive)
  rw [htoNat]
  unfold UnpackedFloat.normalize
  split
  · next hlt => exact absurd (compare_lt_iff_lt.1 hlt) (by omega)
  · trivial
  · rw [Int.toNat_natCast]
    unfold UnpackedFloat.round decreaseExponent
    dsimp only
    have hshift : (0 - Format.binary64.targetExponent (totalExponent n 0)).toNat ≤ 52 := by
      simp only [Format.targetExponent, totalExponent, Format.mantissaBits, Format.minExponent]
      omega
    have hmantissa :
        n <<< (0 - Format.binary64.targetExponent (totalExponent n 0)).toNat < 2 ^ 105 := by
      rw [Nat.shiftLeft_eq]
      calc n * 2 ^ _ < 2 ^ 53 * 2 ^ _ := Nat.mul_lt_mul_of_pos_right h (Nat.two_pow_pos _)
        _ ≤ 2 ^ 53 * 2 ^ 52 := Nat.mul_le_mul_left _ (Nat.pow_le_pow_right two_pos hshift)
        _ = 2 ^ 105 := by norm_num
    exact below_roundWithAccuracy hmantissa (by omega : _ ≤ (0 : Int)) (by decide)

/-- The product of mantissas of few bits has an exponent that is not much larger. -/
theorem below_mul {sign sign' : Sign} {mantissa mantissa' bits : Nat}
    {exponent exponent' bound : Int} (hpos : 0 < mantissa) (hpos' : 0 < mantissa')
    (hmantissa : mantissa * mantissa' < 2 ^ bits)
    (hexponent : exponent + exponent' ≤ bound) (hbound : -1074 ≤ bound) :
    Below (bound + bits + bits) (UnpackedFloat.mul Format.binary64
      (.finite sign mantissa exponent hpos) (.finite sign' mantissa' exponent' hpos')) :=
  below_roundWithAccuracy hmantissa hexponent hbound

/-- A mantissa that was packed has 53 bits. -/
theorem mantissa_lt_of_unpack {bits : BitVec Format.binary64.numBits} {sign : Sign} {mantissa : Nat}
    {exponent : Int} {hpos : 0 < mantissa}
    (h : UnpackedFloat.unpack Format.binary64 bits = .finite sign mantissa exponent hpos) :
    mantissa < 2 ^ 53 := by
  simp only [UnpackedFloat.unpack] at h
  split at h
  · split at h <;> cases h
  · split at h
    · split at h
      · cases h
      · cases h
        exact (BitVec.isLt _).trans (by decide)
    · cases h
      exact BitVec.isLt _

/-- Without a power of ten, the number of a mantissa is a product of two. -/
theorem ofScientific_zero {n : Nat} (h : n ≠ 0) :
    ∃ mantissa mantissa' hpos hpos', UnpackedFloat.ofScientific Format.binary64 n 0 =
      UnpackedFloat.mul Format.binary64 (.finite .positive mantissa (-53) hpos)
        (.finite .positive mantissa' 0 hpos') ∧ mantissa * mantissa' = n * 2 ^ 53 := by
  have hsmall : ¬ (0 : Int) < -(2 ^ Format.binary64.exponentBits + (n.log2 : Int)) := by
    have : (0 : Int) ≤ 2 ^ Format.binary64.exponentBits := by decide
    omega
  unfold UnpackedFloat.ofScientific
  rw [dif_neg h, if_neg (by decide), if_neg hsmall, if_pos le_rfl]
  refine ⟨_, _, _, _, rfl, ?_⟩
  rw [Nat.shiftLeft_eq]
  exact Nat.mul_one _

/-- A natural number of up to 64 bits has a number with a small exponent. -/
theorem below_ofNat {n : Nat} (h : n < 2 ^ 64) : Below 368 (Float.ofNat n).toModel.unpack := by
  change Below 368 (Float.ofScientific n false 0).toModel.unpack
  unfold Float.ofScientific
  split
  · next hn =>
    -- The number is exact, and multiplied by the power of ten that is one.
    have hx := below_toFloat hn.1
    have hone : (Float.ofBits 4607182418800017408).toModel.unpack =
        .finite .positive (2 ^ 52) (-52) (by decide) := rfl
    have hmul : Below 368 (UnpackedFloat.mul Format.binary64 n.toUInt64.toFloat.toModel.unpack
        (Float.ofBits 4607182418800017408).toModel.unpack) := by
      rw [hone]
      cases hunpack : n.toUInt64.toFloat.toModel.unpack with
      | zero => trivial
      | finite sign mantissa exponent hpos =>
        rw [hunpack] at hx
        have hexponent : exponent + -52 ≤ 158 := by
          have : exponent ≤ 210 := hx
          omega
        have hmantissa : mantissa * 2 ^ 52 < 2 ^ 105 := by
          have := mantissa_lt_of_unpack hunpack
          omega
        exact below_mul hpos (by decide) hmantissa hexponent (by decide)
      | infinity | notANumber =>
        rw [hunpack] at hx
        exact hx.elim
    exact below_unpack_pack hmul (by decide) (by decide)
  · next hn =>
    obtain ⟨mantissa, mantissa', hpos, hpos', hmul, hmantissa⟩ :=
      ofScientific_zero (n := n) (by omega)
    have hbelow : Below 234 (UnpackedFloat.ofScientific Format.binary64 n 0) := by
      rw [hmul]
      have hlt : mantissa * mantissa' < 2 ^ 117 := by omega
      exact below_mul hpos hpos' hlt (by decide : -53 + 0 ≤ (0 : Int)) (by decide)
    exact below_unpack_pack (hbelow.mono (by decide)) (by decide) (by decide)

/-- A natural number of up to 64 bits has a finite number. -/
theorem isFinite_ofNat {n : Nat} (h : n < 2 ^ 64) : (Float.ofNat n).isFinite = true :=
  isFinite_of_below (below_ofNat h)

/-- An integer of 64 bits, signed or not, has a finite number. -/
theorem isFinite_ofInt {i : Int} (h : -2 ^ 63 ≤ i ∧ i < 2 ^ 64) :
    (Float.ofInt i).isFinite = true := by
  cases i with
  | ofNat n => exact isFinite_ofNat (by simpa using h.2)
  | negSucc n => exact isFinite_neg (isFinite_ofNat (by omega))

end FinanceGateway.Decimal
