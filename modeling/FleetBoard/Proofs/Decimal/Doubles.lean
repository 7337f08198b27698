import FleetBoard.Decimal.Reading
import Mathlib

/-!
# Doubles that are not below zero

Numbers that are read without a sign, their multiples and their sums never fall below zero, and none
of them comes out as no number at all: at worst they are infinite. Rounding keeps the sign, so this
is read off the signs of what the operations compute (`Plus`), whatever their mantissas and
exponents are.
-/

namespace FleetBoard.Decimal

open Float.Model Float.Model.UnpackedFloat

/-- From zero up to infinity, all with a plus sign. -/
inductive Plus : UnpackedFloat → Prop
  | zero : Plus (.zero .positive)
  | finite {m : Nat} {e : Int} (positive : 0 < m) : Plus (.finite .positive m e positive)
  | infinity : Plus (.infinity .positive)

variable {u v : UnpackedFloat} {spec : Format} {x y : Float}

/-! ### Packing -/

/-- With a plus sign, only the greatest exponent could stand for what is no number. -/
theorem plus_unpack {exponent : BitVec spec.exponentBits}
    {mantissa : BitVec spec.mantissaBitsWithoutImplicit}
    (number : exponent = -1#_ → mantissa = 0#_) :
    Plus (UnpackedFloat.unpack spec (packComponents spec .positive exponent mantissa)) := by
  have sign : Sign.ofBitVec Sign.positive.toBitVec = .positive := rfl
  rw [UnpackedFloat.unpack]
  simp only [unpackMantissa_packComponents, unpackExponent_packComponents,
    unpackSign_packComponents, sign]
  split
  · next greatest =>
      rw [if_pos (number greatest)]
      exact .infinity
  split
  · split
    · exact .zero
    · exact .finite _
  · exact .finite _

theorem Plus.unpack_pack (plus : Plus u) :
    Plus (UnpackedFloat.unpack spec (UnpackedFloat.pack spec u)) := by
  have greatest : (-1#_ : BitVec spec.exponentBits).toNat = 2 ^ spec.exponentBits - 1 := by
    rw [BitVec.neg_one_eq_allOnes, BitVec.toNat_allOnes]
  have two : 1 < 2 ^ spec.exponentBits := Nat.one_lt_two_pow (Nat.ne_of_gt spec.he)
  cases plus with
  | zero => exact plus_unpack fun _ => rfl
  | infinity => exact plus_unpack fun _ => rfl
  | finite positive =>
      rw [UnpackedFloat.pack]
      split
      · exact plus_unpack fun _ => rfl
      split
      · next small _ =>
          refine plus_unpack fun same => ?_
          have same := congrArg BitVec.toNat same
          rw [greatest, BitVec.toNat_ofNat, Nat.mod_eq_of_lt (by omega)] at same
          omega
      · refine plus_unpack fun same => ?_
        have same := congrArg BitVec.toNat same
        rw [greatest, BitVec.toNat_zero] at same
        omega

/-! ### Arithmetic -/

theorem plus_round {m : Nat} {e : Int} {accuracy : Accuracy} :
    Plus (roundWithAccuracy spec .positive m e accuracy) := by
  rw [roundWithAccuracy]
  dsimp only
  split
  · exact .zero
  · exact .finite _

theorem plus_normalize {m : Int} (nonnegative : 0 ≤ m) (e : Int) :
    Plus (normalize spec m e .positive) := by
  rw [UnpackedFloat.normalize]
  split
  · next below =>
      rw [Int.compare_eq_lt] at below
      omega
  · exact .zero
  · exact plus_round

theorem Plus.add (first : Plus u) (second : Plus v) : Plus (UnpackedFloat.add spec u v) := by
  cases first with
  | zero => cases second <;> first | exact .zero | exact .finite _ | exact .infinity
  | infinity => cases second <;> exact .infinity
  | finite =>
      cases second with
      | zero => exact .finite _
      | infinity => exact .infinity
      | finite =>
          exact plus_normalize (Int.add_nonneg (Int.natCast_nonneg _) (Int.natCast_nonneg _)) _

theorem Plus.mul {m : Nat} {e : Int} (plus : Plus u) (positive : 0 < m) :
    Plus (UnpackedFloat.mul spec u (.finite .positive m e positive)) := by
  cases plus with
  | zero => exact .zero
  | infinity => exact .infinity
  | finite => exact plus_round

theorem Plus.div {m : Nat} {e : Int} (plus : Plus u) (positive : 0 < m) :
    Plus (UnpackedFloat.div spec u (.finite .positive m e positive)) := by
  cases plus with
  | zero => exact .zero
  | infinity => exact .infinity
  | finite => exact plus_round

theorem plus_ofScientific (m : Nat) (e : Int) : Plus (UnpackedFloat.ofScientific spec m e) := by
  rw [UnpackedFloat.ofScientific]
  split
  · exact .zero
  split
  · exact .infinity
  split
  · exact .zero
  split
  · exact (Plus.finite _).mul _
  · exact (Plus.finite _).div _

/-! ### Doubles -/

/-- A double that is not below zero. -/
def NotBelowZero (x : Float) : Prop := Plus x.toModel.unpack

def isAboveZero (x : Float) : Bool :=
  match x.toModel.unpack with
  | .finite .positive .. => true
  | _ => false

theorem exists_finite (above : isAboveZero x = true) :
    ∃ m e positive, x.toModel.unpack = .finite .positive m e positive := by
  rw [isAboveZero] at above
  split at above
  · next same => exact ⟨_, _, _, same⟩
  · cases above

theorem NotBelowZero.add (first : NotBelowZero x) (second : NotBelowZero y) :
    NotBelowZero (x + y) :=
  (Plus.add first second).unpack_pack

/-- Infinity times zero would be no number, but a factor that is above zero is safe. -/
theorem NotBelowZero.mul (first : NotBelowZero x) (second : isAboveZero y = true) :
    NotBelowZero (x * y) := by
  obtain ⟨m, e, positive, same⟩ := exists_finite second
  have product :
      Plus (UnpackedFloat.mul .binary64 x.toModel.unpack (.finite .positive m e positive)) :=
    Plus.mul first positive
  rw [← same] at product
  exact product.unpack_pack

theorem NotBelowZero.div (first : NotBelowZero x) (second : isAboveZero y = true) :
    NotBelowZero (x / y) := by
  obtain ⟨m, e, positive, same⟩ := exists_finite second
  have quotient :
      Plus (UnpackedFloat.div .binary64 x.toModel.unpack (.finite .positive m e positive)) :=
    Plus.div first positive
  rw [← same] at quotient
  exact quotient.unpack_pack

theorem NotBelowZero.zero_le (nonnegative : NotBelowZero x) : 0 ≤ x := by
  have zero : (0 : Float).toModel.unpack = .zero .positive := by rfl
  have compared : UnpackedFloat.le (.zero .positive) x.toModel.unpack = true := by
    rw [NotBelowZero] at nonnegative
    generalize x.toModel.unpack = u at nonnegative
    cases nonnegative <;> rfl
  rw [← zero] at compared
  exact decide_eq_true compared

theorem isAboveZero_powersOfTen :
    ∀ e : Fin 23, isAboveZero (Float.exactlyRepresentablePowersOfTen[e]) = true := by
  decide +kernel

theorem notBelowZero_ofWord (n : UInt64) : NotBelowZero n.toFloat :=
  (plus_normalize (Int.natCast_nonneg _) 0).unpack_pack

theorem notBelowZero_ofScientific (m : Nat) (negative : Bool) (e : Nat) :
    NotBelowZero (Float.ofScientific m negative e) := by
  rw [Float.ofScientific]
  split
  · next small =>
      have power := isAboveZero_powersOfTen ⟨e, Nat.lt_succ_of_le small.2⟩
      split
      · exact (notBelowZero_ofWord _).div power
      · exact (notBelowZero_ofWord _).mul power
  · exact (plus_ofScientific _ _).unpack_pack

theorem notBelowZero_infinity : NotBelowZero (1.0 / 0.0) := by
  have infinite : (1.0 / 0.0 : Float).toModel.unpack = .infinity .positive := by rfl
  rw [NotBelowZero, infinite]
  exact .infinity

/-- What digits write is not below zero, whatever the exponent is. -/
theorem notBelowZero_toFloat (digits : List Char) (exponent : Int) :
    NotBelowZero (toFloat digits exponent) := by
  rw [toFloat.eq_def]
  dsimp only
  split
  · exact notBelowZero_ofScientific 0 false 0
  split
  · exact notBelowZero_infinity
  split
  · exact notBelowZero_ofScientific 0 false 0
  · cases exponent with
    | ofNat e => exact notBelowZero_ofScientific _ false e
    | negSucc e => exact notBelowZero_ofScientific _ true (e + 1)

end FleetBoard.Decimal
