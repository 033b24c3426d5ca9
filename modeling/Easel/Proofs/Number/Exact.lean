import Mathlib.Algebra.Order.Field.Basic
import Mathlib.Data.Nat.Cast.Order.Field
import Easel.Proofs.Number.Whole

/-! The exact values of finite doubles, in any ordered field. -/

namespace Easel

open Float.Model

/-- The exact value of a finite double. -/
def Dyadic.value (K : Type) [Field K] (d : Dyadic) : K :=
  let magnitude : K := match d.exponent with
    | .ofNat e => d.mantissa * (Nat.pow 2 e : Nat)
    | .negSucc e => d.mantissa / (Nat.pow 2 (e + 1) : Nat)
  if d.negative then -magnitude else magnitude

/-- The exact value of a double, where those that are not finite count as zero. -/
def Binary64.exact (K : Type) [Field K] (x : Float) : K :=
  match Dyadic.ofFloat? x with
  | some d => d.value K
  | none => 0

namespace Dyadic

theorem value_pos {K : Type} [Field K] [LinearOrder K] [IsStrictOrderedRing K] {d : Dyadic}
    (hsign : d.negative = false) (hmantissa : 0 < d.mantissa) : 0 < d.value K := by
  have hm : (0 : K) < d.mantissa := Nat.cast_pos.mpr hmantissa
  have hpow (e : Nat) : (0 : K) < (Nat.pow 2 e : Nat) := Nat.cast_pos.mpr (Nat.two_pow_pos e)
  rw [value, hsign, if_neg Bool.false_ne_true]
  split
  · exact mul_pos hm (hpow _)
  · exact div_pos hm (hpow _)

/-- A finite double in two forms: exactly, and as its bits are taken apart. -/
def Unpacks (d : Dyadic) : UnpackedFloat → Prop
  | .zero s => d.mantissa = 0 ∧ (d.negative = true ↔ s = .negative)
  | .finite s m e _ => d.mantissa = m ∧ d.exponent = e ∧ (d.negative = true ↔ s = .negative)
  | _ => False

/-- The bits of a double, from which its sign, its exponent and its mantissa are taken. -/
def bits (x : Float) : BitVec Format.binary64.numBits := x.toModel.toBits.toBitVec

theorem toNat_unpackExponent (x : Float) :
    (UnpackedFloat.unpackExponent (bits x)).toNat = x.toBits.toNat / binade % 2048 := by
  simp only [UnpackedFloat.unpackExponent, BitVec.toNat_cast, BitVec.extractLsb_toNat,
    Nat.shiftRight_eq_div_pow]
  rfl

theorem toNat_unpackMantissa (x : Float) :
    (UnpackedFloat.unpackMantissa (bits x)).toNat = x.toBits.toNat % binade := by
  simp only [UnpackedFloat.unpackMantissa, BitVec.toNat_cast, BitVec.extractLsb_toNat]
  rfl

theorem toNat_unpackSign (x : Float) :
    (UnpackedFloat.unpackSign (bits x)).toNat = x.toBits.toNat / 9223372036854775808 % 2 := by
  show (bits x).toNat >>> 63 % 2 ^ (63 - 63 + 1) = _
  rw [Nat.shiftRight_eq_div_pow]
  rfl

theorem negative_iff (x : Float) : 2048 * binade ≤ x.toBits.toNat ↔
    UnpackedFloat.Sign.ofBitVec (UnpackedFloat.unpackSign (bits x)) = .negative := by
  have hbit := toNat_unpackSign x
  have hlt : x.toBits.toNat < 18446744073709551616 := x.toBits.toNat_lt
  have hbinade : binade = 4503599627370496 := rfl
  generalize UnpackedFloat.unpackSign (bits x) = sign at hbit ⊢
  show _ ↔ (if sign = 0#1 then UnpackedFloat.Sign.positive else .negative) = .negative
  rcases Decidable.em (sign = 0#1) with hzero | hone
  · have hnone : sign.toNat = 0 := congrArg BitVec.toNat hzero
    rw [if_pos hzero]
    refine iff_of_false ?_ (fun heq => UnpackedFloat.Sign.noConfusion heq)
    omega
  · have hsome : sign.toNat ≠ 0 := fun heq => hone (BitVec.eq_of_toNat_eq heq)
    rw [if_neg hone]
    refine iff_of_true ?_ rfl
    omega

theorem ofFloat?_unpacks {x : Float} {d : Dyadic} (h : ofFloat? x = some d) :
    d.Unpacks x.toModel.unpack := by
  let exponent : BitVec 11 := UnpackedFloat.unpackExponent (bits x)
  let mantissa : BitVec 52 := UnpackedFloat.unpackMantissa (bits x)
  have hsign := negative_iff x
  have hexponent : exponent.toNat = x.toBits.toNat / binade % 2048 := toNat_unpackExponent x
  have hmantissa : mantissa.toNat = x.toBits.toNat % binade := toNat_unpackMantissa x
  unfold ofFloat? at h
  dsimp only at h
  rw [← hexponent, ← hmantissa] at h
  show d.Unpacks (UnpackedFloat.unpack Format.binary64 (bits x))
  delta UnpackedFloat.unpack
  dsimp only
  rcases Decidable.em (exponent = -1#11) with hones | hones
  · have hscale : exponent.toNat = 2047 := congrArg BitVec.toNat hones
    rw [if_pos hscale] at h
    cases h
  · have hscale : exponent.toNat ≠ 2047 := fun heq => hones (BitVec.eq_of_toNat_eq heq)
    rw [if_neg hscale] at h
    rw [if_neg hones]
    rcases Decidable.em (exponent = 0#11) with hzeros | hzeros
    · have hleast : exponent.toNat = 0 := congrArg BitVec.toNat hzeros
      rw [if_pos hleast] at h
      rw [if_pos hzeros]
      cases h
      rcases Decidable.em (mantissa = 0#52) with hm | hm
      · rw [dif_pos hm]
        exact ⟨congrArg BitVec.toNat hm, by rw [← hsign, decide_eq_true_iff]⟩
      · rw [dif_neg hm]
        refine ⟨rfl, ?_, by rw [← hsign, decide_eq_true_iff]⟩
        show (-1074 : Int) = (exponent.toNat : Int) - (1023 + 52) + 1
        omega
    · have hscale : exponent.toNat ≠ 0 := fun heq => hzeros (BitVec.eq_of_toNat_eq heq)
      rw [if_neg hscale] at h
      rw [if_neg hzeros]
      cases h
      refine ⟨?_, ?_, by rw [← hsign, decide_eq_true_iff]⟩
      · show mantissa.toNat + binade = (1#1 ++ mantissa).toNat
        rw [Binary64.toNat_implicit_append, Nat.add_comm]
        rfl
      · show (exponent.toNat : Int) - 1075 = (exponent.toNat : Int) - (1023 + 52)
        omega

end Dyadic

/-- A finite double above zero has an exact value above zero. -/
theorem Binary64.exact_pos {K : Type} [Field K] [LinearOrder K] [IsStrictOrderedRing K] {x : Float}
    (hx : 0.0 < x) (hfinite : isFinite x = true) : 0 < exact K x := by
  obtain ⟨d, hd⟩ := Option.isSome_iff_exists.mp hfinite
  have hzero : (0.0 : Float).toModel.unpack = .zero .positive := rfl
  have hunpacks := Dyadic.ofFloat?_unpacks hd
  rw [lt_iff, hzero] at hx
  have hpositive : d.negative = false ∧ 0 < d.mantissa := by
    generalize x.toModel.unpack = u at hx hunpacks
    cases u with
    | notANumber | infinity _ => cases hunpacks
    | zero s => cases s <;> cases hx
    | finite s m e hm =>
      obtain ⟨hmantissa, -, hsign⟩ := hunpacks
      cases s with
      | negative => cases hx
      | positive => exact ⟨by simpa using hsign, by rwa [hmantissa]⟩
  rw [exact, hd]
  exact Dyadic.value_pos hpositive.1 hpositive.2

end Easel
