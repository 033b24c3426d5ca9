import Easel.Proofs.Number.Exact

/-! Doubles above zero are ordered as their bits are. Read as a number, the bits of such a double
are its exponent, counted from the least one, times the number of doubles in a binade, and its
mantissa added to that; infinity comes behind all of them. -/

namespace Easel

open Float.Model

namespace Dyadic

variable {x : Float} {d : Dyadic}

theorem ofFloat?_eq_none_iff : ofFloat? x = none ↔ x.toBits.toNat / binade % 2048 = 2047 := by
  unfold ofFloat?
  dsimp only
  split
  · next h => exact iff_of_true rfl h
  · next h => split <;> exact iff_of_false nofun h

/-- The bits of an infinity, and of what is no number. -/
theorem unpack_of_none (h : ofFloat? x = none) : x.toModel.unpack =
    if UnpackedFloat.unpackMantissa (bits x) = 0#52 then
      .infinity (.ofBitVec (UnpackedFloat.unpackSign (bits x)))
    else .notANumber := by
  have hones : UnpackedFloat.unpackExponent (bits x) = -1#11 := by
    apply BitVec.eq_of_toNat_eq
    rw [toNat_unpackExponent, ofFloat?_eq_none_iff.mp h]
    rfl
  show UnpackedFloat.unpack Format.binary64 (bits x) = _
  delta UnpackedFloat.unpack
  dsimp only
  rw [if_pos hones]

theorem bits_of_some (h : ofFloat? x = some d) (hsign : d.negative = false) :
    (x.toBits.toNat : Int) = (d.exponent + 1074) * binade + d.mantissa ∧
      x.toBits.toNat < 2047 * binade := by
  have hlt : x.toBits.toNat < 18446744073709551616 := x.toBits.toNat_lt
  unfold ofFloat? at h
  generalize x.toBits.toNat = n at h hlt ⊢
  dsimp only at h
  split at h
  · cases h
  · split at h <;>
    · cases h
      have hpositive : ¬2048 * binade ≤ n := of_decide_eq_false hsign
      dsimp only [binade] at *
      omega

end Dyadic

namespace Binary64

open Easel.Dyadic

variable {x y : Float}

/-- What the bits of a double above zero say. -/
inductive HasBits (bits : Nat) : UnpackedFloat → Prop
  | infinity (hbits : bits = 2047 * binade) : HasBits bits (.infinity .positive)
  | finite {m : Nat} {e : Int} {hm : 0 < m} (hbits : (bits : Int) = (e + 1074) * binade + m)
      (hlt : bits < 2047 * binade) : HasBits bits (.finite .positive m e hm)

theorem hasBits_of_pos (hx : 0.0 < x) : HasBits x.toBits.toNat x.toModel.unpack := by
  have hlt : x.toBits.toNat < 18446744073709551616 := x.toBits.toNat_lt
  have hzero : (0.0 : Float).toModel.unpack = .zero .positive := rfl
  rw [lt_iff, hzero] at hx
  cases hd : ofFloat? x with
  | none =>
    have hscale := ofFloat?_eq_none_iff.mp hd
    have hmantissa := toNat_unpackMantissa x
    have hnegative := negative_iff x
    have hunpack := unpack_of_none hd
    rw [hunpack] at hx ⊢
    generalize UnpackedFloat.unpackMantissa (bits x) = mantissa at hx hmantissa ⊢
    generalize UnpackedFloat.Sign.ofBitVec (UnpackedFloat.unpackSign (bits x)) = s
      at hx hnegative ⊢
    split at hx
    · next h =>
      rw [if_pos h]
      cases s with
      | negative => cases hx
      | positive =>
        have hzeros : x.toBits.toNat % binade = 0 := by
          rw [← hmantissa, h]
          rfl
        have hsign : ¬2048 * binade ≤ x.toBits.toNat := fun hle => nomatch hnegative.mp hle
        refine .infinity ?_
        dsimp only [binade] at hscale hzeros hsign ⊢
        omega
    · cases hx
  | some d =>
    have hunpacks := ofFloat?_unpacks hd
    have hbits := bits_of_some hd
    generalize x.toModel.unpack = u at hx hunpacks ⊢
    cases u with
    | notANumber | infinity _ => cases hunpacks
    | zero s => cases s <;> cases hx
    | finite s m e hm =>
      obtain ⟨rfl, rfl, hsign⟩ := hunpacks
      cases s with
      | negative => cases hx
      | positive =>
        obtain ⟨hvalue, hfinite⟩ := hbits (by simpa using hsign)
        exact .finite hvalue hfinite

theorem pos_of_le (hx : 0.0 < x) (h : x ≤ y) : 0.0 < y := by
  have hzero : (0.0 : Float).toModel.unpack = .zero .positive := rfl
  have hbits := hasBits_of_pos hx
  rw [le_iff] at h
  rw [lt_iff, hzero]
  generalize x.toModel.unpack = a at h hbits
  generalize y.toModel.unpack = b at h ⊢
  cases b with
  | notANumber => cases hbits <;> cases h
  | zero s => cases hbits <;> cases h
  | infinity s =>
    cases s with
    | negative => cases hbits <;> cases h
    | positive => rfl
  | finite s m e hm =>
    cases s with
    | negative => cases hbits <;> cases h
    | positive => rfl

/-- Doubles above zero are ordered as their bits are. -/
theorem toBits_le_iff (hx : 0.0 < x) (hy : 0.0 < y) :
    x.toBits.toNat ≤ y.toBits.toNat ↔ x ≤ y := by
  have hxbits := hasBits_of_pos hx
  have hybits := hasBits_of_pos hy
  have hxcanonical := isCanonical_unpack x
  have hycanonical := isCanonical_unpack y
  rw [le_iff]
  generalize x.toModel.unpack = a at hxbits hxcanonical ⊢
  generalize y.toModel.unpack = b at hybits hycanonical ⊢
  cases hxbits with
  | infinity hxbits =>
    cases hybits with
    | infinity hybits => exact iff_of_true (by omega) rfl
    | finite _ hylt => exact iff_of_false (by omega) Bool.false_ne_true
  | @finite m e hm hxbits hxlt =>
    cases hybits with
    | infinity hybits => exact iff_of_true (by omega) rfl
    | @finite m' e' hm' hybits hylt =>
      obtain ⟨hmhigh, he, hmlow⟩ := hxcanonical
      obtain ⟨hmhigh', he', hmlow'⟩ := hycanonical
      show _ ↔ ((compare e e').then (compare m m')).isLE = true
      dsimp only [binade] at hxbits hybits
      rcases Int.lt_trichotomy e e' with hlt | rfl | hgt
      · rw [Int.compare_eq_lt.mpr hlt]
        exact iff_of_true (by omega) rfl
      · rw [Int.compare_eq_eq.mpr rfl, Ordering.eq_then, Nat.isLE_compare]
        omega
      · rw [Int.compare_eq_gt.mpr hgt]
        exact iff_of_false (by omega) Bool.false_ne_true

end Binary64

end Easel
