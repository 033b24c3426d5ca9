import Easel.Proofs.Number.Rounding

/-! Doubles that stay finite. Each operation raises the exponents of its results over those of its
operands by a fixed amount, so a computation of a few steps with numbers of moderate size neither
overflows nor leads to what is not a number. -/

namespace Easel.Binary64

open Float.Model

/-- A number of at most 53 digits with an exponent of at most `k`, or zero. -/
def IsRounded (k : Int) : UnpackedFloat → Prop
  | .zero _ => True
  | .finite _ m e _ => m < 2 ^ 53 ∧ -1074 ≤ e ∧ e ≤ k
  | _ => False

/-- A number with an exponent of at least `k`. -/
def IsScaled (k : Int) : UnpackedFloat → Prop
  | .finite _ _ e _ => k ≤ e
  | _ => False

instance (k : Int) (u : UnpackedFloat) : Decidable (IsRounded k u) :=
  match u with
  | .zero _ => isTrue trivial
  | .finite _ m e _ => inferInstanceAs (Decidable (m < 2 ^ 53 ∧ -1074 ≤ e ∧ e ≤ k))
  | .infinity _ | .notANumber => isFalse id

instance (k : Int) (u : UnpackedFloat) : Decidable (IsScaled k u) :=
  match u with
  | .finite _ _ e _ => inferInstanceAs (Decidable (k ≤ e))
  | .zero _ | .infinity _ | .notANumber => isFalse id

/-- A double that is zero or has an exponent of at most `k`. -/
def UpTo (k : Int) (x : Float) : Prop := IsRounded k x.toModel.unpack

/-- A double that is not zero and has an exponent of at least `k`. -/
def DownTo (k : Int) (x : Float) : Prop := IsScaled k x.toModel.unpack

instance (k : Int) (x : Float) : Decidable (UpTo k x) :=
  inferInstanceAs (Decidable (IsRounded k x.toModel.unpack))

instance (k : Int) (x : Float) : Decidable (DownTo k x) :=
  inferInstanceAs (Decidable (IsScaled k x.toModel.unpack))

variable {k a b e : Int} {m : Nat} {u v : UnpackedFloat} {x y : Float}

theorem IsRounded.mono (h : IsRounded a u) (hab : a ≤ b) : IsRounded b u := by
  cases u with
  | zero => trivial
  | finite s m e _ => exact ⟨h.1, h.2.1, Int.le_trans h.2.2 hab⟩
  | infinity | notANumber => exact h

theorem UpTo.mono (h : UpTo a x) (hab : a ≤ b) : UpTo b x := IsRounded.mono h hab

theorem UpTo.not_isNaN (h : UpTo k x) : ¬x.isNaN := by
  show ¬x.toModel.unpack.isNaN = true
  rw [UpTo] at h
  generalize x.toModel.unpack = u at h
  cases u with
  | zero | finite | infinity => exact Bool.false_ne_true
  | notANumber => exact absurd h id

/-! ### Rounding -/

theorem log2_le_of_lt {n j : Nat} (h : n < 2 ^ (j + 1)) : n.log2 ≤ j := by
  rcases Nat.eq_zero_or_pos n with rfl | hn
  · exact Nat.zero_le j
  · exact Nat.le_of_lt_succ ((Nat.log2_lt (Nat.ne_of_gt hn)).mpr h)

theorem mantissa_ofMantissaAndAccuracy (m : Nat) (accuracy : UnpackedFloat.Accuracy) :
    (UnpackedFloat.ExtendedMantissa.ofMantissaAndAccuracy m accuracy).mantissa = m := by
  cases accuracy with
  | exact => rfl
  | inexact order => cases order <;> rfl

/-- What a mantissa and an exponent are after the shift to at most 53 digits. -/
theorem shiftToTargetExponent_bounds (accuracy : UnpackedFloat.Accuracy)
    (htotal : totalExponent m e ≤ k + 53) (he : e ≤ k) (hk : -1074 ≤ k) :
    (UnpackedFloat.shiftToTargetExponent Format.binary64 m e accuracy).1.mantissa < 2 ^ 53 ∧
      -1074 ≤ (UnpackedFloat.shiftToTargetExponent Format.binary64 m e accuracy).2 ∧
      (UnpackedFloat.shiftToTargetExponent Format.binary64 m e accuracy).2 ≤ k := by
  let t := Max.max (totalExponent m e - 53) (-1074)
  let em := UnpackedFloat.ExtendedMantissa.ofMantissaAndAccuracy m accuracy
  show (em >>> (t - e).toNat).mantissa < 2 ^ 53 ∧ -1074 ≤ e + ((t - e).toNat : Int) ∧
    e + ((t - e).toNat : Int) ≤ k
  refine ⟨?_, by omega, by omega⟩
  rw [mantissa_shiftRight, mantissa_ofMantissaAndAccuracy,
    Nat.div_lt_iff_lt_mul (Nat.two_pow_pos _), ← Nat.pow_add]
  have hdigits : totalExponent m e = m.log2 + 1 + e := rfl
  exact Nat.lt_of_lt_of_le Nat.lt_log2_self (Nat.pow_le_pow_right (by decide) (by omega))

theorem isRounded_roundWithAccuracy (s : UnpackedFloat.Sign) (accuracy : UnpackedFloat.Accuracy)
    (htotal : totalExponent m e ≤ k + 52) (he : e < k) (hk : -1074 < k) :
    IsRounded k (UnpackedFloat.roundWithAccuracy Format.binary64 s m e accuracy) := by
  obtain ⟨hmantissa, hleast, hgreatest⟩ :=
    shiftToTargetExponent_bounds (m := m) (e := e) (k := k - 1) accuracy (by omega) (by omega)
      (by omega)
  delta UnpackedFloat.roundWithAccuracy
  generalize UnpackedFloat.shiftToTargetExponent Format.binary64 m e accuracy = shifted at *
  obtain ⟨em, e'⟩ := shifted
  dsimp only at hmantissa hleast hgreatest ⊢
  -- rounding up to a power of two makes the mantissa one digit longer
  have hrounded : em.roundedMantissa.log2 ≤ 53 := by
    have hbounds := (roundedMantissa_bounds em).2
    exact log2_le_of_lt (by omega)
  have htotal' : totalExponent em.roundedMantissa e' ≤ k + 53 := by
    rw [totalExponent]
    omega
  have hfinal := shiftToTargetExponent_bounds .exact htotal' (by omega) (by omega)
  generalize UnpackedFloat.shiftToTargetExponent Format.binary64 em.roundedMantissa e' .exact =
    final at hfinal ⊢
  rcases Decidable.em (final.1.mantissa = 0) with hzero | hzero
  · rw [dif_pos hzero]
    trivial
  · rw [dif_neg hzero]
    exact hfinal

theorem isRounded_round (s : UnpackedFloat.Sign) (hm : m ≠ 0)
    (htotal : totalExponent m e ≤ k + 52) (hk : -1074 < k) :
    IsRounded k (UnpackedFloat.round Format.binary64 s m e) := by
  let t := Max.max (totalExponent m e - 53) (-1074)
  show IsRounded k (UnpackedFloat.roundWithAccuracy Format.binary64 s
    (m <<< (e - t).toNat) (e - (e - t).toNat) .exact)
  refine isRounded_roundWithAccuracy s .exact ?_ (by omega) hk
  rw [totalExponent] at htotal
  rw [totalExponent, Nat.shiftLeft_eq, log2_mul_two_pow hm]
  omega

theorem isRounded_normalize {n : Int} (s : UnpackedFloat.Sign)
    (htotal : totalExponent n.natAbs e ≤ k + 52) (hk : -1074 < k) :
    IsRounded k (UnpackedFloat.normalize Format.binary64 n e s) := by
  delta UnpackedFloat.normalize
  split
  · next hlt =>
    have hneg := Int.compare_eq_lt.mp hlt
    have habs : n.natAbs = (-n).toNat := by omega
    rw [habs] at htotal
    exact isRounded_round _ (by omega) htotal hk
  · trivial
  · next hgt =>
    have hpos := Int.compare_eq_gt.mp hgt
    have habs : n.natAbs = n.toNat := by omega
    rw [habs] at htotal
    exact isRounded_round _ (by omega) htotal hk

/-- Subnormal numbers come back from their bits with the least exponent. -/
theorem isRounded_unpack_subnormal (s : UnpackedFloat.Sign) (fraction : BitVec 52)
    (hk : -1074 ≤ k) : IsRounded k (UnpackedFloat.unpack Format.binary64
      (UnpackedFloat.packComponents Format.binary64 s 0#11 fraction)) := by
  let bits := UnpackedFloat.packComponents Format.binary64 s 0#11 fraction
  let mantissa : BitVec 52 := UnpackedFloat.unpackMantissa bits
  have hdigits : mantissa.toNat < 2 ^ 53 := Nat.lt_trans mantissa.isLt (by decide)
  have hexponent : ((0#11).toNat : Int) - (1023 + 52) + 1 = -1074 := rfl
  delta UnpackedFloat.unpack
  dsimp only
  rw [UnpackedFloat.unpackExponent_packComponents, if_neg (by decide), if_pos rfl]
  rcases Decidable.em (mantissa = 0#52) with hzero | hzero
  · rw [dif_pos hzero]
    trivial
  · rw [dif_neg hzero]
    exact ⟨hdigits, Int.le_of_eq hexponent.symm, Int.le_trans (Int.le_of_eq hexponent) hk⟩

/-- What was rounded comes back from its bits. -/
theorem isRounded_unpack_pack (h : IsRounded k u) (hk : k ≤ 971) :
    IsRounded k (Float.Model.pack u).unpack := by
  cases u with
  | infinity | notANumber => exact absurd h id
  | zero s =>
    have hzero : (Float.Model.pack (.zero s)).unpack = .zero s := by cases s <;> rfl
    rw [hzero]
    trivial
  | finite s m e hm =>
    obtain ⟨hdigits, hleast, hgreatest⟩ := h
    rcases Nat.lt_or_ge m (2 ^ 52) with hlt | hge
    · have hlog : m.log2 < 52 := (Nat.log2_lt (Nat.ne_of_gt hm)).mpr hlt
      have hpack : UnpackedFloat.pack Format.binary64 (.finite s m e hm) =
          UnpackedFloat.packComponents Format.binary64 s 0#11 (BitVec.ofNat 52 m) := by
        delta UnpackedFloat.pack
        dsimp only
        rw [if_neg, if_neg]
        · show ¬m.log2 + 1 = 53
          omega
        · show ¬2 ^ 11 ≤ (e + (1023 : Nat) + (52 : Nat)).toNat + 1
          omega
      show IsRounded k (UnpackedFloat.unpack Format.binary64 (UnpackedFloat.pack Format.binary64 _))
      rw [hpack]
      exact isRounded_unpack_subnormal s _ (by omega)
    · rw [unpack_pack_normal s hm hge hdigits hleast (by omega)]
      exact ⟨hdigits, hleast, hgreatest⟩

/-! ### Operations -/

theorem IsRounded.mul (hu : IsRounded a u) (hv : IsRounded b v) (h : a + b + 54 ≤ k)
    (hk : -1074 < k) : IsRounded k (UnpackedFloat.mul Format.binary64 u v) := by
  cases u with
  | infinity | notANumber => exact absurd hu id
  | zero s =>
    cases v with
    | infinity | notANumber => exact absurd hv id
    | zero | finite => trivial
  | finite s m e hm =>
    cases v with
    | infinity | notANumber => exact absurd hv id
    | zero => trivial
    | finite s' m' e' hm' =>
      obtain ⟨hm, -, he⟩ := hu
      obtain ⟨hm', -, he'⟩ := hv
      have hproduct : m * m' < 2 ^ (105 + 1) := Nat.mul_lt_mul'' (c := 2 ^ 53) hm hm'
      have hlog := log2_le_of_lt hproduct
      have htotal : totalExponent (m * m') (e + e') ≤ k + 52 := by
        rw [totalExponent]
        omega
      exact isRounded_roundWithAccuracy _ .exact htotal (by omega) hk

/-- A sum is written with the smaller one of two exponents and then rounded. -/
theorem isRounded_normalize_sum {m' : Nat} {e' n : Int} (hm : m < 2 ^ 53) (hm' : m' < 2 ^ 53)
    (he : e + 2 ≤ k) (he' : e' + 2 ≤ k) (hk : -1074 < k) (s : UnpackedFloat.Sign)
    (hn : n.natAbs ≤ m <<< (e - Min.min e e').toNat + m' <<< (e' - Min.min e e').toNat) :
    IsRounded k (UnpackedFloat.normalize Format.binary64 n (Min.min e e') s) := by
  let j := (Max.max e e' - Min.min e e').toNat
  have hshift {c i : Nat} (hc : c < 2 ^ 53) (hi : i ≤ j) : c <<< i < 2 ^ (53 + j) := by
    rw [Nat.shiftLeft_eq, Nat.pow_add]
    exact Nat.mul_lt_mul_of_lt_of_le hc (Nat.pow_le_pow_right (by decide) hi) (Nat.two_pow_pos j)
  have hleft := hshift hm (i := (e - Min.min e e').toNat) (by omega)
  have hright := hshift hm' (i := (e' - Min.min e e').toNat) (by omega)
  have hlog : n.natAbs.log2 ≤ 53 + j := by
    apply log2_le_of_lt
    rw [Nat.pow_succ]
    omega
  have htotal : totalExponent n.natAbs (Min.min e e') ≤ k + 52 := by
    rw [totalExponent]
    omega
  exact isRounded_normalize s htotal hk

theorem natAbs_apply (s : UnpackedFloat.Sign) (n : Nat) : (s.apply n).natAbs = n := by
  cases s with
  | positive => exact Int.natAbs_natCast n
  | negative => exact (Int.natAbs_neg _).trans (Int.natAbs_natCast n)

theorem IsRounded.add (hu : IsRounded a u) (hv : IsRounded a v) (h : a + 2 ≤ k) (hk : -1074 < k) :
    IsRounded k (UnpackedFloat.add Format.binary64 u v) := by
  cases u with
  | infinity | notANumber => exact absurd hu id
  | zero s =>
    cases v with
    | infinity | notANumber => exact absurd hv id
    | zero s' => cases s <;> cases s' <;> trivial
    | finite => exact hv.mono (by omega)
  | finite s m e hm =>
    cases v with
    | infinity | notANumber => exact absurd hv id
    | zero => exact hu.mono (by omega)
    | finite s' m' e' hm' =>
      obtain ⟨hm, -, he⟩ := hu
      obtain ⟨hm', -, he'⟩ := hv
      refine isRounded_normalize_sum hm hm' (by omega) (by omega) hk .positive ?_
      refine Nat.le_trans (Int.natAbs_add_le _ _) (Nat.le_of_eq ?_)
      rw [natAbs_apply, natAbs_apply]

theorem IsRounded.neg (hv : IsRounded a v) : IsRounded a v.neg := by
  cases v <;> exact hv

theorem sub_eq_add_neg (u v : UnpackedFloat) : UnpackedFloat.sub Format.binary64 u v =
    UnpackedFloat.add Format.binary64 u v.neg := by
  have happly (s t : UnpackedFloat.Sign) (m n : Nat) :
      s.apply m - t.apply n = s.apply m + (-t).apply n := by
    cases t with
    | positive => rfl
    | negative => exact Int.sub_neg _ _
  cases u with
  | finite s m e hm =>
    cases v with
    | finite s' m' e' hm' =>
      exact congrArg (UnpackedFloat.normalize Format.binary64 · (Min.min e e') .positive)
        (happly ..)
    | _ => rfl
  | _ => cases v <;> rfl

theorem IsRounded.sub (hu : IsRounded a u) (hv : IsRounded a v) (h : a + 2 ≤ k) (hk : -1074 < k) :
    IsRounded k (UnpackedFloat.sub Format.binary64 u v) := by
  rw [sub_eq_add_neg]
  exact hu.add hv.neg h hk

/-- A quotient is not longer than its numerator, which is shifted before it is divided. -/
theorem IsRounded.div (hu : IsRounded a u) (hv : IsScaled b v) (h : a - b < k) (hk : -1074 < k) :
    IsRounded k (UnpackedFloat.div Format.binary64 u v) := by
  cases v with
  | zero | infinity | notANumber => exact absurd hv id
  | finite s' m' e' hm' =>
    have he' : b ≤ e' := hv
    cases u with
    | infinity | notANumber => exact absurd hu id
    | zero => trivial
    | finite s m e hm =>
      obtain ⟨hm, -, he⟩ := hu
      let t := Min.min (e - e') (Max.max (totalExponent m e - totalExponent m' e' - 53) (-1074))
      let j := (e - e' - t).toNat
      have hquotient : m <<< j / m' < 2 ^ (52 + j + 1) :=
        calc m <<< j / m' ≤ m <<< j := Nat.div_le_self _ _
          _ = m * 2 ^ j := Nat.shiftLeft_eq m j
          _ < 2 ^ 53 * 2 ^ j := Nat.mul_lt_mul_of_pos_right hm (Nat.two_pow_pos j)
          _ = 2 ^ (52 + j + 1) := by
            rw [← Nat.pow_add]
            congr 1
            omega
      have hlog := log2_le_of_lt hquotient
      have htotal : totalExponent (m <<< j / m') t ≤ k + 52 := by
        rw [totalExponent]
        omega
      exact isRounded_roundWithAccuracy _ _ htotal (by omega) hk

theorem UpTo.mul (hx : UpTo a x) (hy : UpTo b y) (h : a + b + 54 ≤ k) (hlow : -1074 < k)
    (hhigh : k ≤ 971) : UpTo k (x * y) :=
  isRounded_unpack_pack (IsRounded.mul hx hy h hlow) hhigh

theorem UpTo.add (hx : UpTo a x) (hy : UpTo a y) (h : a + 2 ≤ k) (hlow : -1074 < k)
    (hhigh : k ≤ 971) : UpTo k (x + y) :=
  isRounded_unpack_pack (IsRounded.add hx hy h hlow) hhigh

theorem UpTo.sub (hx : UpTo a x) (hy : UpTo a y) (h : a + 2 ≤ k) (hlow : -1074 < k)
    (hhigh : k ≤ 971) : UpTo k (x - y) :=
  isRounded_unpack_pack (IsRounded.sub hx hy h hlow) hhigh

theorem UpTo.div (hx : UpTo a x) (hy : DownTo b y) (h : a - b < k) (hlow : -1074 < k)
    (hhigh : k ≤ 971) : UpTo k (x / y) :=
  isRounded_unpack_pack (IsRounded.div hx hy h hlow) hhigh

/-! ### Whole numbers -/

theorem upTo_ofNat {n : Nat} (h : n < 2 ^ 64) : UpTo 64 (Float.ofNat n) := by
  rcases Nat.eq_zero_or_pos n with rfl | hpos
  · decide +kernel
  · have hcanonical := isCanonical_unpack (Float.ofNat n)
    rw [UpTo]
    rcases Nat.lt_or_ge n (2 ^ 53) with hlt | hge
    · obtain ⟨j, hm, hunpack⟩ := unpack_ofNat hpos hlt
      rw [hunpack] at hcanonical ⊢
      exact ⟨hcanonical.1, hcanonical.2.1, by omega⟩
    · obtain ⟨m, e, hm, hunpack, hvalue⟩ := unpack_ofNat_large hge h
      rw [hunpack] at hcanonical ⊢
      refine ⟨hcanonical.1, hcanonical.2.1, ?_⟩
      have hpow : 2 ^ e < 2 ^ 65 :=
        calc 2 ^ e ≤ m * 2 ^ e := Nat.le_mul_of_pos_left _ hm
          _ = rounded n := hvalue
          _ ≤ 2 * n := rounded_le n
          _ < 2 ^ 65 := by omega
      have he := (Nat.pow_lt_pow_iff_right (by decide)).mp hpow
      omega

theorem downTo_ofNat {n : Nat} (hpos : 0 < n) (h : n < 2 ^ 64) : DownTo (-52) (Float.ofNat n) := by
  rw [DownTo]
  rcases Nat.lt_or_ge n (2 ^ 53) with hlt | hge
  · have hcanonical := isCanonical_unpack (Float.ofNat n)
    obtain ⟨j, hm, hunpack⟩ := unpack_ofNat hpos hlt
    rw [hunpack] at hcanonical ⊢
    have hpow : 2 ^ j < 2 ^ 53 :=
      Nat.lt_of_le_of_lt (Nat.le_mul_of_pos_left _ hpos) hcanonical.1
    have hj := (Nat.pow_lt_pow_iff_right (by decide)).mp hpow
    show (-52 : Int) ≤ -(j : Int)
    omega
  · obtain ⟨m, e, hm, hunpack, -⟩ := unpack_ofNat_large hge h
    rw [hunpack]
    show (-52 : Int) ≤ (e : Int)
    omega

end Easel.Binary64
