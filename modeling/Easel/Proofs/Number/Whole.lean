import Mathlib.Algebra.Group.Nat.Defs
import Easel.Proofs.Number.Comparison

/-! The indices that doubles are cut down to. They follow the order of the doubles, and the whole
numbers below `2 ^ 53` are doubles whose indices are the numbers themselves. -/

namespace Easel.Binary64

open Float.Model

/-! ### Indices in order -/

/-- A finite double has a mantissa of at most 53 digits, and of all 53 unless its exponent is the
least one. -/
def IsCanonical : UnpackedFloat → Prop
  | .finite _ m e _ => m < 2 ^ 53 ∧ -1074 ≤ e ∧ (2 ^ 52 ≤ m ∨ e = -1074)
  | _ => True

theorem toNat_implicit_append (v : BitVec 52) : (1#1 ++ v).toNat = 2 ^ 52 + v.toNat := by
  rw [BitVec.toNat_append, ← Nat.shiftLeft_add_eq_or_of_lt v.isLt]
  rfl

theorem isCanonical_unpack (x : Float) : IsCanonical x.toModel.unpack := by
  let bits : BitVec Format.binary64.numBits := x.toModel.toBits.toBitVec
  let exponent : BitVec 11 := UnpackedFloat.unpackExponent bits
  let mantissa : BitVec 52 := UnpackedFloat.unpackMantissa bits
  have hmantissa : mantissa.toNat < 2 ^ 52 := mantissa.isLt
  show IsCanonical (UnpackedFloat.unpack Format.binary64 bits)
  delta UnpackedFloat.unpack
  dsimp only
  rcases Decidable.em (exponent = -1#11) with hones | hones
  · rw [if_pos hones]
    rcases Decidable.em (mantissa = 0#52) with hm | hm
    · rw [if_pos hm]
      trivial
    · rw [if_neg hm]
      trivial
  · rw [if_neg hones]
    rcases Decidable.em (exponent = 0#11) with hzeros | hzeros
    · rw [if_pos hzeros]
      rcases Decidable.em (mantissa = 0#52) with hm | hm
      · rw [dif_pos hm]
        trivial
      · -- a subnormal number
        rw [dif_neg hm]
        have hexponent : (exponent.toNat : Int) - (1023 + 52) + 1 = -1074 := by
          rw [hzeros]
          rfl
        exact ⟨by omega, Int.le_of_eq hexponent.symm, .inr hexponent⟩
    · rw [if_neg hzeros]
      have hpos : 0 < exponent.toNat :=
        Nat.pos_of_ne_zero fun h => hzeros (BitVec.eq_of_toNat_eq h)
      have hdigits : (1#1 ++ mantissa).toNat = 2 ^ 52 + mantissa.toNat :=
        toNat_implicit_append mantissa
      have hleast : (-1074 : Int) ≤ exponent.toNat - (1023 + 52) := by omega
      exact ⟨by rw [hdigits]; omega, hleast, .inl (by rw [hdigits]; omega)⟩

theorem mantissa_shiftRight (em : UnpackedFloat.ExtendedMantissa) (k : Nat) :
    (em >>> k).mantissa = em.mantissa / 2 ^ k := by
  induction k with
  | zero => exact (Nat.div_one _).symm
  | succ k ih =>
    have hstep : (em >>> (k + 1)).mantissa = (em >>> k).mantissa / 2 := rfl
    rw [hstep, ih, Nat.div_div_eq_div_mul, Nat.pow_succ]

/-- Finite doubles are cut down to their whole parts. -/
theorem roundToInt_eq (s : UnpackedFloat.Sign) (m : Nat) (e : Int) :
    UnpackedFloat.roundToInt s m e = s.apply (Dyadic.whole ⟨false, m, e⟩) := by
  let k := (e - 0).toNat
  let em : UnpackedFloat.ExtendedMantissa := ⟨m <<< k, false, false⟩
  have hmantissa : em.mantissa = m * 2 ^ k := Nat.shiftLeft_eq m k
  show s.apply (em >>> (0 - (e - k)).toNat).mantissa = _
  rw [mantissa_shiftRight, hmantissa]
  cases e with
  | ofNat e =>
    have hk : k = e := rfl
    have hshift : (0 - (Int.ofNat e - k)).toNat = 0 := by rw [hk, Int.ofNat_eq_natCast]; omega
    rw [hshift, hk, Nat.pow_zero, Nat.div_one]
    rfl
  | negSucc e =>
    have hk : k = 0 := rfl
    have hshift : (0 - (Int.negSucc e - k)).toNat = e + 1 := by rw [hk]; omega
    rw [hshift, hk, Nat.pow_zero, Nat.mul_one]
    rfl

/-- The double with the greater exponent has the greater whole part, if it has all 53 digits. -/
theorem whole_le_whole {m m' : Nat} {e e' : Int} (hm : m < 2 ^ 53) (hm' : 2 ^ 52 ≤ m')
    (he : e < e') : Dyadic.whole ⟨false, m, e⟩ ≤ Dyadic.whole ⟨false, m', e'⟩ := by
  have hhalf (k : Nat) : m / 2 ^ (k + 1) ≤ m' :=
    calc m / 2 ^ (k + 1) ≤ m / 2 ^ 1 :=
          Nat.div_le_div_left (Nat.pow_le_pow_right (by decide) (by omega)) (by decide)
      _ ≤ m' := by omega
  cases e with
  | ofNat a =>
    cases e' with
    | negSucc b =>
      have hneg : Int.ofNat a < 0 := Int.lt_trans he (Int.negSucc_lt_zero b)
      exact absurd hneg (Int.not_lt.mpr (Int.natCast_nonneg a))
    | ofNat b =>
      calc m * 2 ^ a ≤ m' * 2 * 2 ^ a := Nat.mul_le_mul_right _ (by omega)
        _ = m' * 2 ^ (a + 1) := by rw [Nat.mul_assoc, Nat.pow_succ']
        _ ≤ m' * 2 ^ b :=
          Nat.mul_le_mul_left _ (Nat.pow_le_pow_right (by decide) (Int.ofNat_lt.mp he))
  | negSucc a =>
    cases e' with
    | ofNat b => exact Nat.le_trans (hhalf a) (Nat.le_mul_of_pos_right m' (Nat.two_pow_pos b))
    | negSucc b =>
      obtain ⟨k, rfl⟩ : ∃ k, a = b + 1 + k := Nat.exists_eq_add_of_le (by omega)
      calc m / 2 ^ (b + 1 + k + 1) = m / 2 ^ (k + 1) / 2 ^ (b + 1) := by
            rw [Nat.div_div_eq_div_mul, ← Nat.pow_add]
            congr 2
            omega
        _ ≤ m' / 2 ^ (b + 1) := Nat.div_le_div_right (hhalf k)

/-- Whole parts are ordered as their doubles are: by the exponent first and then by the mantissa. -/
theorem whole_mono {m m' : Nat} {e e' : Int} (hm : m < 2 ^ 53) (he : -1074 ≤ e)
    (hm' : 2 ^ 52 ≤ m' ∨ e' = -1074) (h : ((compare e e').then (compare m m')).isLE) :
    Dyadic.whole ⟨false, m, e⟩ ≤ Dyadic.whole ⟨false, m', e'⟩ := by
  rcases Int.lt_trichotomy e e' with hlt | rfl | hgt
  · exact whole_le_whole hm (hm'.resolve_right (by omega)) hlt
  · rw [Int.compare_eq_eq.mpr rfl] at h
    have hle : m ≤ m' := Nat.isLE_compare.mp h
    cases e with
    | ofNat e => exact Nat.mul_le_mul_right _ hle
    | negSucc e => exact Nat.div_le_div_right hle
  · rw [Int.compare_eq_gt.mpr hgt] at h
    cases h

theorem toNat_ofNatClamp_mono {n n' : Nat} (h : n ≤ n') :
    (UInt64.ofNatClamp n).toNat ≤ (UInt64.ofNatClamp n').toNat := by
  rcases Nat.lt_or_ge n' UInt64.size with hlt | hge
  · rw [UInt64.toNat_ofNatClamp_of_lt hlt,
      UInt64.toNat_ofNatClamp_of_lt (Nat.lt_of_le_of_lt h hlt)]
    exact h
  · rw [UInt64.toNat_ofNatClamp_of_le hge]
    exact Nat.le_sub_one_of_lt (UInt64.toNat_lt_size _)

theorem toIndex_eq (x : Float) : toIndex x =
    (UInt64.ofNatClamp (x.toModel.unpack.toInt 0 (UInt64.size - 1)).toNat).toNat :=
  rfl

/-- The greater double has the greater index. -/
theorem toIndex_mono {x y : Float} (h : x ≤ y) : toIndex x ≤ toIndex y := by
  rw [le_iff] at h
  have hx := isCanonical_unpack x
  have hy := isCanonical_unpack y
  rw [toIndex_eq, toIndex_eq]
  generalize x.toModel.unpack = a at h hx ⊢
  generalize y.toModel.unpack = b at h hy ⊢
  cases a with
  | notANumber => cases h
  | zero _ => exact Nat.zero_le _
  | infinity s =>
    cases s with
    | negative => exact Nat.zero_le _
    | positive =>
      cases b with
      | notANumber | zero _ | finite _ _ _ _ => cases h
      | infinity t =>
        cases t with
        | negative => cases h
        | positive => exact Nat.le_refl _
  | finite s m e _ =>
    cases s with
    | negative =>
      show (UInt64.ofNatClamp (UnpackedFloat.roundToInt .negative m e).toNat).toNat ≤ _
      rw [roundToInt_eq]
      show (UInt64.ofNatClamp (-(Dyadic.whole ⟨false, m, e⟩ : Int)).toNat).toNat ≤ _
      rw [Int.toNat_neg_natCast]
      exact Nat.zero_le _
    | positive =>
      cases b with
      | notANumber | zero _ => cases h
      | infinity t =>
        cases t with
        | negative => cases h
        | positive => exact Nat.le_sub_one_of_lt (UInt64.toNat_lt_size _)
      | finite t m' e' _ =>
        cases t with
        | negative => cases h
        | positive =>
          have hwhole := whole_mono hx.1 hx.2.1 hy.2.2 h
          show (UInt64.ofNatClamp (UnpackedFloat.roundToInt .positive m e).toNat).toNat ≤
            (UInt64.ofNatClamp (UnpackedFloat.roundToInt .positive m' e').toNat).toNat
          rw [roundToInt_eq, roundToInt_eq]
          exact toNat_ofNatClamp_mono hwhole

/-! ### Whole numbers without rounding -/

theorem shiftRight_exact (m k : Nat) :
    (⟨m * 2 ^ k, false, false⟩ : UnpackedFloat.ExtendedMantissa) >>> k = ⟨m, false, false⟩ := by
  induction k generalizing m with
  | zero =>
    rw [Nat.pow_zero, Nat.mul_one]
    rfl
  | succ k ih =>
    have hhalf : UnpackedFloat.ExtendedMantissa.shiftRightOne ⟨m * 2, false, false⟩ =
        ⟨m, false, false⟩ := by
      show (⟨m * 2 / 2, m * 2 % 2 != 0, false⟩ : UnpackedFloat.ExtendedMantissa) = _
      rw [Nat.mul_div_cancel m Nat.two_pos, Nat.mul_mod_left]
      rfl
    have hstep (em : UnpackedFloat.ExtendedMantissa) : em >>> (k + 1) = (em >>> k).shiftRightOne :=
      rfl
    rw [hstep, Nat.pow_succ', ← Nat.mul_assoc, ih, hhalf]

theorem log2_eq_52 {m : Nat} (hlow : 2 ^ 52 ≤ m) (hhigh : m < 2 ^ 53) : m.log2 = 52 := by
  have hm : m ≠ 0 := by omega
  have h52 := (Nat.le_log2 hm).mpr hlow
  have h53 := (Nat.log2_lt hm).mpr hhigh
  omega

theorem log2_mul_two_pow {m : Nat} (hm : m ≠ 0) (k : Nat) : (m * 2 ^ k).log2 = m.log2 + k := by
  induction k with
  | zero => rw [Nat.pow_zero, Nat.mul_one, Nat.add_zero]
  | succ k ih =>
    rw [Nat.pow_succ', Nat.mul_left_comm,
      Nat.log2_two_mul (Nat.mul_ne_zero hm (Nat.ne_of_gt (Nat.two_pow_pos k))), ih, Nat.add_assoc]

theorem shiftToTargetExponent_exact {m : Nat} (k : Nat) {e : Int} (hlow : 2 ^ 52 ≤ m)
    (hhigh : m < 2 ^ 53) (he : -1074 ≤ e + k) :
    UnpackedFloat.shiftToTargetExponent Format.binary64 (m * 2 ^ k) e .exact =
      (⟨m, false, false⟩, e + k) := by
  have htotal : totalExponent (m * 2 ^ k) e = 52 + k + 1 + e := by
    rw [totalExponent, log2_mul_two_pow (by omega), log2_eq_52 hlow hhigh]
    rfl
  have htarget : Format.binary64.targetExponent (totalExponent (m * 2 ^ k) e) = e + k := by
    show Max.max (totalExponent (m * 2 ^ k) e - 53) (-1074) = e + k
    rw [htotal]
    omega
  have hshift : (e + k - e).toNat = k := by omega
  show (((⟨m * 2 ^ k, false, false⟩ : UnpackedFloat.ExtendedMantissa) >>>
    (Format.binary64.targetExponent (totalExponent (m * 2 ^ k) e) - e).toNat),
    e + ((Format.binary64.targetExponent (totalExponent (m * 2 ^ k) e) - e).toNat : Int)) = _
  rw [htarget, hshift, shiftRight_exact]

/-- A mantissa is shifted and rounded, and then shifted once more, if that made it too long. -/
theorem roundWithAccuracy_eq {s : UnpackedFloat.Sign} {m n k : Nat} {e e' : Int}
    {em : UnpackedFloat.ExtendedMantissa}
    (hshift : UnpackedFloat.shiftToTargetExponent Format.binary64 n e .exact = (em, e'))
    (hround : em.roundedMantissa = m * 2 ^ k) (hm : 0 < m) (hlow : 2 ^ 52 ≤ m) (hhigh : m < 2 ^ 53)
    (he : -1074 ≤ e' + k) :
    UnpackedFloat.roundWithAccuracy Format.binary64 s n e .exact = .finite s m (e' + k) hm := by
  have hsecond := shiftToTargetExponent_exact k hlow hhigh he
  rw [← hround] at hsecond
  delta UnpackedFloat.roundWithAccuracy
  dsimp only
  rw [hshift]
  show (if h : (UnpackedFloat.shiftToTargetExponent Format.binary64 em.roundedMantissa e'
      .exact).1.mantissa = 0
    then UnpackedFloat.zero s
    else .finite s (UnpackedFloat.shiftToTargetExponent Format.binary64 em.roundedMantissa e'
      .exact).1.mantissa
      (UnpackedFloat.shiftToTargetExponent Format.binary64 em.roundedMantissa e' .exact).2 _) = _
  rw [dif_neg (by rw [hsecond]; exact Nat.ne_of_gt hm)]
  congr 1 <;> rw [hsecond]

/-- A number of 53 digits with zeros behind them is not rounded. -/
theorem roundWithAccuracy_exact (s : UnpackedFloat.Sign) {m : Nat} (k : Nat) {e : Int}
    (hm : 0 < m) (hlow : 2 ^ 52 ≤ m) (hhigh : m < 2 ^ 53) (he : -1074 ≤ e + k) :
    UnpackedFloat.roundWithAccuracy Format.binary64 s (m * 2 ^ k) e .exact =
      .finite s m (e + k) hm := by
  have hshift := shiftToTargetExponent_exact k hlow hhigh he
  have hround : (⟨m, false, false⟩ : UnpackedFloat.ExtendedMantissa).roundedMantissa = m * 2 ^ 0 :=
    (Nat.mul_one m).symm
  rw [roundWithAccuracy_eq hshift hround hm hlow hhigh (by omega)]
  congr 1
  exact Int.add_zero _

theorem unpackSign_packComponents (s : UnpackedFloat.Sign) (e : BitVec 11) (m : BitVec 52) :
    UnpackedFloat.Sign.ofBitVec (UnpackedFloat.unpackSign
      (UnpackedFloat.packComponents Format.binary64 s e m)) = s := by
  have hsign : UnpackedFloat.unpackSign (UnpackedFloat.packComponents Format.binary64 s e m) =
      s.toBitVec := by
    apply BitVec.eq_of_getLsbD_eq
    intro i hi
    obtain rfl : i = 0 := by omega
    show (BitVec.cast _ (BitVec.extractLsb 63 63 (s.toBitVec ++ e ++ m))).getLsbD 0 = _
    rw [BitVec.getLsbD_cast, BitVec.getLsbD_extractLsb, BitVec.getLsbD_append,
      BitVec.getLsbD_append]
    rfl
  rw [hsign]
  cases s <;> rfl

theorem finite_congr {s s' : UnpackedFloat.Sign} {m m' : Nat} {e e' : Int} (hs : s = s')
    (hm : m = m') (he : e = e') (h : 0 < m) (h' : 0 < m') :
    UnpackedFloat.finite s m e h = .finite s' m' e' h' := by
  subst hs hm he
  rfl

theorem unpack_packComponents (s : UnpackedFloat.Sign) {scale : BitVec 11} (fraction : BitVec 52)
    (hones : scale ≠ -1#11) (hzeros : scale ≠ 0#11) :
    UnpackedFloat.unpack Format.binary64
      (UnpackedFloat.packComponents Format.binary64 s scale fraction) =
      .finite s (1#1 ++ fraction).toNat (scale.toNat - (1023 + 52))
        (by rw [toNat_implicit_append]; omega) := by
  delta UnpackedFloat.unpack
  dsimp only
  rw [UnpackedFloat.unpackExponent_packComponents, if_neg hones, if_neg hzeros]
  refine finite_congr (unpackSign_packComponents s scale fraction) ?_ rfl _ _
  rw [UnpackedFloat.unpackMantissa_packComponents]

/-- A double with all 53 digits comes back from its bits. -/
theorem unpack_pack_normal (s : UnpackedFloat.Sign) {m : Nat} {e : Int} (hm : 0 < m)
    (hlow : 2 ^ 52 ≤ m) (hhigh : m < 2 ^ 53) (he : -1074 ≤ e) (he' : e ≤ 971) :
    (Float.Model.pack (.finite s m e hm)).unpack = .finite s m e hm := by
  have hscale : (e + (1023 : Nat) + (52 : Nat)).toNat < 2047 := by omega
  have hpack : UnpackedFloat.pack Format.binary64 (.finite s m e hm) =
      UnpackedFloat.packComponents Format.binary64 s
        (BitVec.ofNat 11 (e + (1023 : Nat) + (52 : Nat)).toNat) (BitVec.ofNat 52 m) := by
    delta UnpackedFloat.pack
    dsimp only
    rw [if_neg, if_pos]
    · rfl
    · rw [log2_eq_52 hlow hhigh]
      rfl
    · show ¬2 ^ 11 ≤ (e + (1023 : Nat) + (52 : Nat)).toNat + 1
      omega
  have hscaleBits : (BitVec.ofNat 11 (e + (1023 : Nat) + (52 : Nat)).toNat).toNat =
      (e + (1023 : Nat) + (52 : Nat)).toNat := by
    rw [BitVec.toNat_ofNat, Nat.mod_eq_of_lt (by omega)]
  have hones : BitVec.ofNat 11 (e + (1023 : Nat) + (52 : Nat)).toNat ≠ -1#11 := by
    intro h
    have h := hscaleBits.symm.trans (congrArg BitVec.toNat h)
    have hval : (-1#11).toNat = 2047 := rfl
    omega
  have hzeros : BitVec.ofNat 11 (e + (1023 : Nat) + (52 : Nat)).toNat ≠ 0#11 := by
    intro h
    have h := hscaleBits.symm.trans (congrArg BitVec.toNat h)
    have hval : (0#11).toNat = 0 := rfl
    omega
  have hdigits : (1#1 ++ BitVec.ofNat 52 m).toNat = m := by
    rw [toNat_implicit_append, BitVec.toNat_ofNat]
    omega
  show UnpackedFloat.unpack Format.binary64 (UnpackedFloat.pack Format.binary64 _) = _
  rw [hpack, unpack_packComponents s _ hones hzeros]
  refine finite_congr rfl hdigits ?_ _ _
  rw [hscaleBits]
  omega

/-- A positive whole number of at most 53 digits, written with all 53, is a double. -/
theorem unpack_toFloat {n : Nat} (hn : 0 < n) (hlt : n < 2 ^ 53) :
    ∃ k : Nat, k ≤ 52 ∧ ∃ hm, 2 ^ 52 ≤ n * 2 ^ k ∧ n * 2 ^ k < 2 ^ 53 ∧
      n.toUInt64.toFloat.toModel.unpack = .finite .positive (n * 2 ^ k) (-k) hm := by
  have hne : n ≠ 0 := Nat.ne_of_gt hn
  have hlog : n.log2 < 53 := (Nat.log2_lt hne).mpr hlt
  obtain ⟨k, hk⟩ : ∃ k, n.log2 + k = 52 := Nat.le.dest (Nat.le_of_lt_succ hlog)
  have hm : n * 2 ^ k ≠ 0 := Nat.mul_ne_zero hne (Nat.ne_of_gt (Nat.two_pow_pos k))
  have hlogm : (n * 2 ^ k).log2 = 52 := by rw [log2_mul_two_pow hne, hk]
  have hlow : 2 ^ 52 ≤ n * 2 ^ k := (Nat.le_log2 hm).mp (Nat.le_of_eq hlogm.symm)
  have hhigh : n * 2 ^ k < 2 ^ 53 := (Nat.log2_lt hm).mp (by omega)
  have htarget : Format.binary64.targetExponent (totalExponent n 0) = -k := by
    show Max.max ((n.log2 : Int) + 1 + 0 - 53) (-1074) = -k
    omega
  have hround : UnpackedFloat.round Format.binary64 .positive n 0 =
      .finite .positive (n * 2 ^ k) (-k) (Nat.pos_of_ne_zero hm) := by
    have hexact := roundWithAccuracy_exact .positive 0 (e := -k) (Nat.pos_of_ne_zero hm) hlow hhigh
      (by omega)
    have hshift : (0 - -(k : Int)).toNat = k := by omega
    show UnpackedFloat.roundWithAccuracy Format.binary64 .positive
      (n <<< (0 - Format.binary64.targetExponent (totalExponent n 0)).toNat)
      (0 - ((0 - Format.binary64.targetExponent (totalExponent n 0)).toNat : Int)) .exact = _
    rw [htarget, hshift, Nat.shiftLeft_eq, Int.zero_sub]
    rw [Nat.pow_zero, Nat.mul_one] at hexact
    rw [hexact]
    exact finite_congr rfl rfl (Int.add_zero _) _ _
  have htoNat : n.toUInt64.toNat = n := Nat.mod_eq_of_lt (by omega)
  have hnormalize : UnpackedFloat.ofUInt64 Format.binary64 n.toUInt64 =
      UnpackedFloat.round Format.binary64 .positive n 0 := by
    show UnpackedFloat.normalize Format.binary64 (n.toUInt64.toNat : Int) 0 .positive = _
    rw [htoNat]
    delta UnpackedFloat.normalize
    rw [Int.compare_eq_gt.mpr (Int.natCast_pos.mpr hn)]
    rfl
  refine ⟨k, by omega, Nat.pos_of_ne_zero hm, hlow, hhigh, ?_⟩
  show (Float.Model.pack (UnpackedFloat.ofUInt64 Format.binary64 n.toUInt64)).unpack = _
  rw [hnormalize, hround]
  exact unpack_pack_normal .positive _ hlow hhigh (by omega) (by omega)

/-- The positive whole numbers below `2 ^ 53` are doubles. -/
theorem unpack_ofNat {n : Nat} (hn : 0 < n) (h : n < 2 ^ 53) :
    ∃ (k : Nat) (hm : 0 < n * 2 ^ k),
      (Float.ofNat n).toModel.unpack = .finite .positive (n * 2 ^ k) (-k) hm := by
  obtain ⟨k, hk, hm, hlow, hhigh, hunpack⟩ := unpack_toFloat hn h
  refine ⟨k, hm, ?_⟩
  -- a number this small is turned into a double and then multiplied by one
  let one : Float := Float.ofBits 0x3FF0000000000000
  have honeBits : one.toModel.toBits.toBitVec =
      UnpackedFloat.packComponents Format.binary64 .positive 1023#11 0#52 := by
    decide +kernel
  have hone : one.toModel.unpack = .finite .positive (2 ^ 52) (-52) (by decide) := by
    show UnpackedFloat.unpack Format.binary64 one.toModel.toBits.toBitVec = _
    rw [honeBits, unpack_packComponents .positive _ (by decide) (by decide)]
    rfl
  have hofNat : Float.ofNat n = n.toUInt64.toFloat * one := by
    show Float.ofScientific n false 0 = _
    rw [Float.ofScientific, dif_pos ⟨h, by decide⟩]
    rfl
  have hmul : UnpackedFloat.mul Format.binary64 (.finite .positive (n * 2 ^ k) (-k) hm)
      (.finite .positive (2 ^ 52) (-52) (by decide)) = .finite .positive (n * 2 ^ k) (-k) hm := by
    show UnpackedFloat.roundWithAccuracy Format.binary64 .positive (n * 2 ^ k * 2 ^ 52) (-k + -52)
      .exact = _
    rw [roundWithAccuracy_exact .positive 52 hm hlow hhigh (by omega)]
    exact finite_congr rfl rfl (by omega) _ _
  rw [hofNat]
  show (Float.Model.pack (UnpackedFloat.mul Format.binary64 n.toUInt64.toFloat.toModel.unpack
    one.toModel.unpack)).unpack = _
  rw [hunpack, hone, hmul]
  exact unpack_pack_normal .positive hm hlow hhigh (by omega) (by omega)

theorem not_isNaN_ofNat {n : Nat} (h : n < 2 ^ 53) : ¬(Float.ofNat n).isNaN := by
  rcases Nat.eq_zero_or_pos n with rfl | hn
  · decide +kernel
  · obtain ⟨k, hm, hunpack⟩ := unpack_ofNat hn h
    show ¬(Float.ofNat n).toModel.unpack.isNaN
    rw [hunpack]
    exact Bool.false_ne_true

theorem whole_mul_two_pow (n k : Nat) : Dyadic.whole ⟨false, n * 2 ^ k, -k⟩ = n := by
  cases k with
  | zero =>
    rw [Nat.pow_zero, Nat.mul_one]
    exact Nat.mul_one n
  | succ k => exact Nat.mul_div_cancel n (Nat.two_pow_pos (k + 1))

/-- The index of a whole number below `2 ^ 53` is the number itself. -/
theorem toIndex_ofNat {n : Nat} (h : n < 2 ^ 53) : toIndex (Float.ofNat n) = n := by
  rcases Nat.eq_zero_or_pos n with rfl | hn
  · decide +kernel
  · obtain ⟨k, hm, hunpack⟩ := unpack_ofNat hn h
    rw [toIndex_eq, hunpack]
    show (UInt64.ofNatClamp (UnpackedFloat.roundToInt .positive (n * 2 ^ k) (-k)).toNat).toNat = n
    rw [roundToInt_eq, whole_mul_two_pow]
    exact UInt64.toNat_ofNatClamp_of_lt (Nat.lt_trans h (by decide))

end Easel.Binary64
