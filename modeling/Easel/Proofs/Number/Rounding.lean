import Easel.Proofs.Number.Whole

/-! The doubles nearest to whole numbers. Numbers of up to 53 binary digits are doubles, and so are
those that have nothing but zeros behind the first 53; all other numbers are rounded to a multiple
of the power of two that lies between the doubles around them. -/

namespace Easel.Binary64

open Float.Model

/-! ### The nearest double -/

/-- A whole number that is a double: one of at most 53 binary digits, with zeros behind them. -/
def IsDouble (n : Nat) : Prop := ∃ m k : Nat, m < 2 ^ 53 ∧ n = m * 2 ^ k

/-- How far apart the doubles around `n` are. -/
def spacing (n : Nat) : Nat := 2 ^ (n.log2 - 52)

/-- The double nearest to `n`. Of two that are equally near, it is the even multiple of what lies
between them. -/
def rounded (n : Nat) : Nat :=
  let multiple := n / spacing n
  let excess := 2 * (n % spacing n)
  if spacing n < excess ∨ (excess = spacing n ∧ multiple % 2 = 1) then (multiple + 1) * spacing n
  else multiple * spacing n

/-- A double that no other one is nearer to `n` than, and that is an even multiple of what lies
between the doubles if there is another one as near. -/
structure IsNearest (n r : Nat) : Prop where
  isDouble : IsDouble r
  nearest : ∀ d, IsDouble d → ((n : Int) - r).natAbs ≤ ((n : Int) - d).natAbs
  even : ∀ d, IsDouble d → d ≠ r → ((n : Int) - d).natAbs = ((n : Int) - r).natAbs →
    r / spacing n % 2 = 0

section Nearest

variable {n d r : Nat}

theorem spacing_pos (n : Nat) : 0 < spacing n := Nat.two_pow_pos _

theorem spacing_dvd_spacing (h : 2 ^ n.log2 ≤ d) : spacing n ∣ spacing d := by
  have hd : d ≠ 0 := Nat.ne_of_gt (Nat.lt_of_lt_of_le (Nat.two_pow_pos _) h)
  have hlog : n.log2 ≤ d.log2 := (Nat.le_log2 hd).mpr h
  exact Nat.pow_dvd_pow 2 (Nat.sub_le_sub_right hlog 52)

/-- A number has no more than 53 digits in front of those that are rounded away. -/
theorem div_spacing_lt (n : Nat) : n / spacing n < 2 ^ 53 := by
  rw [Nat.div_lt_iff_lt_mul (spacing_pos n), spacing, ← Nat.pow_add]
  exact Nat.lt_of_lt_of_le Nat.lt_log2_self (Nat.pow_le_pow_right (by decide) (by omega))

/-- If some digits are rounded away, then there are 53 in front of them. -/
theorem two_pow_log2_eq (h : 52 ≤ n.log2) : 2 ^ n.log2 = 2 ^ 52 * spacing n := by
  rw [spacing, ← Nat.pow_add, Nat.add_sub_cancel' h]

theorem isDouble_iff_dvd : IsDouble n ↔ spacing n ∣ n := by
  constructor
  · rintro ⟨m, k, hm, rfl⟩
    rcases Nat.eq_zero_or_pos m with rfl | hpos
    · rw [Nat.zero_mul]
      exact Nat.dvd_zero _
    · have hlog := (Nat.log2_lt (Nat.ne_of_gt hpos)).mpr hm
      have hspacing : spacing (m * 2 ^ k) ∣ 2 ^ k := by
        rw [spacing, log2_mul_two_pow (Nat.ne_of_gt hpos)]
        exact Nat.pow_dvd_pow 2 (by omega)
      exact Nat.dvd_trans hspacing (Nat.dvd_mul_left _ _)
  · intro h
    exact ⟨n / spacing n, n.log2 - 52, div_spacing_lt n, (Nat.div_mul_cancel h).symm⟩

/-- Multiples of the spacing are doubles up to the next power of two, and including it. -/
theorem isDouble_mul_spacing {m : Nat} (hm : m ≤ 2 ^ 53) : IsDouble (m * spacing n) := by
  rcases Nat.lt_or_ge m (2 ^ 53) with hlt | hge
  · exact ⟨m, _, hlt, rfl⟩
  · obtain rfl : m = 2 ^ 53 := Nat.le_antisymm hm hge
    exact ⟨1, 53 + (n.log2 - 52), by decide, by rw [Nat.one_mul, Nat.pow_add, spacing]⟩

theorem isDouble_rounded (n : Nat) : IsDouble (rounded n) := by
  have hlt := div_spacing_lt n
  unfold rounded
  dsimp only
  split
  · exact isDouble_mul_spacing hlt
  · exact isDouble_mul_spacing (Nat.le_of_lt hlt)

theorem rounded_eq_self (h : IsDouble n) : rounded n = n := by
  have hdvd := isDouble_iff_dvd.mp h
  have hpos := spacing_pos n
  have hexcess : n % spacing n = 0 := Nat.mod_eq_zero_of_dvd hdvd
  unfold rounded
  dsimp only
  rw [hexcess, if_neg (by omega), Nat.div_mul_cancel hdvd]

theorem rounded_eq_self_iff : rounded n = n ↔ IsDouble n := by
  constructor
  · intro h
    rw [← h]
    exact isDouble_rounded n
  · exact rounded_eq_self

/-- No double lies between a number and the multiples of the spacing around it. -/
theorem le_or_le_of_isDouble (hn : ¬IsDouble n) (hd : IsDouble d) :
    d ≤ n / spacing n * spacing n ∨ (n / spacing n + 1) * spacing n ≤ d := by
  have hpos := spacing_pos n
  have hlog : 52 ≤ n.log2 := by
    rcases Nat.lt_or_ge n.log2 52 with hlt | hge
    · refine absurd ⟨n, 0, ?_, (Nat.mul_one n).symm⟩ hn
      exact Nat.lt_of_lt_of_le Nat.lt_log2_self (Nat.pow_le_pow_right (by decide) (by omega))
    · exact hge
  rcases Nat.lt_or_ge (n / spacing n * spacing n) d with hlt | hle
  · right
    have hne : n ≠ 0 := by
      rintro rfl
      exact hn ⟨0, 0, by decide, rfl⟩
    have hlow : 2 ^ 52 ≤ n / spacing n := by
      rw [Nat.le_div_iff_mul_le hpos, ← two_pow_log2_eq hlog]
      exact Nat.log2_self_le hne
    have hdigits : 2 ^ n.log2 ≤ d := by
      rw [two_pow_log2_eq hlog]
      exact Nat.le_trans (Nat.mul_le_mul_right _ hlow) (Nat.le_of_lt hlt)
    obtain ⟨k, rfl⟩ := Nat.dvd_trans (spacing_dvd_spacing hdigits) (isDouble_iff_dvd.mp hd)
    rw [Nat.mul_comm (spacing n) k] at hlt ⊢
    exact Nat.mul_le_mul_right _ (Nat.lt_of_mul_lt_mul_right hlt)
  · exact .inl hle

/-- The two multiples of the spacing around a number, and which of them is nearer. -/
theorem rounded_cases (n : Nat) : ∃ low, low + n % spacing n = n ∧
    (low = n / spacing n * spacing n) ∧
    ((rounded n = low ∧ 2 * (n % spacing n) ≤ spacing n) ∨
      (rounded n = low + spacing n ∧ spacing n ≤ 2 * (n % spacing n))) := by
  refine ⟨_, Nat.div_add_mod' n (spacing n), rfl, ?_⟩
  unfold rounded
  dsimp only
  split
  · next h =>
    exact .inr ⟨Nat.succ_mul _ _, h.elim Nat.le_of_lt fun h => Nat.le_of_eq h.1.symm⟩
  · next h =>
    exact .inl ⟨rfl, by omega⟩

theorem rounded_even (h : 2 * (n % spacing n) = spacing n) : rounded n / spacing n % 2 = 0 := by
  have hpos := spacing_pos n
  unfold rounded
  dsimp only
  split
  · rw [Nat.mul_div_cancel _ hpos]
    omega
  · rw [Nat.mul_div_cancel _ hpos]
    omega

theorem isNearest_rounded (n : Nat) : IsNearest n (rounded n) := by
  have hlt := Nat.mod_lt n (spacing_pos n)
  obtain ⟨low, hsum, hlow, hcases⟩ := rounded_cases n
  refine ⟨isDouble_rounded n, ?_, ?_⟩
  · intro d hd
    rcases Decidable.em (rounded n = n) with heq | hne
    · omega
    · have hsides := le_or_le_of_isDouble (fun hn => hne (rounded_eq_self hn)) hd
      rw [Nat.succ_mul, ← hlow] at hsides
      omega
  · intro d hd hother hdistance
    rcases Decidable.em (rounded n = n) with heq | hne
    · omega
    · have hsides := le_or_le_of_isDouble (fun hn => hne (rounded_eq_self hn)) hd
      rw [Nat.succ_mul, ← hlow] at hsides
      exact rounded_even (by omega)

/-- Rounding adds at most what is rounded away. -/
theorem rounded_le (n : Nat) : rounded n ≤ 2 * n := by
  obtain ⟨low, hsum, -, hcases⟩ := rounded_cases n
  omega

end Nearest

/-! ### Rounding -/

theorem roundedMantissa_bounds (em : UnpackedFloat.ExtendedMantissa) :
    em.mantissa ≤ em.roundedMantissa ∧ em.roundedMantissa ≤ em.mantissa + 1 := by
  obtain ⟨m, roundBit, stickyBit⟩ := em
  cases roundBit with
  | false => cases stickyBit <;> exact ⟨Nat.le_refl m, Nat.le_succ m⟩
  | true =>
    cases stickyBit with
    | true => exact ⟨Nat.le_succ m, Nat.le_refl _⟩
    | false =>
      show m ≤ m + m % 2 ∧ m + m % 2 ≤ m + 1
      omega

theorem shiftRight_add (em : UnpackedFloat.ExtendedMantissa) (a b : Nat) :
    em >>> (a + b) = (em >>> a) >>> b := by
  induction b with
  | zero => rfl
  | succ b ih => exact congrArg UnpackedFloat.ExtendedMantissa.shiftRightOne ih

/-- What is shifted out: the last digit, and whether there is a one behind it. -/
theorem shiftRight_eq (m k : Nat) :
    (⟨m, false, false⟩ : UnpackedFloat.ExtendedMantissa) >>> (k + 1) =
      ⟨m / 2 ^ (k + 1), m / 2 ^ k % 2 != 0, m % 2 ^ k != 0⟩ := by
  induction k with
  | zero =>
    show (⟨m / 2, m % 2 != 0, false⟩ : UnpackedFloat.ExtendedMantissa) = _
    rw [Nat.pow_zero, Nat.div_one, Nat.mod_one]
    rfl
  | succ k ih =>
    have hstep : (⟨m, false, false⟩ : UnpackedFloat.ExtendedMantissa) >>> (k + 1 + 1) =
        ((⟨m, false, false⟩ : UnpackedFloat.ExtendedMantissa) >>> (k + 1)).shiftRightOne := rfl
    have hbehind : (m / 2 ^ k % 2 != 0 || m % 2 ^ k != 0) = (m % 2 ^ (k + 1) != 0) := by
      rw [Nat.mod_pow_succ, Bool.eq_iff_iff]
      simp only [Bool.or_eq_true, bne_iff_ne, Ne, Nat.add_eq_zero_iff, Nat.mul_eq_zero,
        Nat.ne_of_gt (Nat.two_pow_pos k), false_or]
      omega
    rw [hstep, ih, UnpackedFloat.ExtendedMantissa.shiftRightOne, hbehind, Nat.div_div_eq_div_mul,
      ← Nat.pow_succ]

theorem roundedMantissa_eq (m : Nat) (roundBit stickyBit : Bool) :
    (⟨m, roundBit, stickyBit⟩ : UnpackedFloat.ExtendedMantissa).roundedMantissa =
      if roundBit = true ∧ (stickyBit = true ∨ m % 2 = 1) then m + 1 else m := by
  cases roundBit with
  | false => cases stickyBit <;> rfl
  | true =>
    cases stickyBit with
    | true => rfl
    | false =>
      show m + m % 2 = _
      simp only [true_and, Bool.false_eq_true, false_or]
      split <;> omega

/-- Shifting out the digits behind the first 53 and rounding gives a multiple of the spacing. -/
theorem roundedMantissa_mul {n t : Nat} (ht : 52 + (t + 1) = n.log2) :
    ((⟨n, false, false⟩ : UnpackedFloat.ExtendedMantissa) >>> (t + 1)).roundedMantissa *
      2 ^ (t + 1) = rounded n := by
  have hspacing : spacing n = 2 ^ (t + 1) := by
    rw [spacing, ← ht, Nat.add_sub_cancel_left]
  have hexcess : n % 2 ^ (t + 1) = n % 2 ^ t + 2 ^ t * (n / 2 ^ t % 2) := Nat.mod_pow_succ
  have hlt : n % 2 ^ t < 2 ^ t := Nat.mod_lt _ (Nat.two_pow_pos t)
  have hcondition : ((n / 2 ^ t % 2 != 0) = true ∧
      ((n % 2 ^ t != 0) = true ∨ n / 2 ^ (t + 1) % 2 = 1)) ↔
      (2 ^ (t + 1) < 2 * (n % 2 ^ (t + 1)) ∨
        (2 * (n % 2 ^ (t + 1)) = 2 ^ (t + 1) ∧ n / 2 ^ (t + 1) % 2 = 1)) := by
    rw [hexcess, bne_iff_ne, bne_iff_ne, Nat.pow_succ]
    rcases Nat.mod_two_eq_zero_or_one (n / 2 ^ t) with hbit | hbit
    · rw [hbit, Nat.mul_zero]
      omega
    · rw [hbit, Nat.mul_one]
      omega
  rw [shiftRight_eq, roundedMantissa_eq, rounded, hspacing]
  simp only [hcondition, ite_mul]

theorem ofScientific_eq {n : Nat} (hn : 0 < n) :
    UnpackedFloat.ofScientific Format.binary64 n 0 =
      UnpackedFloat.roundWithAccuracy Format.binary64 .positive (n * 2 ^ 53) (-53) .exact := by
  have hmul (a b : Nat) (ha : 0 < a) (hb : 0 < b) (e : Int) :
      UnpackedFloat.mul Format.binary64 (.finite .positive a e ha) (.finite .positive b 0 hb) =
        UnpackedFloat.roundWithAccuracy Format.binary64 .positive (a * b) (e + 0) .exact := rfl
  have hpow : (10 : Nat) ^ (0 : Int).toNat = 1 := rfl
  have hlarge : (0 : Int) < 2 ^ 11 := by decide
  delta UnpackedFloat.ofScientific
  dsimp only
  rw [dif_neg (Nat.ne_of_gt hn), if_neg (by decide), if_neg (by omega), if_pos (by decide), hmul,
    hpow, Nat.mul_one, Nat.shiftLeft_eq, Int.add_zero]
  rfl

/-- A number of `53 + t` digits loses the last `t` of them. -/
theorem shiftToTargetExponent_drop {n t : Nat} (hn : n ≠ 0) (ht : 52 + t = n.log2) :
    UnpackedFloat.shiftToTargetExponent Format.binary64 (n * 2 ^ 53) (-53) .exact =
      ((⟨n, false, false⟩ : UnpackedFloat.ExtendedMantissa) >>> t, (t : Int)) := by
  have htotal : totalExponent (n * 2 ^ 53) (-53) = 53 + t := by
    rw [totalExponent, log2_mul_two_pow hn]
    omega
  have htarget : Format.binary64.targetExponent (totalExponent (n * 2 ^ 53) (-53)) = t := by
    show Max.max (totalExponent (n * 2 ^ 53) (-53) - 53) (-1074) = (t : Int)
    omega
  have hamount : ((t : Int) - -53).toNat = 53 + t := by omega
  have hexponent : (-53 : Int) + ((53 + t : Nat) : Int) = t := by omega
  show ((⟨n * 2 ^ 53, false, false⟩ : UnpackedFloat.ExtendedMantissa) >>>
    (Format.binary64.targetExponent (totalExponent (n * 2 ^ 53) (-53)) - -53).toNat,
    -53 + ((Format.binary64.targetExponent (totalExponent (n * 2 ^ 53) (-53)) - -53).toNat : Int)) =
    _
  rw [htarget, hamount, hexponent, shiftRight_add, shiftRight_exact]

/-- The double of a number with more than 53 digits is the nearest one. -/
theorem unpack_ofNat_large {n : Nat} (hlow : 2 ^ 53 ≤ n) (hhigh : n < 2 ^ 64) :
    ∃ (m e : Nat) (hm : 0 < m),
      (Float.ofNat n).toModel.unpack = .finite .positive m e hm ∧ m * 2 ^ e = rounded n := by
  have hne : n ≠ 0 := by omega
  have hlog := (Nat.le_log2 hne).mpr hlow
  have hlog' := (Nat.log2_lt hne).mpr hhigh
  obtain ⟨t, ht⟩ : ∃ t, 52 + (t + 1) = n.log2 := ⟨n.log2 - 53, by omega⟩
  let em := (⟨n, false, false⟩ : UnpackedFloat.ExtendedMantissa) >>> (t + 1)
  have hem : em.mantissa = n / spacing n := by
    rw [mantissa_shiftRight, spacing, ← ht, Nat.add_sub_cancel_left]
  have hdigits : 2 ^ 52 ≤ n / spacing n := by
    rw [Nat.le_div_iff_mul_le (spacing_pos n), ← two_pow_log2_eq (by omega)]
    exact Nat.log2_self_le hne
  have hdigits' := div_spacing_lt n
  obtain ⟨hrounded, hrounded'⟩ := roundedMantissa_bounds em
  rw [hem] at hrounded hrounded'
  -- rounding up to a power of two makes the mantissa one digit longer
  obtain ⟨m, k, hmlow, hmhigh, hmk, hk⟩ : ∃ m k : Nat, 2 ^ 52 ≤ m ∧ m < 2 ^ 53 ∧
      em.roundedMantissa = m * 2 ^ k ∧ k ≤ 1 := by
    rcases Nat.lt_or_ge em.roundedMantissa (2 ^ 53) with hlt | hge
    · exact ⟨em.roundedMantissa, 0, by omega, hlt, by rw [Nat.pow_zero, Nat.mul_one], by omega⟩
    · exact ⟨2 ^ 52, 1, Nat.le_refl _, by decide, by omega, Nat.le_refl _⟩
  have hm : 0 < m := by omega
  refine ⟨m, t + 1 + k, hm, ?_, ?_⟩
  · have hofNat : Float.ofNat n = Float.ofModel (Float.Model.ofScientific n 0) := by
      show Float.ofScientific n false 0 = _
      rw [Float.ofScientific, dif_neg (by omega)]
      rfl
    rw [hofNat]
    show (Float.Model.pack (UnpackedFloat.ofScientific Format.binary64 n 0)).unpack = _
    rw [ofScientific_eq (Nat.pos_of_ne_zero hne),
      roundWithAccuracy_eq (shiftToTargetExponent_drop hne ht) hmk hm hmlow hmhigh (by omega)]
    exact unpack_pack_normal .positive hm hmlow hmhigh (by omega) (by omega)
  · calc m * 2 ^ (t + 1 + k) = em.roundedMantissa * 2 ^ (t + 1) := by
          rw [hmk, Nat.add_comm, Nat.pow_add, Nat.mul_assoc]
      _ = rounded n := roundedMantissa_mul ht

theorem isWhole_mul_two_pow (n k : Nat) : Dyadic.isWhole ⟨false, n * 2 ^ k, -k⟩ = true := by
  cases k with
  | zero => rfl
  | succ k => exact decide_eq_true (Nat.mul_mod_left n (2 ^ (k + 1)))

/-- The double of a whole number is the nearest one, and a whole number as well. -/
theorem unpack_ofNat_nearest {n : Nat} (hpos : 0 < n) (h : n < 2 ^ 64) :
    ∃ (m : Nat) (e : Int) (hm : 0 < m),
      (Float.ofNat n).toModel.unpack = .finite .positive m e hm ∧
        Dyadic.isWhole ⟨false, m, e⟩ = true ∧ Dyadic.whole ⟨false, m, e⟩ = rounded n := by
  rcases Nat.lt_or_ge n (2 ^ 53) with hlt | hge
  · have hself : rounded n = n := rounded_eq_self ⟨n, 0, hlt, (Nat.mul_one n).symm⟩
    obtain ⟨k, hm, hunpack⟩ := unpack_ofNat hpos hlt
    exact ⟨n * 2 ^ k, -k, hm, hunpack, isWhole_mul_two_pow n k, by rw [whole_mul_two_pow, hself]⟩
  · obtain ⟨m, e, hm, hunpack, hvalue⟩ := unpack_ofNat_large hge h
    exact ⟨m, e, hm, hunpack, rfl, hvalue⟩

theorem toNat_ofNatClamp_le (n : Nat) : (UInt64.ofNatClamp n).toNat ≤ n := by
  rcases Nat.lt_or_ge n UInt64.size with hlt | hge
  · exact Nat.le_of_eq (UInt64.toNat_ofNatClamp_of_lt hlt)
  · exact Nat.le_trans (Nat.le_of_lt (UInt64.toNat_lt_size _)) hge

theorem toIndex_of_unpack {x : Float} {m : Nat} {e : Int} {hm : 0 < m}
    (h : x.toModel.unpack = .finite .positive m e hm) :
    toIndex x = (UInt64.ofNatClamp (Dyadic.whole ⟨false, m, e⟩)).toNat := by
  rw [toIndex_eq, h]
  show (UInt64.ofNatClamp (UnpackedFloat.roundToInt .positive m e).toNat).toNat = _
  rw [roundToInt_eq]
  rfl

/-- The index of the double of a whole number is at most twice the number. -/
theorem toIndex_ofNat_le {n : Nat} (h : n < 2 ^ 64) :
    ¬(Float.ofNat n).isNaN ∧ toIndex (Float.ofNat n) ≤ 2 * n := by
  rcases Nat.eq_zero_or_pos n with rfl | hpos
  · rw [toIndex_ofNat (by decide)]
    exact ⟨not_isNaN_ofNat (by decide), Nat.zero_le _⟩
  · obtain ⟨m, e, hm, hunpack, -, hvalue⟩ := unpack_ofNat_nearest hpos h
    constructor
    · show ¬(Float.ofNat n).toModel.unpack.isNaN
      rw [hunpack]
      exact Bool.false_ne_true
    · calc toIndex (Float.ofNat n) = (UInt64.ofNatClamp (rounded n)).toNat := by
            rw [toIndex_of_unpack hunpack, hvalue]
        _ ≤ rounded n := toNat_ofNatClamp_le _
        _ ≤ 2 * n := rounded_le n

end Easel.Binary64
