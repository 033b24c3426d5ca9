import Mathlib.Data.List.TakeWhile
import Easel.Number.Literal
import Easel.Proofs.Number.Order
import Easel.Proofs.Number.Rounding
import Easel.Proofs.Text.Ascii

/-! Natural numbers in decimal digits. They are read as the nearest doubles, and what is asked about
a double that is to be a width or a height is answered by the number that it was rounded to. -/

namespace Easel

open Float.Model

namespace Binary64

variable {x : Float} {m n : Nat} {e : Int} {hm : 0 < m}

/-- A double that stands for the whole number `n`. The last number that an index can have is that of
every double from `2 ^ 64` on. -/
structure Counts (x : Float) (n : Nat) : Prop where
  isWhole : isWhole x = true
  nonnegative : ¬x < 0.0
  size_le_iff : 18446744073709551616.0 ≤ x ↔ Word.size ≤ n
  toIndex_eq : n < Word.size → toIndex x = n

theorem isWhole_of_unpack (h : x.toModel.unpack = .finite .positive m e hm) :
    isWhole x = Dyadic.isWhole ⟨false, m, e⟩ := by
  cases hd : Dyadic.ofFloat? x with
  | none =>
    have hnone := Dyadic.unpack_of_none hd
    rw [h] at hnone
    rcases Decidable.em (UnpackedFloat.unpackMantissa (Dyadic.bits x) = 0#52) with hzero | hzero
    · rw [if_pos hzero] at hnone
      cases hnone
    · rw [if_neg hzero] at hnone
      cases hnone
  | some d =>
    have hunpacks := Dyadic.ofFloat?_unpacks hd
    rw [h] at hunpacks
    obtain ⟨rfl, rfl, -⟩ := hunpacks
    rw [isWhole, hd]
    rfl

/-- A finite double reaches `2 ^ 64` if its whole part does. -/
theorem size_le_iff_of_unpack (h : x.toModel.unpack = .finite .positive m e hm) :
    18446744073709551616.0 ≤ x ↔ Word.size ≤ Dyadic.whole ⟨false, m, e⟩ := by
  have hbits : (18446744073709551616.0 : Float).toModel.toBits.toBitVec =
      UnpackedFloat.packComponents Format.binary64 .positive 1087#11 0#52 := by
    decide +kernel
  have hsize : (18446744073709551616.0 : Float).toModel.unpack =
      .finite .positive (2 ^ 52) 12 (by decide) := by
    show UnpackedFloat.unpack Format.binary64 _ = _
    rw [hbits, unpack_packComponents .positive _ (by decide) (by decide)]
    rfl
  have hcanonical := isCanonical_unpack x
  rw [h] at hcanonical
  obtain ⟨hhigh, hleast, hlow⟩ := hcanonical
  rw [le_iff, hsize, h]
  show ((compare (12 : Int) e).then (compare (2 ^ 52) m)).isLE = true ↔ _
  constructor
  · exact whole_mono (by decide) (by decide) hlow
  · intro hle
    have hshort (k : Nat) (hk : k ≤ 11) : m * 2 ^ k < Word.size :=
      calc m * 2 ^ k ≤ m * 2 ^ 11 := Nat.mul_le_mul_left m (Nat.pow_le_pow_right (by decide) hk)
        _ < Word.size := by
          show m * 2048 < 18446744073709551616
          omega
    have he : 12 ≤ e := by
      refine Int.not_lt.mp fun hlt => absurd hle (Nat.not_le_of_lt ?_)
      cases e with
      | ofNat k => exact hshort k (Nat.le_of_lt_succ (Int.ofNat_lt.mp hlt))
      | negSucc k =>
        have hone := hshort 0 (by decide)
        rw [Nat.pow_zero, Nat.mul_one] at hone
        exact Nat.lt_of_le_of_lt (Nat.div_le_self m _) hone
    rcases Int.lt_or_eq_of_le he with hlt | rfl
    · rw [Int.compare_eq_lt.mpr hlt]
      rfl
    · rw [Int.compare_eq_eq.mpr rfl]
      exact Nat.isLE_compare.mpr (hlow.resolve_right (by decide))

theorem counts_of_unpack (h : x.toModel.unpack = .finite .positive m e hm)
    (hwhole : Dyadic.isWhole ⟨false, m, e⟩ = true) :
    Counts x (Dyadic.whole ⟨false, m, e⟩) where
  isWhole := by rw [isWhole_of_unpack h, hwhole]
  nonnegative := by
    have hzero : (0.0 : Float).toModel.unpack = .zero .positive := rfl
    rw [lt_iff, hzero, h]
    exact nofun
  size_le_iff := size_le_iff_of_unpack h
  toIndex_eq hlt := by rw [toIndex_of_unpack h, UInt64.toNat_ofNatClamp_of_lt hlt]

theorem counts_ofNat (h : n < 2 ^ 64) : Counts (Float.ofNat n) (rounded n) := by
  rcases Nat.eq_zero_or_pos n with rfl | hpos
  · exact ⟨by decide +kernel, by decide +kernel, by decide +kernel, fun _ => by decide +kernel⟩
  · obtain ⟨m, e, hm, hunpack, hwhole, hvalue⟩ := unpack_ofNat_nearest hpos h
    rw [← hvalue]
    exact counts_of_unpack hunpack hwhole

end Binary64

namespace Literal

open Text

variable {c : Char} {text digits : List Char} {n : Nat}

/-- Decimal digits that spell a number, perhaps with zeros in front. -/
structure IsDecimal (text : List Char) (n : Nat) : Prop where
  nonempty : text ≠ []
  digits : ∀ c ∈ text, isDigit c = true
  value_eq : value text = n

theorem toLower_of_isDigit (hc : isDigit c = true) : c.toLower = c := by
  rw [isDigit_eq] at hc
  have hhigh := (isDigit_range hc).2
  have hlower : ¬(c.val ≥ 'A'.val ∧ c.val ≤ 'Z'.val) := by
    rintro ⟨hlow, -⟩
    have hlow : 65 ≤ c.toNat := UInt32.le_iff_toNat_le.mp hlow
    omega
  exact dif_neg hlower

theorem ne_of_isDigit {d : Char} (hc : isDigit c = true) (hd : isDigit d = false) : c ≠ d := by
  rintro rfl
  cases hd.symm.trans hc

theorem IsDecimal.ascii (h : IsDecimal text n) : ∀ c ∈ text, c.toNat < 128 ∧ c ≠ '\n' := by
  intro c hc
  have hdigit := h.digits c hc
  refine ⟨?_, ne_of_isDigit hdigit rfl⟩
  rw [isDigit_eq] at hdigit
  exact Nat.lt_of_le_of_lt (isDigit_range hdigit).2 (by decide)

/-- The names of numbers do not begin with a digit. -/
theorem named?_cons (hc : isDigit c = true) : named? (c :: text) = none := by
  have hn : c ≠ 'n' := ne_of_isDigit hc rfl
  have hi : c ≠ 'i' := ne_of_isDigit hc rfl
  simp [named?, toLower_of_isDigit hc, hn, hi]

theorem sign_cons (hc : isDigit c = true) : sign (c :: text) = (false, c :: text) := by
  have hminus : c ≠ '-' := ne_of_isDigit hc rfl
  have hplus : c ≠ '+' := ne_of_isDigit hc rfl
  rw [sign]
  · rintro rest ⟨⟩
    exact hminus rfl
  · rintro rest ⟨⟩
    exact hplus rfl

theorem mantissa_digits (h : ∀ c ∈ digits, isDigit c = true) :
    mantissa digits = (digits, [], []) := by
  have htake : digits.takeWhile isDigit = digits := List.takeWhile_eq_self_iff.mpr h
  have hdrop : digits.dropWhile isDigit = [] := List.dropWhile_eq_nil_iff.mpr h
  rw [mantissa, htake, hdrop]

/-- Digits are read as the double nearest to the number that they spell. -/
theorem IsDecimal.read? (h : IsDecimal text n) : read? text = some (Float.ofNat n) := by
  obtain ⟨hne, hdigits, rfl⟩ := h
  have hnearest : nearest (value text) 0 = Float.ofNat (value text) := by
    unfold nearest
    split
    · next hzero =>
      rw [hzero]
      decide +kernel
    · rfl
  have hmagnitude : magnitude? text = some (Float.ofNat (value text)) := by
    rw [magnitude?, mantissa_digits hdigits]
    simp only [List.isEmpty_iff, hne, false_and, if_false, List.append_nil]
    exact congrArg some hnearest
  cases text with
  | nil => exact absurd rfl hne
  | cons c rest =>
    have hc := hdigits c List.mem_cons_self
    rw [read?, sign_cons hc]
    dsimp only
    rw [named?_cons hc, hmagnitude]
    rfl

end Literal

end Easel
