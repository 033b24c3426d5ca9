import Easel.Number.Binary64

/-! How doubles compare. Each pair of them is ordered, unless one of the two is NaN: then neither
`<` nor `≤` holds, in either direction. Numbers are in one order from the least to the greatest. -/

namespace Easel.Binary64

open Float.Model

theorem compare_swap (a b : UnpackedFloat) : (a.compare b).map Ordering.swap = b.compare a := by
  have hsign (s t : UnpackedFloat.Sign) : (compare s t).swap = compare t s := by
    cases s <;> cases t <;> rfl
  have hmagnitude (e₁ e₂ : Int) (m₁ m₂ : Nat) :
      ((compare e₁ e₂).then (compare m₁ m₂)).swap = (compare e₂ e₁).then (compare m₂ m₁) := by
    rw [Ordering.swap_then, Int.compare_swap, Nat.compare_swap]
  cases a with
  | notANumber => cases b <;> rfl
  | infinity s =>
    cases b with
    | infinity t => exact congrArg some (hsign s t)
    | notANumber | zero _ | finite _ _ _ _ => cases s <;> rfl
  | zero s =>
    cases b with
    | notANumber | zero _ => rfl
    | infinity t | finite t _ _ _ => cases t <;> rfl
  | finite s m₁ e₁ _ =>
    cases b with
    | notANumber => rfl
    | infinity t => cases t <;> rfl
    | zero _ => cases s <;> rfl
    | finite t m₂ e₂ _ =>
      cases s with
      | positive =>
        cases t with
        | positive => exact congrArg some (hmagnitude e₁ e₂ m₁ m₂)
        | negative => rfl
      | negative =>
        cases t with
        | positive => rfl
        | negative => exact congrArg (fun o => some o.swap) (hmagnitude e₁ e₂ m₁ m₂)

theorem compare_eq_none_iff {a b : UnpackedFloat} :
    a.compare b = none ↔ a.isNaN = true ∨ b.isNaN = true := by
  cases a with
  | notANumber => exact ⟨fun _ => .inl rfl, fun _ => rfl⟩
  | infinity s | zero s | finite s _ _ _ =>
    cases b with
    | notANumber => exact ⟨fun _ => .inr rfl, fun _ => by cases s <;> rfl⟩
    | infinity t | zero t | finite t _ _ _ =>
      constructor
      · intro hnone
        cases s <;> cases t <;> cases hnone
      · rintro (hnan | hnan) <;> cases hnan

theorem lt_iff {x y : Float} :
    x < y ↔ x.toModel.unpack.compare y.toModel.unpack = some .lt := by
  have hlt : x < y ↔ decide (x.toModel < y.toModel) = true := Iff.rfl
  have hmodel : x.toModel < y.toModel ↔ x.toModel.unpack.lt y.toModel.unpack = true := Iff.rfl
  rw [hlt, decide_eq_true_iff, hmodel, UnpackedFloat.lt, beq_iff_eq]

theorem le_iff {x y : Float} :
    x ≤ y ↔ (x.toModel.unpack.compare y.toModel.unpack).any (·.isLE) = true := by
  have hle : x ≤ y ↔ decide (x.toModel ≤ y.toModel) = true := Iff.rfl
  rw [hle, decide_eq_true_iff]
  exact Iff.rfl

theorem isNaN_or_isNaN_iff {x y : Float} :
    x.isNaN ∨ y.isNaN ↔ x.toModel.unpack.compare y.toModel.unpack = none :=
  compare_eq_none_iff.symm

/-- What `≤` does not hold of is the other way around, unless a NaN is compared. -/
theorem not_le_iff {x y : Float} : ¬x ≤ y ↔ y < x ∨ x.isNaN ∨ y.isNaN := by
  rw [isNaN_or_isNaN_iff, le_iff, lt_iff, ← compare_swap x.toModel.unpack]
  cases x.toModel.unpack.compare y.toModel.unpack with
  | none => simp
  | some o => cases o <;> simp

theorem not_lt_iff {x y : Float} : ¬x < y ↔ y ≤ x ∨ x.isNaN ∨ y.isNaN := by
  rw [isNaN_or_isNaN_iff, le_iff, lt_iff, ← compare_swap x.toModel.unpack]
  cases x.toModel.unpack.compare y.toModel.unpack with
  | none => simp
  | some o => cases o <;> simp

theorem not_le_iff_lt {x y : Float} (hx : ¬x.isNaN) (hy : ¬y.isNaN) : ¬x ≤ y ↔ y < x := by
  rw [not_le_iff]
  exact or_iff_left (not_or.mpr ⟨hx, hy⟩)

theorem not_lt_iff_le {x y : Float} (hx : ¬x.isNaN) (hy : ¬y.isNaN) : ¬x < y ↔ y ≤ x := by
  rw [not_lt_iff]
  exact or_iff_left (not_or.mpr ⟨hx, hy⟩)

theorem le_of_lt {x y : Float} (h : x < y) : x ≤ y := by
  rw [lt_iff] at h
  rw [le_iff, h]
  rfl

theorem not_isNaN_of_lt {x y : Float} (h : x < y) : ¬(x.isNaN ∨ y.isNaN) := by
  rw [isNaN_or_isNaN_iff]
  intro hnone
  rw [lt_iff, hnone] at h
  cases h

/-! ### The order of doubles -/

/-- Where a double stands among all others: the infinities at both ends, and between them the
numbers by sign, exponent and mantissa. Nothing is said of NaN. -/
def orderKey : UnpackedFloat → Int × Int × Int
  | .infinity .negative => (-2, 0, 0)
  | .finite .negative m e _ => (-1, -e, -m)
  | .zero _ | .notANumber => (0, 0, 0)
  | .finite .positive m e _ => (1, e, m)
  | .infinity .positive => (2, 0, 0)

/-- Keys are compared by their first parts, and then by the second and by the third. -/
def compareKeys (r s : Int × Int × Int) : Ordering :=
  (compare r.1 s.1).then ((compare r.2.1 s.2.1).then (compare r.2.2 s.2.2))

theorem compareKeys_eq_lt_iff {r s : Int × Int × Int} : compareKeys r s = .lt ↔
    r.1 < s.1 ∨ r.1 = s.1 ∧ (r.2.1 < s.2.1 ∨ r.2.1 = s.2.1 ∧ r.2.2 < s.2.2) := by
  simp only [compareKeys, Ordering.then_eq_lt, Int.compare_eq_lt, Int.compare_eq_eq]

theorem compare_neg_neg (i j : Int) : compare (-i) (-j) = (compare i j).swap := by
  rw [Int.compare_swap]
  rcases Int.lt_trichotomy j i with hlt | rfl | hgt
  · rw [Int.compare_eq_lt.mpr hlt, Int.compare_eq_lt.mpr (by omega)]
  · rw [Int.compare_eq_eq.mpr rfl, Int.compare_eq_eq.mpr rfl]
  · rw [Int.compare_eq_gt.mpr hgt, Int.compare_eq_gt.mpr (by omega)]

theorem compare_natCast (m n : Nat) : compare (m : Int) n = compare m n := by
  rcases Nat.lt_trichotomy m n with hlt | rfl | hgt
  · rw [Nat.compare_eq_lt.mpr hlt, Int.compare_eq_lt.mpr (by omega)]
  · rw [Nat.compare_eq_eq.mpr rfl, Int.compare_eq_eq.mpr rfl]
  · rw [Nat.compare_eq_gt.mpr hgt, Int.compare_eq_gt.mpr (by omega)]

theorem compare_eq_compareKeys {a b : UnpackedFloat} (ha : ¬a.isNaN = true)
    (hb : ¬b.isNaN = true) : a.compare b = some (compareKeys (orderKey a) (orderKey b)) := by
  cases a with
  | notANumber => exact absurd rfl ha
  | infinity s =>
    cases b with
    | notANumber => exact absurd rfl hb
    | infinity t | finite t _ _ _ => cases s <;> cases t <;> rfl
    | zero _ => cases s <;> rfl
  | zero _ =>
    cases b with
    | notANumber => exact absurd rfl hb
    | zero _ => rfl
    | infinity t | finite t _ _ _ => cases t <;> rfl
  | finite s m e _ =>
    cases b with
    | notANumber => exact absurd rfl hb
    | infinity t => cases s <;> cases t <;> rfl
    | zero _ => cases s <;> rfl
    | finite t m' e' _ =>
      cases s with
      | positive =>
        cases t with
        | positive =>
          show some ((compare e e').then (compare m m')) =
            some ((compare e e').then (compare (m : Int) m'))
          rw [compare_natCast]
        | negative => rfl
      | negative =>
        cases t with
        | positive => rfl
        | negative =>
          show some ((compare e e').then (compare m m')).swap =
            some ((compare (-e) (-e')).then (compare (-m : Int) (-m')))
          rw [compare_neg_neg, compare_neg_neg, compare_natCast, Ordering.swap_then]

theorem lt_iff_compareKeys {x y : Float} (hx : ¬x.isNaN) (hy : ¬y.isNaN) :
    x < y ↔ compareKeys (orderKey x.toModel.unpack) (orderKey y.toModel.unpack) = .lt := by
  rw [lt_iff, compare_eq_compareKeys hx hy, Option.some.injEq]

theorem lt_of_lt_of_lt {x y z : Float} (hxy : x < y) (hyz : y < z) : x < z := by
  obtain ⟨hx, hy⟩ := not_or.mp (not_isNaN_of_lt hxy)
  obtain ⟨-, hz⟩ := not_or.mp (not_isNaN_of_lt hyz)
  rw [lt_iff_compareKeys hx hy, compareKeys_eq_lt_iff] at hxy
  rw [lt_iff_compareKeys hy hz, compareKeys_eq_lt_iff] at hyz
  rw [lt_iff_compareKeys hx hz, compareKeys_eq_lt_iff]
  omega

/-- A number is above the lesser or below the greater of two doubles that are in order. -/
theorem lt_or_lt_of_lt {x y z : Float} (hy : ¬y.isNaN) (h : x < z) : x < y ∨ y < z := by
  obtain ⟨hx, hz⟩ := not_or.mp (not_isNaN_of_lt h)
  rw [lt_iff_compareKeys hx hz, compareKeys_eq_lt_iff] at h
  rw [lt_iff_compareKeys hx hy, lt_iff_compareKeys hy hz, compareKeys_eq_lt_iff,
    compareKeys_eq_lt_iff]
  omega

/-! ### Whole numbers -/

theorem ofFloat?_of_isNaN {x : Float} (h : x.isNaN) : Dyadic.ofFloat? x = none := by
  let bits : BitVec Format.binary64.numBits := x.toModel.toBits.toBitVec
  have hexponent : (UnpackedFloat.unpackExponent bits : BitVec 11) = -1#11 := by
    have hnan : (UnpackedFloat.unpack Format.binary64 bits).isNaN = true := h
    delta UnpackedFloat.unpack at hnan
    dsimp only at hnan
    rcases Decidable.em (UnpackedFloat.unpackExponent bits = -1#11) with hones | hones
    · exact hones
    · rw [if_neg hones] at hnan
      -- a zero, a subnormal number or a normal one
      rcases Decidable.em (UnpackedFloat.unpackExponent bits = 0#11) with hzeros | hzeros
      · rw [if_pos hzeros] at hnan
        rcases Decidable.em (UnpackedFloat.unpackMantissa bits = 0#52) with hm | hm
        · rw [dif_pos hm] at hnan
          cases hnan
        · rw [dif_neg hm] at hnan
          cases hnan
      · rw [if_neg hzeros] at hnan
        cases hnan
  have hscale : x.toBits.toNat / Dyadic.binade % 2048 = 2047 := by
    have hbits := congrArg BitVec.toNat hexponent
    simp only [UnpackedFloat.unpackExponent, BitVec.toNat_cast, BitVec.extractLsb_toNat,
      Nat.shiftRight_eq_div_pow] at hbits
    exact hbits
  simp [Dyadic.ofFloat?, hscale]

theorem not_isNaN_of_isWhole {x : Float} (h : isWhole x) : ¬x.isNaN := by
  intro hnan
  rw [isWhole, ofFloat?_of_isNaN hnan] at h
  cases h

end Easel.Binary64
