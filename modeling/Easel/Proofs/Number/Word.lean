import Easel.Number.Word

/-! What a machine counts. It is right as long as it fits a word; a machine that wraps is right up
to multiples of the size of a word, and one that stops has no count otherwise. The bytes in one piece
of memory are less than half of what fits a word. -/

namespace Easel

namespace Word

theorem two_mul_maxBytes_lt : 2 * maxBytes < size := by decide

theorem maxBytes_lt : maxBytes < size := by decide

theorem lt_of_le_maxBytes {n : Nat} (h : n ≤ maxBytes) : n < size :=
  Nat.lt_of_le_of_lt h maxBytes_lt

end Word

namespace Overflow

variable {o : Overflow} {n m : Nat}

theorem count?_of_lt (h : n < Word.size) : o.count? n = some n := by
  unfold count?
  rw [if_pos ⟨Int.natCast_nonneg n, Int.ofNat_lt.mpr h⟩, Int.toNat_natCast]

theorem count?_stops (h : Word.size ≤ n) : stops.count? n = none :=
  if_neg fun hfits => Nat.not_lt_of_le h (Int.ofNat_lt.mp hfits.2)

theorem lt_of_count?_stops (h : stops.count? n = some m) : n < Word.size := by
  refine Nat.lt_of_not_le fun hle => ?_
  rw [count?_stops hle] at h
  cases h

theorem count?_wraps (n : Nat) : wraps.count? n = some (n % Word.size) := by
  by_cases h : n < Word.size
  · rw [count?_of_lt h, Nat.mod_eq_of_lt h]
  · unfold count?
    rw [if_neg fun hfits => h (Int.ofNat_lt.mp hfits.2)]
    rfl

theorem count?_eq_mod (h : o = stops → n < Word.size) : o.count? n = some (n % Word.size) := by
  cases o with
  | stops => rw [count?_of_lt (h rfl), Nat.mod_eq_of_lt (h rfl)]
  | wraps => exact count?_wraps n

/-- What is counted differs from what there is by a multiple of the size of a word. -/
theorem eq_mod_of_count? (h : o.count? n = some m) : m = n % Word.size := by
  by_cases hfits : n < Word.size
  · rw [count?_of_lt hfits] at h
    rw [Nat.mod_eq_of_lt hfits]
    exact (Option.some.inj h).symm
  · cases o with
    | stops =>
      rw [count?_stops (Nat.le_of_not_lt hfits)] at h
      cases h
    | wraps =>
      rw [count?_wraps] at h
      exact (Option.some.inj h).symm

end Overflow

end Easel
