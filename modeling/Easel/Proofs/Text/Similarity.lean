import Mathlib.Data.List.Basic
import Easel.Proofs.Number.Order
import Easel.Text.Similarity

/-! The candidate that is closest to a name: it is likely enough, none that is likely enough is
likelier, and of those that are as likely it comes last. Which one comes last depends on the order
of the candidates, and on nothing else. -/

namespace Easel.Similarity

open Binary64

variable {β : Type} {name : String} {c d : String} {candidates : List String}

/-- How likely it is that a candidate is meant by a name. -/
def likeness (name candidate : String) : Float := score name.toList candidate.toList

/-- The last of those entries that are not lower than another. -/
def IsLastBest (entries : List (β × Nat)) (best : β × Nat) : Prop :=
  ∃ before after, entries = before ++ best :: after ∧ (∀ e ∈ before, e.2 ≤ best.2) ∧
    ∀ e ∈ after, e.2 < best.2

theorem IsLastBest.le {entries : List (β × Nat)} {best e : β × Nat} (h : IsLastBest entries best)
    (he : e ∈ entries) : e.2 ≤ best.2 := by
  obtain ⟨before, after, rfl, hbefore, hafter⟩ := h
  rcases List.mem_append.mp he with he | he
  · exact hbefore e he
  · rcases List.mem_cons.mp he with rfl | he
    · exact Nat.le_refl _
    · exact Nat.le_of_lt (hafter e he)

theorem lastBest_eq_none_iff {entries : List (β × Nat)} : lastBest entries = none ↔ entries =
    [] := by
  cases entries with
  | nil => exact iff_of_true rfl rfl
  | cons entry rest =>
    refine iff_of_false ?_ (List.cons_ne_nil entry rest)
    rw [lastBest]
    split
    · exact nofun
    · split <;> exact nofun

theorem isLastBest_of_lastBest {entries : List (β × Nat)} {best : β × Nat}
    (h : lastBest entries = some best) : IsLastBest entries best := by
  induction entries generalizing best with
  | nil => cases h
  | cons entry rest ih =>
    rw [lastBest] at h
    split at h
    · next hnone =>
      cases h
      rw [lastBest_eq_none_iff.mp hnone]
      exact ⟨[], [], rfl, nofun, nofun⟩
    · next other hother =>
      have hrest := ih hother
      split at h
      · next hle =>
        cases h
        obtain ⟨before, after, rfl, hbefore, hafter⟩ := hrest
        exact ⟨entry :: before, after, rfl, List.forall_mem_cons.mpr ⟨hle, hbefore⟩, hafter⟩
      · next hlt =>
        cases h
        exact ⟨[], rest, rfl, nofun, fun e he =>
          Nat.lt_of_le_of_lt (hrest.le he) (Nat.lt_of_not_le hlt)⟩

theorem lastBest_of_isLastBest {entries : List (β × Nat)} {best : β × Nat}
    (h : IsLastBest entries best) : lastBest entries = some best := by
  obtain ⟨before, after, rfl, hbefore, hafter⟩ := h
  induction before with
  | nil =>
    rw [List.nil_append, lastBest]
    split
    · rfl
    · next other hother =>
      obtain ⟨seen, rest, rfl, -⟩ := isLastBest_of_lastBest hother
      have hlt : other.2 < best.2 := hafter other (by simp)
      rw [if_neg (Nat.not_le_of_lt hlt)]
  | cons entry before ih =>
    obtain ⟨hle, hbefore⟩ := List.forall_mem_cons.mp hbefore
    rw [List.cons_append, lastBest, ih hbefore]
    exact if_pos hle

/-! ### Likely candidates -/

theorem pos_of_likely {x : Float} (h : 0.8 ≤ x) : 0.0 < x :=
  pos_of_le (by decide +kernel : (0.0 : Float) < 0.8) h

theorem rank_le_iff {x y : Float} (hx : 0.8 ≤ x) (hy : 0.8 ≤ y) : rank x ≤ rank y ↔ x ≤ y :=
  toBits_le_iff (pos_of_likely hx) (pos_of_likely hy)

theorem rank_lt_iff {x y : Float} (hx : 0.8 ≤ x) (hy : 0.8 ≤ y) : rank x < rank y ↔ x < y := by
  have hx' := not_or.mp (not_isNaN_of_lt (pos_of_likely hx))
  have hy' := not_or.mp (not_isNaN_of_lt (pos_of_likely hy))
  rw [← Nat.not_le, rank_le_iff hy hx, not_le_iff_lt hy'.2 hx'.2]

/-- The entry of a candidate, if it is likely enough. -/
def scored? (name candidate : String) : Option (String × Nat) :=
  if 0.8 ≤ likeness name candidate then some (candidate, rank (likeness name candidate)) else none

theorem likely_eq (name : String) (candidates : List String) :
    likely name candidates = candidates.filterMap (scored? name) := rfl

theorem scored?_eq_some_iff {entry : String × Nat} : scored? name c = some entry ↔
    0.8 ≤ likeness name c ∧ entry = (c, rank (likeness name c)) := by
  rw [scored?]
  split
  · next h => rw [Option.some.injEq, eq_comm, iff_true_intro h, true_and]
  · next h => exact iff_of_false nofun fun hc => h hc.1

theorem mem_likely_iff {entry : String × Nat} : entry ∈ likely name candidates ↔
    ∃ d ∈ candidates, 0.8 ≤ likeness name d ∧ entry = (d, rank (likeness name d)) := by
  simp only [likely_eq, List.mem_filterMap, scored?_eq_some_iff]

/-- What the entries of likely candidates say of their ranks, their likeness says. -/
theorem forall_mem_likely_iff {p : Nat → Prop} {q : Float → Prop}
    (hpq : ∀ x, 0.8 ≤ x → (p (rank x) ↔ q x)) : (∀ e ∈ likely name candidates, p e.2) ↔
      ∀ d ∈ candidates, 0.8 ≤ likeness name d → q (likeness name d) := by
  constructor
  · intro h d hd hlikely
    exact (hpq _ hlikely).mp (h _ (mem_likely_iff.mpr ⟨d, hd, hlikely, rfl⟩))
  · intro h e he
    obtain ⟨d, hd, hlikely, rfl⟩ := mem_likely_iff.mp he
    exact (hpq _ hlikely).mpr (h d hd hlikely)

theorem forall_rank_le_iff {x : Float} (hx : 0.8 ≤ x) :
    (∀ e ∈ likely name candidates, e.2 ≤ rank x) ↔
      ∀ d ∈ candidates, 0.8 ≤ likeness name d → likeness name d ≤ x :=
  forall_mem_likely_iff (p := (· ≤ rank x)) (q := (· ≤ x)) fun _ hy => rank_le_iff hy hx

theorem forall_rank_lt_iff {x : Float} (hx : 0.8 ≤ x) :
    (∀ e ∈ likely name candidates, e.2 < rank x) ↔
      ∀ d ∈ candidates, 0.8 ≤ likeness name d → likeness name d < x :=
  forall_mem_likely_iff (p := (· < rank x)) (q := (· < x)) fun _ hy => rank_lt_iff hy hx

/-- The closest candidate is likely enough, no likelier one comes before it, and none that is as
likely comes behind it. -/
theorem closest?_eq_some_iff : closest? name candidates = some c ↔
    ∃ before after, candidates = before ++ c :: after ∧ 0.8 ≤ likeness name c ∧
      (∀ d ∈ before, 0.8 ≤ likeness name d → likeness name d ≤ likeness name c) ∧
      ∀ d ∈ after, 0.8 ≤ likeness name d → likeness name d < likeness name c := by
  rw [closest?, Option.map_eq_some_iff]
  constructor
  · rintro ⟨entry, hlast, rfl⟩
    obtain ⟨front, back, hentries, hfront, hback⟩ := isLastBest_of_lastBest hlast
    rw [likely_eq] at hentries
    obtain ⟨start, more, rfl, rfl, hmore⟩ := List.filterMap_eq_append_iff.mp hentries
    obtain ⟨passed, d, after, rfl, hpassed, hd, rfl⟩ := List.filterMap_eq_cons_iff.mp hmore
    obtain ⟨hlikely, rfl⟩ := scored?_eq_some_iff.mp hd
    have hnone : passed.filterMap (scored? name) = [] := List.filterMap_eq_nil_iff.mpr hpassed
    refine ⟨start ++ passed, after, by simp, hlikely, (forall_rank_le_iff hlikely).mp ?_,
      (forall_rank_lt_iff hlikely).mp hback⟩
    rwa [likely_eq, List.filterMap_append, hnone, List.append_nil]
  · rintro ⟨before, after, rfl, hlikely, hbefore, hafter⟩
    refine ⟨(c, rank (likeness name c)), lastBest_of_isLastBest ?_, rfl⟩
    refine ⟨likely name before, likely name after, ?_, (forall_rank_le_iff hlikely).mpr hbefore,
      (forall_rank_lt_iff hlikely).mpr hafter⟩
    rw [likely_eq, List.filterMap_append, List.filterMap_cons_some
      (scored?_eq_some_iff.mpr ⟨hlikely, rfl⟩)]
    rfl

theorem closest?_eq_none_iff : closest? name candidates = none ↔
    ∀ d ∈ candidates, ¬0.8 ≤ likeness name d := by
  rw [closest?, Option.map_eq_none_iff, lastBest_eq_none_iff, List.eq_nil_iff_forall_not_mem]
  constructor
  · intro h d hd hlikely
    exact h _ (mem_likely_iff.mpr ⟨d, hd, hlikely, rfl⟩)
  · intro h e he
    obtain ⟨d, hd, hlikely, -⟩ := mem_likely_iff.mp he
    exact h d hd hlikely

/-! ### The order of the candidates -/

/-- A candidate that is likely enough, and that none is likelier than. -/
structure IsLikeliest (name : String) (candidates : List String) (c : String) : Prop where
  mem : c ∈ candidates
  likely : 0.8 ≤ likeness name c
  best : ∀ d ∈ candidates, 0.8 ≤ likeness name d → likeness name d ≤ likeness name c

instance (name : String) (candidates : List String) (c : String) :
    Decidable (IsLikeliest name candidates c) :=
  decidable_of_iff (c ∈ candidates ∧ 0.8 ≤ likeness name c ∧
      ∀ d ∈ candidates, 0.8 ≤ likeness name d → likeness name d ≤ likeness name c)
    ⟨fun ⟨hmem, hlikely, hbest⟩ => ⟨hmem, hlikely, hbest⟩, fun h => ⟨h.mem, h.likely, h.best⟩⟩

theorem isLikeliest_of_closest? (h : closest? name candidates = some c) :
    IsLikeliest name candidates c := by
  obtain ⟨before, after, rfl, hlikely, hbefore, hafter⟩ := closest?_eq_some_iff.mp h
  refine ⟨by simp, hlikely, fun d hd hd' => ?_⟩
  rcases List.mem_append.mp hd with hd | hd
  · exact hbefore d hd hd'
  · rcases List.mem_cons.mp hd with rfl | hd
    · exact (rank_le_iff hlikely hlikely).mp (Nat.le_refl _)
    · exact le_of_lt (hafter d hd hd')

theorem IsLikeliest.perm {order : List String} (h : IsLikeliest name candidates c)
    (hperm : order.Perm candidates) : IsLikeliest name order c :=
  ⟨hperm.mem_iff.mpr h.mem, h.likely, fun d hd => h.best d (hperm.mem_iff.mp hd)⟩

/-- Behind all others, a likeliest candidate is the closest one. -/
theorem IsLikeliest.exists_order (h : IsLikeliest name candidates c) :
    ∃ order, order.Perm candidates ∧ closest? name order = some c := by
  refine ⟨candidates.erase c ++ [c], ?_, ?_⟩
  · exact (List.perm_append_singleton c _).trans (List.perm_cons_erase h.mem).symm
  · refine closest?_eq_some_iff.mpr ⟨candidates.erase c, [], rfl, h.likely, ?_, nofun⟩
    exact fun d hd => h.best d (List.mem_of_mem_erase hd)

/-- The answers that the orders of the candidates lead to are the likeliest candidates. -/
theorem isLikeliest_iff_exists_order : IsLikeliest name candidates c ↔
    ∃ order, order.Perm candidates ∧ closest? name order = some c := by
  constructor
  · exact IsLikeliest.exists_order
  · rintro ⟨order, hperm, hclosest⟩
    exact (isLikeliest_of_closest? hclosest).perm hperm.symm

/-- Two orders of the candidates lead to one answer, unless there are two likeliest candidates. -/
theorem closest?_perm {order : List String} (hperm : order.Perm candidates)
    (hunique : ∀ c d, IsLikeliest name candidates c → IsLikeliest name candidates d → c = d) :
    closest? name order = closest? name candidates := by
  cases h : closest? name candidates with
  | none =>
    rw [closest?_eq_none_iff] at h ⊢
    exact fun d hd => h d (hperm.mem_iff.mp hd)
  | some c =>
    have hc := isLikeliest_of_closest? h
    cases h' : closest? name order with
    | none =>
      exact absurd hc.likely (closest?_eq_none_iff.mp h' c (hperm.mem_iff.mpr hc.mem))
    | some d =>
      have hd := (isLikeliest_of_closest? h').perm hperm.symm
      rw [hunique d c hd hc]

end Easel.Similarity
