import Easel.Number.Word
import Easel.Proofs.Number.Finite
import Easel.Proofs.List.Entries
import Easel.Proofs.Text.Similarity

/-! The place of the closest candidate. Names whose lengths fit a word are compared with numbers of
moderate size, so how alike they are is always a number, and all candidates are in one order: the
closest one is the last of the best. -/

namespace Easel.Similarity

open Binary64

variable {name c d : String} {candidates : List String}

/-! ### Likeness is a number -/

theorem length_matchPlaces_le (second : Array Char) (range : Nat) (first : List Char)
    (index : Nat) (taken : List Nat) :
    (matchPlaces second range first index taken).length ≤ first.length := by
  induction first generalizing index taken with
  | nil => exact Nat.le_refl 0
  | cons c rest ih =>
    rw [matchPlaces]
    split
    · exact Nat.succ_le_succ (ih _ _)
    · exact Nat.le_succ_of_le (ih _ _)

theorem commonStart_le (first second : List Char) : commonStart first second ≤ 4 :=
  calc commonStart first second ≤ ((first.take 4).zip second).length :=
        (List.takeWhile_sublist _).length_le
    _ ≤ 4 := by
      rw [List.length_zip, List.length_take]
      omega

theorem upTo_share {part whole : Nat} (hpart : part < 2 ^ 64) (hwhole : whole < 2 ^ 64)
    (hpos : 0 < whole) : UpTo 117 (Float.ofNat part / Float.ofNat whole) :=
  (upTo_ofNat hpart).div (downTo_ofNat hpos hwhole) (by decide) (by decide) (by decide)

theorem upTo_jaro {first second : List Char} (hfirst : first.length < 2 ^ 64)
    (hsecond : second.length < 2 ^ 64) : UpTo 173 (jaro first second) := by
  have hone : UpTo 173 1.0 := by decide +kernel
  have hzero : UpTo 173 0.0 := by decide +kernel
  have hthree : DownTo (-51) 3.0 := by decide +kernel
  unfold jaro
  split
  · exact hone
  · split
    · exact hzero
    · next hneither =>
      obtain ⟨hpos, hpos'⟩ : 0 < first.length ∧ 0 < second.length := by
        simpa [List.length_pos_iff] using hneither
      extract_lets range met places inOrder displaced matched
      split
      · exact hzero
      · next hmet =>
        have hmatched : 0 < met.length := by simpa [List.length_pos_iff] using hmet
        have hle : met.length ≤ first.length := length_matchPlaces_le _ _ _ _ _
        -- each sum raises the exponents of the three shares by two
        have hleft : UpTo 117 (matched / .ofNat first.length) :=
          upTo_share (by omega) hfirst hpos
        have hright : UpTo 117 (matched / .ofNat second.length) :=
          upTo_share (by omega) hsecond hpos'
        have horder : UpTo 117 (.ofNat (met.length - displaced / 2) / matched) :=
          upTo_share (by omega) (by omega) hmatched
        have hboth : UpTo 119 (matched / .ofNat first.length + matched / .ofNat second.length) :=
          hleft.add hright (by decide) (by decide) (by decide)
        have hall := hboth.add (horder.mono (by decide)) (k := 121) (by decide) (by decide)
          (by decide)
        exact hall.div hthree (by decide) (by decide) (by decide)

theorem upTo_score {first second : List Char} (hfirst : first.length < 2 ^ 64)
    (hsecond : second.length < 2 ^ 64) : UpTo 293 (score first second) := by
  have hbase := upTo_jaro hfirst hsecond
  unfold score
  extract_lets base
  split
  · have hstart := commonStart_le first second
    have htenth : UpTo (-56) 0.1 := by decide +kernel
    have hone : UpTo 173 1.0 := by decide +kernel
    have hbonus : UpTo 62 (0.1 * Float.ofNat (commonStart first second)) :=
      htenth.mul (upTo_ofNat (by omega)) (by decide) (by decide) (by decide)
    have hrest : UpTo 175 (1.0 - base) := hone.sub hbase (by decide) (by decide) (by decide)
    have hraise := hbonus.mul hrest (k := 291) (by decide) (by decide) (by decide)
    exact (hbase.mono (by decide)).add hraise (by decide) (by decide) (by decide)
  · exact hbase.mono (by decide)

/-- Texts that are in memory have fewer characters than a word has values. How alike two of them are
is a number. -/
theorem not_isNaN_likeness (hname : name.length < Word.size) (hd : d.length < Word.size) :
    ¬(likeness name d).isNaN :=
  UpTo.not_isNaN (upTo_score hname hd)

/-! ### The last of the best -/

/-- Where a candidate stands that is likely enough, such that none before it is likelier and all
behind it are less likely. -/
structure WinsAt (name : String) (candidates : List String) (c : String) (k : Nat) : Prop where
  found : candidates[k]? = some c
  likely : 0.8 ≤ likeness name c
  earlier : ∀ i d, i < k → candidates[i]? = some d → likeness name d ≤ likeness name c
  later : ∀ i d, k < i → candidates[i]? = some d → likeness name d < likeness name c

theorem lt_of_not_likely {x y : Float} (hx : ¬x.isNaN) (h : ¬0.8 ≤ x) (hy : 0.8 ≤ y) : x < y := by
  have hnumber : ¬(0.8 : Float).isNaN := by decide +kernel
  have hy' : ¬y.isNaN := (not_or.mp (not_isNaN_of_lt (pos_of_likely hy))).2
  rcases lt_or_lt_of_lt hy' ((not_le_iff_lt hnumber hx).mp h) with hlt | hlt
  · exact hlt
  · exact absurd hy (not_le_iff.mpr (.inl hlt))

/-- A candidate that is closest wins somewhere. -/
theorem closest?_eq_some_iff_exists_winsAt (hname : name.length < Word.size)
    (hcandidates : ∀ d ∈ candidates, d.length < Word.size) :
    closest? name candidates = some c ↔ ∃ k, WinsAt name candidates c k := by
  rw [closest?_eq_some_iff]
  constructor
  · rintro ⟨before, after, rfl, hlikely, hbefore, hafter⟩
    have hless : ∀ d ∈ before ++ c :: after, ¬0.8 ≤ likeness name d →
        likeness name d < likeness name c :=
      fun d hd h => lt_of_not_likely (not_isNaN_likeness hname (hcandidates d hd)) h hlikely
    have hbefore' : ∀ d ∈ before, likeness name d ≤ likeness name c := by
      intro d hd
      rcases Decidable.em (0.8 ≤ likeness name d) with h | h
      · exact hbefore d hd h
      · exact le_of_lt (hless d (by simp [hd]) h)
    have hafter' : ∀ d ∈ after, likeness name d < likeness name c := by
      intro d hd
      rcases Decidable.em (0.8 ≤ likeness name d) with h | h
      · exact hafter d hd h
      · exact hless d (by simp [hd]) h
    exact ⟨before.length, getElem?_eq_some_iff_split.mpr ⟨before, after, rfl, rfl⟩, hlikely,
      (forall_before_split rfl).mpr hbefore', (forall_after_split rfl).mpr hafter'⟩
  · rintro ⟨k, hfound, hlikely, hearlier, hlater⟩
    obtain ⟨before, after, hsplit, rfl⟩ := getElem?_eq_some_iff_split.mp hfound
    exact ⟨before, after, hsplit, hlikely,
      fun d hd _ => (forall_before_split hsplit).mp hearlier d hd,
      fun d hd _ => (forall_after_split hsplit).mp hlater d hd⟩

/-- No two candidates win. -/
theorem WinsAt.unique {j k : Nat} (h : WinsAt name candidates c j)
    (h' : WinsAt name candidates d k) : j = k := by
  have hnot {x y : Float} (hlt : x < y) : ¬y ≤ x := not_le_iff.mpr (.inl hlt)
  rcases Nat.lt_trichotomy j k with hlt | heq | hgt
  · exact absurd (h'.earlier j c hlt h.found) (hnot (h.later k d hlt h'.found))
  · exact heq
  · exact absurd (h.earlier k d hgt h'.found) (hnot (h'.later j c hgt h.found))

/-- Of candidates that fit in memory, the closest one is the one at the only place that wins, and
there is none if and only if all of them are less likely than is enough. -/
theorem closest?_exact (hname : name.length < Word.size)
    (hcandidates : ∀ d ∈ candidates, d.length < Word.size) :
    (closest? name candidates = none ↔ ∀ d ∈ candidates, likeness name d < 0.8) ∧
      ∀ c, closest? name candidates = some c ↔ ∃! k, WinsAt name candidates c k := by
  constructor
  · rw [closest?_eq_none_iff]
    have hnumber : ¬(0.8 : Float).isNaN := by decide +kernel
    exact forall₂_congr fun d hd =>
      not_le_iff_lt hnumber (not_isNaN_likeness hname (hcandidates d hd))
  · intro c
    rw [closest?_eq_some_iff_exists_winsAt hname hcandidates]
    constructor
    · rintro ⟨k, hk⟩
      exact ⟨k, hk, fun j hj => hj.unique hk⟩
    · rintro ⟨k, hk, -⟩
      exact ⟨k, hk⟩

/-- Candidates of which two are as likely for a word as each other, and one of these comes twice. -/
def rivals : List String := ["circ", "rect", "circ", "shift"]

theorem rivals_closest : (∀ d ∈ rivals, d.length < Word.size) ∧
    closest? "irec" rivals = some "circ" ∧ (∃! k, WinsAt "irec" rivals "circ" k) ∧
    closest? "fill" rivals = none ∧ ∀ d ∈ rivals, likeness "fill" d < 0.8 := by
  have hrivals : ∀ d ∈ rivals, d.length < Word.size := by decide
  have hsome : closest? "irec" rivals = some "circ" := by decide +kernel
  have hnone : closest? "fill" rivals = none := by decide +kernel
  refine ⟨hrivals, hsome, ?_, hnone, ?_⟩
  · exact ((closest?_exact (by decide) hrivals).2 "circ").mp hsome
  · exact (closest?_exact (by decide) hrivals).1.mp hnone

end Easel.Similarity
