import Easel.Proofs.Description.Rejection
import Easel.Proofs.Number.Natural
import Easel.Proofs.Token.Literal

/-! The size of the canvas, written in decimal digits. Its numbers are doubles like all others: a
description of nothing but a size is read as the blank scene whose sides are the nearest doubles, as
long as an index can hold them and the canvas fits in memory. -/

namespace Easel

open Text Scanner Binary64 Description

/-- A description of nothing but a size. -/
def sizeSource (width height : String) : String := "size " ++ width ++ " " ++ height

/-! ### Words -/

namespace Words

variable {before word : List Char} {ts us : List Token} {n : Nat}

theorem isNumber_of_isDecimal (h : Literal.IsDecimal word n) : IsNumber word := by
  obtain ⟨c, hc⟩ := List.exists_mem_of_ne_nil word h.nonempty
  have hdots : word.count '.' = 0 :=
    List.count_eq_zero.mpr fun hdot => absurd (h.digits '.' hdot) (by decide)
  exact .signed (.inl rfl) (fun c hc => .inl (h.digits c hc)) ⟨c, hc, h.digits c hc⟩ (by omega)

/-- A blank completes the word in front of it. -/
theorem ReadsWord.run_blank (h : ReadsWord before ts word (.ok us))
    (hplain : ∀ c ∈ word, separates c = false) :
    (between before ts).run (word ++ [' ']) = .ok (between (before ++ word ++ [' ']) us) := by
  have hstep (s : Scanner) : s.run [' '] = s.step ' ' := bind_pure _
  have hblank : (between (before ++ word) us).step ' ' =
      .ok (between (before ++ word ++ [' ']) us) := step_blank (by decide) (by decide)
  rw [run_append]
  simp only [hstep]
  rw [h.run hplain (endsWord_step (by decide))]
  exact hblank

/-- The scanner between the two numbers of a size. -/
theorem run_size (h : IsNumber word) : start.run ("size ".toList ++ (word ++ [' '])) =
    .ok (between ("size ".toList ++ (word ++ [' ']))
      [.standing [] .name "size".toList, .standing "size ".toList .number word]) := by
  have hsize : ReadsWord [] [] "size".toList (.ok [.standing [] .name "size".toList]) :=
    .element (isWhole_of_notMem (by decide) (by decide)) (.name (by decide))
  have hplain : "size".toList.all (!separates ·) = true := by decide
  have hblank : (between [] []).run "size ".toList =
      .ok (between "size ".toList [.standing [] .name "size".toList]) :=
    hsize.run_blank fun c hc => by simpa using List.all_eq_true.mp hplain c hc
  have hopen : ¬BehindBracket ([] ++ [.standing [] .name "size".toList]) :=
    not_behindBracket_concat nofun nofun
  rw [run_append]
  change (between [] []).run "size ".toList >>= _ = _
  rw [hblank, ← List.append_assoc]
  exact (h.readsWord fun hbracket => absurd hbracket hopen).run_blank h.unseparated

end Words

open Words

/-- The words of a size, and where they stand. -/
def sizeWords (width height : String) : List Token :=
  [⟨.name, "size", ⟨1, 1, 0, 4⟩⟩, ⟨.number, width, ⟨1, 6, 5, width.length⟩⟩,
    ⟨.number, height, ⟨1, width.length + 7, width.length + 6, height.length⟩⟩]

namespace Token

variable {file width height : String} {w h : Nat}

/-- A token in the first line, where all characters take one byte. -/
theorem standing_eq {before word : List Char} {kind : TokenKind}
    (hbefore : ∀ c ∈ before, c.toNat < 128 ∧ c ≠ '\n') (hword : ∀ c ∈ word, c.toNat < 128) :
    standing before kind word =
      ⟨kind, String.ofList word, ⟨1, before.length + 1, before.length, word.length⟩⟩ := by
  have hline : '\n' ∉ before := fun hmem => (hbefore _ hmem).2 rfl
  have hlast : lastLine before = before := lastLine_append [] hline
  rw [standing, Cursor.after_eq, hlast, List.count_eq_zero.mpr hline,
    byteSize_eq_length fun c hc => (hbefore c hc).1, byteSize_eq_length hword,
    Nat.add_comm 1 before.length]
  rfl

theorem sizeWords_eq (hwidth : Literal.IsDecimal width.toList w)
    (hheight : Literal.IsDecimal height.toList h) :
    sizeWords width height = [.standing [] .name "size".toList,
      .standing "size ".toList .number width.toList,
      .standing ("size " ++ width ++ " ").toList .number height.toList] := by
  have hsize : ∀ c ∈ "size ".toList, c.toNat < 128 ∧ c ≠ '\n' := by simp
  have hbefore : ∀ c ∈ ("size " ++ width ++ " ").toList, c.toNat < 128 ∧ c ≠ '\n' := by
    simp only [String.toList_append, List.forall_mem_append]
    exact ⟨⟨hsize, hwidth.ascii⟩, by simp⟩
  have hkeyword : standing [] .name "size".toList = ⟨.name, "size", ⟨1, 1, 0, 4⟩⟩ := rfl
  rw [hkeyword, standing_eq hsize fun c hc => (hwidth.ascii c hc).1,
    standing_eq hbefore fun c hc => (hheight.ascii c hc).1]
  simp [sizeWords, String.length_toList]

theorem ofSource?_size (hwidth : Literal.IsDecimal width.toList w)
    (hheight : Literal.IsDecimal height.toList h) :
    ofSource? file (sizeSource width height) =
      .ok (sizeWords width height ++ [endOf (sizeSource width height)]) := by
  have hh := isNumber_of_isDecimal hheight
  have hbefore : "size ".toList ++ (width.toList ++ [' ']) = ("size " ++ width ++ " ").toList := by
    rw [String.toList_append, String.toList_append, List.append_assoc]
    rfl
  have hrun := run_size (isNumber_of_isDecimal hwidth)
  have hopen : ¬BehindBracket ([.standing [] .name "size".toList] ++
      [.standing "size ".toList .number width.toList]) :=
    not_behindBracket_concat nofun nofun
  rw [hbefore] at hrun
  rw [sizeWords_eq hwidth hheight]
  exact ofSource?_append_word hrun hh.unseparated
    (hh.readsWord fun hbracket => absurd hbracket hopen)

end Token

/-! ### Scenes -/

/-- What a size in digits comes to. The sides are rounded before they are looked at: they have to be
less than `2 ^ 64`, and the pixels between them have to fit in memory. -/
def sizeOutcome (width height : String) (w h : Nat) : Except Rejection Scene :=
  if Word.size ≤ rounded w then
    .error ⟨⟨1, 6, 5, width.length⟩, .outOfRange .width .addressable (Float.ofNat w), none⟩
  else if Word.size ≤ rounded h then
    .error ⟨⟨1, width.length + 7, width.length + 6, height.length⟩,
      .outOfRange .height .addressable (Float.ofNat h), none⟩
  else if Word.maxBytes < rounded w * rounded h * 3 then
    .error ⟨⟨1, 1, 0, 4⟩,
      .outOfRange .canvas .allocatable (Float.ofNat (rounded w) * Float.ofNat (rounded h)), none⟩
  else .ok (.blank (rounded w) (rounded h))

namespace Description

variable {c : Context} {quantity : Quantity} {t : Token} {ts : List Token} {n w h : Nat}
  {width height : String}

/-- A side in digits is the nearest double, if that is less than `2 ^ 64`. -/
theorem dimension_cons (hkind : t.kind = .number) (htext : Literal.IsDecimal t.text.toList n)
    (hn : n < Word.size) : dimension c quantity (t :: ts) =
      if Word.size ≤ rounded n then
        .error ⟨t.position, .outOfRange quantity .addressable (Float.ofNat n), none⟩
      else .ok ⟨rounded n, ts, Nat.lt_succ_self _⟩ := by
  have hcounts : Counts (Float.ofNat n) (rounded n) := counts_ofNat hn
  have hnumber : number c (t :: ts) = .ok ⟨Float.ofNat n, ts, Nat.lt_succ_self _⟩ := by
    rw [number, if_pos hkind, htext.read?]
  have hsign : (decide (Float.ofNat n < 0.0) || !isWhole (Float.ofNat n)) = false := by
    rw [hcounts.isWhole, decide_eq_false hcounts.nonnegative]
    rfl
  rw [dimension, hnumber]
  change (if (decide (Float.ofNat n < 0.0) || !isWhole (Float.ofNat n)) = true then _ else
    if 18446744073709551616.0 ≤ Float.ofNat n then _ else _) = _
  rw [hsign, if_neg Bool.false_ne_true]
  rcases Nat.lt_or_ge (rounded n) Word.size with hlt | hge
  · rw [if_neg (mt hcounts.size_le_iff.mp (Nat.not_le_of_lt hlt)), if_neg (Nat.not_le_of_lt hlt)]
    simp only [hcounts.toIndex_eq hlt]
    rfl
  · rw [if_pos (hcounts.size_le_iff.mpr hge), if_pos hge]
    rfl

theorem ofTokens?_size [Keyword.Order] (hwidth : Literal.IsDecimal width.toList w)
    (hheight : Literal.IsDecimal height.toList h) (hw : w < Word.size) (hh : h < Word.size)
    {mark : Token} (hmark : mark.isEnd = true) :
    Scene.ofTokens? (sizeWords width height ++ [mark]) = sizeOutcome width height w h := by
  have hcontent : content (sizeWords width height ++ [mark]) = sizeWords width height :=
    content_eq_of_mark (by simp [sizeWords]) hmark
  have hdone (stop : Position) (s : Scene) : (carryOut stop s []).result = .ok s := by
    rw [carryOut]
    rfl
  rw [Scene.ofTokens?, result_read, hcontent, sizeWords, canvas, if_pos ⟨rfl, rfl⟩,
    dimension_cons rfl hwidth hw, sizeOutcome]
  rcases Nat.lt_or_ge (rounded w) Word.size with hltw | hgew
  · rw [if_neg (Nat.not_le_of_lt hltw), if_neg (Nat.not_le_of_lt hltw)]
    dsimp only [bind, Except.bind]
    rw [dimension_cons rfl hheight hh]
    rcases Nat.lt_or_ge (rounded h) Word.size with hlth | hgeh
    · rw [if_neg (Nat.not_le_of_lt hlth), if_neg (Nat.not_le_of_lt hlth)]
      dsimp only
      rcases Nat.lt_or_ge Word.maxBytes (rounded w * rounded h * 3) with hlarge | hfits
      · rw [if_pos hlarge, if_pos hlarge]
        rfl
      · rw [if_neg (Nat.not_lt_of_le hfits), if_neg (Nat.not_lt_of_le hfits)]
        exact hdone _ _
    · rw [if_pos hgeh, if_pos hgeh]
  · rw [if_pos hgew, if_pos hgew]
    rfl

end Description

section

variable (file : String) {width height : String} {w h : Nat}

theorem Scene.parse?_eq_sizeOutcome [Keyword.Order] (hwidth : Literal.IsDecimal width.toList w)
    (hheight : Literal.IsDecimal height.toList h) (hw : w < Word.size) (hh : h < Word.size) :
    parse? file (sizeSource width height) =
      (sizeOutcome width height w h).mapError (·.diagnostic file) := by
  rw [parse?, Token.ofSource?_size hwidth hheight]
  change build? file _ = _
  rw [build?, ofTokens?_size hwidth hheight hw hh rfl]

/-- The sides are those that were written if both are doubles and the pixels fit in memory. -/
theorem exact_sizeOutcome_iff (hw : w < Word.size) (hh : h < Word.size) :
    (∃ s, sizeOutcome width height w h = .ok s ∧ s.width = w ∧ s.height = h) ↔
      IsDouble w ∧ IsDouble h ∧ w * h * 3 ≤ Word.maxBytes := by
  constructor
  · rintro ⟨s, hs, hwidth, hheight⟩
    unfold sizeOutcome at hs
    split at hs
    · cases hs
    · split at hs
      · cases hs
      · split at hs
        · cases hs
        · next hfits =>
          cases hs
          have hw : rounded w = w := hwidth
          have hh : rounded h = h := hheight
          rw [hw, hh] at hfits
          exact ⟨rounded_eq_self_iff.mp hw, rounded_eq_self_iff.mp hh, Nat.le_of_not_lt hfits⟩
  · rintro ⟨hdouble, hdouble', hfits⟩
    refine ⟨.blank w h, ?_, rfl, rfl⟩
    rw [sizeOutcome, rounded_eq_self hdouble, rounded_eq_self hdouble',
      if_neg (Nat.not_le_of_lt hw), if_neg (Nat.not_le_of_lt hh), if_neg (Nat.not_lt_of_le hfits)]

/-- A size in decimal digits is read exactly if both of its numbers are doubles and the canvas fits
in memory. All other numbers of up to 64 binary digits are read as the doubles nearest to them, and
the canvas is judged by these. -/
theorem Scene.parse?_size [Keyword.Order] (hwidth : Literal.IsDecimal width.toList w)
    (hheight : Literal.IsDecimal height.toList h) (hw : w < Word.size) (hh : h < Word.size) :
    ((∃ s, parse? file (sizeSource width height) = .ok s ∧ s.width = w ∧ s.height = h) ↔
        IsDouble w ∧ IsDouble h ∧ w * h * 3 ≤ Word.maxBytes) ∧
      parse? file (sizeSource width height) =
        (sizeOutcome width height w h).mapError (·.diagnostic file) ∧
      IsNearest w (rounded w) ∧ IsNearest h (rounded h) := by
  have houtcome := parse?_eq_sizeOutcome file hwidth hheight hw hh
  refine ⟨?_, houtcome, isNearest_rounded w, isNearest_rounded h⟩
  rw [houtcome]
  simp only [Except.mapError_eq_ok_iff]
  exact exact_sizeOutcome_iff hw hh

end

/-- The greatest double below `2 ^ 64` is read exactly as the side of an empty canvas. -/
theorem Scene.parse?_size_greatest :
    Literal.IsDecimal "18446744073709549568".toList 18446744073709549568 ∧
      Literal.IsDecimal "00".toList 0 ∧ IsDouble 18446744073709549568 ∧ IsDouble 0 ∧
      ∃ s, parse? "é.paint" (sizeSource "18446744073709549568" "00") = .ok s ∧
        s.width = 18446744073709549568 ∧ s.height = 0 := by
  have hwidth : Literal.IsDecimal "18446744073709549568".toList 18446744073709549568 :=
    ⟨by decide, List.all_eq_true.mp (by decide), by decide⟩
  have hheight : Literal.IsDecimal "00".toList 0 :=
    ⟨by decide, List.all_eq_true.mp (by decide), by decide⟩
  have hdouble : IsDouble 18446744073709549568 := ⟨2 ^ 53 - 1, 11, by decide, by decide⟩
  have hzero : IsDouble 0 := ⟨0, 0, by decide, rfl⟩
  have hsize := Scene.parse?_size "é.paint" hwidth hheight (by decide) (by decide)
  exact ⟨hwidth, hheight, hdouble, hzero, hsize.1.mpr ⟨hdouble, hzero, by decide⟩⟩

/-- A width that is no double is not the width of the scene. -/
theorem Scene.exists_parse?_size_ne : ∃ (width height : String) (w h : Nat),
    Literal.IsDecimal width.toList w ∧ Literal.IsDecimal height.toList h ∧
      w < Word.size ∧ h < Word.size ∧ w * h * 3 ≤ Word.maxBytes ∧
        ¬∃ s, parse? "é.paint" (sizeSource width height) = .ok s ∧ s.width = w ∧ s.height = h := by
  have hwidth : Literal.IsDecimal "9007199254740993".toList 9007199254740993 :=
    ⟨by decide, List.all_eq_true.mp (by decide), by decide⟩
  have hheight : Literal.IsDecimal "1".toList 1 :=
    ⟨by decide, List.all_eq_true.mp (by decide), by decide⟩
  refine ⟨_, _, _, _, hwidth, hheight, by decide, by decide, by decide, ?_⟩
  have houtcome : sizeOutcome "9007199254740993" "1" 9007199254740993 1 =
      .ok (.blank 9007199254740992 1) := rfl
  rw [parse?_eq_sizeOutcome _ hwidth hheight (by decide) (by decide), houtcome]
  rintro ⟨s, hs, hsides⟩
  cases hs
  exact absurd hsides.1 (by decide)

end Easel
