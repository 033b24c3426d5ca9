import Easel.Proofs.Description.Rejection
import Easel.Proofs.Token.Partition

/-! Reports on a source point into it: at an element that is no token, or at a token. -/

namespace Easel

open Text Description

/-- A report that points into a source. What is malformed is an element of the source, and what is
rejected is one of its tokens or, where more of them were wanted, the mark for its end. -/
inductive Diagnostic.PointsInto (file source : String) : Diagnostic → Prop
  | malformed {before after : String} {position : Position} {cause : Malformed}
      (hsource : source = before ++ cause.text ++ after)
      (hword : Scanner.Element before.toList cause.text.toList after.toList)
      (hposition : position.At before cause.text) :
      PointsInto file source (.malformed file position cause)
  | rejected {words : List Token} {t : Token} {cause : Violation} {help : Option String}
      (htokens : Token.ofSource? file source = .ok (words ++ [Token.endOf source]))
      (ht : t ∈ words) (hmarks : t.position.Marks source t.text) :
      PointsInto file source (.rejected file t.position cause help)
  | unfinished {words : List Token} {cause : Violation} {help : Option String}
      (htokens : Token.ofSource? file source = .ok (words ++ [Token.endOf source])) :
      PointsInto file source (.rejected file (Token.endOf source).position cause help)

namespace Scene

variable {file source : String} {d : Diagnostic}

theorem build?_rejects [Keyword.Order] {tokens : List Token} (h : build? file tokens = .error d) :
    ∃ r : Rejection, d = r.diagnostic file ∧
      Rejects ⟨(read tokens).scene, stop tokens⟩ (content tokens) r := by
  obtain ⟨r, hr, rfl⟩ := Except.mapError_eq_error_iff.mp h
  exact ⟨r, rfl, read_rejects (Progress.result_eq_error_iff.mp hr)⟩

theorem build?_error [Keyword.Order] {tokens : List Token} (h : build? file tokens = .error d) :
    ∃ r : Rejection, d = r.diagnostic file ∧ Blames (stop tokens) (content tokens) r.position := by
  obtain ⟨r, rfl, hrejects⟩ := build?_rejects h
  exact ⟨r, rfl, hrejects.blames⟩

end Scene

theorem Token.ofSource?_error {file source : String} {d : Diagnostic}
    (h : Token.ofSource? file source = .error d) : d.PointsInto file source := by
  obtain ⟨f, hf, rfl⟩ := Except.mapError_eq_error_iff.mp h
  obtain ⟨before, after, hsource, helement, hposition⟩ := Token.scan_error hf
  have hsplit : source = String.ofList before ++ f.cause.text ++ String.ofList after := by
    rw [← String.toList_inj, hsource]
    simp
  refine .malformed hsplit ?_ ?_
  · simpa using helement
  · rw [hposition]
    exact Cursor.position_at before f.cause.text

theorem Diagnostic.PointsInto.within {file source : String} {d : Diagnostic}
    (h : d.PointsInto file source) : ∃ p, d.position? = some p ∧ p.Within source := by
  cases h with
  | malformed hsource _ hposition =>
    exact ⟨_, rfl, Position.Marks.within ⟨_, _, hsource, hposition⟩⟩
  | rejected _ _ hmarks => exact ⟨_, rfl, hmarks.within⟩
  | unfinished _ =>
    have hend : String.Pos.Raw.IsValid source ⟨source.utf8ByteSize⟩ :=
      String.Pos.Raw.isValid_iff_exists_append.mpr ⟨source, "", by simp, rfl⟩
    exact ⟨_, rfl, Nat.le_refl _, hend, hend⟩

/-- A report on a source points into it, from one character to another. -/
theorem Scene.parse?_error_pointsInto [Keyword.Order] {file source : String} {d : Diagnostic}
    (h : Scene.parse? file source = .error d) :
    d.PointsInto file source ∧ ∃ p, d.position? = some p ∧ p.Within source := by
  have hpoints : d.PointsInto file source := by
    rcases Except.bind_eq_error_iff.mp h with hscan | ⟨tokens, hscan, hbuild⟩
    · exact Token.ofSource?_error hscan
    · obtain ⟨words, rfl, hlayout⟩ := Token.ofSource?_layout hscan
      have hpartition := hlayout.partition
      obtain ⟨r, rfl, hblames⟩ := build?_error hbuild
      rw [content_eq_of_mark hpartition.kind rfl, stop_eq_of_mark hpartition.kind rfl] at hblames
      rcases hblames with hend | ⟨t, ht, hposition⟩
      · rw [Rejection.diagnostic, hend]
        exact .unfinished hscan
      · rw [Rejection.diagnostic, hposition]
        exact .rejected hscan ht (hpartition.marks t ht)
  exact ⟨hpoints, hpoints.within⟩

theorem Scene.undeclared_pointsInto :
    Scene.parse? "é.paint" "size 1 1 # ö\r\nfill é \x7b1 0 0\x7d" =
        .error (.rejected "é.paint" ⟨2, 6, 20, 2⟩ (.undefinedShape "é") none) ∧
      (Diagnostic.rejected "é.paint" ⟨2, 6, 20, 2⟩ (.undefinedShape "é") none).PointsInto
        "é.paint" "size 1 1 # ö\r\nfill é \x7b1 0 0\x7d" := by
  have hparse : Scene.parse? "é.paint" "size 1 1 # ö\r\nfill é \x7b1 0 0\x7d" =
      .error (.rejected "é.paint" ⟨2, 6, 20, 2⟩ (.undefinedShape "é") none) := by
    decide +kernel
  exact ⟨hparse, (parse?_error_pointsInto hparse).1⟩

end Easel
