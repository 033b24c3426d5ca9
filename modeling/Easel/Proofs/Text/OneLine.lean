import Easel.Diagnostic.Violation
import Easel.Proofs.Number.Natural
import Easel.Proofs.Token.Layout

/-! Texts that are written on one line: no blank is in them but the space. Words and numbers have no
blanks at all, so what is put together from them and from phrases of one line is on one line. -/

namespace Easel

namespace Text

/-- A text with no blanks but spaces. -/
def OneLine (text : String) : Prop := ∀ c ∈ text.toList, isBlank c = true → c = ' '

instance (text : String) : Decidable (OneLine text) :=
  List.decidableBAll (fun c => isBlank c = true → c = ' ') text.toList

variable {s t : String}

theorem OneLine.newline_notMem (h : OneLine s) : '\n' ∉ s.toList :=
  fun hmem => absurd (h _ hmem (by decide)) (by decide)

theorem OneLine.append (hs : OneLine s) (ht : OneLine t) : OneLine (s ++ t) := by
  rw [OneLine, String.toList_append]
  exact List.forall_mem_append.mpr ⟨hs, ht⟩

theorem oneLine_ofList {cs : List Char} (h : ∀ c ∈ cs, isBlank c = false) :
    OneLine (String.ofList cs) := by
  intro c hc hblank
  rw [String.toList_ofList] at hc
  rw [h c hc] at hblank
  cases hblank

theorem Plain.oneLine (h : Plain s.toList) : OneLine s := by
  rw [← String.ofList_toList (s := s)]
  exact oneLine_ofList fun c hc => (h c hc).1

/-! ### Numbers -/

theorem isBlank_of_isDigit {c : Char} (h : c.isDigit = true) : isBlank c = false := by
  obtain ⟨hlow, hhigh⟩ := isDigit_range h
  simp only [isBlank, Bool.or_eq_false_iff, Bool.and_eq_false_iff, decide_eq_false_iff_not,
    beq_eq_false_iff_ne]
  omega

theorem isBlank_of_mem_toDigits {c : Char} {n : Nat} (h : c ∈ Nat.toDigits 10 n) :
    isBlank c = false :=
  isBlank_of_isDigit (Nat.isDigit_of_mem_toDigits (by decide) (by decide) h)

theorem oneLine_toString (n : Nat) : OneLine (toString n) :=
  oneLine_ofList fun _ => isBlank_of_mem_toDigits

end Text

open Text

theorem Position.oneLine_text (p : Position) : OneLine p.text :=
  ((oneLine_toString p.line).append (by decide)).append (oneLine_toString p.column)

theorem Decimal.oneLine_text (d : Decimal) : OneLine d.text := by
  rw [text]
  split
  · exact oneLine_toString _
  · dsimp only
    split
    · exact oneLine_toString _
    · refine ((oneLine_toString _).append (by decide)).append (oneLine_ofList fun c hc => ?_)
      -- of zeros and digits some are left
      have hpadded := (List.dropWhile_suffix _).subset (List.mem_reverse.mp hc)
      rcases List.mem_append.mp (List.mem_reverse.mp hpadded) with hzero | hdigit
      · rw [List.eq_of_mem_replicate hzero]
        decide
      · exact isBlank_of_mem_toDigits hdigit

theorem Binary64.oneLine_text (x : Float) : OneLine (text x) := by
  rw [text]
  split
  · split
    · split <;> decide
    · decide
  · have hmagnitude : ∀ d : Dyadic,
        OneLine (if d.mantissa = 0 then "0" else (Decimal.shortest d).text) := by
      intro d
      split
      · decide
      · exact Decimal.oneLine_text _
    dsimp only
    split
    · exact OneLine.append (by decide) (hmagnitude _)
    · exact hmagnitude _

end Easel
