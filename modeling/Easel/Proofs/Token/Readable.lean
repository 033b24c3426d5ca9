import Easel.Proofs.Number.Natural
import Easel.Proofs.Token.Spacing

/-! What is scanned as a number can be read as one. The words that are numbers are told by what is
counted in them, digits, dots and signs, while a number is read from left to right: its sign, the
digits before the point and those after it. The only operators are the signs that stand alone, the
asterisk and the slash. -/

namespace Easel

open Scanner

namespace Literal

variable {text digits whole fraction : List Char}

/-! ### Digits around a point -/

theorem mantissa_point (hwhole : ∀ c ∈ whole, isDigit c = true)
    (hfraction : ∀ c ∈ fraction, isDigit c = true) :
    mantissa (whole ++ '.' :: fraction) = (whole, fraction, []) := by
  have hpoint : ¬isDigit '.' = true := by decide
  have htake : (whole ++ '.' :: fraction).takeWhile isDigit = whole := by
    rw [List.takeWhile_append_of_pos hwhole, List.takeWhile_cons_of_neg hpoint, List.append_nil]
  have hdrop : (whole ++ '.' :: fraction).dropWhile isDigit = '.' :: fraction := by
    rw [List.dropWhile_append_of_pos hwhole, List.dropWhile_cons_of_neg hpoint]
  have hall : fraction.takeWhile isDigit = fraction := List.takeWhile_eq_self_iff.mpr hfraction
  have hrest : fraction.dropWhile isDigit = [] := List.dropWhile_eq_nil_iff.mpr hfraction
  rw [mantissa, htake, hdrop]
  show (whole, fraction.takeWhile isDigit, fraction.dropWhile isDigit) = _
  rw [hall, hrest]

/-- Digits with at most one dot among them are digits before and after a point, or digits alone. -/
theorem exists_point (hdigits : ∀ c ∈ digits, isDigit c = true ∨ c = '.')
    (hdots : digits.count '.' ≤ 1) :
    (∀ c ∈ digits, isDigit c = true) ∨
      ∃ whole fraction, digits = whole ++ '.' :: fraction ∧
        (∀ c ∈ whole, isDigit c = true) ∧ ∀ c ∈ fraction, isDigit c = true := by
  by_cases hdot : '.' ∈ digits
  · obtain ⟨whole, fraction, rfl⟩ := List.append_of_mem hdot
    have hcount : whole.count '.' = 0 ∧ fraction.count '.' = 0 := by
      rw [List.count_append, List.count_cons_self] at hdots
      omega
    have hplain (part : List Char) (hpart : part ⊆ whole ++ '.' :: fraction)
        (hnone : part.count '.' = 0) : ∀ c ∈ part, isDigit c = true := by
      intro c hc
      refine (hdigits c (hpart hc)).resolve_right ?_
      rintro rfl
      exact List.count_eq_zero.mp hnone hc
    refine .inr ⟨whole, fraction, rfl, hplain whole (by simp) hcount.1, hplain fraction ?_ hcount.2⟩
    intro c hc
    simp [hc]
  · refine .inl fun c hc => (hdigits c hc).resolve_right ?_
    rintro rfl
    exact hdot hc

/-- Digits with at most one dot among them spell a magnitude, if there is a digit. -/
theorem isSome_magnitude? (hdigits : ∀ c ∈ digits, isDigit c = true ∨ c = '.')
    (hdigit : ∃ c ∈ digits, isDigit c = true) (hdots : digits.count '.' ≤ 1) :
    (magnitude? digits).isSome = true := by
  obtain ⟨d, hd, hdigit⟩ := hdigit
  rcases exists_point hdigits hdots with hall | ⟨whole, fraction, rfl, hwhole, hfraction⟩
  · have hne : digits ≠ [] := List.ne_nil_of_mem hd
    rw [magnitude?, mantissa_digits hall]
    simp [hne, exponent?]
  · have hne : ¬(whole = [] ∧ fraction = []) := by
      rintro ⟨rfl, rfl⟩
      rw [List.nil_append, List.mem_singleton] at hd
      subst hd
      cases hdigit
    rw [magnitude?, mantissa_point hwhole hfraction]
    simp [hne, exponent?]

theorem isSome_read? (h : (magnitude? (sign text).2).isSome = true) :
    (read? text).isSome = true := by
  rw [read?]
  dsimp only
  rw [Option.isSome_map]
  split
  · rfl
  · exact h

end Literal

/-! ### Numbers and operators -/

namespace Words

variable {word : List Char}

/-- Digits and dots have no sign in front of them. -/
theorem sign_of_digits {digits : List Char}
    (hdigits : ∀ c ∈ digits, Literal.isDigit c = true ∨ c = '.') :
    Literal.sign digits = (false, digits) := by
  unfold Literal.sign
  split
  · cases isSign_eq_false (hdigits '-' List.mem_cons_self)
  · cases isSign_eq_false (hdigits '+' List.mem_cons_self)
  · rfl

/-- What is counted as a number can be read as one. -/
theorem IsNumber.isSome_read? (h : IsNumber word) : (Literal.read? word).isSome = true := by
  obtain ⟨hsign, hdigits, hdigit, hdots⟩ := h
  have hmagnitude := Literal.isSome_magnitude? hdigits hdigit hdots
  apply Literal.isSome_read?
  rcases hsign with rfl | rfl | rfl
  · rw [List.nil_append, sign_of_digits hdigits]
    exact hmagnitude
  · exact hmagnitude
  · exact hmagnitude

end Words

namespace Token

/-- A token that is a number only if it can be read as one, and an operator only if it is one of
four. -/
structure Readable (t : Token) : Prop where
  number : t.kind = .number →
    Words.IsNumber t.text.toList ∧ (Literal.read? t.text.toList).isSome = true
  operator : t.kind = .operator → t.text ∈ ["+", "-", "*", "/"]

variable {t : Token}

theorem operator_of_delimiter {c : Char} (h : delimiter? c = some .operator) :
    String.singleton c ∈ ["+", "-", "*", "/"] := by
  unfold delimiter? at h
  split at h <;> first | decide | cases h

theorem readable_of_element {last : Option TokenKind} {word : List Char} {kind : TokenKind}
    {position : Position} (h : Words.IsElement last word kind) :
    Readable ⟨kind, String.ofList word, position⟩ := by
  cases h with
  | number hword =>
    refine ⟨fun _ => ?_, nofun⟩
    rw [String.toList_ofList]
    exact ⟨hword, hword.isSome_read?⟩
  | operator hword =>
    have hmem : String.ofList word ∈ ["+", "-", "*", "/"] := by
      rcases hword with rfl | rfl <;> decide
    exact ⟨nofun, fun _ => hmem⟩
  | name => exact ⟨nofun, nofun⟩

theorem readable_of_delimiter {c : Char} {kind : TokenKind} {position : Position}
    (h : delimiter? c = some kind) : Readable ⟨kind, String.singleton c, position⟩ where
  number := by
    rintro rfl
    unfold delimiter? at h
    split at h <;> cases h
  operator := by
    rintro rfl
    exact operator_of_delimiter h

theorem Arises.readable (h : t.Arises) : t.Readable := by
  cases h with
  | word hclass =>
    have h := Words.classify_eq_iff.mp hclass
    cases h with
    | element helement => exact readable_of_element helement
  | delimiter hkind => exact readable_of_delimiter hkind
  | dot => exact ⟨nofun, nofun⟩
  | mark => exact ⟨nofun, nofun⟩

end Token

end Easel
