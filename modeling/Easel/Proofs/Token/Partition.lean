import Easel.Proofs.Token.Scanning

/-! The tokens of a source share it out: no character is lost, and none belongs to two of them. -/

namespace Easel

open Text

namespace Token

/-- Tokens that share out a source. Each of them is a stretch of it, they stand one behind the
other, and the characters that belong to none are the blanks and the comments. -/
structure Partition (source : String) (words : List Token) : Prop where
  kind : ∀ t ∈ words, t.kind ≠ .endOfFile
  nonempty : ∀ t ∈ words, t.text ≠ ""
  marks : ∀ t ∈ words, t.position.Marks source t.text
  ordered : words.Pairwise fun t u => t.position.offset + t.position.length ≤ u.position.offset
  covers_iff : ∀ (before : String) (c : Char) (after : String),
    source = before ++ String.singleton c ++ after →
      ((∃ t ∈ words, t.Covers before.utf8ByteSize) ↔
        ¬(isBlank c = true ∨ InComment before.toList c))

/-- The mark that follows the last token of a source. -/
def endOf (source : String) : Token :=
  ⟨.endOfFile, "", ⟨lineCount source.toList + 1, 0, source.utf8ByteSize, 0⟩⟩

variable {file source : String} {tokens : List Token}

/-- The layout that gives the tokens of a source. -/
theorem ofSource?_layout (h : ofSource? file source = .ok tokens) :
    ∃ words, tokens = words ++ [endOf source] ∧ Layout source.toList words := by
  obtain ⟨words, htokens, hlayout⟩ := scan_layout (Except.mapError_eq_ok_iff.mp h)
  refine ⟨words, ?_, hlayout⟩
  rw [htokens, Cursor.afterLast_after, byteSize_toList]
  rfl

end Token

theorem Layout.partition {source : String} {words : List Token} (h : Layout source.toList words) :
    Token.Partition source words where
  kind t ht := by
    obtain ⟨before, after, -, hbehind⟩ := h.behind ht
    exact hbehind.kind
  nonempty t ht := by
    obtain ⟨before, after, -, hbehind⟩ := h.behind ht
    intro htext
    exact hbehind.nonempty (by rw [htext]; rfl)
  marks t ht := by
    obtain ⟨before, after, hsource, hbehind⟩ := h.behind ht
    rw [← String.ofList_toList (s := source), hsource]
    exact hbehind.marks after
  ordered := h.ordered
  covers_iff before c after hsource := by
    have hsplit : source.toList = before.toList ++ c :: after.toList := by simp [hsource]
    rw [← byteSize_toList before]
    exact h.covers_iff hsplit

/-- The tokens of a source share it out, up to the mark behind them. -/
theorem Token.ofSource?_partition {file source : String} {tokens : List Token}
    (h : ofSource? file source = .ok tokens) :
    ∃ words, tokens = words ++ [endOf source] ∧ Partition source words := by
  obtain ⟨words, htokens, hlayout⟩ := ofSource?_layout h
  exact ⟨words, htokens, hlayout.partition⟩

/-- A source with letters of two bytes, a comment, and a line end of two characters. -/
def Token.remark : String := "fill é \x7b1 .5 0\x7d # ö\r\n"

theorem Token.remark_partition :
    ∃ words, ofSource? "é.paint" remark = .ok (words ++ [endOf remark]) ∧
      Partition remark words := by
  have hread : ofSource? "é.paint" remark = .ok
      [⟨.name, "fill", ⟨1, 1, 0, 4⟩⟩, ⟨.name, "é", ⟨1, 6, 5, 2⟩⟩,
        ⟨.openBrace, "\x7b", ⟨1, 8, 8, 1⟩⟩,
        ⟨.number, "1", ⟨1, 9, 9, 1⟩⟩, ⟨.number, ".5", ⟨1, 11, 11, 2⟩⟩,
        ⟨.number, "0", ⟨1, 14, 14, 1⟩⟩, ⟨.closeBrace, "\x7d", ⟨1, 15, 15, 1⟩⟩,
        ⟨.endOfFile, "", ⟨2, 0, 23, 0⟩⟩] := by
    decide +kernel
  obtain ⟨words, htokens, hpartition⟩ := ofSource?_partition hread
  exact ⟨words, by rw [hread, htokens], hpartition⟩

end Easel
