import Mathlib.Data.List.Nodup
import Easel.Proofs.Text.Place
import Easel.Token.Scan

/-! How a source is laid out: token by token, with blanks and comments between them. `Layout` builds
a text from its beginning and collects the tokens on the way; scanning keeps one for what it has
read, apart from the word that is still open. -/

namespace Easel

open Text

/-- Whether a character that comes behind `before` lies in a comment: there is a number sign in its
line, at it or in front of it. -/
def Text.InComment (before : List Char) (c : Char) : Prop := '#' ∈ lastLine (before ++ [c])

instance (before : List Char) (c : Char) : Decidable (InComment before c) :=
  inferInstanceAs (Decidable (_ ∈ _))

/-- Characters without blanks and number signs. -/
def Text.Plain (cs : List Char) : Prop := ∀ c ∈ cs, isBlank c = false ∧ c ≠ '#'

/-- A token that stands right behind `before`, outside of a comment. -/
structure Token.Behind (t : Token) (before : List Char) : Prop where
  kind : t.kind ≠ .endOfFile
  nonempty : t.text.toList ≠ []
  plain : Plain t.text.toList
  outside : '#' ∉ lastLine before
  position : t.position = (Cursor.after before).position t.text.utf8ByteSize

/-- Characters that are tokens with blanks and comments between them. -/
inductive Layout : List Char → List Token → Prop
  | start : Layout [] []
  | gap {cs : List Char} {ts : List Token} {c : Char} (h : Layout cs ts)
      (hc : isBlank c = true ∨ InComment cs c) : Layout (cs ++ [c]) ts
  | token {cs : List Char} {ts : List Token} {t : Token} (h : Layout cs ts) (ht : t.Behind cs) :
      Layout (cs ++ t.text.toList) (ts ++ [t])

/-! ### Lines without a comment -/

section Plain

variable {cs before : List Char} {c : Char}

theorem Text.Plain.newline_notMem (h : Plain cs) : '\n' ∉ cs := by
  intro hmem
  exact absurd (h _ hmem).1 (by decide)

theorem Text.Plain.of_append_left {ds : List Char} (h : Plain (cs ++ ds)) : Plain cs :=
  fun c hc => h c (List.mem_append_left ds hc)

/-- Plain characters do not begin a comment. -/
theorem Text.Plain.outside (h : Plain cs) (hbefore : '#' ∉ lastLine before) :
    '#' ∉ lastLine (before ++ cs) := by
  rw [lastLine_append before h.newline_notMem, List.mem_append, not_or]
  exact ⟨hbefore, fun hmem => (h _ hmem).2 rfl⟩

theorem outside_concat (hbefore : '#' ∉ lastLine before) (hc : c ≠ '#') :
    '#' ∉ lastLine (before ++ [c]) := by
  rcases Decidable.em (c = '\n') with rfl | hline
  · simp
  · simp [lastLine_concat before hline, hbefore, Ne.symm hc]

theorem inComment_of_mem (hbefore : '#' ∈ lastLine before) (hc : c ≠ '\n') :
    InComment before c := by
  rw [InComment, lastLine_concat before hc]
  exact List.mem_append_left _ hbefore

theorem inComment_numberSign (before : List Char) : InComment before '#' := by
  rw [InComment, lastLine_concat before (by decide)]
  simp

end Plain

/-! ### What a layout says about its tokens -/

/-- A character of a text of two parts is in the second part or in the first. -/
theorem splits_append {cs ds before after : List Char} {c : Char}
    (h : cs ++ ds = before ++ c :: after) :
    (∃ us, before = cs ++ us ∧ ds = us ++ c :: after) ∨ ∃ us, cs = before ++ c :: us := by
  rcases List.append_eq_append_iff.mp h with ⟨us, hbefore, hds⟩ | ⟨us, hcs, hrest⟩
  · exact .inl ⟨us, hbefore, hds⟩
  · cases us with
    | nil => exact .inl ⟨[], by simpa using hcs.symm, hrest.symm⟩
    | cons d us =>
      obtain ⟨rfl, -⟩ := List.cons.inj hrest
      exact .inr ⟨us, hcs⟩

namespace Token

/-- Whether the byte at an offset of the source belongs to a token. -/
def Covers (t : Token) (offset : Nat) : Prop :=
  t.position.offset ≤ offset ∧ offset < t.position.offset + t.position.length

variable {t : Token} {before : List Char}

theorem Behind.offset_eq (h : t.Behind before) : t.position.offset = byteSize before := by
  rw [h.position, Cursor.after_eq]
  rfl

theorem Behind.length_eq (h : t.Behind before) : t.position.length = byteSize t.text.toList := by
  rw [h.position, byteSize_toList]
  rfl

theorem Behind.marks (h : t.Behind before) (after : List Char) :
    t.position.Marks (String.ofList (before ++ t.text.toList ++ after)) t.text := by
  refine ⟨String.ofList before, String.ofList after, ?_, ?_⟩
  · rw [String.ofList_append, String.ofList_append, String.ofList_toList]
  · rw [h.position]
    exact Cursor.position_at before t.text

end Token

namespace Layout

variable {cs : List Char} {ts : List Token}

theorem behind (h : Layout cs ts) {t : Token} (ht : t ∈ ts) :
    ∃ before after, cs = before ++ t.text.toList ++ after ∧ t.Behind before := by
  induction h with
  | start => cases ht
  | @gap cs ts c _ _ ih =>
    obtain ⟨before, after, rfl, hbehind⟩ := ih ht
    exact ⟨before, after ++ [c], by rw [List.append_assoc _ after], hbehind⟩
  | @token cs ts u _ hu ih =>
    rw [List.mem_append, List.mem_singleton] at ht
    rcases ht with ht | rfl
    · obtain ⟨before, after, rfl, hbehind⟩ := ih ht
      exact ⟨before, after ++ u.text.toList, by rw [List.append_assoc _ after], hbehind⟩
    · exact ⟨cs, [], by rw [List.append_nil], hu⟩

/-- Tokens end before what comes behind them. -/
theorem end_le (h : Layout cs ts) {t : Token} (ht : t ∈ ts) :
    t.position.offset + t.position.length ≤ byteSize cs := by
  obtain ⟨before, after, rfl, hbehind⟩ := h.behind ht
  rw [hbehind.offset_eq, hbehind.length_eq, byteSize_append, byteSize_append]
  omega

theorem ordered (h : Layout cs ts) :
    ts.Pairwise fun t u => t.position.offset + t.position.length ≤ u.position.offset := by
  induction h with
  | start => exact .nil
  | gap _ _ ih => exact ih
  | @token cs ts u h hu ih =>
    rw [List.pairwise_append]
    refine ⟨ih, List.pairwise_singleton _ _, ?_⟩
    intro t ht v hv
    rw [List.mem_singleton] at hv
    rw [hv, hu.offset_eq]
    exact h.end_le ht

theorem length_pos (h : Layout cs ts) {t : Token} (ht : t ∈ ts) : 0 < t.position.length := by
  obtain ⟨before, after, -, hbehind⟩ := h.behind ht
  obtain ⟨c, rest, hcons⟩ := List.exists_cons_of_ne_nil hbehind.nonempty
  rw [hbehind.length_eq, hcons, byteSize_cons]
  exact Nat.add_pos_left c.utf8Size_pos _

/-- No two tokens stand in the same place. -/
theorem position_inj (h : Layout cs ts) {t u : Token} (ht : t ∈ ts) (hu : u ∈ ts)
    (hposition : t.position = u.position) : t = u := by
  have hnodup : (ts.map (·.position)).Nodup := by
    refine List.pairwise_map.mpr (h.ordered.imp_of_mem fun {v w} hv _ hle heq => ?_)
    have hpos := h.length_pos hv
    rw [heq] at hle hpos
    omega
  exact List.inj_on_of_nodup_map hnodup ht hu hposition

/-- A character is covered by a token if and only if it is neither blank nor in a comment. -/
theorem covers_iff (h : Layout cs ts) {before after : List Char} {c : Char}
    (hcs : cs = before ++ c :: after) :
    (∃ t ∈ ts, t.Covers (byteSize before)) ↔ ¬(isBlank c = true ∨ InComment before c) := by
  induction h generalizing after with
  | start => simp at hcs
  | @gap cs ts d h hd ih =>
    rcases splits_append hcs with ⟨us, rfl, hlast⟩ | ⟨us, hus⟩
    · obtain ⟨rfl, rfl, rfl⟩ : us = [] ∧ c = d ∧ after = [] := by
        simpa [List.singleton_eq_append_iff] using hlast
      rw [List.append_nil]
      refine iff_of_false ?_ (not_not_intro hd)
      rintro ⟨t, ht, -, hlt⟩
      exact absurd (h.end_le ht) (Nat.not_le_of_lt hlt)
    · exact ih hus
  | @token cs ts u h hu ih =>
    rcases splits_append hcs with ⟨us, rfl, htext⟩ | ⟨us, hus⟩
    · have hplain := hu.plain
      rw [htext, List.append_cons] at hplain
      have hc : isBlank c = false ∧ c ≠ '#' := hplain c (by simp)
      have hin : ¬InComment (cs ++ us) c := by
        rw [InComment, List.append_assoc]
        exact hplain.of_append_left.outside hu.outside
      refine iff_of_true ⟨u, by simp, ?_⟩ ?_
      · have hpos := c.utf8Size_pos
        rw [Token.Covers, hu.offset_eq, hu.length_eq, htext]
        simp only [byteSize_append, byteSize_cons]
        omega
      · simp [hc.1, hin]
    · have hnot : ¬u.Covers (byteSize before) := by
        have hpos := c.utf8Size_pos
        rw [Token.Covers, hu.offset_eq, hus, byteSize_append, byteSize_cons]
        omega
      rw [← ih hus]
      simp [or_and_right, exists_or, hnot]

end Layout

end Easel
