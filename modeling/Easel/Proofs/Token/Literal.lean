import Easel.Proofs.Text.Ascii
import Easel.Proofs.Token.Alike

/-! A number that is written behind a line end is one token, whatever comes before it. The only
numbers that are divided are those that begin with a dot: behind a closing bracket, which may be as
many lines above as it likes, the dot is a token by itself. -/

namespace Easel

open Text Scanner

namespace Words

variable {c : Char} {before word digits : List Char} {ts : List Token}

/-! ### Numbers as words -/

theorem separates_eq_false_of_isNumeric (h : isNumeric c = true) : separates c = false := by
  rw [isNumeric_iff, isSign_iff] at h
  rcases h with hdigit | rfl | rfl | rfl
  · rw [isDigit_eq] at hdigit
    obtain ⟨hlow, hhigh⟩ := isDigit_range hdigit
    have hblank : isBlank c = false := by
      simp only [isBlank, Bool.or_eq_false_iff, Bool.and_eq_false_iff, decide_eq_false_iff_not,
        beq_eq_false_iff_ne]
      omega
    have hne (d : Char) (hd : d.isDigit = false) : c ≠ d := by
      rintro rfl
      cases hd.symm.trans hdigit
    refine separates_eq_false_iff.mpr ⟨hblank, hne '#' rfl, ?_⟩
    unfold delimiter?
    split <;> first | rfl | cases hdigit
  · decide
  · decide
  · decide

theorem IsNumber.unseparated (h : IsNumber word) : ∀ c ∈ word, separates c = false :=
  fun c hc => separates_eq_false_of_isNumeric (List.all_eq_true.mp h.numeric c hc)

theorem isWhole_of_notMem (hne : word ≠ []) (hdot : '.' ∉ word) : IsWhole ts word where
  nonempty := hne
  noDot _ hhead := hdot (List.mem_of_mem_head? hhead)
  noMember name rest hword := by
    rw [hword] at hdot
    exact absurd (List.mem_append_right name List.mem_cons_self) hdot

theorem IsNumber.isWhole (h : IsNumber word) (hdot : BehindBracket ts → word.head? ≠ some '.') :
    IsWhole ts word where
  nonempty := by
    rintro rfl
    cases h.digit
  noDot := hdot
  noMember name rest hword := by
    have hnumeric := h.numeric
    rw [hword, List.all_append, Bool.and_eq_true] at hnumeric
    exact isName_eq_false hnumeric.1

theorem IsNumber.readsWord (h : IsNumber word) (hdot : BehindBracket ts → word.head? ≠ some '.') :
    ReadsWord before ts word (.ok (ts ++ [.standing before .number word])) :=
  .element (h.isWhole hdot) (.number h)

/-- A dot in front of a number leaves a number behind it. -/
theorem IsNumber.of_dot (h : IsNumber ('.' :: digits)) : IsNumber digits := by
  obtain ⟨hnumeric, hdigit, hlead, hdots⟩ := isNumber_iff.mp h
  rw [List.all_cons, Bool.and_eq_true] at hnumeric
  have hcount : digits.count '.' = 0 := by simpa using hdots
  refine isNumber_iff.mpr ⟨hnumeric.2, by simpa [Literal.isDigit] using hdigit, ?_, by omega⟩
  rw [signsLead_iff, List.tail_cons] at hlead
  exact signsLead_iff.mpr fun c hc => hlead c (List.mem_of_mem_tail hc)

theorem not_behindBracket_concat {kind : TokenKind} (hbrace : kind ≠ .closeBrace)
    (hparen : kind ≠ .closeParen) : ¬BehindBracket (ts ++ [.standing before kind word]) := by
  simp [BehindBracket, lastKind?, Token.standing, hbrace, hparen]

/-- Behind a closing bracket the dot is taken from a number. -/
theorem IsNumber.readsWord_dot (h : IsNumber ('.' :: digits)) (hlast : BehindBracket ts) :
    ReadsWord before ts ('.' :: digits) (.ok (ts ++ [.standing before .dot ['.']] ++
      [.standing (before ++ ['.']) .number digits])) :=
  .dot hlast (h.of_dot.readsWord fun hbracket =>
    absurd hbracket (not_behindBracket_concat nofun nofun))

end Words

/-! ### Behind a line end -/

namespace Scanner

variable {s : Scanner} {cs : List Char}

/-- A line end leaves neither a word nor a comment open. -/
theorem eq_between_of_newline (hrun : start.run (cs ++ ['\n']) = .ok s) :
    s = between (cs ++ ['\n']) s.reversed.reverse := by
  obtain ⟨t, hcs, hstep⟩ := run_concat_eq_ok_iff.mp hrun
  have htracks : s.Tracks (cs ++ ['\n']) := Tracks.start.run hrun
  have hin : s.inComment = false := htracks.inComment_eq_false.mpr (by simp)
  have hword : s.word = none := by
    cases ht : t.inComment with
    | true =>
      have hclosed := (Tracks.start.run hcs).closed ht
      rw [step_inComment ht] at hstep
      cases hstep
      exact hclosed
    | false =>
      obtain ⟨u, hread, rfl⟩ := step_eq_ok ht hstep
      rw [read_blank (by decide) (by decide)] at hread
      exact (endWord_eq_ok hread).1
  rw [between, ← htracks.cursor, List.reverse_reverse, ← hin, ← hword]

end Scanner

namespace Token

open Words

variable {file source word : String} {tokens words us : List Token}

theorem exists_between_of_newline (h : ofSource? file source = .ok tokens)
    (hend : source.toList.getLast? = some '\n') :
    ∃ words, tokens = words ++ [endOf source] ∧
      start.run source.toList = .ok (between source.toList words) := by
  obtain ⟨cs, hcs⟩ := List.getLast?_eq_some_iff.mp hend
  obtain ⟨s, hrun, hfinish⟩ := Except.bind_eq_ok_iff.mp (Except.mapError_eq_ok_iff.mp h)
  have hs : s = between source.toList s.reversed.reverse := by
    rw [hcs] at hrun ⊢
    exact eq_between_of_newline hrun
  rw [hs, finish_between] at hfinish
  exact ⟨s.reversed.reverse, (Except.ok.inj hfinish).symm, by rw [hrun, ← hs]⟩

/-- A word behind a complete one is read by the grammar of words. -/
theorem ofSource?_append_word (hrun : start.run source.toList = .ok (between source.toList words))
    (hword : ∀ c ∈ word.toList, separates c = false)
    (hread : ReadsWord source.toList words word.toList (.ok us)) :
    ofSource? file (source ++ word) = .ok (us ++ [endOf (source ++ word)]) := by
  have hfinish : (between source.toList words).run word.toList >>= finish =
      finish (between (source.toList ++ word.toList) us) :=
    hread.run hword endsLine_finish.word
  rw [ofSource?, scan, String.toList_append, run_append, hrun]
  change ((between source.toList words).run word.toList >>= finish).mapError _ = _
  rw [hfinish, ← String.toList_append, finish_between]
  rfl

/-- Behind a source that ends in a line end, a number is one more token, unless it begins with a dot
and the last token is a closing bracket: then the dot is a token, and what follows it is one. -/
theorem ofSource?_append_number (h : ofSource? file source = .ok tokens)
    (hend : source.toList.getLast? = some '\n') (hword : IsNumber word.toList) :
    ∃ words, tokens = words ++ [endOf source] ∧
      ((BehindBracket words → word.toList.head? ≠ some '.') →
        ofSource? file (source ++ word) = .ok
          (words ++ [.standing source.toList .number word.toList] ++ [endOf (source ++ word)])) ∧
      (BehindBracket words → ∀ digits, word.toList = '.' :: digits →
        ofSource? file (source ++ word) = .ok
          (words ++ [.standing source.toList .dot ['.']] ++
            [.standing (source.toList ++ ['.']) .number digits] ++ [endOf (source ++ word)])) := by
  obtain ⟨words, htokens, hrun⟩ := exists_between_of_newline h hend
  refine ⟨words, htokens, ?_, ?_⟩
  · intro hdot
    exact ofSource?_append_word hrun hword.unseparated (hword.readsWord hdot)
  · intro hlast digits hdigits
    have hread := hword
    rw [hdigits] at hread
    apply ofSource?_append_word hrun hword.unseparated
    rw [hdigits]
    exact hread.readsWord_dot hlast

/-- A source that ends behind a closing bracket, a comment and a line end of two characters. -/
def fenced : String := "a \x7b1 0\x7d # é\r\n"

def fencedTokens : List Token :=
  [⟨.name, "a", ⟨1, 1, 0, 1⟩⟩, ⟨.openBrace, "\x7b", ⟨1, 3, 2, 1⟩⟩, ⟨.number, "1", ⟨1, 4, 3, 1⟩⟩,
    ⟨.number, "0", ⟨1, 6, 5, 1⟩⟩, ⟨.closeBrace, "\x7d", ⟨1, 7, 6, 1⟩⟩]

theorem ofSource?_fenced : ofSource? "é.paint" fenced = .ok (fencedTokens ++ [endOf fenced]) := by
  decide +kernel

theorem fenced_append_number :
    ofSource? "é.paint" (fenced ++ "-7.") = .ok (fencedTokens ++
      [.standing fenced.toList .number "-7.".toList] ++ [endOf (fenced ++ "-7.")]) ∧
    ofSource? "é.paint" (fenced ++ ".5") = .ok (fencedTokens ++
      [.standing fenced.toList .dot ['.']] ++ [.standing (fenced.toList ++ ['.']) .number ['5']] ++
        [endOf (fenced ++ ".5")]) := by
  have hend : fenced.toList.getLast? = some '\n' := by decide +kernel
  constructor
  · obtain ⟨words, htokens, hnumber, -⟩ := ofSource?_append_number ofSource?_fenced hend
      (isNumber_iff.mpr (by decide +kernel) : IsNumber "-7.".toList)
    obtain rfl := List.append_cancel_right htokens
    exact hnumber fun _ => by decide +kernel
  · obtain ⟨words, htokens, -, hdot⟩ := ofSource?_append_number ofSource?_fenced hend
      (isNumber_iff.mpr (by decide +kernel) : IsNumber ".5".toList)
    obtain rfl := List.append_cancel_right htokens
    exact hdot (.inl rfl) ['5'] (by decide +kernel)

/-- A number that begins with a dot is two tokens in the line below a closing bracket. -/
theorem exists_ofSource?_append_number_ne : ∃ source word tokens us,
    ofSource? "é.paint" source = .ok tokens ∧ source.toList.getLast? = some '\n' ∧
      IsNumber word.toList ∧ ofSource? "é.paint" (source ++ word) = .ok us ∧
      us.dropLast.map lexeme ≠ tokens.dropLast.map lexeme ++ [(.number, word)] := by
  refine ⟨fenced, ".5", fencedTokens ++ [endOf fenced], fencedTokens ++
    [⟨.dot, ".", ⟨2, 1, 14, 1⟩⟩, ⟨.number, "5", ⟨2, 2, 15, 1⟩⟩, ⟨.endOfFile, "", ⟨3, 0, 16, 0⟩⟩],
    ofSource?_fenced, ?_, ?_, ?_, ?_⟩
  · decide +kernel
  · exact isNumber_iff.mpr (by decide +kernel)
  · decide +kernel
  · decide +kernel

end Token

end Easel
