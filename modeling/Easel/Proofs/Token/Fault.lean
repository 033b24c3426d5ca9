import Easel.Proofs.Token.Spacing

/-! The first malformed word of a source is found in what stands in front of it. A word that is open
was begun by a scanner that stood between two words, with the same tokens behind it, so the source
up to the word is read with these tokens; and whatever separates the word from what comes next,
ending it fails in the same way. -/

namespace Easel

open Text

namespace Scanner

variable {s t : Scanner} {c : Char} {f : Fault} {seen rest : List Char}

/-! ### Where a run fails -/

theorem endWord_of_read_error (h : s.read c = .error f) :
    separates c = true ∧ s.endWord = .error f := by
  rcases read_cases s c with ⟨rfl, heq⟩ | ⟨-, hblank, heq⟩ | ⟨kind, -, -, -, hends, heq⟩ | ⟨-, heq⟩
  · rcases Except.bind_eq_error_iff.mp (heq.symm.trans h) with hend | ⟨u, -, hdone⟩
    · exact ⟨by decide, hend⟩
    · cases hdone
  · exact ⟨by simp [separates, hblank], heq.symm.trans h⟩
  · rcases Except.bind_eq_error_iff.mp (heq.symm.trans h) with hend | ⟨u, -, hdone⟩
    · rcases hends with hc | ⟨-, hdot⟩
      · exact ⟨hc, hend⟩
      · exact absurd hend (endWord_of_dotStandsAlone hdot)
    · cases hdone
  · cases heq.symm.trans h

/-- A character is only refused for the word that it ends. -/
theorem endWord_of_step_error (h : s.step c = .error f) :
    s.inComment = false ∧ separates c = true ∧ s.endWord = .error f := by
  cases hin : s.inComment with
  | true =>
    rw [step_inComment hin] at h
    cases h
  | false =>
    rw [step_outside hin] at h
    rcases Except.bind_eq_error_iff.mp h with hread | ⟨u, -, hdone⟩
    · exact ⟨rfl, endWord_of_read_error hread⟩
    · cases hdone

/-- A run fails at a character, behind others that are taken in. -/
theorem run_eq_error {cs : List Char} (h : s.run cs = .error f) :
    ∃ seen c rest t, cs = seen ++ c :: rest ∧ s.run seen = .ok t ∧ t.step c = .error f := by
  induction cs generalizing s with
  | nil => cases h
  | cons c cs ih =>
    rw [run_cons] at h
    rcases Except.bind_eq_error_iff.mp h with hstep | ⟨u, hstep, hrest⟩
    · exact ⟨[], c, cs, s, rfl, rfl, hstep⟩
    · obtain ⟨seen, d, rest, t, rfl, hseen, hfails⟩ := ih hrest
      refine ⟨c :: seen, d, rest, t, rfl, ?_, hfails⟩
      rw [run_cons, hstep]
      exact hseen

/-- A source is refused when a word ends: at what separates it from the rest, or at the end. -/
theorem exists_endWord_of_scan_error {source : List Char} (h : Token.scan source = .error f) :
    ∃ seen rest s, source = seen ++ rest ∧ (∀ c ∈ rest.head?, separates c = true) ∧
      start.run seen = .ok s ∧ s.endWord = .error f := by
  rcases Except.bind_eq_error_iff.mp h with hrun | ⟨s, hrun, hfinish⟩
  · obtain ⟨seen, c, rest, s, hsource, hseen, hstep⟩ := run_eq_error hrun
    obtain ⟨-, hc, hend⟩ := endWord_of_step_error hstep
    refine ⟨seen, c :: rest, s, hsource, ?_, hseen, hend⟩
    rintro d ⟨⟩
    exact hc
  · refine ⟨source, [], s, (List.append_nil source).symm, nofun, hrun, ?_⟩
    rcases Except.bind_eq_error_iff.mp hfinish with hend | ⟨u, -, hdone⟩
    · exact hend
    · cases hdone

theorem endWord_eq_error (h : s.endWord = .error f) : ∃ w, s.word = some w ∧
    f.position = w.position ∧ f.cause.text = w.text := by
  rw [endWord] at h
  split at h
  · cases h
  · next w hword =>
    split at h
    · next cause hcause =>
      cases h
      exact ⟨w, hword, rfl, classify_error_text hcause⟩
    · cases h

/-! ### Where a word begins -/

/-- A scanner that has read `before` and has no word open, in front of the first character of a
word. -/
structure Began (u : Scanner) (before : List Char) : Prop where
  run : start.run before = .ok u
  word : u.word = none
  inComment : u.inComment = false

/-- An open word was begun by a scanner with the same tokens. -/
theorem exists_began {w : PendingWord} (hrun : start.run seen = .ok s) (hword : s.word = some w) :
    ∃ before u, seen = before ++ w.characters ∧ w.start = Cursor.after before ∧ Began u before ∧
      u.reversed = s.reversed := by
  induction seen using List.reverseRecOn generalizing s w with
  | nil =>
    cases hrun
    cases hword
  | append_singleton seen c ih =>
    obtain ⟨t, hseen, hstep⟩ := run_concat_eq_ok_iff.mp hrun
    cases hin : t.inComment with
    | true =>
      have hclosed := (Tracks.start.run hseen).closed hin
      rw [step_inComment hin] at hstep
      cases hstep
      cases hclosed.symm.trans hword
    | false =>
      obtain ⟨u, hread, rfl⟩ := step_eq_ok hin hstep
      rcases read_eq_ok hread with ⟨v, hend, hnone, -⟩ | ⟨kind, v, -, hend, rfl⟩ |
        ⟨v, -, -, hend, rfl⟩ | ⟨-, -, rfl⟩
      -- unless it is gathered, the character leaves no word open
      · cases (hnone.trans (endWord_eq_ok hend).1).symm.trans hword
      · cases (endWord_eq_ok hend).1.symm.trans hword
      · cases (endWord_eq_ok hend).1.symm.trans hword
      · cases ht : t.word with
        | none =>
          rw [gather, ht] at hword ⊢
          cases hword
          exact ⟨seen, t, rfl, (Tracks.start.run hseen).cursor, ⟨hseen, ht, hin⟩, rfl⟩
        | some w' =>
          obtain ⟨before, u, rfl, hstart, hbegan, htokens⟩ := ih hseen ht
          rw [gather, ht] at hword ⊢
          cases hword
          have hchars : (⟨w'.start, c :: w'.reversed⟩ : PendingWord).characters =
              w'.characters ++ [c] := List.reverse_cons
          exact ⟨before, u, by rw [hchars, List.append_assoc], hstart, hbegan, htokens⟩

theorem inComment_of_word {w : PendingWord} (hrun : start.run seen = .ok s)
    (hword : s.word = some w) : s.inComment = false := by
  cases hin : s.inComment with
  | false => rfl
  | true => cases ((Tracks.start.run hrun).closed hin).symm.trans hword

/-- Ending a word fails alike in front of everything that can follow it. -/
theorem scan_of_endWord_error (hrun : start.run seen = .ok s) (hin : s.inComment = false)
    (hend : s.endWord = .error f) (hrest : ∀ c ∈ rest.head?, separates c = true) :
    Token.scan (seen ++ rest) = .error f := by
  have hends : s.run rest >>= finish = s.endWord >>= fun u => u.run rest >>= finish :=
    Words.endsLine_finish.word.run hrest s hin
  rw [Token.scan, run_append, hrun]
  change (s.run rest >>= finish) = _
  rw [hends, hend]
  rfl

theorem Began.scan {u : Scanner} {before : List Char} (h : Began u before) : Token.scan before =
    .ok (u.reversed.reverse ++ [⟨.endOfFile, "", (Cursor.after before).afterLast⟩]) := by
  have hcursor : u.cursor = Cursor.after before := (Tracks.start.run h.run).cursor
  rw [Token.scan, h.run, ← hcursor]
  exact finish_of_none h.word

end Scanner

namespace Token

open Scanner

variable {file source : String} {d : Diagnostic}

/-- The first malformed word of a source: it stands between `before` and `after`, behind the tokens
`words`, and `d` reports it. -/
structure FirstFault (file source : String) (d : Diagnostic) (before word after : String)
    (words : List Token) : Prop where
  source_eq : source = before ++ word ++ after
  closes : ∀ c ∈ after.toList.head?, separates c = true
  diagnostic : ∃ position cause, d = .malformed file position cause ∧ cause.text = word ∧
    position.At before word
  /-- When the scanner of the source comes to the end of the word, it has the tokens `words`. -/
  reached : ∃ s, start.run (before ++ word).toList = .ok s ∧ s.reversed.reverse = words ∧
    s.word.map PendingWord.text = some word
  accepted : ofSource? file before = .ok (words ++ [endOf before])
  refused : ofSource? file (before ++ word) = .error d
  /-- What comes behind the word does not matter, as long as it does not go on with the word. -/
  decided : ∀ other : String, (∀ c ∈ other.toList.head?, separates c = true) →
    ofSource? file (before ++ word ++ other) = .error d

/-- A source that is refused is refused for its first malformed word. The source up to the word is
accepted with the tokens that stand in front of the word, and with the word behind it is refused in
the same way. -/
theorem ofSource?_error_firstFault (h : ofSource? file source = .error d) :
    ∃ before word after words, FirstFault file source d before word after words := by
  obtain ⟨f, hscan, rfl⟩ := Except.mapError_eq_error_iff.mp h
  obtain ⟨seen, rest, s, hsource, hcloses, hrun, hend⟩ := exists_endWord_of_scan_error hscan
  obtain ⟨w, hword, hposition, htext⟩ := endWord_eq_error hend
  obtain ⟨before, u, rfl, hstart, hbegan, htokens⟩ := exists_began hrun hword
  have hin := inComment_of_word hrun hword
  have hchars : w.characters = w.text.toList := String.toList_ofList.symm
  have hdecided (other : String) (hother : ∀ c ∈ other.toList.head?, separates c = true) :
      ofSource? file (String.ofList before ++ w.text ++ other) = .error (f.diagnostic file) := by
    have hall : (String.ofList before ++ w.text ++ other).toList =
        before ++ w.characters ++ other.toList := by
      simp [hchars]
    rw [ofSource?, hall, scan_of_endWord_error hrun hin hend hother]
    rfl
  refine ⟨String.ofList before, w.text, String.ofList rest, u.reversed.reverse, ?_, ?_, ?_, ?_, ?_,
    ?_, hdecided⟩
  · rw [← String.toList_inj, hsource]
    simp [hchars]
  · rwa [String.toList_ofList]
  · refine ⟨f.position, f.cause, rfl, htext, ?_⟩
    rw [hposition, PendingWord.position, hstart]
    exact Cursor.position_at before w.text
  · refine ⟨s, ?_, by rw [htokens], by rw [hword]; rfl⟩
    simpa [hchars] using hrun
  · rw [ofSource?, String.toList_ofList, hbegan.scan, Cursor.afterLast_after]
    simp [endOf, Except.mapError, byteSize]
  · have hnothing := hdecided "" (by simp)
    rwa [String.append_empty] at hnothing

/-- A source whose first malformed word stands behind a dot, with another one behind it and what
would be a third in a comment. -/
def misspelt : String := "fill é # 1a\r\nb.c.2d\r3e"

theorem misspelt_firstFault : ∃ before word after words,
    ofSource? "é.paint" misspelt =
      .error (.malformed "é.paint" ⟨2, 5, 18, 2⟩ (.invalidElement "2d")) ∧
    FirstFault "é.paint" misspelt (.malformed "é.paint" ⟨2, 5, 18, 2⟩ (.invalidElement "2d"))
      before word after words := by
  have hread : ofSource? "é.paint" misspelt =
      .error (.malformed "é.paint" ⟨2, 5, 18, 2⟩ (.invalidElement "2d")) := by
    decide +kernel
  obtain ⟨before, word, after, words, hfault⟩ := ofSource?_error_firstFault hread
  exact ⟨before, word, after, words, hread, hfault⟩

end Token

end Easel
