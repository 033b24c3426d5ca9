import Easel.Proofs.Diagnostic.Steps
import Easel.Proofs.Token.Layout

/-! Scanning follows the layout of a source. What a scanner has read is laid out as its tokens, up
to the word that is open, and its cursor and its comment mark are those of the place behind; every
character that it takes in keeps this up. A fault is a word of the source that no rule accepts. -/

namespace Easel

open Text

/-- The word that a fault is about. -/
def Malformed.text : Malformed → String
  | misplacedOperator text | invalidElement text => text

namespace Scanner

/-- Whether a character ends the word in front of it, whatever that word is. -/
def separates (c : Char) : Bool := isBlank c || c = '#' || (delimiter? c).isSome

/-- Characters that can be one word. -/
structure Unbroken (word : List Char) : Prop where
  nonempty : word ≠ []
  unseparated : ∀ c ∈ word, separates c = false

/-- A word can begin behind a separator, behind a dot, and in front of everything. -/
def Opens (before : List Char) : Prop := ∀ c ∈ before.getLast?, separates c = true ∨ c = '.'

/-- A fault whose word begins right behind `before`. -/
structure Fault.Behind (f : Fault) (before : List Char) : Prop where
  laid : ∃ ts, Layout before ts
  outside : '#' ∉ lastLine before
  opens : Opens before
  word : Unbroken f.cause.text.toList
  position : f.position = (Cursor.after before).position f.cause.text.utf8ByteSize

/-- A word between what comes behind tokens, blanks and comments and what comes behind the word. -/
structure Element (before word after : List Char) : Prop where
  laid : ∃ ts, Layout before ts
  outside : '#' ∉ lastLine before
  opens : Opens before
  word : Unbroken word
  closes : ∀ c ∈ after.head?, separates c = true

theorem Fault.Behind.element {f : Fault} {before after : List Char} (h : f.Behind before)
    (hafter : ∀ c ∈ after.head?, separates c = true) :
    Element before f.cause.text.toList after :=
  ⟨h.laid, h.outside, h.opens, h.word, hafter⟩

end Scanner

open Scanner

/-- A word that was begun right behind `before`. -/
structure PendingWord.Behind (w : PendingWord) (before : List Char) : Prop where
  start : w.start = Cursor.after before
  outside : '#' ∉ lastLine before
  opens : Opens before
  word : Unbroken w.characters

namespace Scanner

/-- The tokens of a scanner are laid out in `cs`, and its open word ends them. -/
def Spells (s : Scanner) (cs : List Char) : Prop :=
  match s.word with
  | none => Layout cs s.reversed.reverse
  | some w => ∃ before, cs = before ++ w.characters ∧ Layout before s.reversed.reverse ∧
      w.Behind before

/-- What a scanner is when it has read `cs`. -/
structure Tracks (s : Scanner) (cs : List Char) : Prop where
  cursor : s.cursor = Cursor.after cs
  inComment : s.inComment = true ↔ '#' ∈ lastLine cs
  closed : s.inComment = true → s.word = none
  opens : s.inComment = false → s.word = none → Opens cs
  spells : s.Spells cs

/-! ### Words -/

section Words

variable {c : Char} {word : List Char}

theorem separates_eq_false_iff :
    separates c = false ↔ isBlank c = false ∧ c ≠ '#' ∧ delimiter? c = none := by
  simp [separates, and_assoc]

theorem Unbroken.plain (h : Unbroken word) : Plain word := by
  intro c hc
  obtain ⟨hblank, hsign, -⟩ := separates_eq_false_iff.mp (h.unseparated c hc)
  exact ⟨hblank, hsign⟩

theorem Unbroken.singleton (hc : separates c = false) : Unbroken [c] := by
  constructor
  · simp
  · intro d hd
    rwa [List.mem_singleton.mp hd]

theorem Unbroken.concat (h : Unbroken word) (hc : separates c = false) :
    Unbroken (word ++ [c]) := by
  constructor
  · simp
  · intro d hd
    rcases List.mem_append.mp hd with hd | hd
    · exact h.unseparated d hd
    · rwa [List.mem_singleton.mp hd]

theorem opens_concat {cs : List Char} (hc : separates c = true ∨ c = '.') :
    Opens (cs ++ [c]) := by
  intro d hd
  rw [List.getLast?_concat, Option.mem_some_iff] at hd
  rwa [← hd]

theorem delimiter?_ne_endOfFile : delimiter? c ≠ some .endOfFile := by
  unfold delimiter?
  split <;> simp

theorem delimiter?_plain {kind : TokenKind} (h : delimiter? c = some kind) :
    isBlank c = false ∧ c ≠ '#' := by
  unfold delimiter? at h
  split at h <;> first | decide | cases h

variable {last : Option TokenKind}

theorem classify_ne_endOfFile : classify last word ≠ .ok .endOfFile := by
  unfold classify
  split_ifs <;> simp

theorem classify_error_text {cause : Malformed} (h : classify last word = .error cause) :
    cause.text = String.ofList word := by
  unfold classify at h
  split_ifs at h <;> cases h <;> rfl

theorem isLetter_eq_false_of_isNumeric (h : isNumeric c = true) : isLetter c = false := by
  have hcode : c.toNat < 128 ∧ c.isAlpha = false := by
    simp only [isNumeric, isSign, Bool.or_eq_true, decide_eq_true_eq] at h
    rcases h with (hdigit | rfl) | rfl | rfl
    · rw [Literal.isDigit, decide_eq_true_eq] at hdigit
      rw [Char.le_def, Char.le_def, UInt32.le_iff_toNat_le, UInt32.le_iff_toNat_le] at hdigit
      have hupper : c.isUpper = decide (65 ≤ c.val.toNat ∧ c.val.toNat ≤ 90) := rfl
      have hlower : c.isLower = (decide (97 ≤ c.val.toNat) && decide (c.val.toNat ≤ 122)) := rfl
      have halpha : c.isAlpha = (c.isUpper || c.isLower) := rfl
      have hcode : c.toNat = c.val.toNat := rfl
      have hhigh : c.val.toNat ≤ 57 := hdigit.2
      rw [halpha, hupper, hlower, hcode, decide_eq_false (by omega),
        decide_eq_false (show ¬97 ≤ c.val.toNat by omega)]
      exact ⟨by omega, rfl⟩
    · decide
    · decide
    · decide
  rw [isLetter, if_pos hcode.1, hcode.2]

/-- A name is a token wherever it stands. -/
theorem classify_of_isName (h : isName word = true) : classify last word = .ok .name := by
  cases word with
  | nil => cases h
  | cons c rest =>
    have hletter : isLetter c = true := by
      rw [isName, Bool.and_eq_true] at h
      exact h.1
    have hnumeric : isNumeric c = false := by
      cases hc : isNumeric c
      · rfl
      · rw [isLetter_eq_false_of_isNumeric hc] at hletter
        cases hletter
    simp [classify, hnumeric, h]

end Words

/-! ### Ending a word -/

variable {s t : Scanner} {cs : List Char} {c : Char} {f : Fault}

theorem Spells.of_word_eq_none (h : s.Spells cs) (hword : s.word = none) :
    Layout cs s.reversed.reverse := by
  rwa [Spells, hword] at h

theorem spells_of_layout (hword : s.word = none) (h : Layout cs s.reversed.reverse) :
    s.Spells cs := by
  rwa [Spells, hword]

/-- When a word ends, the tokens fill what was read. -/
theorem Spells.endWord (h : s.Spells cs) (hend : s.endWord = .ok t) :
    ∃ ts, t = { s with word := none, reversed := ts } ∧ Layout cs ts.reverse := by
  rw [Scanner.endWord] at hend
  rw [Spells] at h
  split at hend
  · next hword =>
    rw [hword] at h
    cases hend
    exact ⟨s.reversed, by rw [← hword], h⟩
  · next w hword =>
    rw [hword] at h
    obtain ⟨before, rfl, hlayout, hbehind⟩ := h
    split at hend
    · cases hend
    · next kind hkind =>
      cases hend
      refine ⟨_, rfl, ?_⟩
      have htext : w.text.toList = w.characters := String.toList_ofList
      rw [List.reverse_cons, ← htext]
      refine hlayout.token (t := ⟨kind, w.text, w.position⟩) ⟨?_, ?_, ?_, hbehind.outside, ?_⟩
      · rintro rfl
        exact classify_ne_endOfFile hkind
      · rw [htext]
        exact hbehind.word.nonempty
      · rw [htext]
        exact hbehind.word.plain
      · rw [← hbehind.start]
        rfl

theorem Spells.endWord_error (h : s.Spells cs) (hend : s.endWord = .error f) :
    ∃ before, cs = before ++ f.cause.text.toList ∧ f.Behind before := by
  rw [Scanner.endWord] at hend
  rw [Spells] at h
  split at hend
  · cases hend
  · next w hword =>
    rw [hword] at h
    obtain ⟨before, rfl, hlayout, hbehind⟩ := h
    split at hend
    · next cause hcause =>
      cases hend
      have htext : cause.text = w.text := classify_error_text hcause
      have hchars : cause.text.toList = w.characters := by
        rw [htext]
        exact String.toList_ofList
      refine ⟨before, by rw [hchars], ⟨_, hlayout⟩, hbehind.outside, hbehind.opens, ?_, ?_⟩
      · rw [hchars]
        exact hbehind.word
      · rw [← hbehind.start, htext]
        rfl
    · cases hend

/-! ### One character -/

/-- A character that is a token by itself comes behind the tokens so far. -/
theorem layout_emit {kind : TokenKind} (h : Layout cs s.reversed.reverse)
    (hcursor : s.cursor = Cursor.after cs) (houtside : '#' ∉ lastLine cs)
    (hkind : kind ≠ .endOfFile) (hc : isBlank c = false ∧ c ≠ '#') :
    Layout (cs ++ [c]) (s.emit kind c).reversed.reverse := by
  have htext : (String.singleton c).toList = [c] := String.toList_singleton c
  rw [emit, List.reverse_cons, ← htext]
  refine h.token (t := ⟨kind, String.singleton c, s.cursor.position c.utf8Size⟩)
    ⟨hkind, ?_, ?_, houtside, ?_⟩
  · rw [htext]
    exact List.cons_ne_nil c []
  · intro d hd
    rw [htext, List.mem_singleton] at hd
    rwa [hd]
  · rw [hcursor, String.utf8ByteSize_singleton]

theorem Spells.gather (h : s.Spells cs) (hcursor : s.cursor = Cursor.after cs)
    (houtside : '#' ∉ lastLine cs) (hopens : s.word = none → Opens cs)
    (hc : separates c = false) : (s.gather c).Spells (cs ++ [c]) := by
  rw [Spells] at h
  rw [Scanner.gather]
  cases hword : s.word with
  | none =>
    rw [hword] at h
    exact ⟨cs, rfl, h, hcursor, houtside, hopens hword, .singleton hc⟩
  | some w =>
    rw [hword] at h
    obtain ⟨before, rfl, hlayout, hbehind⟩ := h
    have hchars : ({ w with reversed := c :: w.reversed } : PendingWord).characters =
        w.characters ++ [c] := List.reverse_cons
    refine ⟨before, ?_, hlayout, hbehind.start, hbehind.outside, hbehind.opens, ?_⟩
    · rw [hchars, List.append_assoc]
    · rw [hchars]
      exact hbehind.word.concat hc

theorem endWord_of_dotStandsAlone (h : s.dotStandsAlone = true) : s.endWord ≠ .error f := by
  rw [dotStandsAlone] at h
  rw [endWord]
  split
  · exact nofun
  · next w hword =>
    rw [hword] at h
    rw [classify_of_isName h]
    exact nofun

/-- The rules for a character outside of a comment. Each of them but the last one ends the word that
is open. -/
theorem read_cases (s : Scanner) (c : Char) :
    (c = '#' ∧ s.read c = s.endWord >>= fun u => .ok { u with inComment := true }) ∨
    (c ≠ '#' ∧ isBlank c = true ∧ s.read c = s.endWord) ∨
    (∃ kind, kind ≠ .endOfFile ∧ isBlank c = false ∧ c ≠ '#' ∧
      (separates c = true ∨ c = '.' ∧ s.dotStandsAlone = true) ∧
      s.read c = s.endWord >>= fun u => .ok (u.emit kind c)) ∨
    (separates c = false ∧ s.read c = .ok (s.gather c)) := by
  rw [read]
  by_cases hsign : c = '#'
  · exact .inl ⟨hsign, if_pos hsign⟩
  rw [if_neg hsign]
  cases hblank : isBlank c with
  | true => exact .inr (.inl ⟨hsign, rfl, rfl⟩)
  | false =>
    cases hkind : delimiter? c with
    | some kind =>
      refine .inr (.inr (.inl ⟨kind, ?_, rfl, hsign, .inl ?_, rfl⟩))
      · rintro rfl
        exact delimiter?_ne_endOfFile hkind
      · simp [separates, hkind]
    | none =>
      by_cases hdot : c = '.' ∧ s.dotStandsAlone = true
      · refine .inr (.inr (.inl ⟨.dot, by decide, rfl, hsign, .inr hdot, ?_⟩))
        simp only [if_pos hdot]
        rfl
      · refine .inr (.inr (.inr ⟨separates_eq_false_iff.mpr ⟨hblank, hsign, hkind⟩, ?_⟩))
        simp only [if_neg hdot]
        rfl

/-- What taking in a character outside of a comment leaves, with the cursor still in front of it. -/
structure Took (s t : Scanner) (cs : List Char) (c : Char) : Prop where
  cursor : t.cursor = s.cursor
  inComment : t.inComment = true ↔ c = '#'
  closed : t.inComment = true → t.word = none
  opens : t.word = none → Opens (cs ++ [c])
  spells : t.Spells (cs ++ [c])

theorem Spells.read (h : s.Spells cs) (hcursor : s.cursor = Cursor.after cs)
    (hs : s.inComment = false) (houtside : '#' ∉ lastLine cs) (hopens : s.word = none → Opens cs)
    (hread : s.read c = .ok t) : s.Took t cs c := by
  rcases read_cases s c with ⟨rfl, heq⟩ | ⟨hsign, hblank, heq⟩ |
    ⟨kind, hkind, hblank, hsign, hends, heq⟩ | ⟨hc, heq⟩
  · obtain ⟨u, hu, hdone⟩ := Except.bind_eq_ok_iff.mp (heq.symm.trans hread)
    obtain ⟨ts, rfl, hlayout⟩ := h.endWord hu
    cases hdone
    exact ⟨rfl, by simp, fun _ => rfl, fun _ => opens_concat (.inl (by decide)),
      hlayout.gap (.inr (inComment_numberSign cs))⟩
  · obtain ⟨ts, rfl, hlayout⟩ := h.endWord (heq.symm.trans hread)
    exact ⟨rfl, by simp [hs, hsign], fun _ => rfl,
      fun _ => opens_concat (.inl (by simp [separates, hblank])), hlayout.gap (.inl hblank)⟩
  · obtain ⟨u, hu, hdone⟩ := Except.bind_eq_ok_iff.mp (heq.symm.trans hread)
    obtain ⟨ts, rfl, hlayout⟩ := h.endWord hu
    cases hdone
    exact ⟨rfl, by simp [emit, hs, hsign], fun _ => rfl,
      fun _ => opens_concat (hends.imp_right (·.1)),
      layout_emit hlayout hcursor houtside hkind ⟨hblank, hsign⟩⟩
  · cases heq.symm.trans hread
    obtain ⟨hcursor', hcomment, hword⟩ : (s.gather c).cursor = s.cursor ∧
        (s.gather c).inComment = false ∧ (s.gather c).word ≠ none := by
      rw [Scanner.gather]
      split <;> exact ⟨rfl, hs, nofun⟩
    have hsign : c ≠ '#' := (separates_eq_false_iff.mp hc).2.1
    exact ⟨hcursor', by simp [hcomment, hsign], by simp [hcomment], fun h => absurd h hword,
      h.gather hcursor houtside hopens hc⟩

/-- A word that turns out to be none is in front of a separator. -/
theorem Spells.read_error (h : s.Spells cs) (hread : s.read c = .error f) :
    separates c = true ∧ ∃ before, cs = before ++ f.cause.text.toList ∧ f.Behind before := by
  rcases read_cases s c with ⟨rfl, heq⟩ | ⟨-, hblank, heq⟩ | ⟨kind, -, -, -, hends, heq⟩ | ⟨-, heq⟩
  · rcases Except.bind_eq_error_iff.mp (heq.symm.trans hread) with hend | ⟨u, -, hdone⟩
    · exact ⟨by decide, h.endWord_error hend⟩
    · cases hdone
  · exact ⟨by simp [separates, hblank], h.endWord_error (heq.symm.trans hread)⟩
  · rcases Except.bind_eq_error_iff.mp (heq.symm.trans hread) with hend | ⟨u, -, hdone⟩
    · rcases hends with hc | ⟨-, hdot⟩
      · exact ⟨hc, h.endWord_error hend⟩
      · exact absurd hend (endWord_of_dotStandsAlone hdot)
    · cases hdone
  · cases heq.symm.trans hread

theorem Tracks.start : Scanner.start.Tracks [] := by
  exact ⟨rfl, by decide, nofun, fun _ _ => nofun, Layout.start⟩

theorem step_outside (hs : s.inComment = false) :
    s.step c = s.read c >>= fun u => .ok { u with cursor := s.cursor.advance c } := by
  rw [step, hs]
  rfl

theorem step_eq_ok (hs : s.inComment = false) (hstep : s.step c = .ok t) :
    ∃ u, s.read c = .ok u ∧ t = { u with cursor := s.cursor.advance c } := by
  rw [step_outside hs] at hstep
  obtain ⟨u, hread, hdone⟩ := Except.bind_eq_ok_iff.mp hstep
  exact ⟨u, hread, (Except.ok.inj hdone).symm⟩

theorem step_inComment (hs : s.inComment = true) :
    s.step c = .ok { s with cursor := s.cursor.advance c, inComment := c ≠ '\n' } := by
  rw [step, if_pos hs]
  by_cases hc : c = '\n' <;> simp [hc, hs, pure, Except.pure, bind, Except.bind]

/-- Every character that a scanner takes in keeps it on the track of what it has read. -/
theorem Tracks.step (h : s.Tracks cs) (hstep : s.step c = .ok t) : t.Tracks (cs ++ [c]) := by
  have hcursor : s.cursor.advance c = Cursor.after (cs ++ [c]) := by
    rw [h.cursor, Cursor.after_concat]
  cases hs : s.inComment with
  | false =>
    obtain ⟨u, hread, rfl⟩ := step_eq_ok hs hstep
    have houtside : '#' ∉ lastLine cs := by
      rw [← h.inComment, hs]
      exact Bool.false_ne_true
    have htook := h.spells.read h.cursor hs houtside (h.opens hs) hread
    refine ⟨hcursor, ?_, htook.closed, fun _ => htook.opens, htook.spells⟩
    rw [htook.inComment]
    constructor
    · rintro rfl
      exact inComment_numberSign cs
    · intro hmem
      exact Decidable.not_not.mp fun hc => outside_concat houtside hc hmem
  | true =>
    rw [step_inComment hs] at hstep
    cases hstep
    have hword := h.closed hs
    have hlayout := h.spells.of_word_eq_none hword
    have hinside : '#' ∈ lastLine cs := h.inComment.mp hs
    by_cases hc : c = '\n'
    · subst hc
      exact ⟨hcursor, by simp, fun _ => hword, fun _ _ => opens_concat (.inl (by decide)),
        spells_of_layout hword (hlayout.gap (.inl (by decide)))⟩
    · have hin := inComment_of_mem hinside hc
      exact ⟨hcursor, iff_of_true (by simp [hc]) hin, fun _ => hword, by simp [hc],
        spells_of_layout hword (hlayout.gap (.inr hin))⟩

/-- A scanner does not fail in a comment. -/
theorem Tracks.step_error (h : s.Tracks cs) (hstep : s.step c = .error f) :
    separates c = true ∧ ∃ before, cs = before ++ f.cause.text.toList ∧ f.Behind before := by
  cases hs : s.inComment with
  | false =>
    rw [step_outside hs] at hstep
    rcases Except.bind_eq_error_iff.mp hstep with hread | ⟨u, -, hdone⟩
    · exact h.spells.read_error hread
    · cases hdone
  | true =>
    rw [step_inComment hs] at hstep
    cases hstep

theorem Tracks.run {ds : List Char} (h : s.Tracks cs) (hrun : s.run ds = .ok t) :
    t.Tracks (cs ++ ds) := by
  rw [Scanner.run] at hrun
  induction ds generalizing s cs with
  | nil =>
    cases hrun
    rwa [List.append_nil]
  | cons d ds ih =>
    rw [List.foldlM_cons] at hrun
    obtain ⟨u, hstep, hrest⟩ := Except.bind_eq_ok_iff.mp hrun
    rw [List.append_cons]
    exact ih (h.step hstep) hrest

theorem Tracks.run_error {ds : List Char} (h : s.Tracks cs) (hrun : s.run ds = .error f) :
    ∃ before after, cs ++ ds = before ++ f.cause.text.toList ++ after ∧ f.Behind before ∧
      ∃ c ∈ after.head?, separates c = true := by
  rw [Scanner.run] at hrun
  induction ds generalizing s cs with
  | nil => cases hrun
  | cons d ds ih =>
    rw [List.foldlM_cons] at hrun
    rcases Except.bind_eq_error_iff.mp hrun with hstep | ⟨u, hstep, hrest⟩
    · obtain ⟨hd, before, rfl, hbehind⟩ := h.step_error hstep
      exact ⟨before, d :: ds, rfl, hbehind, d, rfl, hd⟩
    · rw [List.append_cons]
      exact ih (h.step hstep) hrest

end Scanner

/-! ### Whole sources -/

variable {source : List Char} {tokens : List Token} {f : Fault}

/-- The tokens of a source are laid out in it, and a mark for its end follows them. -/
theorem Token.scan_layout (h : Token.scan source = .ok tokens) :
    ∃ words, tokens = words ++ [⟨.endOfFile, "", (Cursor.after source).afterLast⟩] ∧
      Layout source words := by
  obtain ⟨s, hrun, hfinish⟩ := Except.bind_eq_ok_iff.mp h
  have htracks := Scanner.Tracks.start.run hrun
  rw [Scanner.finish] at hfinish
  obtain ⟨u, hend, hdone⟩ := Except.bind_eq_ok_iff.mp hfinish
  obtain ⟨ts, rfl, hlayout⟩ := htracks.spells.endWord hend
  cases hdone
  refine ⟨ts.reverse, ?_, hlayout⟩
  rw [htracks.cursor, List.reverse_cons]
  rfl

/-- A fault is about an element of the source. -/
theorem Token.scan_error (h : Token.scan source = .error f) :
    ∃ before after, source = before ++ f.cause.text.toList ++ after ∧
      Scanner.Element before f.cause.text.toList after ∧
      f.position = (Cursor.after before).position f.cause.text.utf8ByteSize := by
  rcases Except.bind_eq_error_iff.mp h with hrun | ⟨s, hrun, hfinish⟩
  · obtain ⟨before, after, hsource, hbehind, c, hhead, hc⟩ := Scanner.Tracks.start.run_error hrun
    refine ⟨before, after, hsource, hbehind.element ?_, hbehind.position⟩
    intro d hd
    rwa [Option.mem_unique hd hhead]
  · have htracks := Scanner.Tracks.start.run hrun
    rw [Scanner.finish] at hfinish
    rcases Except.bind_eq_error_iff.mp hfinish with hend | ⟨u, -, hdone⟩
    · obtain ⟨before, hsource, hbehind⟩ := htracks.spells.endWord_error hend
      refine ⟨before, [], ?_, hbehind.element nofun, hbehind.position⟩
      rw [List.append_nil]
      exact hsource
    · cases hdone

end Easel
