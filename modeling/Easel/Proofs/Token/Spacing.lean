import Easel.Proofs.Token.Alike

/-! The blanks and comments of a source may be changed, as long as some blank stays where one was. A
run of blanks and comments can be put in place of another, blanks can be put in beside a bracket,
and the texts of the tokens, with a space between each two, are the source over again.

A dot is a token of its own behind some tokens and a part of a number behind others, which is why no
space stands in front of it there. -/

namespace Easel

open Text

namespace Scanner

variable {s t u : Scanner} {c : Char}

/-! ### Tokens and their texts -/

/-- What a word is when it ends. -/
theorem endWord_some {w : PendingWord} (hword : s.word = some w) (hend : s.endWord = .ok t) :
    ∃ kind, classify s.lastKind? w.characters = .ok kind ∧
      t = { s with word := none, reversed := ⟨kind, w.text, w.position⟩ :: s.reversed } := by
  rw [endWord, hword] at hend
  simp only at hend
  split at hend
  · cases hend
  · next kind hkind => exact ⟨kind, hkind, (Except.ok.inj hend).symm⟩

theorem classify_kind {last : Option TokenKind} {word : List Char} {kind : TokenKind}
    (h : classify last word = .ok kind) : kind = .number ∨ kind = .operator ∨ kind = .name := by
  have hclass := Words.classify_eq_iff.mp h
  cases hclass with
  | element helement => cases helement <;> simp

/-- What a character that is taken in outside of a comment can do. -/
theorem read_eq_ok (hread : s.read c = .ok t) :
    (∃ u, s.endWord = .ok u ∧ t.word = u.word ∧ t.reversed = u.reversed) ∨
    (∃ kind u, delimiter? c = some kind ∧ s.endWord = .ok u ∧ t = u.emit kind c) ∨
    (∃ u, c = '.' ∧ s.dotStandsAlone = true ∧ s.endWord = .ok u ∧ t = u.emit .dot '.') ∨
    (separates c = false ∧ ¬(c = '.' ∧ s.dotStandsAlone = true) ∧ t = s.gather c) := by
  by_cases hsign : c = '#'
  · subst hsign
    rw [read_numberSign] at hread
    obtain ⟨u, hend, hdone⟩ := Except.bind_eq_ok_iff.mp hread
    cases hdone
    exact .inl ⟨u, hend, rfl, rfl⟩
  cases hblank : isBlank c with
  | true =>
    rw [read_blank hblank hsign] at hread
    exact .inl ⟨t, hread, rfl, rfl⟩
  | false =>
    cases hkind : delimiter? c with
    | some kind =>
      rw [read_delimiter hkind] at hread
      obtain ⟨u, hend, hdone⟩ := Except.bind_eq_ok_iff.mp hread
      exact .inr (.inl ⟨kind, u, rfl, hend, (Except.ok.inj hdone).symm⟩)
    | none =>
      by_cases hdot : c = '.' ∧ s.dotStandsAlone = true
      · obtain ⟨rfl, halone⟩ := hdot
        rw [read_dot halone] at hread
        obtain ⟨u, hend, hdone⟩ := Except.bind_eq_ok_iff.mp hread
        exact .inr (.inr (.inl ⟨u, rfl, halone, hend, (Except.ok.inj hdone).symm⟩))
      · have hc : separates c = false := separates_eq_false_iff.mpr ⟨hblank, hsign, hkind⟩
        rw [read_gather hc hdot] at hread
        exact .inr (.inr (.inr ⟨hc, hdot, (Except.ok.inj hread).symm⟩))

end Scanner

/-! ### Tokens one behind the other -/

namespace Token

/-- What stands in front of a token of some kind that follows `ts`. -/
def separator (ts : List Token) (kind : TokenKind) : List Char :=
  if ts = [] ∨ kind = .dot then [] else [' ']

/-- The texts of tokens with a space between each two of them, but none in front of a dot. -/
def spaced : List Token → List Char
  | [] => []
  | t :: ts => t.text.toList ++ ts.flatMap fun u => separator [t] u.kind ++ u.text.toList

theorem spaced_concat (ts : List Token) (t : Token) :
    spaced (ts ++ [t]) = spaced ts ++ separator ts t.kind ++ t.text.toList := by
  cases ts with
  | nil => simp [spaced, separator]
  | cons u ts => simp [spaced, separator, List.append_assoc]

end Token

open Scanner Token

namespace Scanner

variable {s t u v : Scanner} {c : Char} {kind : TokenKind}

/-- What a scanner has read, with a space between each two tokens. In front of a word and behind the
last token there is a space, too. -/
def respaced (s : Scanner) : List Char :=
  spaced s.reversed.reverse ++ separator s.reversed.reverse .name ++
    s.word.elim [] PendingWord.characters

/-- Scanning what a scanner has read, spaced anew, comes to the same as the scanner. -/
def Respaced (s : Scanner) : Prop :=
  ∃ v, start.run s.respaced = .ok v ∧ v.Alike { s with inComment := false }

theorem Respaced.congr (h : s.Respaced) (hword : t.word = s.word)
    (hrev : t.reversed = s.reversed) : t.Respaced := by
  obtain ⟨v, hrun, halike⟩ := h
  refine ⟨v, ?_, halike.inComment, ?_, ?_⟩
  · rwa [respaced, hword, hrev]
  · rw [hword]
    exact halike.word
  · rw [hrev]
    exact halike.tokens

theorem outside_eq (hin : s.inComment = false) : { s with inComment := false } = s := by
  rw [← hin]

/-- Behind a complete word, the last space can be left out. -/
theorem respaced_iff_of_none (hword : s.word = none) : s.Respaced ↔
    ∃ u v, start.run (spaced s.reversed.reverse) = .ok u ∧ u.endWord = .ok v ∧
      v.Alike { s with inComment := false } := by
  by_cases hnone : s.reversed.reverse = []
  · have hrespaced : s.respaced = [] := by
      simp [respaced, hword, separator, hnone, spaced]
    rw [Respaced, hrespaced, hnone]
    constructor
    · rintro ⟨v, hrun, halike⟩
      cases hrun
      exact ⟨start, start, rfl, rfl, halike⟩
    · rintro ⟨u, v, hrun, hend, halike⟩
      cases hrun
      cases hend
      exact ⟨start, rfl, halike⟩
  · have hrespaced : s.respaced = spaced s.reversed.reverse ++ [' '] := by
      simp [respaced, hword, separator, hnone]
    rw [Respaced, hrespaced]
    constructor
    · rintro ⟨v, hrun, halike⟩
      obtain ⟨u, hu, hstep⟩ := run_concat_eq_ok_iff.mp hrun
      cases hin : u.inComment with
      | true =>
        rw [step_inComment hin] at hstep
        cases hstep
        cases halike.inComment
      | false =>
        obtain ⟨w, hend, rfl⟩ := step_eq_ok hin hstep
        rw [read_blank (by decide) (by decide)] at hend
        exact ⟨u, w, hu, hend, halike.inComment, halike.word, halike.tokens⟩
    · rintro ⟨u, v, hrun, hend, halike⟩
      obtain ⟨-, -, hcomment⟩ := endWord_eq_ok hend
      have hin : u.inComment = false := hcomment.symm.trans halike.inComment
      obtain ⟨w, hblank, hsame⟩ := run_blanks (Tracks.start.run hrun) hin hend
        (List.cons_ne_nil ' ' []) (by decide)
      refine ⟨w, ?_, hsame.trans halike⟩
      rw [run_append, hrun]
      exact hblank

theorem separator_of_ne_dot {ts : List Token} (h : kind ≠ .dot) :
    separator ts kind = separator ts .name := by
  simp [separator, h]

/-- The word that ends has its space in front of it already. -/
theorem spaced_endWord {w : PendingWord} (hword : s.word = some w) (hend : s.endWord = .ok t) :
    spaced t.reversed.reverse = s.respaced := by
  obtain ⟨kind, hkind, rfl⟩ := endWord_some hword hend
  have hdot : kind ≠ .dot := by
    rintro rfl
    rcases classify_kind hkind with h | h | h <;> cases h
  rw [List.reverse_cons, spaced_concat, separator_of_ne_dot hdot, respaced, hword]
  exact congrArg _ String.toList_ofList

theorem endWord_outside (hend : s.endWord = .ok t) :
    endWord { s with inComment := false } = .ok { t with inComment := false } := by
  obtain ⟨cursor, inComment, word, reversed⟩ := s
  cases word with
  | none =>
    cases hend
    rfl
  | some w =>
    obtain ⟨kind, hkind, rfl⟩ := endWord_some rfl hend
    have hclass : classify (lastKind? ⟨cursor, false, some w, reversed⟩) w.characters = .ok kind :=
      hkind
    simp only [endWord, hclass]

theorem Respaced.endWord (h : s.Respaced) (hend : s.endWord = .ok t) : t.Respaced := by
  cases hword : s.word with
  | none =>
    cases (endWord_of_none hword).symm.trans hend
    exact h
  | some w =>
    obtain ⟨v, hrun, halike⟩ := h
    obtain ⟨u, hu, hsame⟩ := (agree_endWord halike.symm).exists_ok (endWord_outside hend)
    refine (respaced_iff_of_none (endWord_eq_ok hend).1).mpr ⟨v, u, ?_, hu, hsame.symm⟩
    rwa [spaced_endWord hword hend]

theorem spaced_emit (s : Scanner) (kind : TokenKind) (c : Char) :
    spaced (s.emit kind c).reversed.reverse =
      spaced s.reversed.reverse ++ separator s.reversed.reverse kind ++ [c] := by
  rw [emit, List.reverse_cons, spaced_concat]
  exact congrArg _ (String.toList_singleton c)

/-- A step that makes a character a token by itself can be done over behind the tokens in front of
it. -/
theorem respaced_emit {x : Scanner} (hrun : start.run (spaced t.reversed.reverse ++
      separator t.reversed.reverse kind) = .ok x) (halike : x.Alike s)
    (hin : s.inComment = false) (hread : s.read c = .ok (t.emit kind c))
    (hend : s.endWord = .ok t) : (t.emit kind c).Respaced := by
  obtain ⟨hword, -, hcomment⟩ := endWord_eq_ok hend
  have hnone : (t.emit kind c).word = none := hword
  have hstep : s.step c = .ok { t.emit kind c with cursor := s.cursor.advance c } := by
    rw [step_outside hin, hread]
    rfl
  obtain ⟨v, hv, hsame⟩ := (agree_step halike.symm c).exists_ok hstep
  refine (respaced_iff_of_none hnone).mpr ⟨v, v, ?_, ?_, ?_⟩
  · rw [spaced_emit]
    exact run_concat_eq_ok_iff.mpr ⟨x, hrun, hv⟩
  · exact endWord_of_none (hsame.symm.word_eq_none hword)
  · exact ⟨hsame.inComment.symm.trans (hcomment.trans hin), hsame.word.symm, hsame.tokens.symm⟩

theorem Respaced.emit (h : s.Respaced) (hin : s.inComment = false) (hend : s.endWord = .ok t)
    (hkind : delimiter? c = some kind) : (t.emit kind c).Respaced := by
  have hdot : kind ≠ .dot := by
    rintro rfl
    unfold delimiter? at hkind
    split at hkind <;> cases hkind
  obtain ⟨hword, -, hcomment⟩ := endWord_eq_ok hend
  have hout : t.inComment = false := hcomment.trans hin
  have hread : t.read c = .ok (t.emit kind c) := by
    rw [read_delimiter hkind, endWord_of_none hword]
    rfl
  obtain ⟨x, hrun, halike⟩ := h.endWord hend
  rw [outside_eq hout] at halike
  refine respaced_emit ?_ halike hout hread (endWord_of_none hword)
  rw [separator_of_ne_dot hdot]
  simpa [respaced, hword] using hrun

/-- A dot that stands alone does so right behind the tokens in front of it. -/
theorem Respaced.behind (h : s.Respaced) (hin : s.inComment = false)
    (hdot : s.dotStandsAlone = true) (hend : s.endWord = .ok t) :
    ∃ x, start.run (spaced t.reversed.reverse) = .ok x ∧ x.Alike s := by
  cases hword : s.word with
  | some w =>
    obtain ⟨v, hrun, halike⟩ := h
    rw [outside_eq hin] at halike
    rw [spaced_endWord hword hend]
    exact ⟨v, hrun, halike⟩
  | none =>
    cases (endWord_of_none hword).symm.trans hend
    obtain ⟨x, y, hrun, hy, halike⟩ := (respaced_iff_of_none hword).mp h
    rw [outside_eq hin] at halike
    have hlast : y.lastKind? = some .closeBrace ∨ y.lastKind? = some .closeParen := by
      rw [halike.lastKind?]
      simpa [dotStandsAlone, hword] using hdot
    cases hx : x.word with
    | none =>
      cases (endWord_of_none hx).symm.trans hy
      exact ⟨x, hrun, halike⟩
    | some w =>
      -- What the last word is cannot be a bracket.
      obtain ⟨kind, hkind, rfl⟩ := endWord_some hx hy
      change some kind = _ ∨ some kind = _ at hlast
      rcases classify_kind hkind with rfl | rfl | rfl <;> simp at hlast

theorem Respaced.emit_dot (h : s.Respaced) (hin : s.inComment = false)
    (hdot : s.dotStandsAlone = true) (hend : s.endWord = .ok t) : (t.emit .dot '.').Respaced := by
  obtain ⟨x, hrun, halike⟩ := h.behind hin hdot hend
  have hread : s.read '.' = .ok (t.emit .dot '.') := by
    rw [read_dot hdot, hend]
    rfl
  refine respaced_emit ?_ halike hin hread hend
  rwa [separator, if_pos (.inr rfl), List.append_nil]

theorem respaced_gather (s : Scanner) (c : Char) : (s.gather c).respaced = s.respaced ++ [c] := by
  cases hword : s.word with
  | none => simp [respaced, Scanner.gather, hword, PendingWord.characters]
  | some w => simp [respaced, Scanner.gather, hword, PendingWord.characters]

theorem inComment_gather (s : Scanner) (c : Char) : (s.gather c).inComment = s.inComment := by
  rw [Scanner.gather]
  split <;> rfl

theorem Respaced.gather (h : s.Respaced) (hin : s.inComment = false) (hc : separates c = false)
    (hdot : ¬(c = '.' ∧ s.dotStandsAlone = true)) : (s.gather c).Respaced := by
  obtain ⟨v, hrun, halike⟩ := h
  rw [outside_eq hin] at halike
  have hstep : s.step c = .ok { s.gather c with cursor := s.cursor.advance c } := by
    rw [step_outside hin, read_gather hc hdot]
    rfl
  obtain ⟨x, hx, hsame⟩ := (agree_step halike.symm c).exists_ok hstep
  refine ⟨x, ?_, ?_, hsame.word.symm, hsame.tokens.symm⟩
  · rw [respaced_gather]
    exact run_concat_eq_ok_iff.mpr ⟨v, hrun, hx⟩
  · exact hsame.inComment.symm.trans ((inComment_gather s c).trans hin)

theorem Respaced.step (h : s.Respaced) (hstep : s.step c = .ok t) : t.Respaced := by
  cases hin : s.inComment with
  | true =>
    rw [step_inComment hin] at hstep
    cases hstep
    exact h.congr rfl rfl
  | false =>
    obtain ⟨u, hread, rfl⟩ := step_eq_ok hin hstep
    have hu : u.Respaced := by
      rcases read_eq_ok hread with ⟨v, hend, hword, hrev⟩ | ⟨kind, v, hkind, hend, rfl⟩ |
        ⟨v, -, hdot, hend, rfl⟩ | ⟨hc, hdot, rfl⟩
      · exact (h.endWord hend).congr hword hrev
      · exact h.emit hin hend hkind
      · exact h.emit_dot hin hdot hend
      · exact h.gather hin hc hdot
    exact hu.congr rfl rfl

/-- What every step keeps up holds at the end of a run. -/
theorem run_keeps {P : Scanner → Prop} (hstep : ∀ s c t, P s → s.step c = .ok t → P t)
    {cs : List Char} (h : P s) (hrun : s.run cs = .ok t) : P t := by
  induction cs generalizing s with
  | nil =>
    cases hrun
    exact h
  | cons c cs ih =>
    rw [run_cons] at hrun
    obtain ⟨u, hu, hrest⟩ := Except.bind_eq_ok_iff.mp hrun
    exact ih (hstep s c u h hu) hrest

theorem respaced_of_run {cs : List Char} (hrun : start.run cs = .ok t) : t.Respaced :=
  run_keeps (fun _ _ _ h hstep => h.step hstep) ⟨start, rfl, .refl start⟩ hrun

end Scanner

/-! ### How tokens arise -/

/-- The ways in which a token arises: a word is complete, a character is a token by itself, or the
text ends. -/
inductive Token.Arises : Token → Prop
  | word {last : Option TokenKind} {word : List Char} {kind : TokenKind} {position : Position}
      (hclass : classify last word = .ok kind) : Arises ⟨kind, String.ofList word, position⟩
  | delimiter {c : Char} {kind : TokenKind} {position : Position}
      (hkind : delimiter? c = some kind) : Arises ⟨kind, String.singleton c, position⟩
  | dot {position : Position} : Arises ⟨.dot, String.singleton '.', position⟩
  | mark {position : Position} : Arises ⟨.endOfFile, "", position⟩

namespace Scanner

variable {s t : Scanner} {c : Char}

theorem arises_of_endWord (h : ∀ token ∈ s.reversed, token.Arises) (hend : s.endWord = .ok t) :
    ∀ token ∈ t.reversed, token.Arises := by
  cases hword : s.word with
  | none =>
    cases (endWord_of_none hword).symm.trans hend
    exact h
  | some w =>
    obtain ⟨kind, hkind, rfl⟩ := endWord_some hword hend
    exact List.forall_mem_cons.mpr ⟨.word hkind, h⟩

theorem arises_of_step (h : ∀ token ∈ s.reversed, token.Arises) (hstep : s.step c = .ok t) :
    ∀ token ∈ t.reversed, token.Arises := by
  cases hin : s.inComment with
  | true =>
    rw [step_inComment hin] at hstep
    cases hstep
    exact h
  | false =>
    obtain ⟨u, hread, rfl⟩ := step_eq_ok hin hstep
    change ∀ token ∈ u.reversed, token.Arises
    rcases read_eq_ok hread with ⟨v, hend, -, hrev⟩ | ⟨kind, v, hkind, hend, rfl⟩ |
      ⟨v, -, -, hend, rfl⟩ | ⟨-, -, rfl⟩
    · rw [hrev]
      exact arises_of_endWord h hend
    · exact List.forall_mem_cons.mpr ⟨.delimiter hkind, arises_of_endWord h hend⟩
    · exact List.forall_mem_cons.mpr ⟨.dot, arises_of_endWord h hend⟩
    · rw [Scanner.gather]
      split <;> exact h

theorem finish_eq_ok {tokens : List Token} (h : s.finish = .ok tokens) :
    ∃ u, s.endWord = .ok u ∧
      tokens = u.reversed.reverse ++ [⟨.endOfFile, "", s.cursor.afterLast⟩] := by
  rw [finish] at h
  obtain ⟨u, hend, hdone⟩ := Except.bind_eq_ok_iff.mp h
  refine ⟨u, hend, ?_⟩
  rw [← List.reverse_cons]
  exact (Except.ok.inj hdone).symm

end Scanner

namespace Token

variable {source : List Char} {tokens : List Token}

theorem arises_of_scan (h : scan source = .ok tokens) : ∀ t ∈ tokens, t.Arises := by
  obtain ⟨s, hrun, hfinish⟩ := Except.bind_eq_ok_iff.mp h
  obtain ⟨u, hend, rfl⟩ := finish_eq_ok hfinish
  have hs : ∀ t ∈ s.reversed, t.Arises :=
    run_keeps (fun _ _ _ h hstep => arises_of_step h hstep) (List.forall_mem_nil _) hrun
  have hu := arises_of_endWord hs hend
  intro t ht
  rcases List.mem_append.mp ht with ht | ht
  · exact hu t (List.mem_reverse.mp ht)
  · rw [List.mem_singleton.mp ht]
    exact .mark

/-! ### Brackets -/

def IsBracket (t : Token) : Prop :=
  t.kind = .openBrace ∨ t.kind = .closeBrace ∨ t.kind = .openParen ∨ t.kind = .closeParen

/-- A bracket, an asterisk or a slash. -/
def IsDelimiter (t : Token) : Prop := t.IsBracket ∨ t.text = "*" ∨ t.text = "/"

/-- A token that is a bracket only if its text is one. -/
def Spelled (t : Token) : Prop :=
  t.IsBracket → ∃ c, delimiter? c = some t.kind ∧ t.text = String.singleton c

theorem Arises.spelled {t : Token} (h : t.Arises) : t.Spelled := by
  intro hbracket
  cases h with
  | word hclass =>
    rcases classify_kind hclass with rfl | rfl | rfl <;> simp [IsBracket] at hbracket
  | delimiter hkind => exact ⟨_, hkind, rfl⟩
  | dot => simp [IsBracket] at hbracket
  | mark => simp [IsBracket] at hbracket

/-- The tokens that are brackets, asterisks or slashes are characters that are tokens by
themselves. -/
theorem exists_delimiter (h : scan source = .ok tokens) {t : Token} (ht : t ∈ tokens)
    (hdelimiter : t.IsDelimiter) :
    ∃ c, (delimiter? c).isSome = true ∧ t.text = String.singleton c := by
  rcases hdelimiter with hbracket | htext | htext
  · obtain ⟨c, hkind, htext⟩ := (arises_of_scan h t ht).spelled hbracket
    exact ⟨c, by rw [hkind]; rfl, htext⟩
  · exact ⟨'*', rfl, htext⟩
  · exact ⟨'/', rfl, htext⟩

/-! ### Sources -/

/-- Scanning a text comes to tokens of the same kinds and texts, in the same order. -/
def ScansAs (source : List Char) (tokens : List Token) : Prop :=
  ∃ us, scan source = .ok us ∧ us.map lexeme = tokens.map lexeme

theorem scan_append_eq_ok {cs ds : List Char} (h : scan (cs ++ ds) = .ok tokens) :
    ∃ s, start.run cs = .ok s ∧ s.Tracks cs ∧ s.run ds >>= finish = .ok tokens := by
  rw [scan, run_append, bind_assoc] at h
  obtain ⟨s, hrun, hrest⟩ := Except.bind_eq_ok_iff.mp h
  exact ⟨s, hrun, Tracks.start.run hrun, hrest⟩

/-- Scanning goes on alike behind another beginning of the text. -/
theorem scansAs_of_agree {cs ds : List Char} {s t : Scanner} (hs : s.run ds >>= finish = .ok tokens)
    (ht : start.run cs = .ok t)
    (hst : Agree Fault.Alike SameLexemes (s.run ds >>= finish) (t.run ds >>= finish)) :
    ScansAs (cs ++ ds) tokens := by
  obtain ⟨us, hus, hsame⟩ := hst.exists_ok hs
  refine ⟨us, ?_, hsame.symm⟩
  rw [scan, run_append, ht]
  exact hus

/-- The tokens with spaces between them are the source over again, with a space in front of the end
or without one. -/
theorem scansAs_spaced (h : scan source = .ok tokens) :
    ScansAs (spaced tokens) tokens ∧ ScansAs (spaced tokens.dropLast) tokens := by
  obtain ⟨s, hrun, hfinish⟩ := Except.bind_eq_ok_iff.mp h
  obtain ⟨u, hend, rfl⟩ := finish_eq_ok hfinish
  have hu : u.Respaced := (respaced_of_run hrun).endWord hend
  have hword : u.word = none := (endWord_eq_ok hend).1
  -- A scanner that is like the last one ends with the same tokens.
  have hends (v : Scanner) (halike : v.Alike { u with inComment := false }) :
      ∃ us, v.finish = .ok us ∧ us.map lexeme =
        (u.reversed.reverse ++ [(⟨.endOfFile, "", s.cursor.afterLast⟩ : Token)]).map lexeme := by
    obtain ⟨us, hus, hsame⟩ := (agree_finish halike.symm).exists_ok (finish_of_none hword)
    refine ⟨us, hus, ?_⟩
    rw [← hsame, List.map_append, List.map_append]
    rfl
  constructor
  · obtain ⟨v, hv, halike⟩ := hu
    obtain ⟨us, hus, hsame⟩ := hends v halike
    have hspaced : spaced (u.reversed.reverse ++ [⟨.endOfFile, "", s.cursor.afterLast⟩]) =
        u.respaced := by
      have hend : TokenKind.endOfFile ≠ .dot := by decide
      rw [spaced_concat, separator_of_ne_dot hend, respaced, hword]
      rfl
    refine ⟨us, ?_, hsame⟩
    rw [scan, hspaced, hv]
    exact hus
  · obtain ⟨x, v, hx, hxend, halike⟩ := (respaced_iff_of_none hword).mp hu
    obtain ⟨us, hus, hsame⟩ := hends v halike
    have hin : x.inComment = false := (endWord_eq_ok hxend).2.2.symm.trans halike.inComment
    have hfinish : x.finish = v.finish := by
      rw [Words.endsLine_finish.word x hin, hxend]
      rfl
    refine ⟨us, ?_, hsame⟩
    rw [List.dropLast_concat, scan, hx]
    exact hfinish.trans hus

theorem separates_of_passed {before : List Char} {c : Char} (h : IsPassed before c)
    (hout : '#' ∉ lastLine before) : separates c = true := by
  rcases h with hblank | hin
  · simp [separates, hblank]
  · have hsign : c = '#' := Decidable.not_not.mp fun hc => outside_concat hout hc hin
    rw [hsign]
    decide

/-- Blanks may take the place of a run of blanks and comments. -/
theorem scansAs_gap {before gap after blanks : List Char}
    (h : scan (before ++ gap ++ after) = .ok tokens) (hgap : IsGap before gap after)
    (hne : blanks ≠ []) (hblanks : AreBlanks blanks) :
    ScansAs (before ++ blanks ++ after) tokens := by
  obtain ⟨v, hrun, htracks, hrest⟩ := scan_append_eq_ok h
  obtain ⟨s, hbefore, hv⟩ := run_append_eq_ok_iff.mp hrun
  have hs : s.Tracks before := Tracks.start.run hbefore
  have hin : s.inComment = false := hs.inComment_eq_false.mpr hgap.outside
  obtain ⟨u, hend⟩ : ∃ u, s.endWord = .ok u := by
    obtain ⟨c, cs, hcs⟩ := List.exists_cons_of_ne_nil hgap.nonempty
    have hpassed := hgap.passed
    rw [hcs] at hpassed
    rw [hcs, run_cons] at hv
    obtain ⟨w, hstep, -⟩ := Except.bind_eq_ok_iff.mp hv
    obtain ⟨u, hend, -⟩ := endWord_of_step hin (separates_of_passed hpassed.1 hgap.outside) hstep
    exact ⟨u, hend⟩
  obtain ⟨v', hv', hword, hrev⟩ := run_passed hs hend hgap.nonempty hgap.passed
  cases hv.symm.trans hv'
  obtain ⟨w, hw, hword', hrev'⟩ := run_passed hs hend hne (hblanks.passed before)
  have hrun' := run_append_eq_ok_iff.mpr ⟨s, hbefore, hw⟩
  refine scansAs_of_agree hrest hrun'
    (agree_rest_of_closed hword hword' (hrev.trans hrev'.symm) fun hafter => ?_)
  obtain ⟨c, cs, rfl⟩ := List.exists_cons_of_ne_nil hafter
  rw [htracks.inComment_eq_false.mpr hgap.outside_after,
    (Tracks.start.run hrun').inComment_eq_false.mpr (hblanks.outside hgap.outside)]

/-- Blanks may stand beside a bracket, an asterisk and a slash. -/
theorem scansAs_beside {before after left right : List Char} {c : Char}
    (h : scan (before ++ [c] ++ after) = .ok tokens) (hout : '#' ∉ lastLine before)
    (hc : (delimiter? c).isSome = true) (hleft : AreBlanks left) (hright : AreBlanks right) :
    ScansAs (before ++ left ++ [c] ++ right ++ after) tokens := by
  obtain ⟨t, hrun, htracks, hrest⟩ := scan_append_eq_ok h
  obtain ⟨s, hbefore, hstep⟩ := run_concat_eq_ok_iff.mp hrun
  have hs : s.Tracks before := Tracks.start.run hbefore
  have hin : s.inComment = false := hs.inComment_eq_false.mpr hout
  obtain ⟨v, hv, hsame⟩ := run_blanks_step hs hin (by simp [separates, hc]) hstep hleft
  have hv' : start.run (before ++ left ++ [c]) = .ok v := by
    rw [List.append_assoc]
    exact run_append_eq_ok_iff.mpr ⟨s, hbefore, hv⟩
  obtain ⟨hword, hcomment⟩ := closed_of_delimiter hin hc hstep
  obtain ⟨w, hw, halike⟩ := run_blanks_of_none (Tracks.start.run hv')
    (hsame.inComment.trans hcomment) (hsame.word_eq_none hword) hright
  refine scansAs_of_agree hrest (run_append_eq_ok_iff.mpr ⟨v, hv', hw⟩) ?_
  exact agree_rest (halike.trans hsame).symm after

variable {file text : String}

/-- A text is read with tokens of the same kinds and texts, in the same order. -/
def ReadsAs (file : String) (cs : List Char) (tokens : List Token) : Prop :=
  ∃ us, ofSource? file (String.ofList cs) = .ok us ∧ us.map lexeme = tokens.map lexeme

theorem ScansAs.reads {cs : List Char} (h : ScansAs cs tokens) (file : String) :
    ReadsAs file cs tokens := by
  obtain ⟨us, hscan, hsame⟩ := h
  refine ⟨us, ?_, hsame⟩
  rw [ofSource?, String.toList_ofList]
  exact Except.mapError_eq_ok_iff.mpr hscan

/-- The layout of a source that is read does not matter to its tokens: to their texts with a space
between each two of them, but none in front of a dot; to blanks in the place of a run of blanks and
comments; and to blanks on either side of a bracket, an asterisk or a slash. -/
theorem ofSource?_respaced (h : ofSource? file text = .ok tokens) :
    (ReadsAs file (spaced tokens) tokens ∧ ReadsAs file (spaced tokens.dropLast) tokens) ∧
    (∀ before gap after blanks, text.toList = before ++ gap ++ after → IsGap before gap after →
      blanks ≠ [] → AreBlanks blanks → ReadsAs file (before ++ blanks ++ after) tokens) ∧
    ∀ t ∈ tokens, t.IsDelimiter →
      ∃ before after, text.toList = before ++ t.text.toList ++ after ∧
        t.position.offset = byteSize before ∧
        ∀ left right, AreBlanks left → AreBlanks right →
          ReadsAs file (before ++ left ++ t.text.toList ++ right ++ after) tokens := by
  have hscan : scan text.toList = .ok tokens := Except.mapError_eq_ok_iff.mp h
  refine ⟨?_, ?_, ?_⟩
  · obtain ⟨hend, hlast⟩ := scansAs_spaced hscan
    exact ⟨hend.reads file, hlast.reads file⟩
  · intro before gap after blanks htext hgap hne hblanks
    rw [htext] at hscan
    exact (scansAs_gap hscan hgap hne hblanks).reads file
  · intro t ht hdelimiter
    obtain ⟨c, hc, hsingle⟩ := exists_delimiter hscan ht hdelimiter
    obtain ⟨words, rfl, hlayout⟩ := ofSource?_layout h
    have hword : t ∈ words := by
      rcases List.mem_append.mp ht with hword | hend
      · exact hword
      · rw [List.mem_singleton.mp hend] at hsingle
        simp [endOf] at hsingle
    obtain ⟨before, after, htext, hbehind⟩ := hlayout.behind hword
    have hchars : t.text.toList = [c] := by rw [hsingle, String.toList_singleton]
    refine ⟨before, after, htext, hbehind.offset_eq, ?_⟩
    intro left right hleft hright
    rw [hchars] at htext ⊢
    rw [htext] at hscan
    exact (scansAs_beside hscan hbehind.outside hc hleft hright).reads file

/-- A source with a sign that is an operator, a dot that stands alone, and a comment. -/
def crowded : String := "a*(- 1).x # é\r\n"

theorem crowded_respaced : ∃ tokens, ofSource? "é.paint" crowded = .ok tokens ∧
    spaced tokens = "a * ( - 1 ). x ".toList ∧ ReadsAs "é.paint" (spaced tokens) tokens ∧
    ReadsAs "é.paint" "a*(- 1).x\n\t".toList tokens := by
  have hread : ofSource? "é.paint" crowded = .ok
      [⟨.name, "a", ⟨1, 1, 0, 1⟩⟩, ⟨.operator, "*", ⟨1, 2, 1, 1⟩⟩,
        ⟨.openParen, "(", ⟨1, 3, 2, 1⟩⟩, ⟨.operator, "-", ⟨1, 4, 3, 1⟩⟩,
        ⟨.number, "1", ⟨1, 6, 5, 1⟩⟩, ⟨.closeParen, ")", ⟨1, 7, 6, 1⟩⟩, ⟨.dot, ".", ⟨1, 8, 7, 1⟩⟩,
        ⟨.name, "x", ⟨1, 9, 8, 1⟩⟩, ⟨.endOfFile, "", ⟨2, 0, 16, 0⟩⟩] := by
    decide +kernel
  obtain ⟨⟨hspaced, -⟩, hgap, -⟩ := ofSource?_respaced hread
  have hcomment : IsGap "a*(- 1).x".toList " # é\r\n".toList [] := by
    refine ⟨by decide +kernel, by decide +kernel, ?_, ?_⟩
    · have hlast : "a*(- 1).x".toList.getLast? = some 'x' := by decide +kernel
      rw [hlast]
      rintro c ⟨⟩
      decide +kernel
    · rintro c ⟨⟩
  have hsource : crowded.toList = "a*(- 1).x".toList ++ " # é\r\n".toList ++ [] := by
    decide +kernel
  have hchanged : "a*(- 1).x\n\t".toList = "a*(- 1).x".toList ++ "\n\t".toList ++ [] := by
    decide +kernel
  refine ⟨_, hread, by decide +kernel, hspaced, ?_⟩
  rw [hchanged]
  exact hgap _ _ _ _ hsource hcomment (by decide +kernel) (by decide +kernel)

end Token

end Easel
