import Mathlib.Data.List.TakeWhile
import Easel.Proofs.Token.Partition
import Easel.Proofs.Token.Words

/-! Scanning reads sources by the grammar of words. Every derivation of the grammar says what the
scanner does with the characters that it covers, and there is one for every source. -/

namespace Easel

open Text Words

namespace Scanner

/-- A scanner that has read `before` and whose last word is complete. -/
def between (before : List Char) (ts : List Token) : Scanner :=
  ⟨Cursor.after before, false, none, ts.reverse⟩

def pending (before : List Char) : List Char → Option PendingWord
  | [] => none
  | c :: word => some ⟨Cursor.after before, (c :: word).reverse⟩

/-- A scanner that has read `before` and then the beginning of a word. -/
def gathering (before : List Char) (ts : List Token) (word : List Char) : Scanner :=
  ⟨Cursor.after (before ++ word), false, pending before word, ts.reverse⟩

variable {before word rest : List Char} {ts : List Token} {s u : Scanner} {c : Char}

theorem run_nil (s : Scanner) : s.run [] = .ok s := rfl

theorem run_cons (s : Scanner) (c : Char) (cs : List Char) :
    s.run (c :: cs) = s.step c >>= fun u => u.run cs := rfl

theorem run_append (s : Scanner) (cs ds : List Char) :
    s.run (cs ++ ds) = s.run cs >>= fun u => u.run ds := by
  rw [run, List.foldlM_append]
  rfl

theorem gathering_nil : gathering before ts [] = between before ts := by
  rw [gathering, List.append_nil]
  rfl

theorem lastKind?_eq (h : s.reversed = ts.reverse) : s.lastKind? = Words.lastKind? ts := by
  rw [lastKind?, h, List.head?_reverse]
  rfl

theorem emit_between (kind : TokenKind) :
    { (between before ts).emit kind c with cursor := (Cursor.after before).advance c } =
      between (before ++ [c]) (ts ++ [.standing before kind [c]]) := by
  rw [between, between, emit, Token.standing, Cursor.after_concat, List.reverse_append,
    byteSize_singleton, String.singleton_eq_ofList]
  rfl

/-! ### One word -/

theorem dotStandsAlone_between : (between before ts).dotStandsAlone = true ↔ BehindBracket ts := by
  have h : (between before ts).word = none := rfl
  rw [dotStandsAlone, h, lastKind?_eq rfl]
  simp [BehindBracket]

theorem pending_of_ne_nil (h : word ≠ []) :
    pending before word = some ⟨Cursor.after before, word.reverse⟩ := by
  cases word with
  | nil => exact absurd rfl h
  | cons c word => rfl

theorem dotStandsAlone_gathering (h : word ≠ []) :
    (gathering before ts word).dotStandsAlone = isName word := by
  rw [dotStandsAlone, gathering]
  simp only [pending_of_ne_nil h]
  rw [PendingWord.characters, List.reverse_reverse]

theorem gather_gathering :
    { (gathering before ts word).gather c with
      cursor := (Cursor.after (before ++ word)).advance c } =
      gathering before ts (word ++ [c]) := by
  have hcursor : (Cursor.after (before ++ word)).advance c =
      Cursor.after (before ++ (word ++ [c])) := by
    rw [← List.append_assoc, Cursor.after_concat]
  rw [hcursor]
  cases word with
  | nil => simp [gather, gathering, pending]
  | cons d word => simp [gather, gathering, pending]

theorem step_gathering (hc : separates c = false)
    (hdot : c = '.' → (gathering before ts word).dotStandsAlone = false) :
    (gathering before ts word).step c = .ok (gathering before ts (word ++ [c])) := by
  obtain ⟨hblank, hsign, hkind⟩ := separates_eq_false_iff.mp hc
  rw [step_outside rfl]
  rcases read_cases (gathering before ts word) c with ⟨h, -⟩ | ⟨-, h, -⟩ | ⟨kind, -, -, -, h, -⟩ |
    ⟨-, heq⟩
  · exact absurd h hsign
  · cases hblank.symm.trans h
  · rcases h with h | ⟨hc, h⟩
    · cases hc.symm.trans h
    · cases (hdot hc).symm.trans h
  · rw [heq]
    exact congrArg Except.ok gather_gathering

/-- Characters are gathered in a word as long as no dot among them stands alone. -/
theorem run_gathering (hplain : ∀ c ∈ rest, separates c = false)
    (hdot : ∀ seen more, rest = seen ++ '.' :: more →
      (gathering before ts (word ++ seen)).dotStandsAlone = false) :
    (gathering before ts word).run rest = .ok (gathering before ts (word ++ rest)) := by
  induction rest generalizing word with
  | nil => rw [List.append_nil, run_nil]
  | cons c rest ih =>
    have hstep : (gathering before ts word).step c = .ok (gathering before ts (word ++ [c])) := by
      apply step_gathering (hplain c List.mem_cons_self)
      rintro rfl
      have h := hdot [] rest rfl
      rwa [List.append_nil] at h
    have hrest : (gathering before ts (word ++ [c])).run rest =
        .ok (gathering before ts (word ++ [c] ++ rest)) := by
      apply ih fun d hd => hplain d (List.mem_cons_of_mem c hd)
      intro seen more h
      rw [List.append_assoc]
      exact hdot (c :: seen) more (by rw [h]; rfl)
    rw [List.append_assoc] at hrest
    rw [run_cons, hstep]
    exact hrest

theorem not_mem_of_isName (h : isName word = true) : '.' ∉ word := by
  intro hmem
  cases word with
  | nil => cases hmem
  | cons c rest =>
    rw [isName, Bool.and_eq_true, List.all_eq_true] at h
    rcases List.mem_cons.mp hmem with rfl | hrest
    · exact absurd h.1 (by decide)
    · exact absurd (h.2 _ hrest) (by decide)

theorem endWord_gathering (h : word ≠ []) : (gathering before ts word).endWord =
    match classify (Words.lastKind? ts) word with
    | .ok kind => .ok (between (before ++ word) (ts ++ [.standing before kind word]))
    | .error cause => .error ⟨(Cursor.after before).position (byteSize word), cause⟩ := by
  have hlast : (gathering before ts word).lastKind? = Words.lastKind? ts := lastKind?_eq rfl
  have hchars : (⟨Cursor.after before, word.reverse⟩ : PendingWord).characters = word :=
    List.reverse_reverse word
  rw [endWord, hlast]
  simp only [gathering, pending_of_ne_nil h, hchars]
  cases classify (Words.lastKind? ts) word with
  | error cause => simp [PendingWord.position, PendingWord.text, hchars, byteSize]
  | ok kind =>
    simp [between, Token.standing, PendingWord.position, PendingWord.text, hchars, byteSize]

theorem read_dot (h : s.dotStandsAlone = true) :
    s.read '.' = s.endWord >>= fun u => .ok (u.emit .dot '.') := by
  have hblank : isBlank '.' = false := by decide
  rw [read, if_neg (by decide), hblank]
  simp only [delimiter?, h, and_self, if_true]
  rfl

theorem read_delimiter {kind : TokenKind} (h : delimiter? c = some kind) :
    s.read c = s.endWord >>= fun u => .ok (u.emit kind c) := by
  obtain ⟨hblank, hsign⟩ := delimiter?_plain h
  rw [read, if_neg hsign, hblank, h]
  rfl

theorem read_blank (hblank : isBlank c = true) (hsign : c ≠ '#') : s.read c = s.endWord := by
  rw [read, if_neg hsign, if_pos hblank]

theorem read_numberSign :
    s.read '#' = s.endWord >>= fun u => .ok { u with inComment := true } := by
  rw [read, if_pos rfl]
  rfl

/-! ### Characters that end a word -/

variable {γ : Type} {next : Scanner → Except Fault γ}

/-- What comes next ends the word that is open before it does anything else. -/
def EndsWord (next : Scanner → Except Fault γ) : Prop :=
  ∀ s : Scanner, s.inComment = false → next s = s.endWord >>= next

theorem endWord_of_none (h : s.word = none) : s.endWord = .ok s := by
  rw [endWord, h]

theorem endWord_eq_ok (h : s.endWord = .ok u) :
    u.word = none ∧ u.cursor = s.cursor ∧ u.inComment = s.inComment := by
  rw [endWord] at h
  split at h
  · next hword =>
    cases h
    exact ⟨hword, rfl, rfl⟩
  · split at h
    · cases h
    · cases h
      exact ⟨rfl, rfl, rfl⟩

/-- A separator ends the word, and what it does then does not depend on the word. -/
theorem read_of_separates (hc : separates c = true) :
    ∃ close : Scanner → Except Fault Scanner, ∀ s : Scanner, s.read c = s.endWord >>= close := by
  by_cases hsign : c = '#'
  · subst hsign
    exact ⟨_, fun s => read_numberSign⟩
  cases hkind : delimiter? c with
  | some kind => exact ⟨_, fun s => read_delimiter hkind⟩
  | none =>
    have hblank : isBlank c = true := by
      simpa [separates, hsign, hkind] using hc
    refine ⟨.ok, fun s => ?_⟩
    rw [read_blank hblank hsign]
    cases s.endWord <;> rfl

theorem endsWord_step (hc : separates c = true) : EndsWord fun s => s.step c := by
  intro s hs
  obtain ⟨close, hread⟩ := read_of_separates hc
  cases hend : s.endWord with
  | error f =>
    change s.step c = _
    rw [step_outside hs, hread, hend]
    rfl
  | ok u =>
    obtain ⟨hword, hcursor, hcomment⟩ := endWord_eq_ok hend
    have hstep : s.step c = u.step c := by
      rw [step_outside hs, step_outside (hcomment.trans hs), hread, hread, hend,
        endWord_of_none hword, hcursor]
    exact hstep

theorem endsWord_run_cons (hc : separates c = true) (cs : List Char) :
    EndsWord fun s => s.run (c :: cs) >>= next := by
  intro s hs
  have hstep : s.step c = s.endWord >>= fun u => u.step c := endsWord_step hc s hs
  simp only [run_cons, bind_assoc]
  rw [hstep, bind_assoc]

theorem EndsWord.run (hnext : EndsWord next) (hrest : ∀ c ∈ rest.head?, separates c = true) :
    EndsWord fun s => s.run rest >>= next := by
  cases rest with
  | nil => exact hnext
  | cons c cs => exact endsWord_run_cons (hrest c rfl) cs

end Scanner

namespace Words

open Scanner

variable {before word : List Char} {ts : List Token} {r : Outcome} {γ : Type}
  {next : Scanner → Except Fault γ}

/-! ### Words -/

theorem run_name (hname : isName word = true) (hplain : ∀ c ∈ word, separates c = false) :
    (between before ts).run word = .ok (gathering before ts word) := by
  rw [← gathering_nil]
  apply run_gathering hplain
  intro seen more h
  have hdot : '.' ∈ word := by
    rw [h]
    exact List.mem_append_right _ List.mem_cons_self
  exact absurd hdot (not_mem_of_isName hname)

theorem run_whole (h : IsWhole ts word) (hplain : ∀ c ∈ word, separates c = false) :
    (between before ts).run word = .ok (gathering before ts word) := by
  rw [← gathering_nil]
  apply run_gathering hplain
  intro seen more hword
  rw [List.nil_append]
  cases seen with
  | nil =>
    rw [gathering_nil, Bool.eq_false_iff, Ne, dotStandsAlone_between]
    intro hlast
    exact h.noDot hlast (by rw [hword]; rfl)
  | cons c seen =>
    rw [dotStandsAlone_gathering (List.cons_ne_nil c seen)]
    exact h.noMember _ more hword

theorem step_dot (hlast : BehindBracket ts) : (between before ts).step '.' =
    .ok (between (before ++ ['.']) (ts ++ [.standing before .dot ['.']])) := by
  rw [step_outside rfl, read_dot (dotStandsAlone_between.mpr hlast), endWord_of_none rfl]
  exact congrArg Except.ok (emit_between .dot)

theorem step_member (hname : isName word = true) : (gathering before ts word).step '.' =
    .ok (between (before ++ word ++ ['.'])
      (ts ++ [.standing before .name word] ++ [.standing (before ++ word) .dot ['.']])) := by
  have hne : word ≠ [] := by
    rintro rfl
    cases hname
  have hdot : (gathering before ts word).dotStandsAlone = true := by
    rw [dotStandsAlone_gathering hne, hname]
  rw [step_outside rfl, read_dot hdot, endWord_gathering hne, classify_of_isName hname]
  exact congrArg Except.ok (emit_between .dot)

/-- The scanner reads a word as the grammar does, if what comes next ends the word. -/
theorem ReadsWord.run (h : ReadsWord before ts word r) (hplain : ∀ c ∈ word, separates c = false)
    (hnext : EndsWord next) :
    (between before ts).run word >>= next =
      r >>= fun us => next (between (before ++ word) us) := by
  induction h with
  | nothing => rw [List.append_nil]; rfl
  | @dot before rest ts r hlast _ ih =>
    have hrest := ih fun c hc => hplain c (List.mem_cons_of_mem _ hc)
    rw [List.append_assoc] at hrest
    rw [run_cons, step_dot hlast]
    exact hrest
  | @member before name rest ts r hname _ ih =>
    have hrest := ih fun c hc => hplain c (List.mem_append_right _ (List.mem_cons_of_mem _ hc))
    have hrun : (between before ts).run name = .ok (gathering before ts name) :=
      run_name hname fun c hc => hplain c (List.mem_append_left _ hc)
    have hbehind : before ++ (name ++ '.' :: rest) = before ++ name ++ ['.'] ++ rest := by simp
    rw [hbehind, run_append, hrun]
    change ((gathering before ts name).run ('.' :: rest) >>= next) = _
    rw [run_cons, step_member hname]
    exact hrest
  | @element before word ts kind hwhole hkind =>
    have hclass := classify_eq_iff.mpr (IsClass.element hkind)
    rw [run_whole hwhole hplain]
    change next (gathering before ts word) = _
    rw [hnext _ rfl, endWord_gathering hwhole.nonempty, hclass]
    rfl
  | @fault before word ts cause hwhole hnone hcause =>
    have hclass := classify_eq_iff.mpr (IsClass.fault hnone hcause)
    rw [run_whole hwhole hplain]
    change next (gathering before ts word) = _
    rw [hnext _ rfl, endWord_gathering hwhole.nonempty, hclass]
    rfl

/-! ### Pieces -/

theorem step_delimiter {c : Char} {kind : TokenKind} (hc : delimiter? c = some kind) :
    (between before ts).step c =
      .ok (between (before ++ [c]) (ts ++ [.standing before kind [c]])) := by
  rw [step_outside rfl, read_delimiter hc, endWord_of_none rfl]
  exact congrArg Except.ok (emit_between kind)

theorem step_blank {c : Char} (hblank : isBlank c = true) (hsign : c ≠ '#') :
    (between before ts).step c = .ok (between (before ++ [c]) ts) := by
  rw [step_outside rfl, read_blank hblank hsign, endWord_of_none rfl, between, between,
    Cursor.after_concat]
  rfl

theorem separates_of_divides {c : Char} (h : divides c = true) : separates c = true := by
  rw [divides, Bool.or_eq_true] at h
  rcases h with h | h <;> simp [separates, h]

theorem separates_eq_divides {c : Char} (hc : c ≠ '#') : separates c = divides c := by
  simp [separates, divides, hc]

theorem ReadsPiece.run (h : ReadsPiece before ts word r) (hsign : '#' ∉ word)
    (hnext : (∀ c ∈ word, divides c = false) → EndsWord next) :
    (between before ts).run word >>= next =
      r >>= fun us => next (between (before ++ word) us) := by
  cases h with
  | blank hc =>
    rw [run_cons, step_blank hc fun h => hsign (List.mem_singleton.mpr h.symm)]
    rfl
  | delimiter hc =>
    rw [run_cons, step_delimiter hc]
    rfl
  | word hword hread =>
    apply hread.run _ (hnext hword)
    intro c hc
    rw [separates_eq_divides (ne_of_mem_of_not_mem hc hsign)]
    exact hword c hc

/-- Two pieces that stand side by side, and that are not two halves of one word. -/
def Parted (part other : List Char) : Prop :=
  ∃ (hpart : part ≠ []) (hother : other ≠ []),
    (!divides (part.getLast hpart) && !divides (other.head hother)) = false

/-- Behind a word that is a piece there is a separator, if there is anything. -/
theorem separates_of_parted {parts : List (List Char)} (hword : ∀ c ∈ word, divides c = false)
    (h : ∀ part ∈ parts.head?, Parted word part) :
    ∀ c ∈ parts.flatten.head?, separates c = true := by
  intro c hc
  cases parts with
  | nil => cases hc
  | cons part parts =>
    obtain ⟨hne, hpart, hdivides⟩ := h part rfl
    rw [hword _ (List.getLast_mem hne)] at hdivides
    cases part with
    | nil => exact absurd rfl hpart
    | cons d part =>
      obtain rfl : d = c := Option.some.inj hc
      exact separates_of_divides (by simpa using hdivides)

theorem run_pieces {parts : List (List Char)} (h : ReadsPieces before ts parts r)
    (hsign : ∀ part ∈ parts, '#' ∉ part) (hparted : parts.IsChain Parted)
    (hnext : EndsWord next) :
    (between before ts).run parts.flatten >>= next =
      r >>= fun us => next (between (before ++ parts.flatten) us) := by
  induction h with
  | nothing => rw [List.flatten_nil, List.append_nil]; rfl
  | @more before part ts us parts r hpart _ ih =>
    obtain ⟨hhead, htail⟩ := List.isChain_cons.mp hparted
    have hrest := ih (fun other hother => hsign other (List.mem_cons_of_mem part hother)) htail
    rw [List.append_nil] at hrest
    rw [List.flatten_cons, run_append, bind_assoc, hpart.run (hsign part List.mem_cons_self)
      fun hword => hnext.run (separates_of_parted hword hhead), ← List.append_assoc]
    exact hrest
  | @fault before part ts parts f hpart =>
    obtain ⟨hhead, -⟩ := List.isChain_cons.mp hparted
    rw [List.flatten_cons, run_append, bind_assoc, hpart.run (hsign part List.mem_cons_self)
      fun hword => hnext.run (separates_of_parted hword hhead)]
    rfl

/-! ### Lines -/

/-- What comes next begins with the end of the line: of the word that is open, or of a comment. -/
structure EndsLine (next : Scanner → Except Fault γ) : Prop where
  word : EndsWord next
  comment : ∀ before ts,
    next { between before ts with inComment := true } = next (between before ts)

theorem step_commented {c : Char} (hc : c ≠ '\n') :
    { between before ts with inComment := true }.step c =
      .ok { between (before ++ [c]) ts with inComment := true } := by
  rw [step_inComment rfl, between, between, Cursor.after_concat, decide_eq_true hc]

theorem run_commented {cs : List Char} (hcs : '\n' ∉ cs) :
    { between before ts with inComment := true }.run cs =
      .ok { between (before ++ cs) ts with inComment := true } := by
  induction cs generalizing before with
  | nil => rw [List.append_nil, run_nil]
  | cons c cs ih =>
    rw [List.mem_cons, not_or] at hcs
    rw [List.append_cons, run_cons, step_commented (Ne.symm hcs.1)]
    exact ih hcs.2

theorem step_numberSign : (between before ts).step '#' =
    .ok { between (before ++ ['#']) ts with inComment := true } := by
  rw [step_outside rfl, read_numberSign, endWord_of_none rfl, between, between,
    Cursor.after_concat]
  rfl

/-- What a line has behind its words is passed over. -/
theorem run_comment {cs : List Char} (hcs : '\n' ∉ cs) (hhead : ∀ c ∈ cs.head?, c = '#')
    (hnext : EndsLine next) :
    (between before ts).run cs >>= next = next (between (before ++ cs) ts) := by
  cases cs with
  | nil => rw [List.append_nil]; rfl
  | cons c cs =>
    obtain rfl : c = '#' := hhead c rfl
    rw [List.mem_cons, not_or] at hcs
    rw [List.append_cons, run_cons, step_numberSign]
    change (Scanner.run _ cs >>= next) = _
    rw [run_commented hcs.2]
    exact hnext.comment _ ts

theorem notMem_uncommented (line : List Char) : '#' ∉ uncommented line := by
  intro hmem
  exact absurd (List.mem_takeWhile_imp hmem) (by decide)

theorem exists_remark (line : List Char) :
    ∃ remark, uncommented line ++ remark = line ∧ ∀ c ∈ remark.head?, c = '#' := by
  refine ⟨line.dropWhile (· ≠ '#'), List.takeWhile_append_dropWhile, ?_⟩
  intro c hc
  have h := List.head?_dropWhile_not (fun d : Char => decide (d ≠ '#')) line
  rw [Option.mem_def.mp hc] at h
  simpa using h

theorem run_line {line : List Char} (h : ReadsLine before ts line r) (hline : '\n' ∉ line)
    (hnext : EndsLine next) :
    (between before ts).run line >>= next =
      r >>= fun us => next (between (before ++ line) us) := by
  obtain ⟨remark, hsplit, hhead⟩ := exists_remark line
  have hflatten : (pieces (uncommented line)).flatten = uncommented line :=
    List.flatten_splitBy _ _
  have hsign : ∀ part ∈ pieces (uncommented line), '#' ∉ part := by
    intro part hpart hmem
    apply notMem_uncommented line
    rw [← hflatten]
    exact List.mem_flatten_of_mem hpart hmem
  have hremark : '\n' ∉ remark := by
    intro hmem
    apply hline
    rw [← hsplit]
    exact List.mem_append_right _ hmem
  have hends : EndsWord fun s => s.run remark >>= next := by
    apply hnext.word.run
    intro c hc
    rw [hhead c hc]
    decide
  have hparted : (pieces (uncommented line)).IsChain Parted :=
    List.isChain_getLast_head_splitBy (fun c d => !divides c && !divides d) _
  have hwords := run_pieces h hsign hparted hends
  rw [hflatten] at hwords
  calc (between before ts).run line >>= next
      = (between before ts).run (uncommented line) >>= fun s => s.run remark >>= next := by
        rw [← bind_assoc, ← run_append, hsplit]
    _ = r >>= fun us => (between (before ++ uncommented line) us).run remark >>= next := hwords
    _ = r >>= fun us => next (between (before ++ line) us) := by
        simp only [run_comment hremark hhead hnext, List.append_assoc, hsplit]

/-! ### Sources -/

theorem step_newline : (between before ts).step '\n' = .ok (between (before ++ ['\n']) ts) :=
  step_blank (by decide) (by decide)

theorem step_commented_newline : { between before ts with inComment := true }.step '\n' =
    .ok (between (before ++ ['\n']) ts) := by
  rw [step_inComment rfl, between, between, Cursor.after_concat]
  rfl

theorem endsLine_newline (rest : List Char) :
    EndsLine fun s => s.run ('\n' :: rest) >>= next where
  word := endsWord_run_cons (by decide) rest
  comment before ts := by
    rw [run_cons, run_cons, step_commented_newline, step_newline]

theorem endsLine_finish : EndsLine finish where
  word s hs := by
    cases hend : s.endWord with
    | error f => rw [finish, hend]; rfl
    | ok u =>
      obtain ⟨hword, hcursor, -⟩ := endWord_eq_ok hend
      change _ = finish u
      rw [finish, finish, hend, endWord_of_none hword, hcursor]
  comment _ _ := rfl

/-- The scanner reads the lines of a source one after the other. -/
theorem run_lines {source : List Char}
    (h : InOrder ReadsLine ['\n'] before ts (source.splitOn '\n') r) (hnext : EndsLine next) :
    (between before ts).run source >>= next =
      r >>= fun us => next (between (before ++ source) us) := by
  induction hlength : source.length using Nat.strongRecOn generalizing source before ts with
  | ind length ih =>
  subst hlength
  by_cases hmem : '\n' ∈ source
  · obtain ⟨line, rest, rfl, hline⟩ := List.eq_append_cons_of_mem hmem
    have hends : EndsLine fun s => s.run ('\n' :: rest) >>= next := endsLine_newline rest
    rw [List.splitOn_append_cons_self_of_not_mem hline] at h
    rw [run_append, bind_assoc]
    cases h with
    | more hpart hparts =>
      have hshort : rest.length < (line ++ '\n' :: rest).length := by
        rw [List.length_append, List.length_cons]
        omega
      have hrest := ih rest.length hshort hparts rfl
      rw [run_line hpart hline hends]
      simp only [List.append_assoc] at hrest
      change Scanner.run _ ('\n' :: rest) >>= next = _
      rw [run_cons, step_newline, List.append_assoc]
      exact hrest
    | fault hpart =>
      rw [run_line hpart hline hends]
      rfl
  · rw [List.splitOn_eq_singleton hmem] at h
    cases h with
    | more hpart hparts =>
      cases hparts
      exact run_line hpart hmem hnext
    | fault hpart => exact run_line hpart hmem hnext

/-! ### Every source is read -/

theorem exists_readsWord (before : List Char) (ts : List Token) (word : List Char) :
    ∃ r, ReadsWord before ts word r := by
  induction hlength : word.length using Nat.strongRecOn generalizing word before ts with
  | ind length ih =>
  subst hlength
  by_cases hdot : BehindBracket ts ∧ word.head? = some '.'
  · obtain ⟨hlast, hhead⟩ := hdot
    obtain ⟨rest, rfl⟩ := List.head?_eq_some_iff.mp hhead
    obtain ⟨r, hrest⟩ := ih rest.length (by simp) (before ++ ['.'])
      (ts ++ [.standing before .dot ['.']]) rest rfl
    exact ⟨r, .dot hlast hrest⟩
  by_cases hmember : ∃ name rest, word = name ++ '.' :: rest ∧ isName name = true
  · obtain ⟨name, rest, rfl, hname⟩ := hmember
    have hshort : rest.length < (name ++ '.' :: rest).length := by
      rw [List.length_append, List.length_cons]
      omega
    obtain ⟨r, hrest⟩ := ih rest.length hshort (before ++ name ++ ['.'])
      (ts ++ [.standing before .name name] ++ [.standing (before ++ name) .dot ['.']]) rest rfl
    exact ⟨r, .member hname hrest⟩
  by_cases hempty : word = []
  · rw [hempty]
    exact ⟨.ok ts, .nothing⟩
  have hwhole : IsWhole ts word := by
    refine ⟨hempty, fun hlast hhead => hdot ⟨hlast, hhead⟩, ?_⟩
    intro name rest hword
    rw [Bool.eq_false_iff]
    exact fun hname => hmember ⟨name, rest, hword, hname⟩
  have hclass := isClass_classify (Words.lastKind? ts) word
  cases hresult : classify (Words.lastKind? ts) word with
  | ok kind =>
    rw [hresult] at hclass
    cases hclass with
    | element hkind => exact ⟨_, .element hwhole hkind⟩
  | error cause =>
    rw [hresult] at hclass
    cases hclass with
    | fault hnone hcause => exact ⟨_, .fault hwhole hnone hcause⟩

/-- A piece is one character that divides its line, or a word. -/
theorem divides_of_mem_pieces {text part : List Char} (h : part ∈ pieces text) :
    (∃ c, part = [c] ∧ divides c = true) ∨ ∀ c ∈ part, divides c = false := by
  have hchain := List.isChain_of_mem_splitBy h
  clear h
  induction part with
  | nil => exact .inr nofun
  | cons c part ih =>
    cases part with
    | nil =>
      cases hc : divides c with
      | true => exact .inl ⟨c, rfl, hc⟩
      | false => exact .inr (List.forall_mem_singleton.mpr hc)
    | cons d part =>
      obtain ⟨hpair, htail⟩ := List.isChain_cons_cons.mp hchain
      rw [Bool.and_eq_true, Bool.not_eq_true', Bool.not_eq_true'] at hpair
      rcases ih htail with ⟨e, he, hdivides⟩ | hrest
      · obtain rfl : d = e := List.head_eq_of_cons_eq he
        cases hdivides.symm.trans hpair.2
      · exact .inr (List.forall_mem_cons.mpr ⟨hpair.1, hrest⟩)

theorem exists_readsPiece {text part : List Char} (h : part ∈ pieces text) (before : List Char)
    (ts : List Token) : ∃ r, ReadsPiece before ts part r := by
  rcases divides_of_mem_pieces h with ⟨c, rfl, hc⟩ | hword
  · rw [divides, Bool.or_eq_true, Option.isSome_iff_exists] at hc
    rcases hc with hblank | ⟨kind, hkind⟩
    · exact ⟨_, .blank hblank⟩
    · exact ⟨_, .delimiter hkind⟩
  · obtain ⟨r, hread⟩ := exists_readsWord before ts part
    exact ⟨r, .word hword hread⟩

theorem exists_inOrder {reads : List Char → List Token → List Char → Outcome → Prop}
    {separator : List Char} {parts : List (List Char)}
    (h : ∀ part ∈ parts, ∀ before ts, ∃ r, reads before ts part r) (before : List Char)
    (ts : List Token) : ∃ r, InOrder reads separator before ts parts r := by
  induction parts generalizing before ts with
  | nil => exact ⟨_, .nothing⟩
  | cons part parts ih =>
    obtain ⟨r, hpart⟩ := h part List.mem_cons_self before ts
    cases r with
    | error f => exact ⟨_, .fault hpart⟩
    | ok us =>
      obtain ⟨r, hparts⟩ := ih (fun other hother => h other (List.mem_cons_of_mem part hother))
        (before ++ part ++ separator) us
      exact ⟨r, .more hpart hparts⟩

theorem exists_reads (source : List Char) : ∃ r, Reads source r := by
  apply exists_inOrder
  intro line _ before ts
  apply exists_inOrder
  intro part hpart before ts
  exact exists_readsPiece hpart before ts

theorem finish_between (source : String) (words : List Token) :
    (between source.toList words).finish = .ok (words ++ [Token.endOf source]) := by
  have hend : (⟨.endOfFile, "", (Cursor.after source.toList).afterLast⟩ : Token) =
      Token.endOf source := by
    rw [Cursor.afterLast_after, byteSize_toList]
    rfl
  rw [finish, endWord_of_none rfl, ← hend]
  simp [between, bind, Except.bind, pure, Except.pure]

/-- The outcome of the grammar is that of the scanner, which marks the end behind the tokens. -/
theorem Reads.scan {source : String} (h : Reads source.toList r) :
    Token.scan source.toList = r.map (· ++ [Token.endOf source]) := by
  have hrun := run_lines h endsLine_finish
  rw [List.nil_append] at hrun
  change (between [] []).run source.toList >>= finish = _
  rw [hrun]
  cases r with
  | error f => rfl
  | ok words => exact finish_between source words

end Words

/-- The tokens of a source are those that the grammar of words reads from it, with a mark for its
end behind them; and where the grammar comes to a fault, the first one is reported. -/
theorem Token.ofSource?_iff_reads (file source : String) :
    (∀ tokens, ofSource? file source = .ok tokens ↔
      ∃ words, Words.Reads source.toList (.ok words) ∧ tokens = words ++ [endOf source]) ∧
    ∀ d, ofSource? file source = .error d ↔
      ∃ f : Scanner.Fault, Words.Reads source.toList (.error f) ∧ d = f.diagnostic file := by
  obtain ⟨r, hr⟩ := Words.exists_reads source.toList
  constructor
  · intro tokens
    rw [ofSource?, Except.mapError_eq_ok_iff]
    constructor
    · intro hscan
      rw [hr.scan] at hscan
      cases r with
      | error f => cases hscan
      | ok words => exact ⟨words, hr, (Except.ok.inj hscan).symm⟩
    · rintro ⟨words, hreads, rfl⟩
      exact hreads.scan
  · intro d
    rw [ofSource?, Except.mapError_eq_error_iff]
    constructor
    · rintro ⟨f, hscan, rfl⟩
      rw [hr.scan] at hscan
      cases r with
      | error g =>
        obtain rfl : g = f := Except.error.inj hscan
        exact ⟨g, hr, rfl⟩
      | ok words => cases hscan
    · rintro ⟨f, hreads, rfl⟩
      exact ⟨f, hreads.scan, rfl⟩

end Easel
