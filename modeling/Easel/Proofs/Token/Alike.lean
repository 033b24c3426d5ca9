import Easel.Proofs.Token.Reading

/-! What a scanner does with the characters that come next depends on the characters of the word
that is open and on the kinds of the tokens so far, and not on their places. Two scanners that agree
on these go on alike over every text, and a run of blanks and comments does to a scanner what any
other does. -/

namespace Easel

open Text

namespace Text

/-- Whether a character that comes behind `before` belongs to no token. -/
def IsPassed (before : List Char) (c : Char) : Prop := isBlank c = true ∨ InComment before c

instance (before : List Char) (c : Char) : Decidable (IsPassed before c) :=
  inferInstanceAs (Decidable (_ ∨ _))

/-- Blanks and comments that come behind `before`. -/
def ArePassed (before : List Char) : List Char → Prop
  | [] => True
  | c :: gap => IsPassed before c ∧ ArePassed (before ++ [c]) gap

instance decidableArePassed (before : List Char) : (gap : List Char) →
    Decidable (ArePassed before gap)
  | [] => inferInstanceAs (Decidable True)
  | c :: gap =>
    have := decidableArePassed (before ++ [c]) gap
    inferInstanceAs (Decidable (_ ∧ _))

/-- A run of blanks and comments that goes no further on either side. -/
structure IsGap (before gap after : List Char) : Prop where
  nonempty : gap ≠ []
  passed : ArePassed before gap
  first : ∀ c ∈ before.getLast?, ¬IsPassed before.dropLast c
  last : ∀ c ∈ after.head?, ¬IsPassed (before ++ gap) c

def AreBlanks (cs : List Char) : Prop := ∀ c ∈ cs, isBlank c = true

instance (cs : List Char) : Decidable (AreBlanks cs) :=
  List.decidableBAll (fun c => isBlank c = true) cs

theorem arePassed_concat {before gap : List Char} {c : Char} :
    ArePassed before (gap ++ [c]) ↔ ArePassed before gap ∧ IsPassed (before ++ gap) c := by
  induction gap generalizing before with
  | nil => simp [ArePassed]
  | cons d gap ih => simp [ArePassed, ih, and_assoc]

theorem AreBlanks.passed {cs : List Char} (h : AreBlanks cs) (before : List Char) :
    ArePassed before cs := by
  induction cs generalizing before with
  | nil => trivial
  | cons c cs ih =>
    obtain ⟨hc, hcs⟩ := List.forall_mem_cons.mp h
    exact ⟨.inl hc, ih hcs _⟩

theorem AreBlanks.outside {cs before : List Char} (h : AreBlanks cs)
    (hbefore : '#' ∉ lastLine before) : '#' ∉ lastLine (before ++ cs) := by
  induction cs generalizing before with
  | nil => rwa [List.append_nil]
  | cons c cs ih =>
    obtain ⟨hblank, hcs⟩ := List.forall_mem_cons.mp h
    have hc : c ≠ '#' := by
      rintro rfl
      cases hblank
    rw [List.append_cons]
    exact ih hcs (outside_concat hbefore hc)

theorem IsGap.outside {before gap after : List Char} (h : IsGap before gap after) :
    '#' ∉ lastLine before := by
  rcases List.eq_nil_or_concat' before with rfl | ⟨seen, c, rfl⟩
  · decide
  · intro hmem
    have hc := h.first c (by rw [List.getLast?_concat]; rfl)
    rw [List.dropLast_concat] at hc
    exact hc (.inr hmem)

/-- No comment is open behind a gap, unless the text ends there. -/
theorem IsGap.outside_after {before gap after : List Char} {c : Char}
    (h : IsGap before gap (c :: after)) : '#' ∉ lastLine (before ++ gap) := by
  intro hmem
  apply h.last c rfl
  by_cases hc : c = '\n'
  · rw [hc]
    exact .inl (by decide)
  · exact .inr (inComment_of_mem hmem hc)

end Text

namespace Scanner

/-- Faults with the same cause, wherever they are. -/
def Fault.Alike (f f' : Fault) : Prop := f.cause = f'.cause

/-- Scanners that differ in places only. -/
structure Alike (s t : Scanner) : Prop where
  inComment : s.inComment = t.inComment
  word : s.word.map PendingWord.characters = t.word.map PendingWord.characters
  tokens : s.reversed.map Token.lexeme = t.reversed.map Token.lexeme

variable {s t u v : Scanner} {c : Char} {cs gap blanks : List Char}

namespace Alike

theorem refl (s : Scanner) : s.Alike s := ⟨rfl, rfl, rfl⟩

theorem symm (h : s.Alike t) : t.Alike s := ⟨h.inComment.symm, h.word.symm, h.tokens.symm⟩

theorem trans (h : s.Alike t) (h' : t.Alike u) : s.Alike u :=
  ⟨h.inComment.trans h'.inComment, h.word.trans h'.word, h.tokens.trans h'.tokens⟩

theorem lastKind? (h : s.Alike t) : s.lastKind? = t.lastKind? := by
  have hkind (u : Scanner) : u.lastKind? = (u.reversed.map Token.lexeme).head?.map Prod.fst := by
    rw [List.head?_map, Option.map_map]
    rfl
  rw [hkind, hkind, h.tokens]

/-- Scanners without an open word or with open words of the same characters. -/
theorem word_cases (h : s.Alike t) : (s.word = none ∧ t.word = none) ∨
    ∃ w w', s.word = some w ∧ t.word = some w' ∧ w.characters = w'.characters := by
  have hword := h.word
  cases hs : s.word with
  | none =>
    rw [hs, Option.map_none, eq_comm, Option.map_eq_none_iff] at hword
    exact .inl ⟨rfl, hword⟩
  | some w =>
    rw [hs, Option.map_some, eq_comm, Option.map_eq_some_iff] at hword
    obtain ⟨w', ht, hchars⟩ := hword
    exact .inr ⟨w, w', rfl, ht, hchars.symm⟩

theorem word_eq_none (h : s.Alike t) (ht : t.word = none) : s.word = none := by
  simpa [ht] using h.word

theorem dotStandsAlone (h : s.Alike t) : s.dotStandsAlone = t.dotStandsAlone := by
  rw [Scanner.dotStandsAlone, Scanner.dotStandsAlone, h.lastKind?]
  rcases h.word_cases with ⟨hs, ht⟩ | ⟨w, w', hs, ht, hchars⟩
  · rw [hs, ht]
  · simp only [hs, ht, hchars]

theorem emit (h : s.Alike t) (kind : TokenKind) (c : Char) :
    (s.emit kind c).Alike (t.emit kind c) :=
  ⟨h.inComment, h.word, congrArg (List.cons (kind, String.singleton c)) h.tokens⟩

theorem gather (h : s.Alike t) (c : Char) : (s.gather c).Alike (t.gather c) := by
  rw [Scanner.gather, Scanner.gather]
  rcases h.word_cases with ⟨hs, ht⟩ | ⟨w, w', hs, ht, hchars⟩
  · rw [hs, ht]
    exact ⟨h.inComment, rfl, h.tokens⟩
  · have hnext : (c :: w.reversed).reverse = (c :: w'.reversed).reverse := by
      rw [List.reverse_cons, List.reverse_cons]
      exact congrArg (· ++ [c]) hchars
    simp only [hs, ht]
    exact ⟨h.inComment, congrArg some hnext, h.tokens⟩

end Alike

/-! ### Going on alike -/

theorem agree_endWord (h : s.Alike t) : Agree Fault.Alike Alike s.endWord t.endWord := by
  rw [endWord, endWord, h.lastKind?]
  rcases h.word_cases with ⟨hs, ht⟩ | ⟨w, w', hs, ht, hchars⟩
  · rw [hs, ht]
    exact .ok h
  · have htext : w.text = w'.text := congrArg String.ofList hchars
    simp only [hs, ht, hchars]
    cases classify t.lastKind? w'.characters with
    | error cause => exact .error rfl
    | ok kind =>
      refine .ok ⟨h.inComment, rfl, ?_⟩
      rw [List.map_cons, List.map_cons, h.tokens, Token.lexeme, Token.lexeme, htext]

theorem agree_endWord_bind (h : s.Alike t) {close : Scanner → Scanner}
    (hclose : ∀ u v, u.Alike v → (close u).Alike (close v)) :
    Agree Fault.Alike Alike (s.endWord >>= fun u => .ok (close u))
      (t.endWord >>= fun u => .ok (close u)) :=
  (agree_endWord h).bind fun u v huv => .ok (hclose u v huv)

theorem read_gather (hc : separates c = false) (hdot : ¬(c = '.' ∧ s.dotStandsAlone = true)) :
    s.read c = .ok (s.gather c) := by
  obtain ⟨hblank, hsign, hkind⟩ := separates_eq_false_iff.mp hc
  rw [read, if_neg hsign, hblank, hkind]
  simp only [if_neg hdot]
  rfl

theorem agree_read (h : s.Alike t) (c : Char) :
    Agree Fault.Alike Alike (s.read c) (t.read c) := by
  by_cases hsign : c = '#'
  · subst hsign
    rw [read_numberSign, read_numberSign]
    exact agree_endWord_bind h fun u v huv => ⟨rfl, huv.word, huv.tokens⟩
  cases hblank : isBlank c with
  | true =>
    rw [read_blank hblank hsign, read_blank hblank hsign]
    exact agree_endWord h
  | false =>
    cases hkind : delimiter? c with
    | some kind =>
      rw [read_delimiter hkind, read_delimiter hkind]
      exact agree_endWord_bind h fun u v huv => huv.emit kind c
    | none =>
      by_cases hdot : c = '.' ∧ s.dotStandsAlone = true
      · obtain ⟨rfl, halone⟩ := hdot
        rw [read_dot halone, read_dot (h.dotStandsAlone.symm.trans halone)]
        exact agree_endWord_bind h fun u v huv => huv.emit .dot '.'
      · have hc : separates c = false := separates_eq_false_iff.mpr ⟨hblank, hsign, hkind⟩
        rw [read_gather hc hdot, read_gather hc (by rwa [← h.dotStandsAlone])]
        exact .ok (h.gather c)

theorem agree_step (h : s.Alike t) (c : Char) :
    Agree Fault.Alike Alike (s.step c) (t.step c) := by
  cases hs : s.inComment with
  | true =>
    rw [step_inComment hs, step_inComment (h.inComment.symm.trans hs)]
    exact .ok ⟨rfl, h.word, h.tokens⟩
  | false =>
    rw [step_outside hs, step_outside (h.inComment.symm.trans hs)]
    exact (agree_read h c).bind fun u v huv => .ok ⟨huv.inComment, huv.word, huv.tokens⟩

/-- Scanners that are alike stay so over every text. -/
theorem agree_run (h : s.Alike t) (cs : List Char) :
    Agree Fault.Alike Alike (s.run cs) (t.run cs) := by
  induction cs generalizing s t with
  | nil => exact .ok h
  | cons c cs ih =>
    rw [run_cons, run_cons]
    exact (agree_step h c).bind fun u v huv => ih huv

abbrev SameLexemes (ts us : List Token) : Prop := ts.map Token.lexeme = us.map Token.lexeme

theorem agree_finish (h : s.Alike t) : Agree Fault.Alike SameLexemes s.finish t.finish := by
  refine (agree_endWord h).bind fun u v huv => .ok ?_
  rw [SameLexemes, List.map_reverse, List.map_reverse, List.map_cons, List.map_cons, huv.tokens]
  rfl

/-- What follows scanners that are alike is read alike, up to the end of the text. -/
theorem agree_rest (h : s.Alike t) (cs : List Char) :
    Agree Fault.Alike SameLexemes (s.run cs >>= finish) (t.run cs >>= finish) :=
  (agree_run h cs).bind fun _ _ huv => agree_finish huv

/-! ### Blanks and comments -/

theorem run_append_eq_ok_iff {ds : List Char} :
    s.run (cs ++ ds) = .ok u ↔ ∃ t, s.run cs = .ok t ∧ t.run ds = .ok u := by
  rw [run_append, Except.bind_eq_ok_iff]

theorem run_concat_eq_ok_iff :
    s.run (cs ++ [c]) = .ok u ↔ ∃ t, s.run cs = .ok t ∧ t.step c = .ok u := by
  have hone (t : Scanner) : t.run [c] = t.step c := by
    rw [run_cons]
    cases t.step c <;> rfl
  simp only [run_append_eq_ok_iff, hone]

theorem Tracks.inComment_eq_false (h : s.Tracks cs) :
    s.inComment = false ↔ '#' ∉ lastLine cs := by
  rw [← h.inComment, Bool.not_eq_true]

theorem step_passed (hs : s.Tracks cs) (hend : s.endWord = .ok u) (hc : IsPassed cs c) :
    ∃ v, s.step c = .ok v ∧ v.word = none ∧ v.reversed = u.reversed := by
  obtain ⟨hword, -, -⟩ := endWord_eq_ok hend
  cases hin : s.inComment with
  | true =>
    have hclosed := hs.closed hin
    obtain rfl : s = u := Except.ok.inj ((endWord_of_none hclosed).symm.trans hend)
    exact ⟨_, step_inComment hin, hclosed, rfl⟩
  | false =>
    rw [step_outside hin]
    by_cases hsign : c = '#'
    · subst hsign
      rw [read_numberSign, hend]
      exact ⟨_, rfl, hword, rfl⟩
    · have hout : '#' ∉ lastLine cs := hs.inComment_eq_false.mp hin
      have hblank : isBlank c = true := hc.resolve_right (outside_concat hout hsign)
      rw [read_blank hblank hsign, hend]
      exact ⟨_, rfl, hword, rfl⟩

/-- Blanks and comments end the word in front of them and do nothing else. -/
theorem run_passed (hs : s.Tracks cs) (hend : s.endWord = .ok u) (hne : gap ≠ [])
    (hgap : ArePassed cs gap) :
    ∃ v, s.run gap = .ok v ∧ v.word = none ∧ v.reversed = u.reversed := by
  induction gap using List.reverseRecOn with
  | nil => exact absurd rfl hne
  | append_singleton gap c ih =>
    obtain ⟨hgap, hc⟩ := arePassed_concat.mp hgap
    by_cases hempty : gap = []
    · subst hempty
      rw [List.append_nil] at hc
      obtain ⟨v, hstep, hv⟩ := step_passed hs hend hc
      exact ⟨v, run_concat_eq_ok_iff.mpr ⟨s, rfl, hstep⟩, hv⟩
    · obtain ⟨v, hrun, hword, hrev⟩ := ih hempty hgap
      obtain ⟨w, hstep, hw, hsame⟩ := step_passed (hs.run hrun) (endWord_of_none hword) hc
      exact ⟨w, run_concat_eq_ok_iff.mpr ⟨v, hrun, hstep⟩, hw, hsame.trans hrev⟩

theorem run_blanks (hs : s.Tracks cs) (hin : s.inComment = false) (hend : s.endWord = .ok u)
    (hne : blanks ≠ []) (hblanks : AreBlanks blanks) :
    ∃ v, s.run blanks = .ok v ∧ v.Alike u := by
  obtain ⟨hword, -, hcomment⟩ := endWord_eq_ok hend
  obtain ⟨v, hrun, hv, hrev⟩ := run_passed hs hend hne (hblanks.passed cs)
  have hout : v.inComment = false := (hs.run hrun).inComment_eq_false.mpr
    (hblanks.outside (hs.inComment_eq_false.mp hin))
  exact ⟨v, hrun, by rw [hout, hcomment, hin], by rw [hv, hword], by rw [hrev]⟩

/-- Behind a complete word there may be blanks or none. -/
theorem run_blanks_of_none (hs : s.Tracks cs) (hin : s.inComment = false) (hword : s.word = none)
    (hblanks : AreBlanks blanks) : ∃ v, s.run blanks = .ok v ∧ v.Alike s := by
  by_cases hne : blanks = []
  · subst hne
    exact ⟨s, rfl, .refl s⟩
  · exact run_blanks hs hin (endWord_of_none hword) hne hblanks

/-- A separator ends the word in front of it. -/
theorem endWord_of_step (hin : s.inComment = false) (hc : separates c = true)
    (hstep : s.step c = .ok t) : ∃ u, s.endWord = .ok u ∧ u.step c = .ok t :=
  Except.bind_eq_ok_iff.mp ((endsWord_step hc s hin).symm.trans hstep)

/-- Behind a character that is a token by itself no word is open. -/
theorem closed_of_delimiter (hin : s.inComment = false) (hc : (delimiter? c).isSome = true)
    (hstep : s.step c = .ok t) : t.word = none ∧ t.inComment = false := by
  obtain ⟨kind, hkind⟩ := Option.isSome_iff_exists.mp hc
  obtain ⟨v, hread, rfl⟩ := step_eq_ok hin hstep
  rw [read_delimiter hkind] at hread
  obtain ⟨u, hend, hemit⟩ := Except.bind_eq_ok_iff.mp hread
  obtain ⟨hword, -, hcomment⟩ := endWord_eq_ok hend
  cases hemit
  exact ⟨hword, hcomment.trans hin⟩

/-- In front of a separator there may be blanks or none. -/
theorem run_blanks_step (hs : s.Tracks cs) (hin : s.inComment = false) (hc : separates c = true)
    (hstep : s.step c = .ok t) (hblanks : AreBlanks blanks) :
    ∃ v, s.run (blanks ++ [c]) = .ok v ∧ v.Alike t := by
  by_cases hne : blanks = []
  · subst hne
    exact ⟨t, run_concat_eq_ok_iff.mpr ⟨s, rfl, hstep⟩, .refl t⟩
  · obtain ⟨u, hend, hclosed⟩ := endWord_of_step hin hc hstep
    obtain ⟨v, hrun, halike⟩ := run_blanks hs hin hend hne hblanks
    obtain ⟨w, hw, hsame⟩ := (agree_step halike.symm c).exists_ok hclosed
    exact ⟨w, run_concat_eq_ok_iff.mpr ⟨v, hrun, hw⟩, hsame.symm⟩

theorem finish_of_none (hword : s.word = none) :
    s.finish = .ok (s.reversed.reverse ++ [⟨.endOfFile, "", s.cursor.afterLast⟩]) := by
  rw [finish, endWord_of_none hword, ← List.reverse_cons]
  rfl

/-- At the end of a text it does not matter whether a comment is open. -/
theorem agree_rest_of_closed (hs : s.word = none) (ht : t.word = none)
    (hrev : s.reversed = t.reversed) (hin : cs ≠ [] → s.inComment = t.inComment) :
    Agree Fault.Alike SameLexemes (s.run cs >>= finish) (t.run cs >>= finish) := by
  cases cs with
  | nil =>
    change Agree _ _ s.finish t.finish
    rw [finish_of_none hs, finish_of_none ht, hrev]
    refine .ok ?_
    rw [SameLexemes, List.map_append, List.map_append]
    rfl
  | cons c cs =>
    exact agree_rest ⟨hin (List.cons_ne_nil c cs), by rw [hs, ht], by rw [hrev]⟩ _

end Scanner

end Easel
