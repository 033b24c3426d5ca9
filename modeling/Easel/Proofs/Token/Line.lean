import Easel.Proofs.Token.Literal
import Easel.Proofs.Token.Readable

/-! The words of a line. No character of a name or of a number separates words, so names and numbers
with blanks or brackets between them are tokens as they stand there, and so they are in a line
behind a source. -/

namespace Easel

open Text Scanner

namespace Text

variable {c : Char} {text word : List Char}

/-! ### Names -/

/-- The blanks outside ASCII. -/
def wideBlanks : List Nat :=
  [0x85, 0xA0, 0x1680] ++ List.range' 0x2000 11 ++ [0x2028, 0x2029, 0x202F, 0x205F, 0x3000]

theorem mem_wideBlanks (h : isBlank c = true) (hc : 128 ≤ c.toNat) : c.toNat ∈ wideBlanks := by
  simp only [isBlank, Bool.or_eq_true, Bool.and_eq_true, decide_eq_true_eq, beq_iff_eq] at h
  simp only [wideBlanks, List.mem_append, List.mem_range'_1, List.mem_cons, List.not_mem_nil]
  omega

theorem inRanges_wideBlanks : ∀ code ∈ wideBlanks,
    (inRanges letterRanges code || inRanges numeralRanges code) = false := by
  -- As lists the two tables are gone through much faster.
  simp only [inRanges, ← Array.any_toList]
  decide +kernel

theorem separates_ascii :
    ∀ n < 128, (Char.ofNat n).isAlphanum = true → separates (Char.ofNat n) = false := by
  decide +kernel

theorem separates_eq_false_of_isLetterOrNumeral (h : isLetterOrNumeral c = true) :
    separates c = false := by
  rw [isLetterOrNumeral] at h
  split at h
  · next hc => simpa using separates_ascii c.toNat hc (by simpa using h)
  · next hc =>
    have hblank : isBlank c = false := by
      rw [Bool.eq_false_iff]
      intro hblank
      rw [inRanges_wideBlanks _ (mem_wideBlanks hblank (Nat.le_of_not_lt hc))] at h
      cases h
    have hne (d : Char) (hd : d.toNat < 128) : c ≠ d := fun heq => hc (heq ▸ hd)
    refine separates_eq_false_iff.mpr ⟨hblank, hne '#' (by decide), ?_⟩
    unfold delimiter?
    split <;> first | rfl | exact absurd (by decide) hc

theorem isLetterOrNumeral_of_isLetter (h : isLetter c = true) : isLetterOrNumeral c = true := by
  rw [isLetter] at h
  rw [isLetterOrNumeral]
  split at h
  · next hc => rw [if_pos hc, Char.isAlphanum, h, Bool.true_or]
  · next hc => rw [if_neg hc, h, Bool.true_or]

theorem unseparated_of_isName (h : isName word = true) : ∀ c ∈ word, separates c = false := by
  cases word with
  | nil => nofun
  | cons c rest =>
    rw [isName, Bool.and_eq_true, List.all_eq_true] at h
    obtain ⟨hletter, hrest⟩ := h
    have hfirst := separates_eq_false_of_isLetterOrNumeral (isLetterOrNumeral_of_isLetter hletter)
    refine List.forall_mem_cons.mpr ⟨hfirst, fun d hd => ?_⟩
    have hmore := hrest d hd
    rw [Bool.or_eq_true, beq_iff_eq] at hmore
    rcases hmore with hmore | rfl
    · exact separates_eq_false_of_isLetterOrNumeral hmore
    · decide

theorem ne_nil_of_isName (h : isName word = true) : word ≠ [] := by
  rintro rfl
  cases h

theorem trim_eq_self (h : ∀ c ∈ text, isBlank c = false) : trim text = text := by
  have hdrop {cs : List Char} (hcs : ∀ c ∈ cs, isBlank c = false) : cs.dropWhile isBlank = cs := by
    cases cs with
    | nil => rfl
    | cons c cs =>
      exact List.dropWhile_cons_of_neg (Bool.not_eq_true _ ▸ hcs c List.mem_cons_self)
  rw [trim, hdrop h, hdrop fun c hc => h c (List.mem_reverse.mp hc), List.reverse_reverse]

end Text

namespace Words

variable {before part other word : List Char} {ts words : List Token} {c : Char}

/-! ### Numbers -/

theorem IsNumber.ne_nil (h : IsNumber word) : word ≠ [] := by
  rintro rfl
  cases h.digit

theorem IsNumber.trim_eq (h : IsNumber word) : trim word = word :=
  trim_eq_self fun c hc => (separates_eq_false_iff.mp (h.unseparated c hc)).1

theorem IsNumber.comma_notMem (h : IsNumber word) : ',' ∉ word := by
  intro hmem
  exact absurd (List.all_eq_true.mp h.numeric ',' hmem) (by decide)

/-! ### Pieces -/

theorem divides_eq_false (h : separates c = false) : divides c = false := by
  rw [Bool.eq_false_iff] at h ⊢
  exact mt separates_of_divides h

theorem numberSign_notMem (h : ∀ c ∈ word, separates c = false) : '#' ∉ word := by
  intro hmem
  exact absurd (h '#' hmem) (by decide)

theorem readsPiece_name (h : isName word = true) :
    ReadsPiece before ts word (.ok (ts ++ [.standing before .name word])) :=
  .word (fun c hc => divides_eq_false (unseparated_of_isName h c hc))
    (.element (isWhole_of_notMem (ne_nil_of_isName h) (not_mem_of_isName h)) (.name h))

theorem readsPiece_number (h : IsNumber word) (hopen : ¬BehindBracket ts) :
    ReadsPiece before ts word (.ok (ts ++ [.standing before .number word])) :=
  .word (fun c hc => divides_eq_false (h.unseparated c hc))
    (h.readsWord fun hbracket => absurd hbracket hopen)

theorem parted_of_divides_left (hc : divides c = true) (hother : other ≠ []) :
    Parted [c] other := by
  refine ⟨List.cons_ne_nil c [], hother, ?_⟩
  rw [List.getLast_singleton, hc]
  rfl

theorem parted_of_divides_right (hpart : part ≠ []) (hc : divides c = true) : Parted part [c] := by
  refine ⟨hpart, List.cons_ne_nil c [], ?_⟩
  rw [List.head_singleton, hc, Bool.not_true, Bool.and_false]

/-- Behind the end of its last line, a source leaves its tokens and nothing else. -/
theorem Reads.run_newline {source rest : List Char} {γ : Type} {next : Scanner → Except Fault γ}
    (h : Reads source (.ok words)) : start.run (source ++ '\n' :: rest) >>= next =
      (between (source ++ ['\n']) words).run rest >>= next := by
  have hends : EndsLine fun s => s.run ('\n' :: rest) >>= next := endsLine_newline rest
  have hlines := run_lines h hends
  rw [List.nil_append] at hlines
  rw [run_append, bind_assoc]
  change (between [] []).run source >>= _ = _
  rw [hlines]
  change (between source words).run ('\n' :: rest) >>= next = _
  rw [run_cons, step_newline]
  rfl

end Words

/-! ### Single tokens -/

namespace Token

/-- A text that is one token by itself, a number. -/
def IsNumeral (text : String) : Prop :=
  (scan text.toList).toOption.map (·.map lexeme) = some [(.number, text), (.endOfFile, "")]

instance (text : String) : Decidable (IsNumeral text) := inferInstanceAs (Decidable (_ = _))

theorem IsNumeral.isNumber {text : String} (h : IsNumeral text) : Words.IsNumber text.toList := by
  obtain ⟨tokens, htokens, hlexemes⟩ := Option.map_eq_some_iff.mp h
  have hscan := Except.toOption_eq_some_iff.mp htokens
  obtain ⟨t, more, rfl, hlexeme, -⟩ := List.map_eq_cons_iff.mp hlexemes
  obtain ⟨hkind, rfl⟩ := Prod.mk.inj hlexeme
  exact ((arises_of_scan hscan t List.mem_cons_self).readable.number hkind).1

end Token

end Easel
