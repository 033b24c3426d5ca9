import Mathlib.Data.List.SplitBy
import Easel.Proofs.Token.Scanning

/-! The grammar of the words of a source. Lines end at their first number sign. What is left of them
is divided into pieces: brackets, asterisks, slashes and blanks by themselves, and the words
between. A word is read from left to right: dots that stand alone and names in front of dots are
taken from it, and the rest is one element. The elements are the numbers, the operators and the
names; the first word with another one is a fault. -/

namespace Easel

open Scanner

namespace Text

/-- The part of a line in front of its first number sign. -/
def uncommented (line : List Char) : List Char := line.takeWhile (· ≠ '#')

/-- Blanks and the characters that are tokens by themselves divide a text. -/
def divides (c : Char) : Bool := isBlank c || (delimiter? c).isSome

/-- The characters that divide a text, each by itself, and the words between them. -/
def pieces (text : List Char) : List (List Char) :=
  text.splitBy fun c d => !divides c && !divides d

end Text

open Text

/-- The token that some characters are when they stand right behind `before`. -/
def Token.standing (before : List Char) (kind : TokenKind) (word : List Char) : Token :=
  ⟨kind, String.ofList word, (Cursor.after before).position (byteSize word)⟩

namespace Words

/-- What reading comes to: the tokens so far, or the first fault. -/
abbrev Outcome := Except Fault (List Token)

/-! ### Elements -/

/-- An optional sign, and then digits with at most one dot. -/
inductive IsNumber : List Char → Prop
  | signed {sign digits : List Char} (hsign : sign = [] ∨ sign = ['+'] ∨ sign = ['-'])
      (hdigits : ∀ c ∈ digits, Literal.isDigit c = true ∨ c = '.')
      (hdigit : ∃ c ∈ digits, Literal.isDigit c = true) (hdots : digits.count '.' ≤ 1) :
      IsNumber (sign ++ digits)

/-- The elements behind a token of kind `last`. -/
inductive IsElement (last : Option TokenKind) : List Char → TokenKind → Prop
  | number {word : List Char} (hword : IsNumber word) : IsElement last word .number
  | operator {word : List Char} (hword : word = ['+'] ∨ word = ['-'])
      (hlast : last = some .openParen) : IsElement last word .operator
  | name {word : List Char} (hword : isName word = true) : IsElement last word .name

/-- Digits, dots and signs, among them signs but no digit, or a sign that is not in front. -/
structure IsMisplaced (word : List Char) : Prop where
  numeric : ∀ c ∈ word, Literal.isDigit c = true ∨ c = '.' ∨ isSign c = true
  sign : ((∃ c ∈ word, isSign c = true) ∧ ∀ c ∈ word, Literal.isDigit c = false) ∨
    ∃ c ∈ word.tail, isSign c = true

/-- What is wrong with a word that is no element. -/
inductive IsCause (word : List Char) : Malformed → Prop
  | misplaced (hword : IsMisplaced word) : IsCause word (.misplacedOperator (String.ofList word))
  | invalid (hword : ¬IsMisplaced word) : IsCause word (.invalidElement (String.ofList word))

/-! ### Words, pieces and lines -/

def lastKind? (ts : List Token) : Option TokenKind := ts.getLast?.map (·.kind)

def BehindBracket (ts : List Token) : Prop :=
  lastKind? ts = some .closeBrace ∨ lastKind? ts = some .closeParen

/-- A word from which nothing can be taken. -/
structure IsWhole (ts : List Token) (word : List Char) : Prop where
  nonempty : word ≠ []
  noDot : BehindBracket ts → word.head? ≠ some '.'
  noMember : ∀ name rest, word = name ++ '.' :: rest → isName name = false

/-- Reading a word that stands right behind `before`, where the tokens so far are `ts`. -/
inductive ReadsWord : List Char → List Token → List Char → Outcome → Prop
  | nothing {before : List Char} {ts : List Token} : ReadsWord before ts [] (.ok ts)
  | dot {before rest : List Char} {ts : List Token} {r : Outcome} (hlast : BehindBracket ts)
      (hrest : ReadsWord (before ++ ['.']) (ts ++ [.standing before .dot ['.']]) rest r) :
      ReadsWord before ts ('.' :: rest) r
  | member {before name rest : List Char} {ts : List Token} {r : Outcome}
      (hname : isName name = true)
      (hrest : ReadsWord (before ++ name ++ ['.'])
        (ts ++ [.standing before .name name] ++ [.standing (before ++ name) .dot ['.']]) rest r) :
      ReadsWord before ts (name ++ '.' :: rest) r
  | element {before word : List Char} {ts : List Token} {kind : TokenKind}
      (hwhole : IsWhole ts word) (hkind : IsElement (lastKind? ts) word kind) :
      ReadsWord before ts word (.ok (ts ++ [.standing before kind word]))
  | fault {before word : List Char} {ts : List Token} {cause : Malformed}
      (hwhole : IsWhole ts word) (hnone : ∀ kind, ¬IsElement (lastKind? ts) word kind)
      (hcause : IsCause word cause) :
      ReadsWord before ts word (.error ⟨(Cursor.after before).position (byteSize word), cause⟩)

inductive ReadsPiece : List Char → List Token → List Char → Outcome → Prop
  | blank {before : List Char} {ts : List Token} {c : Char} (hc : isBlank c = true) :
      ReadsPiece before ts [c] (.ok ts)
  | delimiter {before : List Char} {ts : List Token} {c : Char} {kind : TokenKind}
      (hc : delimiter? c = some kind) :
      ReadsPiece before ts [c] (.ok (ts ++ [.standing before kind [c]]))
  | word {before word : List Char} {ts : List Token} {r : Outcome}
      (hword : ∀ c ∈ word, divides c = false) (hread : ReadsWord before ts word r) :
      ReadsPiece before ts word r

/-- Reading the parts of a text in their order, up to the first fault. Between two parts stands what
separates them. -/
inductive InOrder (reads : List Char → List Token → List Char → Outcome → Prop)
    (separator : List Char) : List Char → List Token → List (List Char) → Outcome → Prop
  | nothing {before : List Char} {ts : List Token} : InOrder reads separator before ts [] (.ok ts)
  | more {before part : List Char} {ts us : List Token} {parts : List (List Char)} {r : Outcome}
      (hpart : reads before ts part (.ok us))
      (hparts : InOrder reads separator (before ++ part ++ separator) us parts r) :
      InOrder reads separator before ts (part :: parts) r
  | fault {before part : List Char} {ts : List Token} {parts : List (List Char)} {f : Fault}
      (hpart : reads before ts part (.error f)) :
      InOrder reads separator before ts (part :: parts) (.error f)

abbrev ReadsPieces := InOrder ReadsPiece []

def ReadsLine (before : List Char) (ts : List Token) (line : List Char) (r : Outcome) : Prop :=
  ReadsPieces before ts (pieces (uncommented line)) r

/-- Reading a source line by line. -/
def Reads (source : List Char) (r : Outcome) : Prop :=
  InOrder ReadsLine ['\n'] [] [] (source.splitOn '\n') r

/-! ### Classes of words -/

section Classes

variable {last : Option TokenKind} {word : List Char}

theorem isNumeric_iff {c : Char} :
    isNumeric c = true ↔ Literal.isDigit c = true ∨ c = '.' ∨ isSign c = true := by
  simp [isNumeric, or_assoc]

theorem isSign_iff {c : Char} : isSign c = true ↔ c = '+' ∨ c = '-' := by
  simp [isSign]

theorem signsLead_iff : signsLead word = true ↔ ∀ c ∈ word.tail, isSign c = false := by
  simp [signsLead]

theorem isMisplaced_iff (hnumeric : word.all isNumeric = true) :
    IsMisplaced word ↔ (word.any isSign = true ∧ word.any Literal.isDigit = false) ∨
      signsLead word = false := by
  have hall : ∀ c ∈ word, Literal.isDigit c = true ∨ c = '.' ∨ isSign c = true :=
    fun c hc => isNumeric_iff.mp (List.all_eq_true.mp hnumeric c hc)
  constructor
  · intro h
    simpa [signsLead] using h.sign
  · intro h
    exact ⟨hall, by simpa [signsLead] using h⟩

/-- A sign is no digit and no dot. -/
theorem isSign_eq_false {c : Char} (hc : Literal.isDigit c = true ∨ c = '.') :
    isSign c = false := by
  rw [Bool.eq_false_iff, Ne, isSign_iff]
  rintro (rfl | rfl) <;> revert hc <;> decide

theorem IsNumber.numeric (h : IsNumber word) : word.all isNumeric = true := by
  obtain ⟨hsign, hdigits, -, -⟩ := h
  rw [List.all_append, Bool.and_eq_true]
  constructor
  · rcases hsign with rfl | rfl | rfl <;> decide
  · exact List.all_eq_true.mpr fun c hc => isNumeric_iff.mpr ((hdigits c hc).imp_right .inl)

theorem IsNumber.digit (h : IsNumber word) : word.any Literal.isDigit = true := by
  obtain ⟨-, -, ⟨c, hc, hdigit⟩, -⟩ := h
  exact List.any_eq_true.mpr ⟨c, List.mem_append_right _ hc, hdigit⟩

theorem IsNumber.signsLead (h : IsNumber word) : signsLead word = true := by
  obtain ⟨hsign, hdigits, -, -⟩ := h
  rw [signsLead_iff]
  intro c hc
  rcases hsign with rfl | rfl | rfl
  · exact isSign_eq_false (hdigits c (List.mem_of_mem_tail hc))
  · exact isSign_eq_false (hdigits c hc)
  · exact isSign_eq_false (hdigits c hc)

theorem IsNumber.dots (h : IsNumber word) : word.count '.' ≤ 1 := by
  obtain ⟨hsign, -, -, hdots⟩ := h
  rcases hsign with rfl | rfl | rfl <;> simpa using hdots

theorem isNumber_iff : IsNumber word ↔ word.all isNumeric = true ∧
    word.any Literal.isDigit = true ∧ signsLead word = true ∧ word.count '.' ≤ 1 := by
  constructor
  · intro h
    exact ⟨h.numeric, h.digit, h.signsLead, h.dots⟩
  · rintro ⟨hnumeric, hsome, hlead, hdots⟩
    rw [List.all_eq_true] at hnumeric
    obtain ⟨d, hd, hdigit⟩ := List.any_eq_true.mp hsome
    cases word with
    | nil => cases hd
    | cons c rest =>
      rw [signsLead_iff, List.tail_cons] at hlead
      have hplain : ∀ e ∈ c :: rest, isSign e = false → Literal.isDigit e = true ∨ e = '.' := by
        intro e he hsign
        rcases isNumeric_iff.mp (hnumeric e he) with h | h | h
        · exact .inl h
        · exact .inr h
        · cases hsign.symm.trans h
      have hrest : ∀ e ∈ rest, Literal.isDigit e = true ∨ e = '.' :=
        fun e he => hplain e (List.mem_cons_of_mem c he) (hlead e he)
      cases hc : isSign c with
      | false =>
        have hall : ∀ e ∈ c :: rest, Literal.isDigit e = true ∨ e = '.' :=
          List.forall_mem_cons.mpr ⟨hplain c List.mem_cons_self hc, hrest⟩
        exact .signed (.inl rfl) hall ⟨d, hd, hdigit⟩ hdots
      | true =>
        -- The sign is neither the digit that was found nor a dot.
        have hne : d ≠ c := by
          rintro rfl
          cases hc.symm.trans (isSign_eq_false (.inl hdigit))
        have hmem : d ∈ rest := (List.mem_cons.mp hd).resolve_left hne
        have hcount : rest.count '.' ≤ 1 := Nat.le_trans List.count_le_count_cons hdots
        rcases isSign_iff.mp hc with rfl | rfl
        · exact .signed (.inr (.inl rfl)) hrest ⟨d, hmem, hdigit⟩ hcount
        · exact .signed (.inr (.inr rfl)) hrest ⟨d, hmem, hdigit⟩ hcount

theorem isName_eq_false (h : word.all isNumeric = true) : isName word = false := by
  cases hword : isName word with
  | false => rfl
  | true =>
    cases word with
    | nil => cases hword
    | cons c rest =>
      rw [isName, Bool.and_eq_true] at hword
      rw [List.all_cons, Bool.and_eq_true] at h
      rw [isLetter_eq_false_of_isNumeric h.1] at hword
      cases hword.1

theorem not_isElement (hnumber : ¬IsNumber word)
    (hoperator : ¬(last = some .openParen ∧ (word = ['+'] ∨ word = ['-'])))
    (hname : isName word = false) (kind : TokenKind) : ¬IsElement last word kind := by
  intro h
  cases h with
  | number hword => exact hnumber hword
  | operator hword hlast => exact hoperator ⟨hlast, hword⟩
  | name hword => cases hname.symm.trans hword

/-- A word with a digit is no operator. -/
theorem ne_sign_of_digit (h : word.any Literal.isDigit = true) :
    ¬(word = ['+'] ∨ word = ['-']) := by
  rintro (rfl | rfl) <;> revert h <;> decide

/-- What a complete word is: an element, or none for some cause. -/
inductive IsClass (last : Option TokenKind) (word : List Char) : Except Malformed TokenKind → Prop
  | element {kind : TokenKind} (h : IsElement last word kind) : IsClass last word (.ok kind)
  | fault {cause : Malformed} (hnone : ∀ kind, ¬IsElement last word kind)
      (hcause : IsCause word cause) : IsClass last word (.error cause)

theorem isClass_of_digit (hnumeric : word.all isNumeric = true)
    (hdigit : word.any Literal.isDigit = true) : IsClass last word (classify last word) := by
  have hname := isName_eq_false hnumeric
  have hoperator : ¬(last = some .openParen ∧ (word = ['+'] ∨ word = ['-'])) :=
    fun h => ne_sign_of_digit hdigit h.2
  rw [classify, if_pos hnumeric, if_pos hdigit]
  cases hlead : signsLead word with
  | false =>
    have hnumber : ¬IsNumber word := fun h => by cases hlead.symm.trans h.signsLead
    exact .fault (not_isElement hnumber hoperator hname)
      (.misplaced ((isMisplaced_iff hnumeric).mpr (.inr hlead)))
  | true =>
    by_cases hdots : 1 < word.count '.'
    · have hnumber : ¬IsNumber word := fun h => absurd h.dots (Nat.not_le_of_gt hdots)
      have hplaced : ¬IsMisplaced word := by
        rw [isMisplaced_iff hnumeric, hdigit, hlead]
        rintro (⟨-, h⟩ | h) <;> cases h
      rw [if_pos hdots]
      exact .fault (not_isElement hnumber hoperator hname) (.invalid hplaced)
    · rw [if_neg hdots]
      exact .element (.number (isNumber_iff.mpr ⟨hnumeric, hdigit, hlead, Nat.le_of_not_gt hdots⟩))

theorem isClass_of_sign (hnumeric : word.all isNumeric = true)
    (hdigit : word.any Literal.isDigit = false) : IsClass last word (classify last word) := by
  have hname := isName_eq_false hnumeric
  have hnumber : ¬IsNumber word := fun h => by cases hdigit.symm.trans h.digit
  rw [classify, if_pos hnumeric, if_neg (Bool.not_eq_true _ ▸ hdigit)]
  by_cases hoperator : last = some .openParen ∧ (word = ['+'] ∨ word = ['-'])
  · rw [if_pos hoperator]
    exact .element (.operator hoperator.2 hoperator.1)
  rw [if_neg hoperator]
  by_cases hsign : word.any isSign = true
  · rw [if_pos hsign]
    exact .fault (not_isElement hnumber hoperator hname)
      (.misplaced ((isMisplaced_iff hnumeric).mpr (.inl ⟨hsign, hdigit⟩)))
  · have hplaced : ¬IsMisplaced word := by
      rintro ⟨-, ⟨⟨c, hc, hsome⟩, -⟩ | ⟨c, hc, hsome⟩⟩
      · exact hsign (List.any_eq_true.mpr ⟨c, hc, hsome⟩)
      · exact hsign (List.any_eq_true.mpr ⟨c, List.mem_of_mem_tail hc, hsome⟩)
    rw [if_neg hsign]
    exact .fault (not_isElement hnumber hoperator hname) (.invalid hplaced)

theorem isClass_classify (last : Option TokenKind) (word : List Char) :
    IsClass last word (classify last word) := by
  by_cases hnumeric : word.all isNumeric = true
  · cases hdigit : word.any Literal.isDigit with
    | true => exact isClass_of_digit hnumeric hdigit
    | false => exact isClass_of_sign hnumeric hdigit
  · have hnumber : ¬IsNumber word := fun h => hnumeric h.numeric
    have hoperator : ¬(last = some .openParen ∧ (word = ['+'] ∨ word = ['-'])) := by
      rintro ⟨-, rfl | rfl⟩ <;> revert hnumeric <;> decide
    have hplaced : ¬IsMisplaced word := fun h =>
      hnumeric (List.all_eq_true.mpr fun c hc => isNumeric_iff.mpr (h.numeric c hc))
    rw [classify, if_neg hnumeric]
    cases hname : isName word with
    | true => exact .element (.name hname)
    | false => exact .fault (not_isElement hnumber hoperator hname) (.invalid hplaced)

/-- A word is an element of one kind only. -/
theorem IsElement.unique {kind kind' : TokenKind} (h : IsElement last word kind)
    (h' : IsElement last word kind') : kind = kind' := by
  cases h with
  | number hnumber =>
    cases h' with
    | number => rfl
    | operator hsign => exact absurd hsign (ne_sign_of_digit hnumber.digit)
    | name hname => cases hname.symm.trans (isName_eq_false hnumber.numeric)
  | operator hsign =>
    cases h' with
    | number hnumber => exact absurd hsign (ne_sign_of_digit hnumber.digit)
    | operator => rfl
    | name hname => rcases hsign with rfl | rfl <;> cases hname
  | name hname =>
    cases h' with
    | number hnumber => cases hname.symm.trans (isName_eq_false hnumber.numeric)
    | operator hsign => rcases hsign with rfl | rfl <;> cases hname
    | name => rfl

theorem IsCause.unique {cause cause' : Malformed} (h : IsCause word cause)
    (h' : IsCause word cause') : cause = cause' := by
  cases h with
  | misplaced hword =>
    cases h' with
    | misplaced => rfl
    | invalid hplaced => exact absurd hword hplaced
  | invalid hplaced =>
    cases h' with
    | misplaced hword => exact absurd hword hplaced
    | invalid => rfl

theorem IsClass.unique {r r' : Except Malformed TokenKind} (h : IsClass last word r)
    (h' : IsClass last word r') : r = r' := by
  cases h with
  | element h =>
    cases h' with
    | element h' => rw [h.unique h']
    | fault hnone => exact absurd h (hnone _)
  | fault hnone hcause =>
    cases h' with
    | element h' => exact absurd h' (hnone _)
    | fault _ hcause' => rw [hcause.unique hcause']

theorem classify_eq_iff {r : Except Malformed TokenKind} :
    classify last word = r ↔ IsClass last word r := by
  constructor
  · rintro rfl
    exact isClass_classify last word
  · intro h
    exact (isClass_classify last word).unique h

end Classes

end Words

end Easel
