import Easel.Command.Options
import Easel.Proofs.Description.Instructions
import Easel.Proofs.Token.Line

/-! Colours on the command line. A background is three parts with commas between them, each of which
spells a channel, and the first part that does not spell one is reported. Numbers that a description
may contain give the same colour there, in braces, as they do on the command line. -/

namespace Easel

open Text Scanner Words Description

namespace Arguments

/-! ### Parts -/

/-- A part that spells a number from zero to one, with blanks around it. -/
structure IsChannel (part : List Char) (x : Float) : Prop where
  read : Literal.read? (trim part) = some x
  range : 0.0 ≤ x ∧ x ≤ 1.0

/-- What is reported of a part that spells no such number. -/
inductive IsFault (part : List Char) : String → Prop
  | noNumber (hread : Literal.read? (trim part) = none) :
      IsFault part s!"'{String.ofList part}' is not a number"
  | outOfRange {x : Float} (hread : Literal.read? (trim part) = some x)
      (hrange : ¬(0.0 ≤ x ∧ x ≤ 1.0)) :
      IsFault part s!"channel {Binary64.text x} is not between 0 and 1"

/-- What the parts of a background come to: a colour if there are three and all are channels, and
else the fault of the first part that is none. Their number counts only if all are channels. -/
inductive Judges : List (List Char) → Except String Color → Prop
  | color {red green blue : List Char} {x y z : Float} (hred : IsChannel red x)
      (hgreen : IsChannel green y) (hblue : IsChannel blue z) :
      Judges [red, green, blue] (.ok (.ofChannels x y z))
  | fault {before after : List (List Char)} {part : List Char} {message : String}
      (hbefore : ∀ p ∈ before, ∃ x, IsChannel p x) (hpart : IsFault part message) :
      Judges (before ++ part :: after) (.error message)
  | count {parts : List (List Char)} (hparts : ∀ p ∈ parts, ∃ x, IsChannel p x)
      (hcount : parts.length ≠ 3) :
      Judges parts (.error s!"expected 3 channels, got {parts.length}")

variable {part : List Char} {parts : List (List Char)} {x : Float} {xs : List Float}
  {message : String}

theorem channel_eq_ok_iff : channel part = .ok x ↔ IsChannel part x := by
  rw [channel]
  constructor
  · intro h
    split at h
    · cases h
    · next hread =>
      split at h
      · next hrange =>
        cases h
        exact ⟨hread, of_decide_eq_true hrange⟩
      · cases h
  · rintro ⟨hread, hrange⟩
    have hchannel : Color.isChannel x = true := decide_eq_true hrange
    simp only [hread, hchannel, if_true]

theorem channel_eq_error_iff : channel part = .error message ↔ IsFault part message := by
  rw [channel]
  constructor
  · intro h
    split at h
    · next hread =>
      cases h
      exact .noNumber hread
    · next hread =>
      split at h
      · cases h
      · next hrange =>
        cases h
        exact .outOfRange hread fun hboth => hrange (decide_eq_true hboth)
  · intro h
    cases h with
    | noNumber hread => simp only [hread]
    | @outOfRange x hread hrange =>
      have hchannel : Color.isChannel x = false := decide_eq_false hrange
      simp only [hread, hchannel, Bool.false_eq_true, if_false]

/-! ### Parts in a row -/

theorem mapM_channel_eq_ok_iff :
    parts.mapM channel = .ok xs ↔ List.Forall₂ IsChannel parts xs := by
  induction parts generalizing xs with
  | nil =>
    rw [List.mapM_nil, List.forall₂_nil_left_iff]
    exact ⟨fun h => (Except.ok.inj h).symm, fun h => congrArg Except.ok h.symm⟩
  | cons part parts ih =>
    simp only [List.mapM_cons, Except.bind_eq_ok_iff, channel_eq_ok_iff, ih,
      List.forall₂_cons_left_iff]
    constructor
    · rintro ⟨x, hx, more, hmore, hall⟩
      exact ⟨x, more, hx, hmore, (Except.ok.inj hall).symm⟩
    · rintro ⟨x, more, hx, hmore, rfl⟩
      exact ⟨x, hx, more, hmore, rfl⟩

theorem exists_forall₂_iff :
    (∃ xs, List.Forall₂ IsChannel parts xs) ↔ ∀ p ∈ parts, ∃ x, IsChannel p x := by
  induction parts with
  | nil => exact ⟨fun _ => nofun, fun _ => ⟨[], .nil⟩⟩
  | cons part parts ih =>
    rw [List.forall_mem_cons, ← ih]
    constructor
    · rintro ⟨_, h⟩
      cases h with
      | cons hx hmore => exact ⟨⟨_, hx⟩, _, hmore⟩
    · rintro ⟨⟨x, hx⟩, xs, hmore⟩
      exact ⟨x :: xs, .cons hx hmore⟩

/-- The fault of some parts is that of the first one that is no channel. -/
theorem mapM_channel_eq_error_iff : parts.mapM channel = .error message ↔
    ∃ before part after, parts = before ++ part :: after ∧ (∀ p ∈ before, ∃ x, IsChannel p x) ∧
      IsFault part message := by
  induction parts with
  | nil =>
    rw [List.mapM_nil]
    constructor
    · intro h
      cases h
    · rintro ⟨before, part, after, hparts, -⟩
      simp at hparts
  | cons first parts ih =>
    simp only [List.mapM_cons, Except.bind_eq_error_iff, channel_eq_error_iff, channel_eq_ok_iff,
      ih]
    constructor
    · rintro (hfault | ⟨x, hx, hmore | ⟨more, -, hpure⟩⟩)
      · exact ⟨[], first, parts, rfl, nofun, hfault⟩
      · obtain ⟨before, part, after, rfl, hbefore, hfault⟩ := hmore
        exact ⟨first :: before, part, after, rfl, List.forall_mem_cons.mpr ⟨⟨x, hx⟩, hbefore⟩,
          hfault⟩
      · cases hpure
    · rintro ⟨before, part, after, hparts, hbefore, hfault⟩
      cases before with
      | nil =>
        cases hparts
        exact .inl hfault
      | cons p before =>
        cases hparts
        obtain ⟨⟨x, hx⟩, hmore⟩ := List.forall_mem_cons.mp hbefore
        exact .inr ⟨x, hx, .inl ⟨before, part, after, rfl, hmore, hfault⟩⟩

/-! ### Texts -/

/-- The colour that some channels make, if there are three. -/
def colorOf : List Float → Except String Color
  | [red, green, blue] => .ok (.ofChannels red green blue)
  | channels => .error s!"expected 3 channels, got {channels.length}"

theorem background_eq (text : String) :
    background text = (text.toList.splitOn ',').mapM channel >>= colorOf := rfl

theorem colorOf_eq_error (h : xs.length ≠ 3) :
    colorOf xs = .error s!"expected 3 channels, got {xs.length}" := by
  unfold colorOf
  split
  · exact absurd rfl h
  · rfl

theorem judges_colorOf (h : List.Forall₂ IsChannel parts xs) : Judges parts (colorOf xs) := by
  rcases Decidable.em (xs.length = 3) with hcount | hcount
  · obtain ⟨red, green, blue, rfl⟩ := List.length_eq_three.mp hcount
    cases h with
    | cons hred h =>
    cases h with
    | cons hgreen h =>
    cases h with
    | cons hblue h =>
    cases h with
    | nil => exact .color hred hgreen hblue
  · rw [colorOf_eq_error hcount, ← h.length_eq]
    exact .count (exists_forall₂_iff.mp ⟨xs, h⟩) (h.length_eq ▸ hcount)

/-- A background comes to what its parts come to. -/
theorem background_eq_iff {text : String} {r : Except String Color} :
    background text = r ↔ Judges (text.toList.splitOn ',') r := by
  rw [background_eq]
  generalize text.toList.splitOn ',' = parts
  constructor
  · rintro rfl
    cases hparts : parts.mapM channel with
    | error message =>
      obtain ⟨before, part, after, rfl, hbefore, hfault⟩ := mapM_channel_eq_error_iff.mp hparts
      exact .fault hbefore hfault
    | ok xs => exact judges_colorOf (mapM_channel_eq_ok_iff.mp hparts)
  · intro h
    cases h with
    | color hred hgreen hblue =>
      rw [mapM_channel_eq_ok_iff.mpr (.cons hred (.cons hgreen (.cons hblue .nil)))]
      rfl
    | fault hbefore hpart =>
      rw [mapM_channel_eq_error_iff.mpr ⟨_, _, _, rfl, hbefore, hpart⟩]
      rfl
    | count hparts hcount =>
      obtain ⟨xs, hall⟩ := exists_forall₂_iff.mpr hparts
      rw [mapM_channel_eq_ok_iff.mpr hall]
      rw [hall.length_eq] at hcount ⊢
      exact colorOf_eq_error hcount

/-! ### Numbers -/

/-- Three texts with commas between them. -/
def commaed (red green blue : String) : String := red ++ "," ++ green ++ "," ++ blue

/-- Three texts that a description may contain as numbers. -/
structure AreNumbers (red green blue : String) : Prop where
  red : IsNumber red.toList
  green : IsNumber green.toList
  blue : IsNumber blue.toList

/-- The kinds and the texts of three numbers in braces. -/
def bracedLexemes (red green blue : String) : List (TokenKind × String) :=
  [(.openBrace, "\x7b"), (.number, red), (.number, green), (.number, blue), (.closeBrace, "\x7d")]

section

variable {red green blue : String} {braced rest rest' : List Token} {value : Color} {s : Scene}

theorem AreNumbers.splitOn_commaed (h : AreNumbers red green blue) :
    (commaed red green blue).toList.splitOn ',' = [red.toList, green.toList, blue.toList] := by
  have hchars : (commaed red green blue).toList =
      red.toList ++ ',' :: (green.toList ++ ',' :: blue.toList) := by
    simp [commaed]
  rw [hchars, List.splitOn_append_cons_self_of_not_mem h.red.comma_notMem,
    List.splitOn_append_cons_self_of_not_mem h.green.comma_notMem,
    List.splitOn_eq_singleton h.blue.comma_notMem]

theorem AreNumbers.background_eq_ok_iff (h : AreNumbers red green blue) :
    background (commaed red green blue) = .ok value ↔ ∃ x y z, IsChannel red.toList x ∧
      IsChannel green.toList y ∧ IsChannel blue.toList z ∧ value = .ofChannels x y z := by
  rw [background_eq_iff, h.splitOn_commaed]
  generalize hparts : [red.toList, green.toList, blue.toList] = parts
  constructor
  · intro hjudges
    cases hjudges with
    | color hx hy hz =>
      cases hparts
      exact ⟨_, _, _, hx, hy, hz, rfl⟩
  · rintro ⟨x, y, z, hx, hy, hz, rfl⟩
    exact hparts ▸ .color hx hy hz

/-- A number is a channel on the command line just when its token is one in a description. -/
theorem isChannel_iff {t : Token} {ts : List Token} {x : Float} (hkind : t.kind = .number)
    (htext : IsNumber t.text.toList) :
    Description.IsChannel s (t :: ts) x rest ↔ rest = ts ∧ IsChannel t.text.toList x := by
  constructor
  · rintro ⟨hnumber, hrange⟩
    cases hnumber with
    | literal _ hread => exact ⟨rfl, htext.trim_eq.symm ▸ hread, hrange⟩
    | coordinate hpoint =>
      obtain ⟨u, us, hts, hstarts⟩ := hpoint.starts
      cases hts
      rw [hkind] at hstarts
      cases hstarts
  · rintro ⟨rfl, hread, hrange⟩
    rw [htext.trim_eq] at hread
    exact ⟨.literal hkind hread, hrange⟩

theorem exists_braced (h : braced.map Token.lexeme = bracedLexemes red green blue) :
    ∃ opening t u v closing, braced = [opening, t, u, v, closing] ∧ opening.kind = .openBrace ∧
      t.lexeme = (.number, red) ∧ u.lexeme = (.number, green) ∧ v.lexeme = (.number, blue) ∧
      closing.kind = .closeBrace := by
  obtain ⟨opening, us, rfl, hopen, h⟩ := List.map_eq_cons_iff.mp h
  obtain ⟨t, us, rfl, ht, h⟩ := List.map_eq_cons_iff.mp h
  obtain ⟨u, us, rfl, hu, h⟩ := List.map_eq_cons_iff.mp h
  obtain ⟨v, us, rfl, hv, h⟩ := List.map_eq_cons_iff.mp h
  obtain ⟨closing, us, rfl, hclose, h⟩ := List.map_eq_cons_iff.mp h
  obtain rfl := List.map_eq_nil_iff.mp h
  exact ⟨opening, t, u, v, closing, rfl, congrArg Prod.fst hopen, ht, hu, hv,
    congrArg Prod.fst hclose⟩

theorem AreNumbers.isColor_iff (h : AreNumbers red green blue)
    (hbraced : braced.map Token.lexeme = bracedLexemes red green blue) :
    IsColor s (braced ++ rest) value rest' ↔
      rest' = rest ∧ background (commaed red green blue) = .ok value := by
  obtain ⟨opening, t, u, v, closing, rfl, hopen, ht, hu, hv, hclose⟩ := exists_braced hbraced
  obtain ⟨htkind, rfl⟩ := Prod.mk.inj ht
  obtain ⟨hukind, rfl⟩ := Prod.mk.inj hu
  obtain ⟨hvkind, rfl⟩ := Prod.mk.inj hv
  rw [h.background_eq_ok_iff]
  constructor
  · intro hcolor
    cases hcolor with
    | channels _ hx hy hz =>
      obtain ⟨rfl, hred⟩ := (isChannel_iff htkind h.red).mp hx
      obtain ⟨rfl, hgreen⟩ := (isChannel_iff hukind h.green).mp hy
      obtain ⟨hrest, hblue⟩ := (isChannel_iff hvkind h.blue).mp hz
      cases hrest
      exact ⟨rfl, _, _, _, hred, hgreen, hblue, rfl⟩
    | named hname =>
      rw [hopen] at hname
      cases hname
  · rintro ⟨rfl, x, y, z, hx, hy, hz, rfl⟩
    exact .channels hopen ((isChannel_iff htkind h.red).mpr ⟨rfl, hx⟩)
      ((isChannel_iff hukind h.green).mpr ⟨rfl, hy⟩) ((isChannel_iff hvkind h.blue).mpr ⟨rfl, hz⟩)
      hclose

theorem AreNumbers.color_eq (h : AreNumbers red green blue) (c : Context)
    (hbraced : braced.map Token.lexeme = bracedLexemes red green blue) :
    (color c (braced ++ rest)).toOption.map (fun r => (r.value, r.rest)) =
      (background (commaed red green blue)).toOption.map fun value => (value, rest) := by
  ext ⟨value, rest'⟩
  simp only [Option.map_eq_some_iff, Except.toOption_eq_some_iff, Prod.mk.injEq, color_eq_ok_iff,
    h.isColor_iff hbraced]
  constructor
  · rintro ⟨r, ⟨hrest, hvalue⟩, rfl, rfl⟩
    exact ⟨_, hvalue, rfl, hrest.symm⟩
  · rintro ⟨_, hvalue, rfl, rfl⟩
    refine ⟨⟨_, rest, ?_⟩, ⟨rfl, hvalue⟩, rfl, rfl⟩
    obtain ⟨_, _, _, _, _, rfl, -⟩ := exists_braced hbraced
    simp only [List.length_append, List.length_cons, List.length_nil]
    omega

end

/-! ### A line behind a source -/

/-- A line that states something of a name and a colour in braces. -/
def colorLine (k : Keyword) (name red green blue : String) : String :=
  "\n" ++ k.text ++ " " ++ name ++ " \x7b" ++ red ++ " " ++ green ++ " " ++ blue ++ "\x7d"

/-- Where the name stands in such a line behind a source. -/
def namePosition (source : String) (k : Keyword) (name : String) : Position :=
  (Token.standing (source ++ "\n" ++ k.text ++ " ").toList .name name.toList).position

def linePieces (k : Keyword) (name red green blue : String) : List (List Char) :=
  [k.text.toList, [' '], name.toList, [' '], ['\x7b'], red.toList, [' '], green.toList, [' '],
    blue.toList, ['\x7d']]

section

variable {k : Keyword} {file source name red green blue : String} {before : List Char}
  {tokens words : List Token}

theorem colorLine_toList : (colorLine k name red green blue).toList =
    '\n' :: (linePieces k name red green blue).flatten := by
  simp [colorLine, linePieces]

theorem isName_keyword (k : Keyword) : isName k.text.toList = true := by
  cases k <;> decide

theorem AreNumbers.readsPieces (h : AreNumbers red green blue) (hname : isName name.toList = true) :
    ∃ keyword named braced, ReadsPieces before words (linePieces k name red green blue)
        (.ok (words ++ keyword :: named :: braced)) ∧
      keyword.lexeme = (.name, k.text) ∧
      named = .standing (before ++ k.text.toList ++ [' ']) .name name.toList ∧
      braced.map Token.lexeme = bracedLexemes red green blue := by
  have hreads : ReadsPieces before words (linePieces k name red green blue)
      (.ok (words ++ [_] ++ [_] ++ [_] ++ [_] ++ [_] ++ [_] ++ [_])) :=
    .more (readsPiece_name (isName_keyword k)) <| .more (.blank (by decide)) <|
    .more (readsPiece_name hname) <| .more (.blank (by decide)) <|
    .more (.delimiter rfl) <|
    .more (readsPiece_number h.red (not_behindBracket_concat nofun nofun)) <|
    .more (.blank (by decide)) <|
    .more (readsPiece_number h.green (not_behindBracket_concat nofun nofun)) <|
    .more (.blank (by decide)) <|
    .more (readsPiece_number h.blue (not_behindBracket_concat nofun nofun)) <|
    .more (.delimiter rfl) .nothing
  simp only [List.append_assoc, List.cons_append, List.nil_append, List.append_nil] at hreads
  refine ⟨_, _, _, hreads, ?_, ?_, ?_⟩
  · simp [Token.standing, Token.lexeme]
  · simp
  · simp [Token.standing, Token.lexeme, bracedLexemes]

theorem AreNumbers.parted (h : AreNumbers red green blue) (hname : isName name.toList = true) :
    (linePieces k name red green blue).IsChain Parted := by
  have hkeyword := ne_nil_of_isName (isName_keyword k)
  have hname := ne_nil_of_isName hname
  simp only [linePieces, List.isChain_cons_cons]
  exact ⟨parted_of_divides_right hkeyword (by decide), parted_of_divides_left (by decide) hname,
    parted_of_divides_right hname (by decide),
    parted_of_divides_left (by decide) (List.cons_ne_nil _ _),
    parted_of_divides_left (by decide) h.red.ne_nil,
    parted_of_divides_right h.red.ne_nil (by decide),
    parted_of_divides_left (by decide) h.green.ne_nil,
    parted_of_divides_right h.green.ne_nil (by decide),
    parted_of_divides_left (by decide) h.blue.ne_nil,
    parted_of_divides_right h.blue.ne_nil (by decide), .singleton _⟩

theorem AreNumbers.numberSign_notMem (h : AreNumbers red green blue)
    (hname : isName name.toList = true) :
    ∀ part ∈ linePieces k name red green blue, '#' ∉ part := by
  have hkeyword : '#' ∉ k.text.toList :=
    Words.numberSign_notMem (unseparated_of_isName (isName_keyword k))
  have hname := Words.numberSign_notMem (unseparated_of_isName hname)
  have hred := Words.numberSign_notMem h.red.unseparated
  have hgreen := Words.numberSign_notMem h.green.unseparated
  have hblue := Words.numberSign_notMem h.blue.unseparated
  simp [linePieces, hkeyword, hname, hred, hgreen, hblue]

/-- The line adds its words to the tokens of the source. -/
theorem AreNumbers.ofSource?_append_line (h : AreNumbers red green blue)
    (hsource : Token.ofSource? file source = .ok tokens) (hname : isName name.toList = true) :
    ∃ words keyword named braced mark, tokens = words ++ [Token.endOf source] ∧
      Token.ofSource? file (source ++ colorLine k name red green blue) =
        .ok (words ++ keyword :: named :: braced ++ [mark]) ∧
      keyword.lexeme = (.name, k.text) ∧ named.lexeme = (.name, name) ∧
      named.position = namePosition source k name ∧
      braced.map Token.lexeme = bracedLexemes red green blue := by
  obtain ⟨words, hreads, rfl⟩ := ((Token.ofSource?_iff_reads file source).1 tokens).mp hsource
  obtain ⟨keyword, named, braced, hpieces, hkeyword, hnamed, hbraced⟩ : ∃ keyword named braced,
      ReadsPieces (source.toList ++ ['\n']) words (linePieces k name red green blue) _ ∧ _ :=
    h.readsPieces hname
  have hrun := run_pieces hpieces (h.numberSign_notMem hname) (h.parted hname) endsLine_finish.word
  have hlines : source.toList ++ ['\n'] ++ (linePieces k name red green blue).flatten =
      (source ++ colorLine k name red green blue).toList := by
    rw [String.toList_append, colorLine_toList, List.append_assoc]
    rfl
  have hscan : Token.scan (source ++ colorLine k name red green blue).toList = .ok
      (words ++ keyword :: named :: braced ++
        [Token.endOf (source ++ colorLine k name red green blue)]) := by
    rw [Token.scan, String.toList_append, colorLine_toList, hreads.run_newline, hrun, hlines]
    exact finish_between _ _
  have hline : Token.ofSource? file (source ++ colorLine k name red green blue) = .ok
      (words ++ keyword :: named :: braced ++
        [Token.endOf (source ++ colorLine k name red green blue)]) := by
    rw [Token.ofSource?, hscan]
    rfl
  refine ⟨words, keyword, named, braced, _, rfl, hline, hkeyword, ?_, ?_, hbraced⟩
  · rw [hnamed, Token.standing, Token.lexeme, String.ofList_toList]
  · rw [hnamed, namePosition]
    simp

end

end Arguments

/-- What is read of the tokens of a source is all of them but the mark for its end. -/
theorem Token.content_of_ofSource? {file source : String} {words : List Token} {mark : Token}
    (h : ofSource? file source = .ok (words ++ [mark])) : content (words ++ [mark]) = words := by
  obtain ⟨words', htokens, hpartition⟩ := ofSource?_partition h
  obtain ⟨rfl, hmark⟩ := List.append_inj' htokens rfl
  obtain rfl := List.singleton_inj.mp hmark
  exact content_eq_of_mark hpartition.kind rfl

namespace Arguments

/-! ### Statements -/

/-- What a keyword states of a name and a colour: that a new name stands for it, or that the
declared shape with this name is filled with it. -/
inductive Gives (s : Scene) (name : String) (position : Position) :
    Keyword → (Color → Statement) → Prop
  | declaration (hfresh : s.color? name = none) :
      Gives s name position .color (.color name position)
  | filling {id : Nat} (hid : s.shape? name = some id) : Gives s name position .fill (.fill id)

section

variable {s next : Scene} {k : Keyword} {file source name red green blue : String}
  {st : Color → Statement} {keyword named : Token} {braced ts rest : List Token} {other : Statement}

theorem Gives.isStatement_iff (h : Gives s named.text named.position k st)
    (hkeyword : keyword.lexeme = (.name, k.text)) (hnamed : named.kind = .name) :
    IsStatement .kept s (keyword :: named :: ts) other rest ↔
      ∃ value, IsColor s ts value rest ∧ other = st value := by
  obtain ⟨hkind, htext⟩ := Prod.mk.inj hkeyword
  cases h with
  | declaration hfresh =>
    constructor
    · intro hst
      cases hst with
      | shape _ htext' _ _ hform _ =>
        obtain rfl := Keyword.text_injective (htext.symm.trans htext')
        cases hform
      | color _ _ _ _ hvalue => exact ⟨_, hvalue, rfl⟩
      | fill _ htext' _ _ => cases Keyword.text_injective (htext.symm.trans htext')
    · rintro ⟨value, hvalue, rfl⟩
      exact .color hkind htext hnamed hfresh hvalue
  | filling hid =>
    constructor
    · intro hst
      cases hst with
      | shape _ htext' _ _ hform _ =>
        obtain rfl := Keyword.text_injective (htext.symm.trans htext')
        cases hform
      | color _ htext' _ _ _ => cases Keyword.text_injective (htext.symm.trans htext')
      | fill _ _ htarget hvalue =>
        cases htarget with
        | named _ hid' =>
          cases hid.symm.trans hid'
          exact ⟨_, hvalue, rfl⟩
    · rintro ⟨value, hvalue, rfl⟩
      exact .fill hkind htext (.named hnamed hid) hvalue

theorem Gives.leads_iff (hst : Gives s named.text named.position k st)
    (h : AreNumbers red green blue) (hkeyword : keyword.lexeme = (.name, k.text))
    (hnamed : named.kind = .name)
    (hbraced : braced.map Token.lexeme = bracedLexemes red green blue) :
    (∃ sts, Leads .kept s (keyword :: named :: braced) sts next) ↔
      ∃ value, background (commaed red green blue) = .ok value ∧ s.apply (st value) = .ok next := by
  have hcolor (value : Color) (us : List Token) : IsColor s braced value us ↔
      us = [] ∧ background (commaed red green blue) = .ok value := by
    rw [← h.isColor_iff hbraced, List.append_nil]
  constructor
  · rintro ⟨sts, hsts⟩
    cases hsts with
    | more hread hmore =>
      obtain ⟨value, hvalue, rfl⟩ := (hst.isStatement_iff hkeyword hnamed).mp hread
      obtain ⟨rfl, hbackground⟩ := (hcolor _ _).mp hvalue
      cases hmore with
      | none => exact ⟨value, hbackground, Scene.apply_eq_adding hread.fresh⟩
      | more hread => cases hread
  · rintro ⟨value, hbackground, happly⟩
    have hread : IsStatement .kept s (keyword :: named :: braced) (st value) [] :=
      (hst.isStatement_iff hkeyword hnamed).mpr ⟨value, (hcolor _ _).mpr ⟨rfl, hbackground⟩, rfl⟩
    obtain rfl := Except.ok.inj ((Scene.apply_eq_adding hread.fresh).symm.trans happly)
    exact ⟨_, hread.leads⟩

theorem AreNumbers.parse?_line [Keyword.Order] (h : AreNumbers red green blue)
    (hs : Scene.parse? file source = .ok s) (hname : isName name.toList = true)
    (hst : Gives s name (namePosition source k name) k st) :
    (Scene.parse? file (source ++ colorLine k name red green blue)).toOption =
      (background (commaed red green blue)).toOption.bind fun value =>
        (s.apply (st value)).toOption := by
  obtain ⟨tokens, htokens, hbuild⟩ := Except.bind_eq_ok_iff.mp hs
  obtain ⟨words, keyword, named, braced, mark, rfl, hline, hkeyword, hnamed, hposition, hbraced⟩ :=
    h.ofSource?_append_line (k := k) htokens hname
  obtain ⟨hkind, rfl⟩ := Prod.mk.inj hnamed
  rw [← hposition] at hst
  have hbefore := (Scene.build_iff_describes_kept file).mp hbuild
  rw [Token.content_of_ofSource? htokens] at hbefore
  ext next
  rw [Scene.parse?, hline]
  change (Scene.build? file _).toOption = some next ↔ _
  simp only [Option.bind_eq_some_iff, Except.toOption_eq_some_iff]
  rw [Scene.build_iff_describes_kept, Token.content_of_ofSource? hline, hbefore.append_iff,
    hst.leads_iff h hkeyword hkind hbraced]

end

/-- Three numbers give the same colour in a description as on the command line, or none in both:
wherever the description has a colour, and in particular in a line behind one that is accepted. -/
structure AgreeOn [Keyword.Order] (red green blue : String) : Prop where
  phrase (c : Context) (braced rest : List Token)
      (hbraced : braced.map Token.lexeme = bracedLexemes red green blue) :
    (color c (braced ++ rest)).toOption.map (fun r => (r.value, r.rest)) =
      (background (commaed red green blue)).toOption.map fun value => (value, rest)
  line (file source : String) (s : Scene) (hs : Scene.parse? file source = .ok s) (k : Keyword)
      (name : String) (hname : isName name.toList = true) (st : Color → Statement)
      (hst : Gives s name (namePosition source k name) k st) :
    (Scene.parse? file (source ++ colorLine k name red green blue)).toOption =
      (background (commaed red green blue)).toOption.bind fun value => (s.apply (st value)).toOption

/-- Numbers that a description may contain give the same colour in braces as on the command line, or
are refused in both places. Any text is a background if it has three parts and each of them is a
number from zero to one; else the first part that is no such number is reported, or the number of
the parts if there is none. -/
theorem background_agrees [Keyword.Order] :
    (∀ red green blue, Token.IsNumeral red → Token.IsNumeral green → Token.IsNumeral blue →
      AgreeOn red green blue) ∧
    ∀ text r, background text = r ↔ Judges (text.toList.splitOn ',') r := by
  refine ⟨fun red green blue hred hgreen hblue => ?_, fun _ _ => background_eq_iff⟩
  have h : AreNumbers red green blue := ⟨hred.isNumber, hgreen.isNumber, hblue.isNumber⟩
  constructor
  · intro c braced rest hbraced
    exact h.color_eq c hbraced
  · intro file source s hs k name hname st hst
    exact h.parse?_line hs hname hst

/-- A description of a disc without a colour. -/
def palette : String := "size 1 1\ncirc é \x7b0 0\x7d 1 # no fill"

theorem palette_agrees :
    (Token.IsNumeral "-0" ∧ Token.IsNumeral ".5" ∧ Token.IsNumeral "+1.") ∧
    (∃ s, Scene.parse? "é.paint" palette = .ok s ∧
      (Scene.parse? "é.paint" (palette ++ colorLine .fill "é" "-0" ".5" "+1.")).toOption =
        some (s.fill 0 ⟨0, 128, 255⟩)) ∧
    background " 1 ,é,2" = .error "'é' is not a number" := by
  obtain ⟨hagree, hjudges⟩ := background_agrees
  have hnumerals : Token.IsNumeral "-0" ∧ Token.IsNumeral ".5" ∧ Token.IsNumeral "+1." := by
    decide +kernel
  have hdisc : (Scene.parse? "é.paint" palette).toOption.any (fun s => s.shape? "é" = some 0) =
      true := by decide +kernel
  obtain ⟨s, hs, hid⟩ := (Option.any_eq_true _ _).mp hdisc
  have hok := Except.toOption_eq_some_iff.mp hs
  have hbackground : background (commaed "-0" ".5" "+1.") = .ok ⟨0, 128, 255⟩ := by decide +kernel
  have hline := (hagree "-0" ".5" "+1." hnumerals.1 hnumerals.2.1 hnumerals.2.2).line "é.paint"
    palette s hok .fill "é" (by decide +kernel) (.fill 0) (.filling (of_decide_eq_true hid))
  rw [hbackground] at hline
  refine ⟨hnumerals, ⟨s, hok, hline⟩, (hjudges _ _).mpr ?_⟩
  have hparts : " 1 ,é,2".toList.splitOn ',' = [[' ', '1', ' ']] ++ ['é'] :: [['2']] := by
    decide +kernel
  rw [hparts]
  refine .fault (List.forall_mem_singleton.mpr ⟨1.0, ?_, ?_⟩) (.noNumber ?_)
  · decide +kernel
  · decide +kernel
  · decide +kernel

end Arguments

end Easel
