import Mathlib.Data.List.TakeWhile
import Easel.Image.Pixmap
import Easel.Proofs.Diagnostic.Steps
import Easel.Proofs.Text.Ascii

/-! The grammar of the headers of pixmaps. A field is a run of bytes between blanks, behind blanks
and comments; a comment begins where a field could begin, so that a number sign in a field is a part
of it. The reader finds the fields of a file as the grammar has them, and the first field that is
missing or that is not what it should be is the fault. -/

namespace Easel.Pixmap

open Text

/-- Blanks and comments. A comment goes from a number sign to the next line feed. -/
inductive IsPadding : List UInt8 → Prop
  | nothing : IsPadding []
  | blank {b : UInt8} {rest : List UInt8} (hb : isBlank b = true) (hrest : IsPadding rest) :
      IsPadding (b :: rest)
  | comment {remark rest : List UInt8} (hremark : 0x0A ∉ remark) (hrest : IsPadding rest) :
      IsPadding (0x23 :: remark ++ 0x0A :: rest)

/-- The next field of a file, and what follows it. -/
inductive IsField : List UInt8 → List UInt8 → List UInt8 → Prop
  | word {padding word rest : List UInt8} (hpadding : IsPadding padding) (hne : word ≠ [])
      (hword : ∀ b ∈ word, isBlank b = false) (hfirst : word.head? ≠ some 0x23)
      (hrest : ∀ b ∈ rest.head?, isBlank b = true) : IsField (padding ++ word ++ rest) word rest

/-- A number in decimal digits, behind a plus or nothing, that a word of the machine holds. -/
inductive IsNumber : List UInt8 → Nat → Prop
  | digits {sign digits : List Char} (hsign : sign = [] ∨ sign = ['+']) (hne : digits ≠ [])
      (hdigits : ∀ c ∈ digits, c.isDigit = true)
      (hfits : Nat.ofDigitChars 10 digits 0 < Word.size) :
      IsNumber (ascii (sign ++ digits)) (Nat.ofDigitChars 10 digits 0)

def IsNumberField (bytes : List UInt8) (n : Nat) (rest : List UInt8) : Prop :=
  ∃ word, IsField bytes word rest ∧ IsNumber word n

/-- The header of a file: the width, the height and the greatest value of a channel, and the bytes
from the end of its last field on. -/
inductive IsHeader : List UInt8 → Nat → Nat → Nat → List UInt8 → Prop
  | fields {bytes behindMagic behindWidth behindHeight rest : List UInt8}
      {width height greatest : Nat} (hmagic : IsField bytes (ascii ['P', '6']) behindMagic)
      (hwidth : IsNumberField behindMagic width behindWidth)
      (hheight : IsNumberField behindWidth height behindHeight)
      (hgreatest : IsNumberField behindHeight greatest rest) :
      IsHeader bytes width height greatest rest

/-- There are only blanks and comments left. -/
def HasNoField (bytes : List UInt8) : Prop := ∀ word rest, ¬IsField bytes word rest

/-- What is wrong where a number should be. -/
inductive NumberFault (what : String) (bytes : List UInt8) : PixmapError → Prop
  | missing (hnone : HasNoField bytes) :
      NumberFault what bytes (.header "unexpected end of header")
  | malformed {word rest : List UInt8} (hfield : IsField bytes word rest)
      (hnone : ∀ n, ¬IsNumber word n) :
      NumberFault what bytes (.header s!"{what} '{Utf8.lossyText word}' is not a number")

/-- What is wrong with the header of a file: the first thing that is. -/
inductive HeaderFault (bytes : List UInt8) : PixmapError → Prop
  | missing (hnone : HasNoField bytes) : HeaderFault bytes (.header "unexpected end of header")
  | magic {word rest : List UInt8} (hfield : IsField bytes word rest)
      (hne : word ≠ ascii ['P', '6']) : HeaderFault bytes (.magic (Utf8.lossyText word))
  | width {rest : List UInt8} {e : PixmapError} (hmagic : IsField bytes (ascii ['P', '6']) rest)
      (h : NumberFault "width" rest e) : HeaderFault bytes e
  | height {behindMagic rest : List UInt8} {width : Nat} {e : PixmapError}
      (hmagic : IsField bytes (ascii ['P', '6']) behindMagic)
      (hwidth : IsNumberField behindMagic width rest) (h : NumberFault "height" rest e) :
      HeaderFault bytes e
  | greatest {behindMagic behindWidth rest : List UInt8} {width height : Nat} {e : PixmapError}
      (hmagic : IsField bytes (ascii ['P', '6']) behindMagic)
      (hwidth : IsNumberField behindMagic width behindWidth)
      (hheight : IsNumberField behindWidth height rest) (h : NumberFault "maximum value" rest e) :
      HeaderFault bytes e
  | maxValue {rest : List UInt8} {width height greatest : Nat}
      (hheader : IsHeader bytes width height greatest rest) (hne : greatest ≠ 255) :
      HeaderFault bytes (.maxValue greatest)

variable {bytes word rest padding remark : List UInt8} {b : UInt8} {n : Nat} {what : String}
  {e : PixmapError}

/-! ### Fields -/

theorem skip_of_first (hsign : b ≠ 0x23) (hblank : isBlank b = false) (rest : List UInt8) :
    skip false (b :: rest) = b :: rest := by
  simp [skip, hsign, hblank]

theorem skip_blank (hblank : isBlank b = true) (rest : List UInt8) :
    skip false (b :: rest) = skip false rest := by
  have hsign : b ≠ 0x23 := by
    rintro rfl
    cases hblank
  simp [skip, hsign, hblank]

theorem skip_remark (hremark : 0x0A ∉ remark) (rest : List UInt8) :
    skip true (remark ++ 0x0A :: rest) = skip false rest := by
  induction remark with
  | nil => rfl
  | cons b remark ih =>
    rw [List.mem_cons, not_or] at hremark
    rw [List.cons_append, skip, if_pos (by simp [Ne.symm hremark.1]), ih hremark.2]

theorem IsPadding.skip (h : IsPadding padding) (rest : List UInt8) :
    skip false (padding ++ rest) = skip false rest := by
  induction h with
  | nothing => rfl
  | blank hb _ ih => rw [List.cons_append, skip_blank hb, ih]
  | @comment remark padding hremark _ ih =>
    have hskip : Pixmap.skip false (0x23 :: (remark ++ 0x0A :: (padding ++ rest))) =
        Pixmap.skip true (remark ++ 0x0A :: (padding ++ rest)) := rfl
    rw [List.append_assoc, List.cons_append, List.cons_append, hskip, skip_remark hremark, ih]

/-- What stands in front of the first byte that is not skipped, outside of a comment and in one. -/
theorem exists_padding (bytes : List UInt8) :
    (skip false bytes = b :: rest → ∃ padding, bytes = padding ++ b :: rest ∧ IsPadding padding ∧
      b ≠ 0x23 ∧ isBlank b = false) ∧
    (skip true bytes = b :: rest → ∃ remark padding,
      bytes = remark ++ 0x0A :: (padding ++ b :: rest) ∧ 0x0A ∉ remark ∧ IsPadding padding ∧
      b ≠ 0x23 ∧ isBlank b = false) := by
  induction bytes with
  | nil => exact ⟨nofun, nofun⟩
  | cons c bytes ih =>
    constructor
    · intro h
      by_cases hsign : c = 0x23
      · subst hsign
        obtain ⟨remark, padding, rfl, hremark, hpadding, hb⟩ := ih.2 h
        exact ⟨0x23 :: remark ++ 0x0A :: padding, by simp, .comment hremark hpadding, hb⟩
      · cases hblank : isBlank c with
        | true =>
          rw [skip_blank hblank] at h
          obtain ⟨padding, rfl, hpadding, hb⟩ := ih.1 h
          exact ⟨c :: padding, rfl, .blank hblank hpadding, hb⟩
        | false =>
          rw [skip_of_first hsign hblank] at h
          cases h
          exact ⟨[], rfl, .nothing, hsign, hblank⟩
    · intro h
      by_cases hline : c = 0x0A
      · subst hline
        obtain ⟨padding, rfl, hpadding, hb⟩ := ih.1 h
        exact ⟨[], padding, rfl, List.not_mem_nil, hpadding, hb⟩
      · have hskip : skip true (c :: bytes) = skip true bytes := by simp [skip, hline]
        rw [hskip] at h
        obtain ⟨remark, padding, rfl, hremark, hpadding, hb⟩ := ih.2 h
        refine ⟨c :: remark, padding, rfl, ?_, hpadding, hb⟩
        rw [List.mem_cons, not_or]
        exact ⟨Ne.symm hline, hremark⟩

theorem takeWhile_word (hword : ∀ b ∈ word, isBlank b = false)
    (hrest : ∀ b ∈ rest.head?, isBlank b = true) :
    (word ++ rest).takeWhile (fun b => !isBlank b) = word ∧
      (word ++ rest).dropWhile (fun b => !isBlank b) = rest := by
  have hall : ∀ b ∈ word, (!isBlank b) = true := fun b hb => by rw [hword b hb]; rfl
  rw [List.takeWhile_append_of_pos hall, List.dropWhile_append_of_pos hall]
  cases rest with
  | nil => simp
  | cons b rest => simp [hrest b rfl]

theorem IsField.field_eq (h : IsField bytes word rest) : field bytes = .ok (word, rest) := by
  obtain ⟨hpadding, hne, hword, hfirst, hrest⟩ := h
  cases word with
  | nil => exact absurd rfl hne
  | cons b word =>
    have hsign : b ≠ 0x23 := fun hb => hfirst (by rw [hb]; rfl)
    obtain ⟨htake, hdrop⟩ := takeWhile_word hword hrest
    rw [field, List.append_assoc, hpadding.skip, List.cons_append,
      skip_of_first hsign (hword b List.mem_cons_self), ← List.cons_append, htake, hdrop]
    rfl

theorem field_eq_ok_iff : field bytes = .ok (word, rest) ↔ IsField bytes word rest := by
  refine ⟨fun h => ?_, IsField.field_eq⟩
  rw [field] at h
  split at h
  · cases h
  · next hne =>
    obtain ⟨hword, hrest⟩ := Prod.mk.inj (Except.ok.inj h)
    have hsplit : word ++ rest = skip false bytes := by
      rw [← hword, ← hrest]
      exact List.takeWhile_append_dropWhile
    rw [hword, List.isEmpty_iff] at hne
    obtain ⟨b, more, rfl⟩ := List.exists_cons_of_ne_nil hne
    obtain ⟨padding, hbytes, hpadding, hsign, -⟩ := (exists_padding bytes).1 hsplit.symm
    have hall : bytes = padding ++ b :: more ++ rest := by
      rw [hbytes, List.append_assoc]
      rfl
    rw [hall]
    refine .word hpadding (List.cons_ne_nil b more) ?_ ?_ ?_
    · intro c hc
      rw [← hword] at hc
      simpa using List.mem_takeWhile_imp hc
    · simpa using hsign
    · intro c hc
      have hstop := List.head?_dropWhile_not (fun b => !isBlank b) (skip false bytes)
      rw [hrest, Option.mem_def.mp hc] at hstop
      simpa using hstop

/-- Where the next field is, there is no other one. -/
theorem IsField.unique {word' rest' : List UInt8} (h : IsField bytes word rest)
    (h' : IsField bytes word' rest') : word = word' ∧ rest = rest' := by
  have heq := h.field_eq.symm.trans h'.field_eq
  exact Prod.mk.inj (Except.ok.inj heq)

theorem field_eq_error_iff :
    field bytes = .error e ↔ HasNoField bytes ∧ e = .header "unexpected end of header" := by
  constructor
  · intro h
    refine ⟨fun word rest hfield => ?_, ?_⟩
    · cases hfield.field_eq.symm.trans h
    · rw [field] at h
      split at h
      · exact (Except.error.inj h).symm
      · cases h
  · rintro ⟨hnone, rfl⟩
    cases h : field bytes with
    | ok found => exact absurd (field_eq_ok_iff.mp h) (hnone found.1 found.2)
    | error e =>
      rw [field] at h
      split at h
      · exact congrArg _ (Except.error.inj h).symm
      · cases h

/-! ### Numbers -/

/-- The natural number that digits without a sign spell. -/
def unsigned? (digits : List Char) : Option Nat :=
  if digits.isEmpty ∨ !digits.all Literal.isDigit then none
  else if Literal.value digits < Word.size then some (Literal.value digits) else none

theorem natural?_plus (digits : List Char) :
    Literal.natural? ('+' :: digits) = unsigned? digits := rfl

theorem natural?_of_head {text : List Char} (h : text.head? ≠ some '+') :
    Literal.natural? text = unsigned? text := by
  have hplus : ∀ rest, text = '+' :: rest → False := by
    rintro rest rfl
    exact h rfl
  exact Literal.natural?.eq_2 text hplus

theorem unsigned?_eq_some_iff {digits : List Char} : unsigned? digits = some n ↔
    digits ≠ [] ∧ (∀ c ∈ digits, c.isDigit = true) ∧ Nat.ofDigitChars 10 digits 0 = n ∧
      n < Word.size := by
  have hvalue : Literal.value digits = Nat.ofDigitChars 10 digits 0 := rfl
  have hall : digits.all Literal.isDigit = true ↔ ∀ c ∈ digits, c.isDigit = true := by
    simp only [List.all_eq_true, isDigit_eq]
  rw [unsigned?, hvalue]
  split
  · next h =>
    refine iff_of_false nofun ?_
    rintro ⟨hne, hdigits, -⟩
    rcases h with h | h
    · exact hne (List.isEmpty_iff.mp h)
    · rw [hall.mpr hdigits] at h
      cases h
  · next h =>
    rw [not_or, List.isEmpty_iff, Bool.not_eq_true', Bool.not_eq_false, hall] at h
    split
    · next hfits =>
      rw [Option.some.injEq]
      exact ⟨fun hn => ⟨h.1, h.2, hn, hn ▸ hfits⟩, fun hn => hn.2.2.1⟩
    · next hfits =>
      refine iff_of_false nofun ?_
      rintro ⟨-, -, rfl, hn⟩
      exact hfits hn

theorem natural?_eq_some_iff {text : List Char} : Literal.natural? text = some n ↔
    ∃ sign digits, text = sign ++ digits ∧ (sign = [] ∨ sign = ['+']) ∧ digits ≠ [] ∧
      (∀ c ∈ digits, c.isDigit = true) ∧ Nat.ofDigitChars 10 digits 0 = n ∧ n < Word.size := by
  constructor
  · intro h
    by_cases hplus : text.head? = some '+'
    · obtain ⟨digits, rfl⟩ := List.head?_eq_some_iff.mp hplus
      rw [natural?_plus] at h
      exact ⟨['+'], digits, rfl, .inr rfl, unsigned?_eq_some_iff.mp h⟩
    · rw [natural?_of_head hplus] at h
      exact ⟨[], text, rfl, .inl rfl, unsigned?_eq_some_iff.mp h⟩
  · rintro ⟨sign, digits, rfl, rfl | rfl, hdigits⟩
    · have hplus : digits.head? ≠ some '+' := by
        intro hhead
        have hdigit := hdigits.2.1 '+' (List.mem_of_mem_head? hhead)
        cases hdigit
      rw [List.nil_append, natural?_of_head hplus]
      exact unsigned?_eq_some_iff.mpr hdigits
    · rw [List.singleton_append, natural?_plus]
      exact unsigned?_eq_some_iff.mpr hdigits

theorem isAscii_number {sign digits : List Char} (hsign : sign = [] ∨ sign = ['+'])
    (hdigits : ∀ c ∈ digits, c.isDigit = true) : ∀ c ∈ sign ++ digits, IsAscii c := by
  intro c hc
  rcases List.mem_append.mp hc with hc | hc
  · rcases hsign with rfl | rfl
    · cases hc
    · rw [List.mem_singleton.mp hc]
      decide
  · exact isAscii_of_isDigit (hdigits c hc)

theorem natural?_lossyText_iff :
    Literal.natural? (Utf8.lossyText word).toList = some n ↔ IsNumber word n := by
  rw [natural?_eq_some_iff]
  constructor
  · rintro ⟨sign, digits, htext, hsign, hne, hdigits, rfl, hfits⟩
    rw [(Utf8.lossyText_eq_iff (isAscii_number hsign hdigits)).mp htext]
    exact .digits hsign hne hdigits hfits
  · rintro ⟨hsign, hne, hdigits, hfits⟩
    exact ⟨_, _, (Utf8.lossyText_eq_iff (isAscii_number hsign hdigits)).mpr rfl, hsign, hne,
      hdigits, rfl, hfits⟩

theorem numberField_eq : numberField what bytes = field bytes >>= fun found =>
    (Literal.natural? (Utf8.lossyText found.1).toList).elim
      (.error (.header s!"{what} '{Utf8.lossyText found.1}' is not a number"))
      fun n => .ok (n, found.2) := by
  refine congrArg (field bytes >>= ·) (funext fun found => ?_)
  obtain ⟨word, rest⟩ := found
  dsimp only
  cases Literal.natural? (Utf8.lossyText word).toList <;> rfl

theorem numberField_eq_ok_iff :
    numberField what bytes = .ok (n, rest) ↔ IsNumberField bytes n rest := by
  rw [numberField_eq, Except.bind_eq_ok_iff]
  constructor
  · rintro ⟨⟨word, behind⟩, hfield, hnumber⟩
    cases hn : Literal.natural? (Utf8.lossyText word).toList with
    | none => simp [hn] at hnumber
    | some m =>
      obtain ⟨rfl, rfl⟩ : m = n ∧ behind = rest := by simpa [hn] using hnumber
      exact ⟨word, field_eq_ok_iff.mp hfield, natural?_lossyText_iff.mp hn⟩
  · rintro ⟨word, hfield, hnumber⟩
    refine ⟨(word, rest), hfield.field_eq, ?_⟩
    simp [natural?_lossyText_iff.mpr hnumber]

theorem natural?_eq_none_iff :
    Literal.natural? (Utf8.lossyText word).toList = none ↔ ∀ n, ¬IsNumber word n := by
  rw [Option.eq_none_iff_forall_ne_some]
  exact forall_congr' fun n => not_congr natural?_lossyText_iff

theorem numberField_eq_error_iff :
    numberField what bytes = .error e ↔ NumberFault what bytes e := by
  rw [numberField_eq, Except.bind_eq_error_iff, field_eq_error_iff]
  constructor
  · rintro (⟨hnone, rfl⟩ | ⟨⟨word, rest⟩, hfield, hnumber⟩)
    · exact .missing hnone
    · cases hn : Literal.natural? (Utf8.lossyText word).toList with
      | some m => simp [hn] at hnumber
      | none =>
        simp only [hn, Option.elim_none, Except.error.injEq] at hnumber
        rw [← hnumber]
        exact .malformed (field_eq_ok_iff.mp hfield) (natural?_eq_none_iff.mp hn)
  · intro h
    cases h with
    | missing hnone => exact .inl ⟨hnone, rfl⟩
    | malformed hfield hnone =>
      refine .inr ⟨_, hfield.field_eq, ?_⟩
      simp only [natural?_eq_none_iff.mpr hnone, Option.elim_none]

/-! ### Headers -/

theorem magic_iff : Utf8.lossyText word = magic ↔ word = ascii ['P', '6'] := by
  have hascii : ∀ c ∈ ['P', '6'], IsAscii c := by
    simp only [List.forall_mem_cons]
    exact ⟨by decide, by decide, List.forall_mem_nil _⟩
  rw [← Utf8.lossyText_eq_iff hascii, ← String.toList_inj]
  rfl

theorem contents_eq : contents bytes = field bytes >>= fun found =>
    if Utf8.lossyText found.1 ≠ magic then .error (.magic (Utf8.lossyText found.1))
    else numberField "width" found.2 >>= fun width => numberField "height" width.2 >>= fun height =>
      numberField "maximum value" height.2 >>= fun greatest =>
        if greatest.1 ≠ maxValue then .error (.maxValue greatest.1)
        else .ok ⟨width.1, height.1, greatest.2.drop 1⟩ := rfl

theorem contents_eq_ok_iff {file : Contents} : contents bytes = .ok file ↔
    ∃ rest, IsHeader bytes file.width file.height 255 rest ∧ file.data = rest.drop 1 := by
  obtain ⟨width, height, data⟩ := file
  simp only [contents_eq, Except.bind_eq_ok_iff, ite_eq_iff, field_eq_ok_iff, numberField_eq_ok_iff,
    magic_iff, Prod.exists, reduceCtorEq, and_false, false_or, Except.ok.injEq, Contents.mk.injEq,
    ne_eq, Decidable.not_not]
  constructor
  · rintro ⟨word, _, hmagic, rfl, _, _, hwidth, _, _, hheight, greatest, rest, hgreatest, rfl, rfl,
      rfl, rfl⟩
    exact ⟨rest, .fields hmagic hwidth hheight hgreatest, rfl⟩
  · rintro ⟨rest, ⟨hmagic, hwidth, hheight, hgreatest⟩, rfl⟩
    exact ⟨_, _, hmagic, rfl, _, _, hwidth, _, _, hheight, _, _, hgreatest, rfl, rfl, rfl, rfl⟩

theorem IsHeader.contents_eq {width height : Nat} (h : IsHeader bytes width height 255 rest) :
    contents bytes = .ok ⟨width, height, rest.drop 1⟩ := contents_eq_ok_iff.mpr ⟨rest, h, rfl⟩

theorem contents_eq_error_iff : contents bytes = .error e ↔ HeaderFault bytes e := by
  simp only [contents_eq, Except.bind_eq_error_iff, ite_eq_iff, field_eq_ok_iff, field_eq_error_iff,
    numberField_eq_ok_iff, numberField_eq_error_iff, magic_iff, Prod.exists, reduceCtorEq,
    and_false, or_false, Except.error.injEq, ne_eq, Decidable.not_not]
  constructor
  · rintro (⟨hnone, rfl⟩ | ⟨word, _, hmagic, ⟨hne, rfl⟩ | ⟨rfl, h⟩⟩)
    · exact .missing hnone
    · exact .magic hmagic hne
    rcases h with hfault | ⟨width, _, hwidth, hfault | ⟨height, _, hheight, h⟩⟩
    · exact .width hmagic hfault
    · exact .height hmagic hwidth hfault
    rcases h with hfault | ⟨greatest, rest, hgreatest, hne, rfl⟩
    · exact .greatest hmagic hwidth hheight hfault
    · exact .maxValue (.fields hmagic hwidth hheight hgreatest) hne
  · intro hfault
    cases hfault with
    | missing hnone => exact .inl ⟨hnone, rfl⟩
    | magic hmagic hne => exact .inr ⟨_, _, hmagic, .inl ⟨hne, rfl⟩⟩
    | width hmagic hfault => exact .inr ⟨_, _, hmagic, .inr ⟨rfl, .inl hfault⟩⟩
    | height hmagic hwidth hfault =>
      exact .inr ⟨_, _, hmagic, .inr ⟨rfl, .inr ⟨_, _, hwidth, .inl hfault⟩⟩⟩
    | greatest hmagic hwidth hheight hfault =>
      exact .inr ⟨_, _, hmagic, .inr ⟨rfl, .inr ⟨_, _, hwidth, .inr ⟨_, _, hheight,
        .inl hfault⟩⟩⟩⟩
    | maxValue hheader hne =>
      obtain ⟨hmagic, hwidth, hheight, hgreatest⟩ := hheader
      exact .inr ⟨_, _, hmagic, .inr ⟨rfl, .inr ⟨_, _, hwidth, .inr ⟨_, _, hheight,
        .inr ⟨_, _, hgreatest, hne, rfl⟩⟩⟩⟩⟩

/-- A file has a whole header, or something is wrong with its header. -/
theorem headerFault_or_isHeader (bytes : List UInt8) : (∃ e, HeaderFault bytes e) ∨
    ∃ width height rest, IsHeader bytes width height 255 rest := by
  cases hfile : contents bytes with
  | error e => exact .inl ⟨e, contents_eq_error_iff.mp hfile⟩
  | ok file =>
    obtain ⟨rest, hheader, -⟩ := contents_eq_ok_iff.mp hfile
    exact .inr ⟨file.width, file.height, rest, hheader⟩

theorem IsHeader.not_fault {width height : Nat} (h : IsHeader bytes width height 255 rest) :
    ¬HeaderFault bytes e := by
  intro hfault
  cases h.contents_eq.symm.trans (contents_eq_error_iff.mpr hfault)

/-! ### More bytes behind a header -/

theorem IsField.append (h : IsField bytes word rest) (hrest : rest ≠ []) (more : List UInt8) :
    IsField (bytes ++ more) word (rest ++ more) := by
  obtain ⟨hpadding, hne, hword, hfirst, hblank⟩ := h
  rw [List.append_assoc]
  refine .word hpadding hne hword hfirst ?_
  cases rest with
  | nil => exact absurd rfl hrest
  | cons b rest => exact hblank

theorem IsField.ne_nil (h : IsField bytes word rest) : bytes ≠ [] := by
  obtain ⟨-, hne, -, -, -⟩ := h
  simp [hne]

theorem IsNumberField.append (h : IsNumberField bytes n rest) (hrest : rest ≠ [])
    (more : List UInt8) : IsNumberField (bytes ++ more) n (rest ++ more) := by
  obtain ⟨word, hfield, hnumber⟩ := h
  exact ⟨word, hfield.append hrest more, hnumber⟩

theorem IsNumberField.ne_nil (h : IsNumberField bytes n rest) : bytes ≠ [] := by
  obtain ⟨word, hfield, -⟩ := h
  exact hfield.ne_nil

theorem IsNumberField.unique {m : Nat} {rest' : List UInt8} (h : IsNumberField bytes n rest)
    (h' : IsNumberField bytes m rest') : n = m ∧ rest = rest' := by
  have hn : numberField "" bytes = .ok (n, rest) := numberField_eq_ok_iff.mpr h
  have hm : numberField "" bytes = .ok (m, rest') := numberField_eq_ok_iff.mpr h'
  exact Prod.mk.inj (Except.ok.inj (hn.symm.trans hm))

variable {width height greatest : Nat}

theorem IsHeader.append (h : IsHeader bytes width height greatest rest) (hrest : rest ≠ [])
    (more : List UInt8) : IsHeader (bytes ++ more) width height greatest (rest ++ more) := by
  obtain ⟨hmagic, hwidth, hheight, hgreatest⟩ := h
  exact .fields (hmagic.append hwidth.ne_nil more) (hwidth.append hheight.ne_nil more)
    (hheight.append hgreatest.ne_nil more) (hgreatest.append hrest more)

theorem IsHeader.unique {width' height' greatest' : Nat} {rest' : List UInt8}
    (h : IsHeader bytes width height greatest rest)
    (h' : IsHeader bytes width' height' greatest' rest') :
    width = width' ∧ height = height' ∧ rest = rest' := by
  obtain ⟨hmagic, hwidth, hheight, hgreatest⟩ := h
  obtain ⟨hmagic', hwidth', hheight', hgreatest'⟩ := h'
  obtain ⟨-, rfl⟩ := hmagic.unique hmagic'
  obtain ⟨rfl, rfl⟩ := hwidth.unique hwidth'
  obtain ⟨rfl, rfl⟩ := hheight.unique hheight'
  exact ⟨rfl, rfl, (hgreatest.unique hgreatest').2⟩

/-! ### What is left behind a header -/

theorem IsField.length_le (h : IsField bytes word rest) : rest.length ≤ bytes.length := by
  obtain ⟨-, -, -, -, -⟩ := h
  rw [List.length_append]
  exact Nat.le_add_left _ _

theorem IsNumberField.length_le (h : IsNumberField bytes n rest) : rest.length ≤ bytes.length := by
  obtain ⟨word, hfield, -⟩ := h
  exact hfield.length_le

theorem IsNumberField.lt (h : IsNumberField bytes n rest) : n < Word.size := by
  obtain ⟨word, -, -, -, -, hfits⟩ := h
  exact hfits

theorem IsHeader.length_data_le (h : IsHeader bytes width height greatest rest) :
    (rest.drop 1).length ≤ bytes.length := by
  obtain ⟨hmagic, hwidth, hheight, hgreatest⟩ := h
  have hrest : rest.length ≤ bytes.length :=
    hgreatest.length_le.trans (hheight.length_le.trans (hwidth.length_le.trans hmagic.length_le))
  rw [List.length_drop]
  exact (Nat.sub_le _ _).trans hrest

theorem IsHeader.lt (h : IsHeader bytes width height greatest rest) :
    width < Word.size ∧ height < Word.size := by
  obtain ⟨-, hwidth, hheight, -⟩ := h
  exact ⟨hwidth.lt, hheight.lt⟩

/-! ### Headers that are written -/

theorem IsField.behind_blank (hb : isBlank b = true) (h : IsField bytes word rest) :
    IsField (b :: bytes) word rest := by
  obtain ⟨hpadding, hne, hword, hfirst, hrest⟩ := h
  exact .word (hpadding.blank hb) hne hword hfirst hrest

theorem digit_byte {c : Char} (hc : c.isDigit = true) :
    isBlank c.toNat.toUInt8 = false ∧ c.toNat.toUInt8 ≠ 0x23 := by
  have hbyte := toNat_byte (isAscii_of_isDigit hc).2
  obtain ⟨hlow, -⟩ := isDigit_range hc
  simp only [isBlank, ← UInt8.toNat_inj, hbyte, ne_eq]
  simp
  omega

theorem isNumber_toDigits (hn : n < Word.size) : IsNumber (ascii (Nat.toDigits 10 n)) n := by
  have hvalue : Nat.ofDigitChars 10 (Nat.toDigits 10 n) 0 = n :=
    Nat.ofDigitChars_toDigits (by decide) (by decide)
  have hdigits : ∀ c ∈ Nat.toDigits 10 n, c.isDigit = true := fun c hc =>
    Nat.isDigit_of_mem_toDigits (by decide) (by decide) hc
  have hnumber := IsNumber.digits (.inl rfl) Nat.toDigits_ne_nil hdigits (by rwa [hvalue])
  rwa [hvalue] at hnumber

theorem isNumberField_toDigits (hn : n < Word.size) (hrest : ∀ b ∈ rest.head?, isBlank b = true) :
    IsNumberField (0x20 :: (ascii (Nat.toDigits 10 n) ++ rest)) n rest := by
  have hbyte : ∀ b ∈ ascii (Nat.toDigits 10 n), isBlank b = false ∧ b ≠ 0x23 := by
    intro b hb
    obtain ⟨c, hc, rfl⟩ := List.mem_map.mp hb
    exact digit_byte (Nat.isDigit_of_mem_toDigits (by decide) (by decide) hc)
  have hne : ascii (Nat.toDigits 10 n) ≠ [] := by simp [ascii, Nat.toDigits_ne_nil]
  have hfield : IsField (ascii (Nat.toDigits 10 n) ++ rest) (ascii (Nat.toDigits 10 n)) rest :=
    .word .nothing hne (fun b hb => (hbyte b hb).1)
      (fun hfirst => (hbyte _ (List.mem_of_mem_head? hfirst)).2 rfl) hrest
  exact ⟨_, hfield.behind_blank (by decide), isNumber_toDigits hn⟩

theorem encode_header (width height : Nat) : Utf8.encode (header width height) =
    ascii ['P', '6'] ++ (0x20 :: (ascii (Nat.toDigits 10 width) ++
      (0x20 :: (ascii (Nat.toDigits 10 height) ++
        (0x20 :: (ascii (Nat.toDigits 10 255) ++ [0x0A])))))) := by
  have hheader : header width height = String.ofList (['P', '6'] ++
      (' ' :: (Nat.toDigits 10 width ++ (' ' :: (Nat.toDigits 10 height ++
        (' ' :: (Nat.toDigits 10 255 ++ ['\n']))))))) := by
    rw [← String.toList_inj, String.toList_ofList]
    simp only [header, magic, maxValue, String.toList_append, Nat.toString_eq_repr, Nat.toList_repr,
      List.append_assoc]
    rfl
  have hdigits (n : Nat) : ∀ c ∈ Nat.toDigits 10 n, c.toNat < 128 := fun c hc =>
    (isAscii_of_isDigit (Nat.isDigit_of_mem_toDigits (by decide) (by decide) hc)).2
  rw [hheader, Utf8.encode_ofList]
  · simp only [ascii_append, ascii_cons]
    rfl
  · simp only [List.forall_mem_append, List.forall_mem_cons]
    exact ⟨⟨by decide, by decide, List.forall_mem_nil _⟩, by decide, hdigits width, by decide,
      hdigits height, by decide, hdigits 255, by decide, List.forall_mem_nil _⟩

theorem isHeader_header (hwidth : width < Word.size) (hheight : height < Word.size)
    (data : List UInt8) :
    IsHeader (Utf8.encode (header width height) ++ data) width height 255 (0x0A :: data) := by
  simp only [encode_header, List.append_assoc, List.cons_append, List.nil_append]
  have hmagic : ∀ b ∈ ascii ['P', '6'], isBlank b = false := by
    simp only [ascii_cons, List.forall_mem_cons]
    exact ⟨by decide, by decide, List.forall_mem_nil _⟩
  exact .fields (.word .nothing (by decide) hmagic (by decide) (by simp [isBlank]))
    (isNumberField_toDigits hwidth (by simp [isBlank]))
    (isNumberField_toDigits hheight (by simp [isBlank]))
    (isNumberField_toDigits (by decide) (by simp [isBlank]))

end Easel.Pixmap
