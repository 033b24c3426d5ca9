import Mathlib.Tactic.SplitIfs
import Easel.Number.Literal
import Easel.Text.Utf8

/-! Texts whose characters take one byte each. Even where bytes that are not well formed are passed
over, they decode to such a text only if they are its characters one by one: a character of more
bytes has a greater code point than these have. -/

namespace Easel

namespace Text

/-- The bytes of characters that take one byte each. -/
def ascii (cs : List Char) : List UInt8 := cs.map fun c => c.toNat.toUInt8

/-- A character of one byte, but not the null character. -/
def IsAscii (c : Char) : Prop := 0 < c.toNat ∧ c.toNat < 128

instance (c : Char) : Decidable (IsAscii c) := inferInstanceAs (Decidable (_ ∧ _))

theorem ascii_cons (c : Char) (cs : List Char) :
    ascii (c :: cs) = c.toNat.toUInt8 :: ascii cs := rfl

theorem ascii_append (cs ds : List Char) : ascii (cs ++ ds) = ascii cs ++ ascii ds :=
  List.map_append

theorem isDigit_eq (c : Char) : Literal.isDigit c = c.isDigit := by
  simp [Literal.isDigit, Char.isDigit, Char.le_def]

theorem isDigit_range {c : Char} (h : c.isDigit = true) : 48 ≤ c.toNat ∧ c.toNat ≤ 57 := by
  rw [Char.isDigit, Bool.and_eq_true, decide_eq_true_eq, decide_eq_true_eq] at h
  exact ⟨UInt32.le_iff_toNat_le.mp h.1, UInt32.le_iff_toNat_le.mp h.2⟩

theorem isAscii_of_isDigit {c : Char} (h : c.isDigit = true) : IsAscii c := by
  obtain ⟨hlow, hhigh⟩ := isDigit_range h
  exact ⟨by omega, by omega⟩

theorem toNat_ofNat_of_isValidChar {n : Nat} (h : n.isValidChar) : (Char.ofNat n).toNat = n := by
  rw [Char.ofNat, dif_pos h]
  rfl

theorem toNat_ofNat_of_lt {n : Nat} (h : n < 128) : (Char.ofNat n).toNat = n :=
  toNat_ofNat_of_isValidChar (.inl (by omega))

/-- What is no code point becomes the null character. -/
theorem not_isAscii_ofNat {n : Nat} (h : 128 ≤ n) : ¬IsAscii (Char.ofNat n) := by
  rintro ⟨hpos, hlt⟩
  by_cases hvalid : n.isValidChar
  · rw [toNat_ofNat_of_isValidChar hvalid] at hlt
    omega
  · rw [Char.ofNat, dif_neg hvalid] at hpos
    exact absurd hpos (by decide)

theorem toNat_byte {c : Char} (h : c.toNat < 128) : c.toNat.toUInt8.toNat = c.toNat := by
  rw [Nat.toUInt8_eq, UInt8.toNat_ofNat']
  exact Nat.mod_eq_of_lt (by omega)

theorem ofNat_eq_iff {b : UInt8} {c : Char} (hb : b < 0x80) (hc : IsAscii c) :
    Char.ofNat b.toNat = c ↔ b = c.toNat.toUInt8 := by
  constructor
  · rintro rfl
    rw [← UInt8.toNat_inj, toNat_byte hc.2, toNat_ofNat_of_lt (UInt8.lt_iff_toNat_lt.mp hb)]
  · rintro rfl
    rw [toNat_byte hc.2, Char.ofNat_toNat]

end Text

namespace Utf8

open Text

variable {lead b low high : UInt8} {count : Nat} {bytes rest following : List UInt8}
  {cs : List Char}

/-- The bits of a first byte and of the byte behind it do not make a small number. -/
theorem announced_ge (h : announced? lead = some (count, low, high)) :
    0 < count ∧ ∀ b, low ≤ b → b ≤ high →
      128 ≤ (lead.toNat % Nat.pow 2 (6 - count) * 64 + b.toNat % 64) * Nat.pow 64 (count - 1) := by
  unfold announced? at h
  simp only [UInt8.le_iff_toNat_le, ← UInt8.toNat_inj] at h ⊢
  split_ifs at h <;> cases h <;> refine ⟨by decide, fun b hlow hhigh => ?_⟩ <;>
    simp at * <;> omega

theorem foldl_ge (n : Nat) (following : List UInt8) :
    n * Nat.pow 64 following.length ≤ following.foldl (fun n b => n * 64 + b.toNat % 64) n := by
  induction following generalizing n with
  | nil => simp
  | cons b following ih =>
    have hmono : n * 64 * Nat.pow 64 following.length ≤
        (n * 64 + b.toNat % 64) * Nat.pow 64 following.length :=
      Nat.mul_le_mul_right _ (Nat.le_add_right _ _)
    calc n * Nat.pow 64 (following.length + 1)
        = n * 64 * Nat.pow 64 following.length := by
          rw [Nat.mul_assoc, Nat.mul_comm 64]
          rfl
      _ ≤ (n * 64 + b.toNat % 64) * Nat.pow 64 following.length := hmono
      _ ≤ _ := ih _

/-- Characters of more than one byte have greater code points than those of one byte. -/
theorem codePoint_ge (h : announced? lead = some (count, low, high))
    (hlength : (followers count low high rest).length = count) :
    128 ≤ codePoint lead (followers count low high rest) := by
  obtain ⟨hcount, hbits⟩ := announced_ge h
  obtain ⟨more, rfl⟩ : ∃ more, count = more + 1 := ⟨count - 1, by omega⟩
  cases rest with
  | nil => cases hlength
  | cons b rest =>
    rw [followers] at hlength ⊢
    split at hlength
    · next hrange =>
      rw [if_pos hrange]
      rw [List.length_cons, Nat.add_right_cancel_iff] at hlength
      have hfirst := hbits b hrange.1 hrange.2
      rw [Nat.add_sub_cancel, ← hlength] at hfirst
      exact Nat.le_trans hfirst (foldl_ge _ _)
    · cases hlength

theorem decode_cons (lead : UInt8) (rest : List UInt8) :
    ∃ first more, decode (lead :: rest) = first :: more := by
  rw [decode]
  split
  · exact ⟨_, _, rfl⟩
  · split <;> exact ⟨_, _, rfl⟩

/-- Where a byte is no character by itself, there is none of one byte. -/
theorem decode_of_ge (hlead : ¬lead < 0x80) (rest : List UInt8) :
    ∃ first more, decode (lead :: rest) = first :: more ∧ ¬IsAscii (first.getD '\uFFFD') := by
  have hreplacement : ¬IsAscii '\uFFFD' := by decide
  rw [decode, if_neg hlead]
  split
  · exact ⟨none, _, rfl, hreplacement⟩
  · next count low high h =>
    refine ⟨_, _, rfl, ?_⟩
    split
    · next hlength => exact not_isAscii_ofNat (codePoint_ge h hlength)
    · exact hreplacement

/-- Bytes stand for a text of characters of one byte if and only if they are its bytes. -/
theorem lossyText_eq_iff (hcs : ∀ c ∈ cs, IsAscii c) :
    (lossyText bytes).toList = cs ↔ bytes = ascii cs := by
  rw [lossyText, String.toList_ofList]
  induction cs generalizing bytes with
  | nil =>
    cases bytes with
    | nil => simp [decode, ascii]
    | cons lead rest =>
      obtain ⟨first, more, heq⟩ := decode_cons lead rest
      simp [heq, ascii]
  | cons c cs ih =>
    obtain ⟨hc, hrest⟩ := List.forall_mem_cons.mp hcs
    cases bytes with
    | nil => simp [decode, ascii]
    | cons lead rest =>
      by_cases hlead : lead < 0x80
      · rw [decode, if_pos hlead, List.map_cons, List.cons.injEq, ih hrest]
        change Char.ofNat lead.toNat = c ∧ _ ↔ lead :: rest = c.toNat.toUInt8 :: ascii cs
        rw [ofNat_eq_iff hlead hc, List.cons.injEq]
      · obtain ⟨first, more, heq, hfirst⟩ := decode_of_ge hlead rest
        have hne : lead ≠ c.toNat.toUInt8 := by
          rintro rfl
          exact hlead (UInt8.lt_iff_toNat_lt.mpr (by rw [toNat_byte hc.2]; exact hc.2))
        refine iff_of_false (fun h => ?_) fun h => hne (List.cons.inj h).1
        rw [heq, List.map_cons, List.cons.injEq] at h
        exact hfirst (h.1 ▸ hc)

theorem encode_ofList (hcs : ∀ c ∈ cs, c.toNat < 128) : encode (String.ofList cs) = ascii cs := by
  have hchar : ∀ c ∈ cs, String.utf8EncodeChar c = [c.toNat.toUInt8] := by
    intro c hc
    have hle : c.val.toNat ≤ 127 := Nat.le_of_lt_succ (hcs c hc)
    rw [String.utf8EncodeChar, if_pos hle]
    rfl
  have hbytes : encode (String.ofList cs) = cs.flatMap String.utf8EncodeChar := by
    rw [encode, String.toUTF8, String.toByteArray_ofList, List.utf8Encode,
      List.toList_data_toByteArray]
  rw [hbytes, ascii, List.flatMap_def, List.map_congr_left hchar, ← List.flatMap_def,
    ← List.map_eq_flatMap]

/-- Bytes below 128 are well formed, and a character each. -/
theorem decode_ascii (hcs : ∀ c ∈ cs, c.toNat < 128) : decode (ascii cs) = cs.map some := by
  induction cs with
  | nil => rw [ascii, List.map_nil, decode, List.map_nil]
  | cons c cs ih =>
    obtain ⟨hc, hcs⟩ := List.forall_mem_cons.mp hcs
    have hlow : c.toNat.toUInt8 < 0x80 := by
      rw [UInt8.lt_iff_toNat_lt, toNat_byte hc]
      exact hc
    rw [ascii_cons, decode, if_pos hlow, toNat_byte hc, Char.ofNat_toNat, ih hcs, List.map_cons]

theorem text?_ascii (hcs : ∀ c ∈ cs, c.toNat < 128) :
    text? (ascii cs) = some (String.ofList cs) := by
  have hall : (cs.map some).mapM id = some cs := by
    rw [List.mapM_map, Function.id_comp]
    exact (List.mapM_pure (m := Option)).trans (congrArg some (List.map_id cs))
  rw [text?, decode_ascii hcs, hall, Option.map_some]

end Utf8

end Easel
