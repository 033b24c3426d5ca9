import Mathlib.Data.List.Induction
import Easel.Text.Position

/-! Places in a text, counted from its beginning. The cursor is moved one character at a time; the
lemmas here say where it has come to: the lines behind it, the characters of its line and the bytes
behind it. -/

namespace Easel

namespace Text

/-- The bytes that some characters take. -/
def byteSize (cs : List Char) : Nat := (String.ofList cs).utf8ByteSize

@[simp] theorem byteSize_nil : byteSize [] = 0 := rfl

@[simp] theorem byteSize_append (cs ds : List Char) :
    byteSize (cs ++ ds) = byteSize cs + byteSize ds := by
  rw [byteSize, String.ofList_append, String.utf8ByteSize_append]
  rfl

@[simp] theorem byteSize_singleton (c : Char) : byteSize [c] = c.utf8Size := by
  rw [byteSize, ← String.singleton_eq_ofList, String.utf8ByteSize_singleton]

theorem byteSize_cons (c : Char) (cs : List Char) :
    byteSize (c :: cs) = c.utf8Size + byteSize cs := by
  rw [← List.singleton_append, byteSize_append, byteSize_singleton]

/-- Characters with a code point below 128 take one byte each. -/
theorem byteSize_eq_length {cs : List Char} (h : ∀ c ∈ cs, c.toNat < 128) :
    byteSize cs = cs.length := by
  induction cs with
  | nil => rfl
  | cons c cs ih =>
    have hc : c.utf8Size = 1 := by
      have hlt := h c List.mem_cons_self
      rw [Char.utf8Size, if_pos]
      exact UInt32.le_iff_toNat_le.mpr (Nat.le_of_lt_succ hlt)
    rw [byteSize_cons, hc, ih fun d hd => h d (List.mem_cons_of_mem c hd), List.length_cons,
      Nat.add_comm]

@[simp] theorem byteSize_toList (s : String) : byteSize s.toList = s.utf8ByteSize := by
  rw [byteSize, String.ofList_toList]

/-- The characters behind the last line feed. -/
def lastLine (cs : List Char) : List Char := (cs.reverse.takeWhile (· ≠ '\n')).reverse

@[simp] theorem lastLine_nil : lastLine [] = [] := rfl

@[simp] theorem lastLine_newline (cs : List Char) : lastLine (cs ++ ['\n']) = [] := by
  simp [lastLine]

theorem lastLine_concat (cs : List Char) {c : Char} (hc : c ≠ '\n') :
    lastLine (cs ++ [c]) = lastLine cs ++ [c] := by
  simp [lastLine, hc]

/-- Characters without a line feed among them stay on the line. -/
theorem lastLine_append (cs : List Char) {ds : List Char} (hds : '\n' ∉ ds) :
    lastLine (cs ++ ds) = lastLine cs ++ ds := by
  induction ds using List.reverseRecOn with
  | nil => simp
  | append_singleton ds d ih =>
    rw [List.mem_append, List.mem_singleton, not_or] at hds
    rw [← List.append_assoc, lastLine_concat _ (Ne.symm hds.2), ih hds.1, List.append_assoc]

/-- The number of lines of a text. A line feed ends its line, and what follows the last one is a
line only if it has characters. -/
def lineCount (cs : List Char) : Nat :=
  cs.count '\n' + if lastLine cs = [] then 0 else 1

end Text

open Text

namespace Cursor

/-- The cursor behind some characters. -/
def after (cs : List Char) : Cursor := cs.foldl advance start

@[simp] theorem after_concat (cs : List Char) (c : Char) :
    after (cs ++ [c]) = (after cs).advance c := by
  simp [after]

/-- The three counters of the cursor agree on where it is. -/
theorem after_eq (cs : List Char) :
    after cs = ⟨1 + cs.count '\n', 1 + (lastLine cs).length, byteSize cs⟩ := by
  induction cs using List.reverseRecOn with
  | nil => rfl
  | append_singleton cs c ih =>
    rw [after_concat, ih, advance]
    rcases Decidable.em (c = '\n') with rfl | hc
    · simp [Nat.add_assoc]
    · simp [hc, lastLine_concat cs hc, Nat.add_assoc]

theorem afterLast_after (cs : List Char) :
    (after cs).afterLast = ⟨lineCount cs + 1, 0, byteSize cs, 0⟩ := by
  rw [after_eq, afterLast, lineCount]
  rcases Decidable.em (lastLine cs = []) with hline | hline
  · simp [hline, Nat.add_comm]
  · have hlength := List.length_pos_iff.mpr hline
    simp only [hline, if_false, Position.mk.injEq, and_true]
    rw [if_neg (by omega)]
    omega

end Cursor

/-- A position is that of a stretch that comes behind some text: it has the line and the column
where the stretch starts, and its place in bytes. -/
structure Position.At (p : Position) (before stretch : String) : Prop where
  line : p.line = 1 + before.toList.count '\n'
  column : p.column = 1 + (lastLine before.toList).length
  offset : p.offset = before.utf8ByteSize
  length : p.length = stretch.utf8ByteSize

/-- A position marks a stretch of a source, from one whole character to another. -/
def Position.Marks (p : Position) (source stretch : String) : Prop :=
  ∃ before after : String, source = before ++ stretch ++ after ∧ p.At before stretch

/-- A stretch of a source that begins and ends between characters. -/
structure Position.Within (p : Position) (source : String) : Prop where
  le : p.offset + p.length ≤ source.utf8ByteSize
  first : String.Pos.Raw.IsValid source ⟨p.offset⟩
  last : String.Pos.Raw.IsValid source ⟨p.offset + p.length⟩

theorem Position.Marks.within {p : Position} {source stretch : String}
    (h : p.Marks source stretch) : p.Within source := by
  obtain ⟨before, after, rfl, hp⟩ := h
  have hlast : p.offset + p.length = (before ++ stretch).utf8ByteSize := by
    rw [hp.offset, hp.length, String.utf8ByteSize_append]
  constructor
  · have hwhole := String.utf8ByteSize_append (s := before ++ stretch) (t := after)
    omega
  · rw [hp.offset, String.append_assoc]
    exact String.Pos.Raw.isValid_iff_exists_append.mpr ⟨before, stretch ++ after, rfl, rfl⟩
  · rw [hlast]
    exact String.Pos.Raw.isValid_iff_exists_append.mpr ⟨before ++ stretch, after, rfl, rfl⟩

theorem Cursor.position_at (before : List Char) (stretch : String) :
    ((Cursor.after before).position stretch.utf8ByteSize).At (String.ofList before) stretch := by
  rw [Cursor.after_eq]
  constructor <;> simp [Cursor.position, byteSize]

end Easel
