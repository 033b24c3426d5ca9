import Easel.Proofs.Image.Storing

/-! What the reader of pixmaps accepts, and what it reads: the files with a whole header and enough
bytes behind it, as long as a machine can count the bytes of their pixels. What is read is written
again as it was, and what is written is read again. -/

namespace Easel.Pixmap

open Text

/-- What is wrong with a file: the first thing that is. -/
inductive Fault (bytes : List UInt8) : PixmapError → Prop
  | header {e : PixmapError} (h : HeaderFault bytes e) : Fault bytes e
  | truncated {width height : Nat} {rest : List UInt8}
      (hheader : IsHeader bytes width height 255 rest)
      (hdata : (rest.drop 1).length < 3 * width * height) :
      Fault bytes (.truncated (3 * width * height) (rest.drop 1).length)

/-- The pixels that a header announces take no more bytes than a machine can hold in one piece. -/
def Holdable (width height : Nat) : Prop :=
  3 * width ≤ Word.maxBytes ∧ 3 * width * height ≤ Word.maxBytes

instance (width height : Nat) : Decidable (Holdable width height) :=
  inferInstanceAs (Decidable (_ ∧ _))

/-- If a file has a header, a machine can hold the pixels that it announces. -/
def AnnouncesHoldable (bytes : List UInt8) : Prop :=
  ∀ width height rest, IsHeader bytes width height 255 rest → Holdable width height

variable {o : Overflow} {bytes rest data : List UInt8} {width height : Nat} {image : Image}
  {e : PixmapError}

theorem Holdable.countable (o : Overflow) (h : Holdable width height) :
    Countable o width height := by
  exact ⟨Word.lt_of_le_maxBytes h.2, fun _ => Word.lt_of_le_maxBytes h.1⟩

theorem Holdable.hasRoom (o : Overflow) (h : Holdable width height) : hasRoom o width = true := by
  rw [Pixmap.hasRoom, Nat.mul_comm, Overflow.count?_of_lt (Word.lt_of_le_maxBytes h.1)]
  exact decide_eq_true h.1

/-- A machine that can hold the pixels finds them all, or finds that some are missing. -/
theorem Holdable.store?_eq (o : Overflow) (h : Holdable width height) (hheight : height < Word.size)
    (data : List UInt8) : store? o ⟨width, height, data⟩ =
      some (if data.length < 3 * width * height then
        .error (.truncated (3 * width * height) data.length)
      else .ok (imageOf width height data.toArray)) := by
  have hmax := Word.maxBytes_lt
  have hrow := h.1
  obtain ⟨r, hr⟩ := exists_store? (h.countable o) hheight fun _ : _ ≤ data.length => h.2
  have hcases := store?_eq_some (by omega) hheight (.inl (by omega)) hr
  rw [(h.countable o).dataSize_eq] at hcases
  rw [hr]
  rcases hcases with ⟨hlt, rfl⟩ | ⟨hle, rfl⟩
  · rw [if_pos hlt]
  · rw [if_neg (Nat.not_lt_of_le hle)]

theorem IsHeader.decode?_eq (o : Overflow) (h : IsHeader bytes width height 255 rest) :
    decode? o bytes = store? o ⟨width, height, rest.drop 1⟩ := by
  rw [decode?, h.contents_eq]

theorem HeaderFault.decode?_eq (o : Overflow) (h : HeaderFault bytes e) :
    decode? o bytes = some (.error e) := by
  rw [decode?, contents_eq_error_iff.mpr h]

/-- The image that is read is the one that is stored behind the header. -/
theorem decode?_eq_ok_iff (hbytes : AnnouncesHoldable bytes) :
    decode? o bytes = some (.ok image) ↔ ∃ width height rest, IsHeader bytes width height 255 rest ∧
      3 * width * height ≤ (rest.drop 1).length ∧ image.StoredIn width height (rest.drop 1) := by
  constructor
  · intro h
    rcases headerFault_or_isHeader bytes with ⟨e, hfault⟩ | ⟨width, height, rest, hheader⟩
    · cases (hfault.decode?_eq o).symm.trans h
    · have hholdable := hbytes width height rest hheader
      rw [hheader.decode?_eq, hholdable.store?_eq o hheader.lt.2] at h
      split at h
      · cases h
      · next hle =>
        obtain rfl := Except.ok.inj (Option.some.inj h)
        exact ⟨width, height, rest, hheader, Nat.le_of_not_lt hle,
          storedIn_imageOf hholdable.1 hholdable.2 (Nat.le_of_not_lt hle)⟩
  · rintro ⟨width, height, rest, hheader, hdata, hstored⟩
    have hholdable := hbytes width height rest hheader
    rw [hheader.decode?_eq, hholdable.store?_eq o hheader.lt.2, if_neg (Nat.not_lt_of_le hdata),
      hstored.unique (storedIn_imageOf hholdable.1 hholdable.2 hdata)]

theorem decode?_eq_error_iff (hbytes : AnnouncesHoldable bytes) :
    decode? o bytes = some (.error e) ↔ Fault bytes e := by
  constructor
  · intro h
    rcases headerFault_or_isHeader bytes with ⟨e', hfault⟩ | ⟨width, height, rest, hheader⟩
    · rw [hfault.decode?_eq] at h
      obtain rfl := Except.error.inj (Option.some.inj h)
      exact .header hfault
    · rw [hheader.decode?_eq, (hbytes width height rest hheader).store?_eq o hheader.lt.2] at h
      split at h
      · next hlt =>
        obtain rfl := Except.error.inj (Option.some.inj h)
        exact .truncated hheader hlt
      · cases h
  · intro h
    cases h with
    | header h => exact h.decode?_eq o
    | @truncated width height rest hheader hdata =>
      rw [hheader.decode?_eq, (hbytes width height rest hheader).store?_eq o hheader.lt.2,
        if_pos hdata]

/-- There is an answer to every file. -/
theorem exists_decode? (o : Overflow) (hbytes : AnnouncesHoldable bytes) :
    ∃ r, decode? o bytes = some r := by
  rcases headerFault_or_isHeader bytes with ⟨e, hfault⟩ | ⟨width, height, rest, hheader⟩
  · exact ⟨.error e, hfault.decode?_eq o⟩
  · exact ⟨_, (hheader.decode?_eq o).trans
      ((hbytes width height rest hheader).store?_eq o hheader.lt.2 _)⟩

theorem header_eq (width height : Nat) : header width height = s!"P6 {width} {height} 255\n" := by
  rw [← String.toList_inj]
  simp only [header, magic, maxValue, String.toList_append, List.append_assoc]
  rfl

/-- What is written for a stored image: its header, and the bytes that it is stored in. -/
theorem encode_of_storedIn (h : image.StoredIn width height data) :
    encode image = Utf8.encode s!"P6 {width} {height} 255\n" ++ data.take (3 * width * height) := by
  obtain rfl := h.width_eq
  obtain rfl := h.height_eq
  have hbody : body image = data.take (3 * image.width * image.height) := by
    rw [h.take_eq (storedIn_body h.size), ← length_body h.size, List.take_length]
  rw [encode, hbody, header_eq]

/-- A file of one size is of no other size. -/
theorem announcesHoldable (h : IsHeader bytes width height 255 rest)
    (hholdable : Holdable width height) : AnnouncesHoldable bytes := by
  intro width' height' rest' h'
  obtain ⟨rfl, rfl, -⟩ := h.unique h'
  exact hholdable

theorem decode_encode_of_holdable (o : Overflow)
    (hsize : image.pixels.size = image.width * image.height)
    (hholdable : Holdable image.width image.height) (hheight : image.height < Word.size) :
    decode? o (encode image) = some (.ok image) := by
  have hwidth : image.width < Word.size := by
    have hmax := Word.maxBytes_lt
    have hrow := hholdable.1
    omega
  have hheader : IsHeader (encode image) image.width image.height 255 (0x0A :: body image) :=
    isHeader_header hwidth hheight (body image)
  refine (decode?_eq_ok_iff (announcesHoldable hheader hholdable)).mpr
    ⟨_, _, _, hheader, ?_, storedIn_body hsize⟩
  exact Nat.le_of_eq (length_body hsize).symm

/-- More bytes behind a file that is read change nothing, if its header is closed by a byte. -/
theorem decode?_append (hholdable : Holdable width height)
    (hheader : IsHeader bytes width height 255 rest) (hrest : rest ≠ [])
    (hdata : 3 * width * height ≤ (rest.drop 1).length)
    (hstored : image.StoredIn width height (rest.drop 1)) (more : List UInt8) :
    decode? o (bytes ++ more) = some (.ok image) := by
  have hheader' := hheader.append hrest more
  have hdrop : (rest ++ more).drop 1 = rest.drop 1 ++ more := by
    cases rest with
    | nil => exact absurd rfl hrest
    | cons b rest => rfl
  refine (decode?_eq_ok_iff (announcesHoldable hheader' hholdable)).mpr
    ⟨width, height, rest ++ more, hheader', ?_, ?_⟩
  · rw [hdrop, List.length_append]
    omega
  · rw [hdrop]
    exact hstored.append hdata more

/-- The files that are read, what is read from them and written for it, and why the others are not
read. A machine always comes to an answer. -/
theorem decode_iff_isHeader (o : Overflow) (hbytes : AnnouncesHoldable bytes) :
    (∃ r, decode? o bytes = some r) ∧
    ((∃ image, decode? o bytes = some (.ok image)) ↔ ∃ width height rest,
      IsHeader bytes width height 255 rest ∧ 3 * width * height ≤ (rest.drop 1).length) ∧
    (∀ image width height rest, decode? o bytes = some (.ok image) →
      IsHeader bytes width height 255 rest →
        image.StoredIn width height (rest.drop 1) ∧
        hasRoom o width = true ∧
        encode image = Utf8.encode s!"P6 {width} {height} 255\n" ++
          (rest.drop 1).take (3 * width * height) ∧
        (rest ≠ [] → ∀ more, decode? o (bytes ++ more) = some (.ok image))) ∧
    ∀ e, decode? o bytes = some (.error e) ↔ Fault bytes e := by
  refine ⟨exists_decode? o hbytes, ?_, ?_, fun e => decode?_eq_error_iff hbytes⟩
  · constructor
    · rintro ⟨image, hread⟩
      obtain ⟨width, height, rest, hheader, hdata, -⟩ := (decode?_eq_ok_iff hbytes).mp hread
      exact ⟨width, height, rest, hheader, hdata⟩
    · rintro ⟨width, height, rest, hheader, hdata⟩
      obtain ⟨hrow, hall⟩ := hbytes width height rest hheader
      exact ⟨_, (decode?_eq_ok_iff hbytes).mpr
        ⟨width, height, rest, hheader, hdata, storedIn_imageOf hrow hall hdata⟩⟩
  · intro image width height rest hread hheader
    obtain ⟨width', height', rest', hheader', hdata, hstored⟩ :=
      (decode?_eq_ok_iff hbytes).mp hread
    obtain ⟨rfl, rfl, rfl⟩ := hheader.unique hheader'
    have hholdable := hbytes width height rest hheader
    exact ⟨hstored, hholdable.hasRoom o, encode_of_storedIn hstored,
      fun hrest more => decode?_append hholdable hheader hrest hdata hstored more⟩

/-- A file with a comment, a plus, a zero in front of a number, and a byte too many. -/
def handmade : List UInt8 := Utf8.encode "P6\n# é\n+1 02 255\n" ++ [1, 2, 3, 4, 5, 6, 7]

theorem isHeader_handmade : IsHeader handmade 1 2 255 [0x0A, 1, 2, 3, 4, 5, 6, 7] := by
  have hmagic : field handmade = .ok (ascii ['P', '6'], handmade.drop 2) := by decide +kernel
  have hwidth : field (handmade.drop 2) = .ok (ascii ['+', '1'], handmade.drop 10) := by
    decide +kernel
  have hheight : field (handmade.drop 10) = .ok (ascii ['0', '2'], handmade.drop 13) := by
    decide +kernel
  have hgreatest : field (handmade.drop 13) =
      .ok (ascii ['2', '5', '5'], [0x0A, 1, 2, 3, 4, 5, 6, 7]) := by
    decide +kernel
  have hdigits (digits : List Char) (h : digits.all Char.isDigit = true) :
      ∀ c ∈ digits, c.isDigit = true := List.all_eq_true.mp h
  exact .fields (field_eq_ok_iff.mp hmagic)
    ⟨_, field_eq_ok_iff.mp hwidth, .digits (.inr rfl) (List.cons_ne_nil '1' [])
      (hdigits ['1'] rfl) (by decide)⟩
    ⟨_, field_eq_ok_iff.mp hheight, .digits (.inl rfl) (List.cons_ne_nil '0' ['2'])
      (hdigits ['0', '2'] rfl) (by decide)⟩
    ⟨_, field_eq_ok_iff.mp hgreatest, .digits (.inl rfl) (List.cons_ne_nil '2' ['5', '5'])
      (hdigits ['2', '5', '5'] rfl) (by decide)⟩

theorem handmade_decode : AnnouncesHoldable handmade ∧
    ∃ image, decode? .stops handmade = some (.ok image) ∧
      encode image = Utf8.encode "P6 1 2 255\n" ++ [1, 2, 3, 4, 5, 6] := by
  have hbytes : AnnouncesHoldable handmade := announcesHoldable isHeader_handmade (by decide)
  obtain ⟨-, hread, hfound, -⟩ := decode_iff_isHeader .stops hbytes
  obtain ⟨image, himage⟩ := hread.mpr ⟨_, _, _, isHeader_handmade, by decide⟩
  obtain ⟨-, -, hencode, -⟩ := hfound image _ _ _ himage isHeader_handmade
  exact ⟨hbytes, image, himage, hencode⟩

/-- An image that is written is read again, whatever its pixels are. -/
theorem decode_encode (o : Overflow) (hsize : image.pixels.size = image.width * image.height)
    (hrow : image.width * 3 ≤ Word.maxBytes) (hall : image.width * image.height * 3 ≤ Word.maxBytes)
    (hheight : image.height < Word.size) :
    hasRoom o image.width = true ∧ decode? o (encode image) = some (.ok image) := by
  have hholdable : Holdable image.width image.height := by
    rw [Holdable, Nat.mul_assoc, Nat.mul_comm 3, Nat.mul_comm 3]
    exact ⟨hrow, hall⟩
  exact ⟨hholdable.hasRoom o, decode_encode_of_holdable o hsize hholdable hheight⟩

/-- An image whose bytes begin as if the header went on. -/
def headerlike : Image := ⟨2, 1, #[⟨0x20, 0x23, 0x0A⟩, ⟨0x39, 0x20, 0x50⟩]⟩

theorem headerlike_decode : headerlike.pixels.size = headerlike.width * headerlike.height ∧
    headerlike.width * 3 ≤ Word.maxBytes ∧
    headerlike.width * headerlike.height * 3 ≤ Word.maxBytes ∧ headerlike.height < Word.size ∧
    decode? .stops (encode headerlike) = some (.ok headerlike) :=
  ⟨by decide, by decide, by decide, by decide,
    (decode_encode .stops (by decide) (by decide) (by decide) (by decide)).2⟩

end Easel.Pixmap
