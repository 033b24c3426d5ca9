import Easel.Proofs.Image.Files

/-! What a machine reads from any file that it holds, whatever the header announces. It comes to the
right answer just when it can count the bytes of the pixels. Otherwise it stops, or it goes by the
counts that it has. -/

namespace Easel.Pixmap

variable {o : Overflow} {width height : Nat} {bytes rest data : List UInt8}
  {r : Except PixmapError Image}

/-! ### Answers -/

/-- What a machine finds in a file that it holds: a fault of the header, or what it finds behind
it. -/
theorem decode?_cases (hbytes : bytes.length ≤ Word.maxBytes) (h : decode? o bytes = some r) :
    (∃ e, r = .error e ∧ HeaderFault bytes e) ∨
      ∃ width height rest, IsHeader bytes width height 255 rest ∧
        (((rest.drop 1).length < dataSize width height ∧
          r = .error (.truncated (dataSize width height) (rest.drop 1).length)) ∨
        dataSize width height ≤ (rest.drop 1).length ∧
          r = .ok (imageOf width height (rest.drop 1).toArray)) := by
  rcases headerFault_or_isHeader bytes with ⟨e, hfault⟩ | ⟨width, height, rest, hheader⟩
  · rw [hfault.decode?_eq] at h
    exact .inl ⟨e, (Option.some.inj h).symm, hfault⟩
  · rw [hheader.decode?_eq] at h
    have hlength := hheader.length_data_le.trans hbytes
    exact .inr ⟨width, height, rest, hheader,
      store?_eq_some hheader.lt.1 hheader.lt.2 (.inr hlength) h⟩

/-- The answer that a file calls for: what is wrong with it, or the image that is stored in it. -/
inductive Answers (bytes : List UInt8) : Except PixmapError Image → Prop
  | fault {e : PixmapError} (h : Fault bytes e) : Answers bytes (.error e)
  | image {width height : Nat} {rest : List UInt8} {image : Image}
      (hheader : IsHeader bytes width height 255 rest)
      (hdata : 3 * width * height ≤ (rest.drop 1).length)
      (hstored : image.StoredIn width height (rest.drop 1)) : Answers bytes (.ok image)

theorem storedIn_imageOf_of_countable (hcount : Countable o width height)
    (hlength : data.length ≤ Word.maxBytes) (hdata : dataSize width height ≤ data.length) :
    (imageOf width height data.toArray).StoredIn width height data := by
  rw [hcount.dataSize_eq] at hdata
  cases height with
  | zero =>
    refine ⟨rfl, rfl, ?_, fun _ _ y hy => absurd hy (Nat.not_lt_zero y)⟩
    rw [imageOf, Array.size_map, Array.size_range, hcount.dataSize_eq, Nat.mul_zero,
      Nat.mul_zero]
  | succ height =>
    have hrow : 3 * width ≤ 3 * width * (height + 1) := Nat.le_mul_of_pos_right _ height.succ_pos
    exact storedIn_imageOf (by omega) (by omega) hdata

/-- A machine that can count the bytes of the pixels reads them, or finds that some are missing. -/
theorem decode?_of_countable (hbytes : bytes.length ≤ Word.maxBytes)
    (hheader : IsHeader bytes width height 255 rest) (hcount : Countable o width height) :
    ((rest.drop 1).length < 3 * width * height →
      decode? o bytes = some (.error (.truncated (3 * width * height) (rest.drop 1).length))) ∧
    (3 * width * height ≤ (rest.drop 1).length → ∃ image, decode? o bytes = some (.ok image) ∧
      image.StoredIn width height (rest.drop 1)) := by
  have hlength := hheader.length_data_le.trans hbytes
  obtain ⟨r, hr⟩ := exists_store? hcount hheader.lt.2 fun hle => hle.trans hlength
  rw [hheader.decode?_eq, hr, ← hcount.dataSize_eq]
  rcases store?_eq_some hheader.lt.1 hheader.lt.2 (.inr hlength) hr with ⟨hlt, rfl⟩ | ⟨hle, rfl⟩
  · exact ⟨fun _ => rfl, fun hle => absurd hlt (Nat.not_lt_of_le hle)⟩
  · exact ⟨fun hlt => absurd hlt (Nat.not_lt_of_le hle),
      fun _ => ⟨_, rfl, storedIn_imageOf_of_countable hcount hlength hle⟩⟩

theorem exists_answer (hbytes : bytes.length ≤ Word.maxBytes)
    (hcount : ∀ width height rest, IsHeader bytes width height 255 rest →
      Countable o width height) : ∃ r, decode? o bytes = some r ∧ Answers bytes r := by
  rcases headerFault_or_isHeader bytes with ⟨e, hfault⟩ | ⟨width, height, rest, hheader⟩
  · exact ⟨.error e, hfault.decode?_eq o, .fault (.header hfault)⟩
  · obtain ⟨hshort, hlong⟩ := decode?_of_countable hbytes hheader (hcount _ _ _ hheader)
    rcases Nat.lt_or_ge (rest.drop 1).length (3 * width * height) with hlt | hle
    · exact ⟨_, hshort hlt, .fault (.truncated hheader hlt)⟩
    · obtain ⟨image, hread, hstored⟩ := hlong hle
      exact ⟨_, hread, .image hheader hle hstored⟩

/-- The right answer says how many bytes there should be, or comes from that many. -/
theorem lt_of_answers (hbytes : bytes.length ≤ Word.maxBytes)
    (hheader : IsHeader bytes width height 255 rest) (hread : decode? o bytes = some r)
    (h : Answers bytes r) : 3 * width * height < Word.size := by
  have hmax := Word.maxBytes_lt
  cases h with
  | fault h =>
    cases h with
    | header hfault => exact absurd hfault hheader.not_fault
    | truncated hheader' _ =>
      obtain ⟨rfl, rfl, rfl⟩ := hheader.unique hheader'
      rcases decode?_cases hbytes hread with
        ⟨e, -, hfault⟩ | ⟨width', height', rest', hheader', ⟨-, h⟩ | ⟨-, h⟩⟩
      · exact absurd hfault hheader.not_fault
      · obtain ⟨rfl, rfl, rfl⟩ := hheader.unique hheader'
        rw [(PixmapError.truncated.inj (Except.error.inj h)).1, dataSize_eq_mod]
        exact Nat.mod_lt _ (by decide)
      · cases h
  | image hheader' hdata _ =>
    obtain ⟨rfl, rfl, rfl⟩ := hheader.unique hheader'
    have := hheader.length_data_le
    omega

theorem countable_of_store?_stops (h : store? .stops ⟨width, height, data⟩ = some r) :
    Countable .stops width height := by
  obtain ⟨hrow, hexpected⟩ := counts_of_store? h
  have hlt := Overflow.lt_of_count?_stops hrow
  rw [Nat.mod_eq_of_lt hlt] at hexpected
  rw [Countable, Nat.mul_comm 3]
  exact ⟨Overflow.lt_of_count?_stops hexpected, fun _ => hlt⟩

theorem countable_of_answers (hbytes : bytes.length ≤ Word.maxBytes)
    (hheader : IsHeader bytes width height 255 rest) (hr : decode? o bytes = some r)
    (h : Answers bytes r) : Countable o width height := by
  cases o with
  | stops =>
    rw [hheader.decode?_eq] at hr
    exact countable_of_store?_stops hr
  | wraps =>
    refine ⟨lt_of_answers hbytes hheader hr h, fun ho => ?_⟩
    cases ho

/-- A machine that stops has the right answer or none. -/
theorem answers_of_decode?_stops (hbytes : bytes.length ≤ Word.maxBytes)
    (h : decode? .stops bytes = some r) : Answers bytes r := by
  have hcount : ∀ width height rest, IsHeader bytes width height 255 rest →
      Countable .stops width height := by
    intro width height rest hheader
    rw [hheader.decode?_eq] at h
    exact countable_of_store?_stops h
  obtain ⟨r', hr', hanswer⟩ := exists_answer hbytes hcount
  obtain rfl : r = r' := Option.some.inj (h.symm.trans hr')
  exact hanswer

/-- An image that is read is the one behind the header, by the counts that there are. -/
theorem eq_imageOf_of_decode? {image : Image} (hbytes : bytes.length ≤ Word.maxBytes)
    (hheader : IsHeader bytes width height 255 rest) (h : decode? o bytes = some (.ok image)) :
    dataSize width height ≤ (rest.drop 1).length ∧
      image = imageOf width height (rest.drop 1).toArray := by
  rcases decode?_cases hbytes h with
    ⟨e, he, -⟩ | ⟨width', height', rest', hheader', ⟨-, he⟩ | ⟨hle, hok⟩⟩
  · cases he
  · cases he
  · obtain ⟨rfl, rfl, rfl⟩ := hheader.unique hheader'
    exact ⟨hle, Except.ok.inj hok⟩

/-- The pixels of an image that is read take no more memory than the file. -/
theorem size_le_of_decode? {image : Image} (hbytes : bytes.length ≤ Word.maxBytes)
    (h : decode? o bytes = some (.ok image)) : 3 * image.pixels.size ≤ bytes.length := by
  rcases decode?_cases hbytes h with
    ⟨e, he, -⟩ | ⟨width, height, rest, hheader, ⟨-, he⟩ | ⟨hle, hok⟩⟩
  · cases he
  · cases he
  · obtain rfl := Except.ok.inj hok
    have hlength := hheader.length_data_le
    rw [imageOf, Array.size_map, Array.size_range]
    omega

theorem decode?_stops_eq_none (hheader : IsHeader bytes width height 255 rest)
    (h : ¬Countable .stops width height) : decode? .stops bytes = none := by
  rw [hheader.decode?_eq, Option.eq_none_iff_forall_ne_some]
  exact fun r hr => h (countable_of_store?_stops hr)

/-- A machine that wraps compares the length of a file with the wrapped count. -/
theorem decode?_wraps_eq_error_iff {e : PixmapError} (hbytes : bytes.length ≤ Word.maxBytes)
    (hheader : IsHeader bytes width height 255 rest) : decode? .wraps bytes = some (.error e) ↔
      (rest.drop 1).length < dataSize width height ∧
        e = .truncated (dataSize width height) (rest.drop 1).length := by
  rw [hheader.decode?_eq]
  constructor
  · intro he
    have hlength := hheader.length_data_le.trans hbytes
    rcases store?_eq_some hheader.lt.1 hheader.lt.2 (.inr hlength) he with ⟨hlt, he⟩ | ⟨-, he⟩
    · exact ⟨hlt, Except.error.inj he⟩
    · cases he
  · rintro ⟨hlt, rfl⟩
    rw [store?_eq (Overflow.count?_wraps _) (Overflow.count?_wraps _)]
    exact if_pos hlt

/-- A machine reads a file as it should, whether it stops or wraps, just when it can count the bytes
that the header announces, and so is a file with fewer bytes found to be truncated. Otherwise a
machine that stops has no answer, and one that wraps goes by the wrapped count. -/
theorem decode?_right (o : Overflow) (hbytes : bytes.length ≤ Word.maxBytes) :
    ((∃ r, decode? o bytes = some r ∧ Answers bytes r) ↔
      ∀ width height rest, IsHeader bytes width height 255 rest → Countable o width height) ∧
    (∀ r, decode? .stops bytes = some r → Answers bytes r) ∧
    (∀ image, decode? o bytes = some (.ok image) → 3 * image.pixels.size ≤ bytes.length) ∧
    ∀ width height rest, IsHeader bytes width height 255 rest →
      ((rest.drop 1).length < 3 * width * height →
        (decode? o bytes = some (.error (.truncated (3 * width * height) (rest.drop 1).length)) ↔
          Countable o width height)) ∧
      (¬Countable .stops width height → decode? .stops bytes = none) ∧
      (∀ image, decode? o bytes = some (.ok image) →
        dataSize width height ≤ (rest.drop 1).length ∧
          image = imageOf width height (rest.drop 1).toArray) ∧
      ∀ e, decode? .wraps bytes = some (.error e) ↔
        (rest.drop 1).length < dataSize width height ∧
          e = .truncated (dataSize width height) (rest.drop 1).length := by
  refine ⟨⟨?_, exists_answer hbytes⟩, fun r => answers_of_decode?_stops hbytes,
    fun image => size_le_of_decode? hbytes, fun width height rest hheader =>
      ⟨fun hdata => ⟨fun h => ?_, fun hcount => ?_⟩, decode?_stops_eq_none hheader,
        fun image => eq_imageOf_of_decode? hbytes hheader,
        fun e => decode?_wraps_eq_error_iff hbytes hheader⟩⟩
  · rintro ⟨r, hr, hanswer⟩ width height rest hheader
    exact countable_of_answers hbytes hheader hr hanswer
  · exact countable_of_answers hbytes hheader h (.fault (.truncated hheader hdata))
  · exact (decode?_of_countable hbytes hheader hcount).1 hdata

/-- A file that holds no pixels, and whose header announces so many that their bytes make up a whole
number of words. -/
def vast : List UInt8 := Utf8.encode (header 9223372036854775808 2)

theorem isHeader_vast : IsHeader vast 9223372036854775808 2 255 [0x0A] := by
  have hwidth : 9223372036854775808 < Word.size := by decide
  have h := isHeader_header hwidth (show 2 < Word.size by decide) []
  rwa [List.append_nil] at h

theorem handmade_right : handmade.length ≤ Word.maxBytes ∧
    (∃ r, decode? .stops handmade = some r ∧ Answers handmade r) ∧ vast.length ≤ Word.maxBytes ∧
    decode? .wraps vast ≠ some (.error (.truncated 55340232221128654848 0)) := by
  have hhandmade : handmade.length ≤ Word.maxBytes := by decide +kernel
  have hvast : vast.length ≤ Word.maxBytes := by decide +kernel
  refine ⟨hhandmade, (decode?_right .stops hhandmade).1.mpr ?_, hvast, ?_⟩
  · intro width height rest hheader
    obtain ⟨rfl, rfl, -⟩ := isHeader_handmade.unique hheader
    decide
  · obtain ⟨-, -, -, hright⟩ := decode?_right .wraps hvast
    have htruncated := (hright _ _ _ isHeader_vast).1 (by decide)
    exact fun h => absurd (htruncated.mp h) (by decide)

/-- There is a file whose header announces more pixels than it holds and that is not found to be
truncated. A machine that stops has no answer, and one that wraps reads an image without pixels. -/
theorem exists_decode?_not_truncated : ∃ bytes width height rest,
    IsHeader bytes width height 255 rest ∧ (rest.drop 1).length < 3 * width * height ∧
    decode? .stops bytes = none ∧ decode? .wraps bytes = some (.ok ⟨width, height, #[]⟩) := by
  refine ⟨vast, 9223372036854775808, 2, [0x0A], isHeader_vast, by decide, ?_, ?_⟩
  · rw [isHeader_vast.decode?_eq]
    decide +kernel
  · rw [isHeader_vast.decode?_eq]
    decide +kernel

end Easel.Pixmap
