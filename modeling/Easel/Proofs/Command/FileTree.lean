import Easel.Command.FileTree
import Easel.Proofs.Command.Path
import Easel.Proofs.Text.Place

/-! Files, folders and paths. A file that is written leaves all others as they are. A path leads to
a name in the folder that its other parts lead to, and with another name to a file beside it. -/

namespace Easel

open Text Easel.Path

namespace FileTree

variable {f : FileTree} {names other front : List String} {bytes : List UInt8}
  {dir name : List Char} {parts : List (List Char)}

/-! ### Files and folders -/

theorem isFolder_iff : f.isFolder names = true ↔
    names = [] ∨ (∃ folder ∈ f.folders, names <+: folder) ∨
    ∃ file ∈ f.files, names <+: file.1 ∧ names.length < file.1.length := by
  simp only [isFolder, Bool.or_eq_true, List.isEmpty_iff, List.any_eq_true, Bool.and_eq_true,
    List.isPrefixOf_iff_prefix, decide_eq_true_eq, or_assoc]

/-- Names that lead towards a folder lead to a folder. -/
theorem isFolder_of_prefix (hbegins : names <+: other) (hother : f.isFolder other = true) :
    f.isFolder names = true := by
  rw [isFolder_iff] at hother ⊢
  rcases hother with rfl | ⟨folder, hfolder, hmore⟩ | ⟨file, hfile, hmore, hlength⟩
  · exact .inl (List.prefix_nil.mp hbegins)
  · exact .inr (.inl ⟨folder, hfolder, hbegins.trans hmore⟩)
  · exact .inr (.inr ⟨file, hfile, hbegins.trans hmore,
      Nat.lt_of_le_of_lt hbegins.length_le hlength⟩)

theorem content?_put_self (f : FileTree) (names : List String) (bytes : List UInt8) :
    (f.put names bytes).content? names = some bytes := by
  simp [content?, put]

/-- A file that is written leaves all others as they are. -/
theorem content?_put_of_ne (h : other ≠ names) :
    (f.put names bytes).content? other = f.content? other := by
  rw [content?, content?, put, List.find?_cons_of_neg (by simpa using Ne.symm h), List.find?_filter]
  congr 2
  funext file
  rcases Decidable.em (file.1 = other) with hfile | hfile
  · simp [hfile, h]
  · simp [hfile]

/-- A file that is written into a folder makes no other folder and removes none. -/
theorem isFolder_put (hfront : f.isFolder front = true) (name : String) :
    (f.put (front ++ [name]) bytes).isFolder other = f.isFolder other := by
  have htowards : other <+: front ++ [name] → other.length < (front ++ [name]).length →
      f.isFolder other = true := by
    intro hbegins hlength
    rw [List.length_append, List.length_singleton] at hlength
    exact isFolder_of_prefix (List.prefix_of_prefix_length_le hbegins (List.prefix_append _ _)
      (Nat.le_of_lt_succ hlength)) hfront
  rw [Bool.eq_iff_iff, isFolder_iff]
  constructor
  · rintro (hempty | hfolder | ⟨file, hfile, hbegins, hlength⟩)
    · exact isFolder_iff.mpr (.inl hempty)
    · exact isFolder_iff.mpr (.inr (.inl hfolder))
    · rcases List.mem_cons.mp hfile with rfl | hfile
      · exact htowards hbegins hlength
      · exact isFolder_iff.mpr (.inr (.inr ⟨file, (List.mem_filter.mp hfile).1, hbegins, hlength⟩))
  · intro hother
    rcases isFolder_iff.mp hother with hempty | hfolder | ⟨file, hfile, hbegins, hlength⟩
    · exact .inl hempty
    · exact .inr (.inl hfolder)
    · rcases Decidable.em (file.1 = front ++ [name]) with heq | hne
      · exact .inr (.inr
          ⟨(front ++ [name], bytes), List.mem_cons_self, heq ▸ hbegins, heq ▸ hlength⟩)
      · refine .inr (.inr ⟨file, List.mem_cons_of_mem _ ?_, hbegins, hlength⟩)
        exact List.mem_filter.mpr ⟨hfile, decide_eq_true hne⟩

/-! ### Paths -/

theorem walk?_append (f : FileTree) (names before after : List String) :
    f.walk? names (before ++ after) = (f.walk? names before).bind (f.walk? · after) := by
  induction before generalizing names with
  | nil => rfl
  | cons part before ih =>
    rw [List.cons_append, walk?, walk?]
    split_ifs
    · rfl
    · exact ih _
    · exact ih _
    · exact ih _

/-- The names that stand for no file, as texts. -/
theorem isName_iff (hplain : '/' ∉ name) : IsName name ↔
    String.ofList name ≠ "" ∧ String.ofList name ≠ "." ∧ String.ofList name ≠ ".." := by
  have hhere : String.ofList name = "." ↔ name = ['.'] := @String.ofList_inj name ['.']
  have hup : String.ofList name = ".." ↔ name = ['.', '.'] := @String.ofList_inj name ['.', '.']
  rw [ne_eq, ne_eq, ne_eq, String.ofList_eq_empty_iff, hhere, hup]
  exact ⟨fun h => ⟨h.nonempty, h.notHere, h.notUp⟩, fun h => ⟨hplain, h.1, h.2.1, h.2.2⟩⟩

theorem walk?_name (hname : IsName name) (f : FileTree) (names : List String) :
    f.walk? names [String.ofList name] =
      if f.isFolder names = true then some (names ++ [String.ofList name]) else none := by
  obtain ⟨hempty, hhere, hup⟩ := (isName_iff hname.plain).mp hname
  rw [walk?]
  cases f.isFolder names with
  | false => rfl
  | true => rw [if_neg (by decide), if_neg (by simp [hempty, hhere]), if_neg hup, walk?, if_pos rfl]

/-- A path leads to a file in the folder that its other parts lead to. -/
theorem resolve?_eq_some_iff (hsplit : (dir ++ name).splitOn '/' = parts ++ [name])
    (hplain : '/' ∉ name) : f.resolve? (String.ofList (dir ++ name)) = some names ↔
      isPath (String.ofList (dir ++ name)) = true ∧ IsName name ∧
        ∃ front, f.walk? (f.start (String.ofList (dir ++ name))) (parts.map String.ofList) =
            some front ∧ f.isFolder front = true ∧ names = front ++ [String.ofList name] := by
  have hparts : FileTree.parts (String.ofList (dir ++ name)) =
      parts.map String.ofList ++ [String.ofList name] := by
    rw [FileTree.parts, String.toList_ofList, hsplit, List.map_append, List.map_singleton]
  rw [resolve?]
  simp only [hparts, List.getLastD_concat, Option.ite_none_left_eq_some, Bool.or_eq_true,
    decide_eq_true_eq, not_or, Bool.not_eq_true', Bool.not_eq_false, walk?_append,
    Option.bind_eq_some_iff]
  constructor
  · rintro ⟨⟨⟨⟨hpath, hempty⟩, hhere⟩, hup⟩, front, hfront, hlast⟩
    have hname : IsName name := (isName_iff hplain).mpr ⟨hempty, hhere, hup⟩
    rw [walk?_name hname, Option.ite_none_right_eq_some] at hlast
    exact ⟨hpath, hname, front, hfront, hlast.1, (Option.some.inj hlast.2).symm⟩
  · rintro ⟨hpath, hname, front, hfront, hfolder, rfl⟩
    obtain ⟨hempty, hhere, hup⟩ := (isName_iff hplain).mp hname
    refine ⟨⟨⟨⟨hpath, hempty⟩, hhere⟩, hup⟩, front, hfront, ?_⟩
    rw [walk?_name hname, if_pos hfolder]

/-- Where a path starts does not depend on the name at its end. -/
theorem start_sibling {other : List Char} (hdir : IsDirectory dir) (hplain : '/' ∉ name)
    (hother : '/' ∉ other) (f : FileTree) :
    f.start (String.ofList (dir ++ name)) = f.start (String.ofList (dir ++ other)) := by
  have hrelative {name : List Char} (hplain : '/' ∉ name) : name.head? ≠ some '/' :=
    fun hhead => hplain (List.mem_of_mem_head? hhead)
  rw [start, start, String.toList_ofList, String.toList_ofList]
  rcases hdir with rfl | ⟨front, rfl⟩
  · rw [List.nil_append, List.nil_append, if_neg (hrelative hplain), if_neg (hrelative hother)]
  · cases front <;> rfl

/-- A path stays one when a name in it is replaced by one that is not longer. -/
theorem isPath_sibling {other : List Char} (hdir : IsDirectory dir) (hplain : '/' ∉ name)
    (hother : '/' ∉ other) (hnull : '\x00' ∈ other → '\x00' ∈ name)
    (hsize : byteSize other ≤ byteSize name)
    (h : isPath (String.ofList (dir ++ name)) = true) :
    isPath (String.ofList (dir ++ other)) = true := by
  obtain ⟨parts, hsplit⟩ := hdir.exists_split
  simp only [isPath, FileTree.parts, String.toList_ofList, hsplit _ hplain, hsplit _ hother,
    Bool.and_eq_true, Bool.not_eq_true', List.contains_eq_mem, decide_eq_false_iff_not,
    List.mem_append, not_or, decide_eq_true_eq, List.all_eq_true, List.map_append,
    List.map_singleton, List.mem_singleton, or_imp, forall_and, forall_eq] at h ⊢
  obtain ⟨⟨⟨hnone, hnone'⟩, htotal⟩, hparts, hlast⟩ := h
  have hwhole : byteSize (dir ++ name) ≤ 4095 := htotal
  rw [byteSize_append] at hwhole
  refine ⟨⟨⟨hnone, mt hnull hnone'⟩, ?_⟩, hparts, Nat.le_trans hsize hlast⟩
  show byteSize (dir ++ other) ≤ 4095
  rw [byteSize_append]
  omega

/-- A path with another name in it leads to the same folder. -/
theorem resolve?_sibling {other : List Char} (hdir : IsDirectory dir) (hplain : '/' ∉ name)
    (hother : IsName other) (hnull : '\x00' ∈ other → '\x00' ∈ name)
    (hsize : byteSize other ≤ byteSize name)
    (h : f.resolve? (String.ofList (dir ++ name)) = some names) :
    ∃ front, names = front ++ [String.ofList name] ∧
      f.resolve? (String.ofList (dir ++ other)) = some (front ++ [String.ofList other]) := by
  obtain ⟨parts, hsplit⟩ := hdir.exists_split
  obtain ⟨hpath, -, front, hfront, hfolder, rfl⟩ :=
    (resolve?_eq_some_iff (hsplit _ hplain) hplain).mp h
  rw [start_sibling hdir hplain hother.plain] at hfront
  exact ⟨front, rfl, (resolve?_eq_some_iff (hsplit _ hother.plain) hother.plain).mpr
    ⟨isPath_sibling hdir hplain hother.plain hnull hsize hpath, hother, front, hfront, hfolder,
      rfl⟩⟩

/-- What a path leads to is the last of its names, in the folder that the others lead to. -/
theorem exists_name {path : String} (h : f.resolve? path = some names) :
    ∃ dir name front, path = String.ofList (dir ++ name) ∧ IsDirectory dir ∧ IsName name ∧
      names = front ++ [String.ofList name] ∧ f.isFolder front = true := by
  obtain ⟨dir, name, hpath, hdir, hplain⟩ := exists_directory path.toList
  obtain rfl : path = String.ofList (dir ++ name) := by rw [← hpath, String.ofList_toList]
  obtain ⟨parts, hsplit⟩ := hdir.exists_split
  obtain ⟨-, hname, front, -, hfolder, rfl⟩ :=
    (resolve?_eq_some_iff (hsplit _ hplain) hplain).mp h
  exact ⟨dir, name, front, rfl, hdir, hname, rfl, hfolder⟩

end FileTree

end Easel
