import Mathlib.Data.List.Induction
import Mathlib.Data.List.TakeWhile
import Easel.Command.Path

/-! Names of files, taken apart. A path is what leads to a folder with the name of a file behind it,
and the extension of that name can be replaced without a change to what is before it, unless
nothing but a dot is. -/

namespace Easel.Path

variable {dir name stem old text before after : List Char} {c : Char} {path extension : String}

/-- Characters that lead to a folder: none, or some that end in a slash. -/
def IsDirectory (dir : List Char) : Prop := dir = [] ∨ ∃ front, dir = front ++ ['/']

/-- What a name of a file is not: nothing, the folder itself, or the one above it. -/
structure IsName (name : List Char) : Prop where
  plain : '/' ∉ name
  nonempty : name ≠ []
  notHere : name ≠ ['.']
  notUp : name ≠ ['.', '.']

theorem exists_directory (path : List Char) :
    ∃ dir name, path = dir ++ name ∧ IsDirectory dir ∧ '/' ∉ name := by
  induction path using List.reverseRecOn with
  | nil => exact ⟨[], [], rfl, .inl rfl, List.not_mem_nil⟩
  | append_singleton front c ih =>
    obtain ⟨dir, name, rfl, hdir, hname⟩ := ih
    rcases Decidable.em (c = '/') with rfl | hc
    · exact ⟨dir ++ name ++ ['/'], [], by rw [List.append_nil], .inr ⟨_, rfl⟩, List.not_mem_nil⟩
    · refine ⟨dir, name ++ [c], List.append_assoc _ _ _, hdir, ?_⟩
      rw [List.mem_append, List.mem_singleton]
      exact fun hmem => hmem.elim hname fun heq => hc heq.symm

/-- The name of the file is the last part of a path, and the folder is the others. -/
theorem IsDirectory.exists_split (hdir : IsDirectory dir) :
    ∃ front, ∀ name, '/' ∉ name → (dir ++ name).splitOn '/' = front ++ [name] := by
  rcases hdir with rfl | ⟨front, rfl⟩
  · refine ⟨[], fun name hname => ?_⟩
    rw [List.nil_append, List.splitOn_eq_singleton hname, List.nil_append]
  · refine ⟨front.splitOn '/', fun name hname => ?_⟩
    rw [List.append_assoc, List.singleton_append,
      List.splitOn_append_cons_self, List.splitOn_eq_singleton hname]

theorem parts_eq (hdir : IsDirectory dir) (hname : '/' ∉ name) (hsome : name ≠ [])
    (hhere : name ≠ ['.']) : parts (String.ofList (dir ++ name)) = (dir ++ name).splitOn '/' := by
  obtain ⟨front, hsplit⟩ := hdir.exists_split
  rw [parts, String.toList_ofList, hsplit name hname, List.reverse_append, List.reverse_singleton,
    List.singleton_append, List.dropWhile_cons_of_neg (by simp [hsome, hhere]), List.reverse_cons,
    List.reverse_reverse]

theorem fileName?_eq (hdir : IsDirectory dir) (hname : IsName name) :
    fileName? (String.ofList (dir ++ name)) = some name := by
  obtain ⟨front, hsplit⟩ := hdir.exists_split
  rw [fileName?, parts_eq hdir hname.plain hname.nonempty hname.notHere, hsplit name hname.plain,
    List.getLast?_concat]
  exact if_neg hname.notUp

theorem fileName?_up (hdir : IsDirectory dir) :
    fileName? (String.ofList (dir ++ ['.', '.'])) = none := by
  obtain ⟨front, hsplit⟩ := hdir.exists_split
  rw [fileName?, parts_eq hdir (by decide) (by decide) (by decide), hsplit _ (by decide),
    List.getLast?_concat]
  rfl

/-- A text is divided at its last separator, if it has one. -/
theorem splitLast?_eq_some_iff :
    splitLast? c text = some (before, after) ↔ text = before ++ c :: after ∧ c ∉ after := by
  have hboth : text.reverse.takeWhile (· ≠ c) ++ text.reverse.dropWhile (· ≠ c) = text.reverse :=
    List.takeWhile_append_dropWhile
  have hfirst := List.head?_dropWhile_not (· ≠ c) text.reverse
  have hother : ∀ d ∈ text.reverse.takeWhile (· ≠ c), d ≠ c := fun d hd => by
    simpa using List.mem_takeWhile_imp hd
  rw [splitLast?]
  constructor
  · intro h
    split at h
    · cases h
    · next d head hhead =>
      cases h
      rw [hhead] at hboth hfirst
      obtain rfl : d = c := by simpa using hfirst
      constructor
      · have htext := congrArg List.reverse hboth
        rw [List.reverse_reverse, List.reverse_append, List.reverse_cons,
          List.append_assoc] at htext
        exact htext.symm
      · intro hmem
        exact hother d (List.mem_reverse.mp hmem) rfl
  · rintro ⟨rfl, hafter⟩
    have hreverse : (before ++ c :: after).reverse = after.reverse ++ c :: before.reverse := by simp
    have hpassed : ∀ d ∈ after.reverse, decide (d ≠ c) = true := fun d hd =>
      decide_eq_true fun heq => hafter (heq ▸ List.mem_reverse.mp hd)
    rw [hreverse, List.takeWhile_append_of_pos hpassed, List.dropWhile_append_of_pos hpassed]
    simp

/-- The extension of a name is what follows its last dot, if something is before that. -/
theorem splitName_snd_eq_some_iff :
    (splitName name).2 = some old ↔ ∃ stem, name = stem ++ '.' :: old ∧ '.' ∉ old ∧ stem ≠ [] := by
  rw [splitName]
  constructor
  · intro h
    split at h
    · cases h
    · next before after hne hsplit =>
      cases h
      obtain ⟨hname, hafter⟩ := splitLast?_eq_some_iff.mp hsplit
      exact ⟨before, hname, hafter, hne⟩
    · cases h
  · rintro ⟨stem, hname, hold, hstem⟩
    rw [splitLast?_eq_some_iff.mpr ⟨hname, hold⟩]
    cases stem with
    | nil => exact absurd rfl hstem
    | cons => rfl

theorem extension?_eq_some_iff (hdir : IsDirectory dir) (hname : IsName name) :
    extension? (String.ofList (dir ++ name)) = some old ↔
      ∃ stem, name = stem ++ '.' :: old ∧ '.' ∉ old ∧ stem ≠ [] := by
  rw [extension?, fileName?_eq hdir hname, Option.bind_some, splitName_snd_eq_some_iff]

theorem splitName_fst_eq (hold : '.' ∉ old) (hstem : stem ≠ []) :
    (splitName (stem ++ '.' :: old)).1 = stem := by
  rw [splitName, splitLast?_eq_some_iff.mpr ⟨rfl, hold⟩]
  cases stem with
  | nil => exact absurd rfl hstem
  | cons => rfl

theorem setExtension_eq (hdir : IsDirectory dir) (hname : IsName (stem ++ '.' :: old))
    (hold : '.' ∉ old) (hstem : stem ≠ []) (hextension : '/' ∉ extension.toList) :
    setExtension (String.ofList (dir ++ (stem ++ '.' :: old))) extension =
      String.ofList (dir ++ (stem ++ '.' :: extension.toList)) := by
  obtain ⟨front, hsplit⟩ := hdir.exists_split
  have hplain : '/' ∉ stem ++ '.' :: extension.toList := by
    intro hmem
    rcases List.mem_append.mp hmem with hstem | hmem
    · exact hname.plain (List.mem_append_left _ hstem)
    · rcases List.mem_cons.mp hmem with hdot | hmem
      · exact absurd hdot (by decide)
      · exact hextension hmem
  rw [setExtension, fileName?_eq hdir hname]
  simp only
  rw [parts_eq hdir hname.plain hname.nonempty hname.notHere, hsplit _ hname.plain,
    List.dropLast_concat, splitName_fst_eq hold hstem, ← hsplit _ hplain,
    List.intercalate_splitOn]

/-- The extension that a path has is cut off first, which leaves the dot before it. What is left is
the name of a file, unless it is two dots: these have no extension, and none is added to them. -/
theorem withExtension_eq (hdir : IsDirectory dir) (hname : IsName (stem ++ '.' :: old))
    (hold : '.' ∉ old) (hstem : stem ≠ []) (hextension : '/' ∉ extension.toList) :
    withExtension (String.ofList (dir ++ (stem ++ '.' :: old))) extension =
      String.ofList (dir ++
        if stem = ['.'] then ['.', '.'] else stem ++ '.' :: extension.toList) := by
  have hextension' : extension? (String.ofList (dir ++ (stem ++ '.' :: old))) = some old :=
    (extension?_eq_some_iff hdir hname).mpr ⟨stem, rfl, hold, hstem⟩
  have hcut : withoutExtension (String.ofList (dir ++ (stem ++ '.' :: old))) =
      String.ofList (dir ++ (stem ++ '.' :: [])) := by
    have hsplit : dir ++ (stem ++ '.' :: old) = dir ++ (stem ++ ['.']) ++ old := by simp
    rw [withoutExtension, hextension']
    simp only
    rw [String.toList_ofList, hsplit, List.length_append, Nat.add_sub_cancel, List.take_left]
  rw [withExtension, hcut]
  rcases Decidable.em (stem = ['.']) with rfl | hne
  · rw [if_pos rfl, setExtension]
    simp only [List.singleton_append, fileName?_up hdir]
  · have hname' : IsName (stem ++ ['.']) := by
      refine ⟨fun hmem => hname.plain ?_, by simp, ?_, ?_⟩
      · rcases List.mem_append.mp hmem with hmem | hmem
        · exact List.mem_append_left _ hmem
        · exact absurd hmem (by decide)
      · exact fun heq => hstem (List.append_cancel_right (heq : stem ++ ['.'] = [] ++ ['.']))
      · exact fun heq => hne (List.append_cancel_right (heq : stem ++ ['.'] = ['.'] ++ ['.']))
    rw [if_neg hne]
    exact setExtension_eq hdir hname' List.not_mem_nil hstem hextension

end Easel.Path
