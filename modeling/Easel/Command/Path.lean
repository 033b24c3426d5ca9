/-! Names of files. The parts of a path are divided by slashes; empty parts and single dots mean
nothing, unless they are all there is. The extension of a file name is what follows its last dot,
and a dot at the beginning does not count. -/

namespace Easel.Path

/-- The parts of a path up to the last one that means something. -/
def parts (path : String) : List (List Char) :=
  ((path.toList.splitOn '/').reverse.dropWhile fun part => part = [] || part = ['.']).reverse

/-- The name of the file that a path leads to. Paths that go up at the end lead to none. -/
def fileName? (path : String) : Option (List Char) :=
  match (parts path).getLast? with
  | some part => if part = ['.', '.'] then none else some part
  | none => none

/-- The text before the last separator and the text after it, if there is a separator. -/
def splitLast? (separator : Char) (text : List Char) : Option (List Char × List Char) :=
  let tail := text.reverse.takeWhile (· ≠ separator)
  match text.reverse.dropWhile (· ≠ separator) with
  | [] => none
  | _ :: head => some (head.reverse, tail.reverse)

def splitName (name : List Char) : List Char × Option (List Char) :=
  match splitLast? '.' name with
  | some ([], _) => (name, none)
  | some (stem, extension) => (stem, some extension)
  | none => (name, none)

/-- The extension of the file that a path leads to. -/
def extension? (path : String) : Option (List Char) :=
  (fileName? path).bind fun name => (splitName name).2

/-- The path with an extension in place of the one that its file name has, if it has any. A path
that leads to no file stays as it is. -/
def setExtension (path extension : String) : String :=
  match fileName? path with
  | none => path
  | some name =>
    let renamed := (splitName name).1 ++ '.' :: extension.toList
    String.ofList (['/'].intercalate ((parts path).dropLast ++ [renamed]))

/-- The path without as many characters at its end as its extension has. If nothing follows the
file name, these are the extension, and the dot before it is left. -/
def withoutExtension (path : String) : String :=
  match extension? path with
  | none => path
  | some old => String.ofList (path.toList.take (path.toList.length - old.length))

/-- The path with another extension. The old one is taken away first, which leaves two dots of a
name like `..old`: they lead up and not to a file, so the new extension is not added to them. -/
def withExtension (path extension : String) : String :=
  setExtension (withoutExtension path) extension

end Easel.Path
