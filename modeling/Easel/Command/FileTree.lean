import Easel.Command.Run

/-! Runs of the program among the files of a machine, which are held in memory: a tree of files and
folders, and the folder that the program runs in. Paths lead from that folder, or from the root, to
the places of files. -/

namespace Easel

/-- The files and folders of a machine, each given by the names that lead to it from the root, and
the folder that the program runs in. -/
structure FileTree where
  files : List (List String × List UInt8)
  folders : List (List String)
  here : List String
  deriving DecidableEq

namespace FileTree

def parts (path : String) : List String := (path.toList.splitOn '/').map String.ofList

/-- Whether some names lead to a folder. Whatever has something in it is one. -/
def isFolder (f : FileTree) (names : List String) : Bool :=
  names.isEmpty || f.folders.any names.isPrefixOf ||
    f.files.any fun file => names.isPrefixOf file.1 && names.length < file.1.length

/-- The content of the file that some names lead to. -/
def content? (f : FileTree) (names : List String) : Option (List UInt8) :=
  (f.files.find? fun file => file.1 = names).map (·.2)

/-- Walks down the parts of a path from a folder, and gives the names that lead to where it ends.
Every stop on the way has to be a folder. Above the root there is only the root. -/
def walk? (f : FileTree) (names : List String) : List String → Option (List String)
  | [] => some names
  | part :: rest =>
    if !f.isFolder names then none
    else if part = "" || part = "." then f.walk? names rest
    else if part = ".." then f.walk? names.dropLast rest
    else f.walk? (names ++ [part]) rest

/-- Whether a path can be written down at all: it has no character that is zero, at most 4095
bytes, and at most 255 bytes in each part. -/
def isPath (path : String) : Bool :=
  !path.toList.contains '\x00' && path.utf8ByteSize ≤ 4095 &&
    (parts path).all fun part => part.utf8ByteSize ≤ 255

/-- The folder that a path starts from: the root, if it begins with a slash. -/
def start (f : FileTree) (path : String) : List String :=
  if path.toList.head? = some '/' then [] else f.here

/-- The names that a path leads to, as the path of a file. A path that ends in a slash or a dot is
not one of a file. -/
def resolve? (f : FileTree) (path : String) : Option (List String) :=
  let last := (parts path).getLastD ""
  if !isPath path || last = "" || last = "." || last = ".." then none
  else f.walk? (f.start path) (parts path)

def read? (f : FileTree) (path : String) : Option (List UInt8) :=
  (f.resolve? path).bind f.content?

/-- The files with one more in the place that some names lead to, whatever was there before. -/
def put (f : FileTree) (names : List String) (bytes : List UInt8) : FileTree :=
  { f with files := (names, bytes) :: f.files.filter fun file => file.1 ≠ names }

/-- The files after one is written. There has to be a folder for it, and no folder in its place. -/
def write? (f : FileTree) (path : String) (bytes : List UInt8) : Option FileTree :=
  (f.resolve? path).bind fun names =>
    if f.isFolder names then none else some (f.put names bytes)

/-- Runs the program: what it leaves behind, and the files afterwards. -/
def run [Description.Keyword.Order] (machine : Overflow) (f : FileTree) (o : Options) :
    Command.Outcome × FileTree :=
  match Command.compile machine o f.read? with
  | (outcome, none) => (outcome, f)
  | (outcome, some picture) =>
    match f.write? picture.path picture.bytes with
    | some after => (Command.written outcome picture, after)
    | none => (Command.unwritten outcome picture, f)

end FileTree

end Easel
