/-! Trees of lines, drawn with ASCII branches. -/

namespace Easel

/-- A label with the trees below it. -/
inductive Tree where
  | node (label : String) (children : List Tree)

namespace Tree

/-- Puts one text before the first line and another before all other lines. -/
def hang (first others : String) : List String → List String
  | [] => []
  | line :: rest => (first ++ line) :: rest.map (others ++ ·)

mutual

/-- The lines of a tree: its label, and then its children, indented. -/
def lines : Tree → List String
  | node label children => label :: branches children

/-- The lines of the children of a node. A branch leads to each of them, and goes on to the next
one past the lines of those before the last. -/
def branches : List Tree → List String
  | [] => []
  | [last] => hang "'-- " "    " (lines last)
  | child :: next :: rest => hang "+-- " "|   " (lines child) ++ branches (next :: rest)

end

/-- The lines of a tree, each with its end. -/
def text (t : Tree) : String := String.join (t.lines.map (· ++ "\n"))

end Tree

end Easel
