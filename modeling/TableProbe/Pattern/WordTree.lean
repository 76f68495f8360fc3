/-!
# Trees of words

A choice between words is decided by a tree: words that begin alike share the
branches of their common beginning.  A word that ends where others go on comes
between the words before it and those after it, so the branches before it are
not shared with those after it.
-/

namespace TableProbe

/-- The words at a place of the tree, in the order of the choice; read words
have become shorter. -/
abbrev Words := List (List UInt8)

namespace Words

/-- Whether no word goes on. -/
def isLeaf (ws : Words) : Bool := ws.all List.isEmpty

/-- The words between those that end here. -/
def chunks : Words → List Words
  | [] => [[]]
  | [] :: rest => [] :: chunks rest
  | w :: rest =>
    match chunks rest with
    | [] => [[w]]
    | chunk :: others => (w :: chunk) :: others

/-- The number of words that end here.  Before any other word, it makes no
difference how many there are. -/
def endings (ws : Words) : Nat :=
  let later := ws.dropWhile List.isEmpty
  later.countP List.isEmpty + if later.length < ws.length then 1 else 0

/-- The bytes that words begin with. -/
def heads (ws : Words) : List UInt8 := (ws.filterMap List.head?).eraseDups

/-- What follows a byte. -/
def after (ws : Words) (b : UInt8) : Words :=
  ws.filterMap fun w => if w.head? = some b then some w.tail else none

end Words

end TableProbe
