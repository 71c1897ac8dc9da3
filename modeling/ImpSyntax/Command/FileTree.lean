/-!
# File trees

A file with its bytes, or a directory with all that is in it, as a value.  The places in a tree are
named from its root downwards: `FileTree.at?` finds what is at a place and `FileTree.put` changes
it.
-/

namespace ImpSyntax

/-- A name in a directory. -/
abbrev FileName := List Char

/-- A file with its bytes, or a directory with what it holds. -/
inductive FileTree where
  | file (content : ByteArray)
  | directory (entries : List (FileName × FileTree))

namespace FileTree

/-- The directory in which nothing is. -/
def emptyDirectory : FileTree :=
  directory []

/-- What a directory holds; a file holds nothing. -/
def entries : FileTree → List (FileName × FileTree)
  | file _ => []
  | directory entries => entries

/-- Whether a tree is a directory. -/
def isDirectory : FileTree → Bool
  | file _ => false
  | directory _ => true

/-- What a tree holds under a name. -/
def child? (tree : FileTree) (name : FileName) : Option FileTree :=
  tree.entries.lookup name

/-- A tree with another child under a name. -/
def setChild (tree : FileTree) (name : FileName) (child : FileTree) : FileTree :=
  directory ((name, child) :: tree.entries.filter (·.1 != name))

/-- What is at a place in a tree. -/
def at? : FileTree → List FileName → Option FileTree
  | tree, [] => some tree
  | tree, name :: place => (tree.child? name).bind (at? · place)

/-- A tree with something new at a place.  Directories on the way there are made if they are
missing. -/
def put : FileTree → List FileName → FileTree → FileTree
  | _, [], new => new
  | tree, name :: place, new =>
    tree.setChild name (put ((tree.child? name).getD emptyDirectory) place new)

end FileTree

end ImpSyntax
