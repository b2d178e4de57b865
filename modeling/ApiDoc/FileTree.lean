import ApiDoc.Text
import ApiDoc.Text.Order

/-!
File trees.

A file tree is a file system from its root: its directories and its regular files with their
contents. It is held as a list of entries, and nothing that this library computes depends on their
order. One of its directories is its home, from which paths are followed.
-/

namespace ApiDoc

/-- A place in a file tree: the names on the way down from the root. The root itself is `[]`. -/
abbrev Location := List Text

namespace Location

def le : Location → Location → Bool :=
  lexLe Text.le

theorem le_totalOrder : TotalOrder le :=
  lexLe_totalOrder Text.le_totalOrder

def path (location : Location) : Text :=
  ['/'].intercalate location

def fromRoot (location : Location) : Text :=
  location.flatMap ('/' :: ·)

end Location

inductive Node
  | directory
  | file (content : Bytes)
  deriving DecidableEq, Repr

/-- A file tree as the list of its entries, and its home. The root is a directory and has no entry. -/
structure FileTree where
  entries : List (Location × Node) := []
  home : Location := []
  deriving DecidableEq, Repr

namespace FileTree

def get? (tree : FileTree) (location : Location) : Option Node :=
  if location = [] then some .directory
  else (tree.entries.find? fun entry => entry.1 = location).map (·.2)

def isDirectory (tree : FileTree) (location : Location) : Bool :=
  tree.get? location = some .directory

def content? (tree : FileTree) (location : Location) : Option Bytes :=
  match tree.get? location with
  | some (.file content) => some content
  | _ => none

/-- Every entry but the root stands at one place, and in a directory. The home is a directory. -/
structure WellFormed (tree : FileTree) : Prop where
  nodup : (tree.entries.map (·.1)).Nodup
  ne_root : ∀ entry ∈ tree.entries, entry.1 ≠ []
  parent : ∀ entry ∈ tree.entries, tree.isDirectory entry.1.dropLast
  home : tree.isDirectory tree.home

def insert (tree : FileTree) (location : Location) (node : Node) : FileTree :=
  if tree.entries.any fun entry => entry.1 = location then
    { tree with
      entries := tree.entries.map fun entry =>
        if entry.1 = location then (location, node) else entry }
  else { tree with entries := tree.entries ++ [(location, node)] }

def erase (tree : FileTree) (location : Location) : FileTree :=
  { tree with entries := tree.entries.filter fun entry => entry.1 ≠ location }

/-- What lies below a location, as the ways that lead there, each directory before what it holds. -/
def below (tree : FileTree) (location : Location) : List Location :=
  let ways := tree.entries.filterMap fun entry => after? location entry.1
  (ways.filter fun way => !way.isEmpty).mergeSort Location.le

def names (tree : FileTree) (location : Location) : List Text :=
  (tree.below location).filterMap fun way =>
    match way with
    | [name] => some name
    | _ => none

def ancestors : Location → List Location
  | [] => []
  | [_] => []
  | name :: rest => [name] :: (ancestors rest).map (name :: ·)

def makeDirectory (tree : FileTree) (location : Location) : FileTree :=
  (ancestors location ++ [location]).foldl
    (fun tree directory =>
      if (tree.get? directory).isSome then tree else tree.insert directory .directory) tree

def ofHome (home : Location) : FileTree :=
  ({ home } : FileTree).makeDirectory home

def makeFile (tree : FileTree) (location : Location) (content : Bytes) : FileTree :=
  (tree.makeDirectory location.dropLast).insert location (.file content)

/-- The files of a tree that another tree does not hold with the same content, ordered by path. -/
def changes (before after : FileTree) : List (Location × Bytes) :=
  let changed := after.entries.filterMap fun entry =>
    match entry.2 with
    | .file content =>
        if before.content? entry.1 = some content then none else some (entry.1, content)
    | .directory => none
  changed.mergeSort fun first second => Text.le first.1.path second.1.path

end FileTree

end ApiDoc
