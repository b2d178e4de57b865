import ApiDoc.FileTree.Path
import ApiDoc.Glob.Pattern

/-!
What a pattern matches.

A pattern is matched against a file tree part by part, from the root or from the home of the tree. A part
without wildcards is looked up, any other is matched against the names in a directory. Wildcards match
names that begin with a dot like all others; `.` and `..` are matched only by a part that begins with a
dot.
-/

namespace ApiDoc

namespace Glob

def ends : Text → List Text
  | [] => [[]]
  | char :: rest => (char :: rest) :: ends rest

def Piece.takes (piece : Piece) (char : Char) : Bool :=
  match piece with
  | .char own => own = char
  | .anyChar => true
  | .within ranges => ranges.any (·.holds char)
  | .except ranges => !ranges.any (·.holds char)
  | .anyRun | .anyChain => false

def Piece.after? (piece : Piece) : Text → Option Text
  | [] => none
  | first :: rest => if piece.takes first then some rest else none

/-- What can be left of a name behind a piece, given what can be left before it. What can be left is
listed from the longest to the shortest, and the shorter ones are ends of the longer ones, so a run
leaves every end of the first. -/
def Piece.leave (piece : Piece) (left : List Text) : List Text :=
  match piece, left with
  | .anyRun, [] => []
  | .anyRun, longest :: _ => ends longest
  | piece, left => left.filterMap piece.after?

def matchName (pieces : List Piece) (name : Text) : Bool :=
  (pieces.foldl (fun left piece => piece.leave left) [name]).contains []

def literal? : List Piece → Option Text
  | [] => some []
  | .char char :: rest => (literal? rest).map (char :: ·)
  | _ :: _ => none

/-- A component of a path that a pattern matches, and whether it was searched for in a directory. One that the
pattern spells out is not. -/
structure Component where
  text : Text
  searched : Bool
  deriving DecidableEq, Repr

namespace Component

def ofPieces (pieces : List Piece) (text : Text) : Component :=
  ⟨text, (literal? pieces).isNone⟩

def found (name : Text) : Component :=
  ⟨name, true⟩

def isDots (component : Component) : Bool :=
  component.text = here ∨ component.text = above

end Component

def atHome (shown : List Text) : Bool :=
  shown.all (· = here)

/-- The parts of a path to which a component is joined. The home is shown as `.`, unless a component follows that
has a name or is spelled out. An empty component leads nowhere at the home, and is not shown elsewhere. -/
def join? (shown : List Text) (component : Component) : Option (List Text) :=
  if component.text = [] then if atHome shown then none else some shown
  else if atHome shown ∧ ¬ (component.searched ∧ component.isDots) then some [component.text]
  else some (shown ++ [component.text])

structure Place where
  shown : List Text
  location : Location
  deriving DecidableEq, Repr

namespace Place

def enter (place : Place) (name : Text) : Place :=
  ⟨if atHome place.shown then [name] else place.shown ++ [name], place.location ++ [name]⟩

def descend (place : Place) (way : Location) : Place :=
  way.foldl enter place

def path (place : Place) : Text :=
  if place.shown = [[]] then ['/'] else ['/'].intercalate place.shown

end Place

def base (glob : Glob) : List Text :=
  if glob.rooted then [[]] else [here]

variable (tree : FileTree)

def start (glob : Glob) : Place :=
  ⟨glob.base, if glob.rooted then [] else tree.home⟩

def lookUp (name : Text) (place : Place) : Option Place :=
  match tree.step place.location name with
  | .ok location => (join? place.shown ⟨name, false⟩).map fun shown => ⟨shown, location⟩
  | .error _ => none

def matching (pieces : List Piece) (place : Place) : List Place :=
  if tree.isDirectory place.location then
    let dotted := pieces.head? = some (.char '.')
    (if dotted ∧ matchName pieces above then [⟨place.shown ++ [above], place.location.dropLast⟩] else []) ++
      (if dotted ∧ matchName pieces here then [⟨place.shown ++ [here], place.location⟩] else []) ++
      ((tree.names place.location).filter (matchName pieces)).map place.enter
  else []

def enter (pieces : List Piece) (place : Place) : List Place :=
  match literal? pieces with
  | some name => (lookUp tree name place).toList
  | none => matching tree pieces place

def descendants (place : Place) : List (Text × Place) :=
  (tree.below place.location).map fun way => (way.getLastD [], place.descend way)

mutual

def expand : List Part → Place → List Place
  | [], place => [place]
  | .name pieces :: rest, place => (enter tree pieces place).flatMap (expand rest)
  | .chain :: rest, place =>
      if tree.isDirectory place.location then
        (descendants tree place).flatMap fun (name, inner) => visit rest name inner
      else []

/-- The places to which the parts behind a `**` lead from a place that it has reached, where the first
of them has to match the name of that place. Behind the last `**`, the place has to be a directory. -/
def visit : List Part → Text → Place → List Place
  | [], _, place => if tree.isDirectory place.location then [place] else []
  | .chain :: rest, name, place => visit rest name place
  | .name pieces :: rest, name, place =>
      if matchName pieces name then expand rest place else []

end

def matchesIn (glob : Glob) : List Place :=
  (expand tree glob.parts (start tree glob)).filter fun place =>
    !glob.directoriesOnly || tree.isDirectory place.location

end Glob

end ApiDoc
