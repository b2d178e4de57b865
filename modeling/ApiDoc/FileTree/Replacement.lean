import ApiDoc.FileTree.Path

/-!
Replacing a file as a whole.

New content is first written to a temporary file in the directory of the path, and the finished file is
then moved to its place. When it cannot be moved, the temporary file is taken away again.
-/

namespace ApiDoc

namespace Path

def join (directory name : Text) : Text :=
  if directory = ['/'] then '/' :: name else directory ++ '/' :: name

def absolute (home : Location) (path : Text) : Text :=
  if Path.isRooted path then path else home.fromRoot ++ '/' :: path

end Path

/-- How temporary files are named: a name is drawn, and drawn again as long as it is among those taken. -/
structure Drawing where
  name : List Text → Text
  fresh (taken : List Text) : name taken ∉ taken

namespace Drawing

def sample : Text :=
  ".tmpXXXXXX".toList

theorem lengthened_notMem (name : Text) (taken : List Text) :
    name ++ 'X' :: List.replicate taken.flatten.length 'X' ∉ taken := by
  intro member
  have short := (List.sublist_flatten_of_mem member).length_le
  rw [List.length_append, List.length_cons, List.length_replicate] at short
  omega

def ofName (name : Text) : Drawing where
  name taken := if name ∈ taken then name ++ 'X' :: List.replicate taken.flatten.length 'X' else name
  fresh taken := by
    split
    · exact lengthened_notMem name taken
    · assumption

def plain : Drawing :=
  ofName sample

end Drawing

namespace FileTree

def temporaryPath (tree : FileTree) (path name : Text) : Text :=
  Path.absolute tree.home (Path.join (Path.directory path) name)

/-- Where new content for a path is prepared: under a name that is free in the directory of the path, if the path
of the temporary file is short enough. -/
def prepare (tree : FileTree) (drawing : Drawing) (path : Text) : Except PathError Location :=
  if Path.fits (tree.temporaryPath path Drawing.sample) then
    (tree.resolveDirectory (Path.directory path)).map fun place =>
      place ++ [drawing.name (tree.names place)]
  else .error .tooLong

def move (tree : FileTree) (source : Location) (path : Text) : Except PathError FileTree :=
  match tree.get? source, tree.destination path with
  | none, _ => .error .missing
  | some _, .error error => .error error
  | some node, .ok location => .ok ((tree.erase source).insert location node)

inductive ReplaceError
  | prepare (temporary : Text) (error : PathError)
  | move (error : PathError)
  deriving DecidableEq, Repr

/-- Replace a file by new content. The tree after it says what is left when that fails. -/
def replace (tree : FileTree) (drawing : Drawing) (path : Text) (content : Bytes) :
    FileTree × Except ReplaceError Unit :=
  match tree.prepare drawing path with
  | .error error => (tree, .error (.prepare (tree.temporaryPath path (drawing.name [])) error))
  | .ok temporary =>
      let prepared := tree.insert temporary (.file content)
      match prepared.move temporary path with
      | .error error => (prepared.erase temporary, .error (.move error))
      | .ok after => (after, .ok ())

end FileTree

end ApiDoc
