import ApiDoc.FileTree
import ApiDoc.Text.Utf8

/-!
Paths into a file tree.

A path is followed part by part, from the root when it starts with `/` and else from the home of the
tree. An empty part and `.` stay where they are, `..` goes up, and each of them can only be taken from
a directory. Above the root is the root again. A path that is too long is not followed.
-/

namespace ApiDoc

inductive PathError
  | missing
  | notDirectory
  | isDirectory
  /-- The path for a file ends in `.` or `..`, or is the root. -/
  | busy
  | tooLong
  deriving DecidableEq, Repr

def PathError.message : PathError → Text
  | missing => "No such file or directory (os error 2)".toList
  | notDirectory => "Not a directory (os error 20)".toList
  | isDirectory => "Is a directory (os error 21)".toList
  | busy => "Device or resource busy (os error 16)".toList
  | tooLong => "File name too long (os error 36)".toList

def here : Text := ['.']

def above : Text := ['.', '.']

namespace Path

def fits (path : Text) : Bool :=
  decide ((Utf8.encode path).length ≤ 4095)

def fitsName (name : Text) : Bool :=
  decide ((Utf8.encode name).length ≤ 255)

def parts (path : Text) : List Text :=
  path.splitOn '/'

/-- The parts without those at the end that name nothing. The first part always counts. -/
def bare : List Text → List Text
  | [] => []
  | first :: rest =>
      first :: (rest.reverse.dropWhile fun part => part = [] ∨ part = here).reverse

/-- The directory part of a path, as it is written. A path of one part has none, and stands in `.`. -/
def directory (path : Text) : Text :=
  match bare (bare (parts path)).dropLast with
  | [] => here
  | [[]] => ['/']
  | parts => ['/'].intercalate parts

def isRooted (path : Text) : Bool :=
  path.head? = some '/'

/-- The key by which paths are ordered, component by component, each behind a digit for its kind: the
root, a `.` that the path starts with, `..`, and names. Other parts that stay in place do not count. -/
def key (path : Text) : List Text :=
  let start := if isRooted path then [['0']] else if (parts path).head? = some here then [['1']] else []
  start ++ ((parts path).filter fun part => part ≠ [] ∧ part ≠ here).map fun part =>
    if part = above then ['2'] else '3' :: part

def le (first second : Text) : Bool :=
  Location.le (key first) (key second)

end Path

namespace FileTree

def step (tree : FileTree) (place : Location) (part : Text) : Except PathError Location :=
  if !tree.isDirectory place then .error .notDirectory
  else if part = [] ∨ part = here then .ok place
  else if part = above then .ok place.dropLast
  else if (tree.get? (place ++ [part])).isSome then .ok (place ++ [part])
  else if Path.fitsName part then .error .missing
  else .error .tooLong

def follow (tree : FileTree) : Location → List Text → Except PathError Location
  | place, [] => .ok place
  | place, part :: rest =>
      match tree.step place part with
      | .ok next => tree.follow next rest
      | .error error => .error error

def start (tree : FileTree) (path : Text) : Location :=
  if Path.isRooted path then [] else tree.home

def resolve (tree : FileTree) (path : Text) : Except PathError Location :=
  if path = [] then .error .missing
  else if !Path.fits path then .error .tooLong
  else tree.follow (tree.start path) (Path.parts path)

def resolveDirectory (tree : FileTree) (path : Text) : Except PathError Location :=
  match tree.resolve path with
  | .ok place => if tree.isDirectory place then .ok place else .error .notDirectory
  | .error error => .error error

def read? (tree : FileTree) (path : Text) : Option Bytes :=
  match tree.resolve path with
  | .ok place => tree.content? place
  | .error _ => none

/-- The location at which a finished file can be put under a path, replacing a file that stands
there. The directory it stands in has to exist, and its last part has to be a name. -/
def destination (tree : FileTree) (path : Text) : Except PathError Location :=
  if path = [] then .error .missing
  else if !Path.fits path then .error .tooLong
  else
    match (Path.parts path).reverse.dropWhile (· = []) with
    | [] => .error .busy
    | last :: parents =>
        match tree.follow (tree.start path) parents.reverse with
        | .error error => .error error
        | .ok place =>
            if !tree.isDirectory place then .error .notDirectory
            else if last = here ∨ last = above then .error .busy
            else if !Path.fitsName last then .error .tooLong
            else if (Path.parts path).getLast? = some [] then .error .notDirectory
            else if tree.isDirectory (place ++ [last]) then .error .isDirectory
            else .ok (place ++ [last])

end FileTree

end ApiDoc
