import ApiDoc.Cli.Run

/-!
The program on the files of the machine.

Of the file system only that part is held which the paths on the command line can lead to. What stands there is
looked up first, and then the contents of the files that are used are read.
-/

namespace ApiDoc

namespace Disk

def entry (location : Location) : IO.FS.DirEntry :=
  ⟨"/", String.ofList location.path⟩

def look (tree : FileTree) (location : Location) : IO FileTree := do
  if (tree.get? location).isSome || !tree.isDirectory location.dropLast then return tree
  let .ok found ← (entry location).path.symlinkMetadata.toBaseIO | return tree
  match found.type with
  | .dir => return tree.insert location .directory
  | .file => return tree.insert location (.file [])
  | _ => return tree

def children (location : Location) : IO (List Location) := do
  let .ok entries ← (entry location).path.readDir.toBaseIO | return []
  return entries.toList.map fun entry => location ++ [entry.fileName.toList]

partial def lookBelow (tree : FileTree) (location : Location) : IO FileTree := do
  let mut tree := tree
  for child in ← children location do
    tree ← look tree child
    if tree.isDirectory child then tree ← lookBelow tree child
  return tree

/-- Add what a path leads to part by part. From the first part with wildcards on it can lead anywhere below, and
further up with each part that can match `..`. -/
def reach (tree : FileTree) (path : Text) : IO FileTree := do
  let plain := fun (part : Text) => part.all fun char => char ∉ ['*', '?', '[']
  let parts := Path.parts path
  let mut tree := tree
  let mut place := tree.start path
  for part in parts.takeWhile plain do
    if part = above then place := place.dropLast
    else if part ≠ [] ∧ part ≠ here then place := place ++ [part]
    tree ← look tree place
  match parts.dropWhile plain with
  | [] => return tree
  | rest =>
      let up := rest.countP fun part => part.head? = some '.'
      lookBelow tree (place.take (place.length - up))

def read (tree : FileTree) (path : Text) : IO FileTree := do
  match tree.resolve path with
  | .error _ => return tree
  | .ok location =>
      if tree.isDirectory location then return tree
      let content ← IO.FS.readBinFile (entry location).path
      return tree.insert location (.file content.toList)

def load (home : Location) (given : Cli.Arguments) : IO FileTree := do
  let mut tree := FileTree.ofHome home
  for path in given.paths do
    tree ← reach tree path
  if let .ok place := tree.resolve (Path.directory given.output) then
    for child in ← children place do
      tree ← look tree child
  let found := (InputFile.ofArguments tree given.inputs).toOption.getD []
  for path in found.map (·.path) ++ [given.output] do
    tree ← read tree path
  return tree

def store (drawing : Drawing) (tree : FileTree) (location : Location) (content : Bytes) : IO Unit := do
  let directory := location.dropLast
  let temporary := directory ++ [drawing.name (tree.names directory)]
  IO.FS.writeBinFile (entry temporary).path ⟨content.toArray⟩
  IO.FS.rename (entry temporary).path (entry location).path

def draw : IO Drawing := do
  let drawn := "ABCDEFGHIJKLMNOPQRSTUVWXYZabcdefghijklmnopqrstuvwxyz0123456789".toList
  let mut name := ".tmp".toList
  for _ in [0 : 6] do
    name := name ++ [drawn.getD (← IO.rand 0 (drawn.length - 1)) 'X']
  return .ofName name

end Disk

end ApiDoc

open ApiDoc in
def main (arguments : List String) : IO UInt32 := do
  let arguments := arguments.map String.toList
  let directory ← IO.currentDir
  let home := (directory.components.filter fun name => !name.isEmpty).map String.toList
  let before ← match Cli.Arguments.parse arguments with
    | .ok given => Disk.load home given
    | .error _ => pure (FileTree.ofHome home)
  let drawing ← Disk.draw
  let outcome := Cli.run drawing before arguments
  for (location, content) in before.changes outcome.files do
    Disk.store drawing before location content
  IO.print (String.ofList outcome.answer)
  IO.eprint (String.ofList outcome.stderr)
  return outcome.status.toUInt32
