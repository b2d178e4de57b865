import ApiDoc.Json.Writer
import ApiDoc.Protobuf.Writer
import ApiDoc.Report
import ApiDoc.Glob.Matching
import ApiDoc.FileTree.Replacement
import ApiDoc.Text.Quoted
import ApiDoc.Text.Utf8

/-!
Extracting the documentation of input files into an output file.

An extraction settles the format, finds the input files, reads them as one text, and replaces the
output file by the document that the text holds. Each input argument stands for files: the one it names, or
else those that it matches as a pattern.

An extraction keeps a record of every step. Which records are shown depends on the verbosity alone, so the
log is kept whole and filtered when it is printed.
-/

namespace ApiDoc

inductive Format
  | protobuf
  | json
  deriving DecidableEq, Repr

namespace Format

def name : Format → Text
  | protobuf => "protobuf".toList
  | json => "json".toList

def ofName? (name : Text) : Option Format :=
  if name = "protobuf".toList ∨ name = "pb".toList then some protobuf
  else if name = "json".toList then some json
  else none

def unknownMessage (name : Text) : Text :=
  "unknown format: ".toList ++ name ++ ". Use protobuf or json".toList

def encode : Format → Document → Bytes
  | protobuf => Protobuf.encode
  | json => Json.encode

end Format

inductive Level
  | debug
  | info
  | warn
  | error
  deriving DecidableEq, Repr

namespace Level

def name : Level → Text
  | debug => "DEBUG".toList
  | info => "INFO".toList
  | warn => "WARN".toList
  | error => "ERROR".toList

def weight : Level → Nat
  | debug => 0
  | info => 1
  | warn => 2
  | error => 3

/-- The least level that is shown: everything when asked to be verbose, only errors when asked to be
quiet, and warnings otherwise. Being verbose goes before being quiet. -/
def least (verbose quiet : Bool) : Level :=
  if verbose then debug else if quiet then error else warn

def shown (threshold level : Level) : Bool :=
  decide (threshold.weight ≤ level.weight)

end Level

inductive Record
  | read (path : Text) (size : Nat)
  | parsed (name : Text) (kind : Kind)
  | skipped (error : Comment.Error)
  | summary (files elements refused : Nat)
  | wrote (path : Text) (format : Format) (size : Nat)
  deriving DecidableEq, Repr

def decimal (number : Nat) : Text :=
  Nat.toDigits 10 number

def Kind.label : Kind → Text
  | .function => "Function".toList
  | .variable => "Variable".toList

namespace Record

def level : Record → Level
  | read .. | parsed .. | wrote .. => .debug
  | summary .. => .info
  | skipped _ => .warn

/-- A character as it stands in a message: characters that steer a terminal are spelled out. -/
def printable (char : Char) : Text :=
  if char = '\x1b' then "\\x1b".toList
  else if char = '\x07' then "\\x07".toList
  else if char = '\x08' then "\\x08".toList
  else if char = '\x0c' then "\\x0c".toList
  else if char = '\x7f' then "\\x7f".toList
  else if 0x80 ≤ char.toNat ∧ char.toNat < 0xA0 then
    "\\u\x7b".toList ++ Nat.toDigits 16 char.toNat ++ "\x7d".toList
  else [char]

def message : Record → Text
  | read path _ => "read ".toList ++ path
  | parsed .. => "parsed element".toList
  | skipped error => error.message
  | summary files _ _ => "parsed ".toList ++ decimal files ++ " input file(s)".toList
  | wrote path _ _ => "wrote ".toList ++ path

def fields : Record → List (Text × Text)
  | read _ size => [("bytes".toList, decimal size)]
  | parsed name kind => [("name".toList, name), ("kind".toList, kind.label)]
  | skipped _ => []
  | summary _ elements refused =>
      [("elements".toList, decimal elements), ("skipped".toList, decimal refused)]
  | wrote _ format size =>
      [("format".toList, '"' :: format.name ++ ['"']), ("bytes".toList, decimal size)]

def render (record : Record) : Text :=
  let level := record.level.name
  List.replicate (5 - level.length) ' ' ++ level ++ ' ' :: record.message.flatMap printable ++
    record.fields.flatMap (fun (name, value) => ' ' :: name ++ '=' :: value) ++ ['\n']

end Record

structure Log where
  records : List Record := []
  deriving DecidableEq, Repr

namespace Log

instance : Reporter Log where
  skipped log error := ⟨log.records ++ [.skipped error]⟩
  parsed log element := ⟨log.records ++ [.parsed element.name element.kind]⟩

def filter (threshold : Level) (log : Log) : Log :=
  ⟨log.records.filter fun record => threshold.shown record.level⟩

def render (log : Log) : Text :=
  log.records.flatMap Record.render

end Log

structure InputFile where
  path : Text
  content : Bytes
  deriving DecidableEq, Repr

inductive InputError
  | invalidPattern (pattern : Text) (error : Glob.Error)
  | noMatch (pattern : Text)
  deriving DecidableEq, Repr

namespace InputFile

def ofGlob (tree : FileTree) (glob : Glob) : List InputFile :=
  let found := (glob.matchesIn tree).filterMap fun place =>
    (tree.read? place.path).map fun content => ⟨place.path, content⟩
  found.mergeSort fun first second => Path.le first.path second.path

def ofArgument (tree : FileTree) (argument : Text) : Except InputError (List InputFile) :=
  match tree.read? argument with
  | some content => .ok [⟨argument, content⟩]
  | none =>
      match Glob.parse argument with
      | .error error => .error (.invalidPattern argument error)
      | .ok glob =>
          match ofGlob tree glob with
          | [] => .error (.noMatch argument)
          | files => .ok files

/-- The files that arguments stand for, argument by argument. The first bad argument decides. -/
def ofArguments (tree : FileTree) : List Text → Except InputError (List InputFile)
  | [] => .ok []
  | argument :: rest =>
      match ofArgument tree argument with
      | .error error => .error error
      | .ok files => (ofArguments tree rest).map (files ++ ·)

end InputFile

inductive Failure
  | unknownFormat (name : Text)
  | input (error : InputError)
  | temporaryFile (directory temporary : Text) (error : PathError)
  | output (path : Text) (error : PathError)
  deriving DecidableEq, Repr

namespace Failure

def message : Failure → Text
  | unknownFormat name => Format.unknownMessage name
  | input (.invalidPattern pattern _) => "invalid glob pattern: ".toList ++ pattern
  | input (.noMatch pattern) => "no files matched: ".toList ++ pattern
  | temporaryFile directory _ _ => "failed to create temporary file in ".toList ++ directory
  | output path _ => "failed to write ".toList ++ path

def cause? : Failure → Option Text
  | unknownFormat _ | input (.noMatch _) => none
  | input (.invalidPattern _ error) => some error.message
  | temporaryFile _ temporary error =>
      some (error.message ++ " at path ".toList ++ Text.quoted temporary)
  | output _ error => some error.message

def render (failure : Failure) : Text :=
  "Error: ".toList ++ failure.message ++ ['\n'] ++
    match failure.cause? with
    | none => []
    | some cause => "\nCaused by:\n    ".toList ++ cause ++ ['\n']

end Failure

structure Request where
  inputs : List Text
  output : Text
  format : Text
  deriving DecidableEq, Repr

structure Extraction where
  log : Log
  files : FileTree
  result : Except Failure Unit

def Failure.ofReplaceError (path : Text) : FileTree.ReplaceError → Failure
  | .prepare temporary error => .temporaryFile (Path.directory path) temporary error
  | .move error => .output path error

namespace Extraction

/-- The text of input files: their bytes are joined before they are decoded, so a character or a
comment may go on from one file into the next. -/
def source (files : List InputFile) : Text :=
  Utf8.decodeLossy (files.flatMap InputFile.content)

def readLog (files : List InputFile) : Log :=
  ⟨files.map fun file => .read file.path file.content.length⟩

def ofFiles (drawing : Drawing) (tree : FileTree) (files : List InputFile) (format : Format)
    (output : Text) : Extraction :=
  let (document, log, counter) := Document.parse (source files) (readLog files, ({} : Counter))
  let records := log.records ++
    [.summary files.length document.elements.length counter.count]
  let content := format.encode document
  match tree.replace drawing output content with
  | (after, .error error) => ⟨⟨records⟩, after, .error (.ofReplaceError output error)⟩
  | (after, .ok ()) => ⟨⟨records ++ [.wrote output format content.length]⟩, after, .ok ()⟩

def ofRequest (drawing : Drawing) (tree : FileTree) (request : Request) : Extraction :=
  match Format.ofName? request.format with
  | none => ⟨{}, tree, .error (.unknownFormat request.format)⟩
  | some format =>
      match InputFile.ofArguments tree request.inputs with
      | .error error => ⟨{}, tree, .error (.input error)⟩
      | .ok files => ofFiles drawing tree files format request.output

end Extraction

end ApiDoc
