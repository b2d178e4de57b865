import ApiDoc.Cli.Arguments
import ApiDoc.Text.Terminal
import ApiDoc.Extraction

/-!
Runs of the program.

A run takes a file tree and arguments to a status, what is printed, and the file tree after it. Arguments that
cannot be used are answered by what the command line says about itself.
-/

namespace ApiDoc

namespace Cli

def usage : Text :=
  "Usage: scriptdoc [OPTIONS] INFILE... OUTFILE".toList

def help : Text :=
  .unlines [
    "Extract API documentation from /*# ... */ comment blocks".toList,
    [],
    usage,
    [],
    "Arguments:".toList,
    "  <PATHS> <PATHS>...  Input files (glob patterns supported) followed by the output file".toList,
    [],
    "Options:".toList,
    "  -f, --format <FORMAT>  Output format: protobuf (default), json [default: protobuf]".toList,
    "  -v, --verbose          Log debug details to stderr".toList,
    "  -q, --quiet            Only log errors".toList,
    "  -h, --help             Print help".toList,
    []]

def UsageError.message : UsageError → Text
  | noPaths => .unlines ["the following required arguments were not provided:".toList,
      "  <PATHS> <PATHS>...".toList]
  | lonePath => "2 values required by '<PATHS> <PATHS>...'; only 1 was provided".toList
  | noFormat => "a value is required for '--format <FORMAT>' but none was supplied".toList
  | unexpectedArgument argument =>
      "unexpected argument '".toList ++ Terminal.plain argument ++ "' found".toList
  | unexpectedValue setting value =>
      "unexpected value '".toList ++ Terminal.plain value ++ "' for '".toList ++ setting.shown ++
        "' found; no more were expected".toList
  | repeated setting =>
      "the argument '".toList ++ setting.shown ++ "' cannot be used multiple times".toList

def UsageError.synopsis : UsageError → List Text
  | noFormat => []
  | _ => [[], usage]

/-- A usage error as it is printed, less the tips for arguments that might have been meant. -/
def UsageError.render (error : UsageError) : Text :=
  .unlines (("error: ".toList ++ error.message) :: error.synopsis ++
    [[], "For more information, try '--help'.".toList, []])

structure Outcome where
  status : Nat
  answer : Text := []
  log : Log := {}
  error : Text := []
  files : FileTree

def Outcome.stderr (outcome : Outcome) : Text :=
  outcome.log.render ++ outcome.error

namespace Arguments

def request (arguments : Arguments) : Request :=
  ⟨arguments.inputs, arguments.output, arguments.format⟩

def threshold (arguments : Arguments) : Level :=
  .least arguments.verbose arguments.quiet

def run (drawing : Drawing) (tree : FileTree) (arguments : Arguments) : Outcome :=
  let extraction := Extraction.ofRequest drawing tree arguments.request
  let shown := extraction.log.filter arguments.threshold
  match extraction.result with
  | .ok () => { status := 0, log := shown, files := extraction.files }
  | .error failure =>
      { status := 1, log := shown, error := failure.render, files := extraction.files }

end Arguments

def run (drawing : Drawing) (tree : FileTree) (arguments : List Text) : Outcome :=
  match Arguments.parse arguments with
  | .error .help => { status := 0, answer := help, files := tree }
  | .error (.usage error) => { status := 2, error := error.render, files := tree }
  | .ok arguments => arguments.run drawing tree

structure Call where
  drawing : Drawing
  arguments : List Text

/-- Run the program once for each call, each time on the files the last run left. -/
def runs (tree : FileTree) : List Call → List Outcome
  | [] => []
  | call :: rest =>
      let outcome := run call.drawing tree call.arguments
      outcome :: runs outcome.files rest

end Cli

end ApiDoc
