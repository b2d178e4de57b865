import ApiDoc.Cli.CommandLine
import ApiDoc.Element
import ApiDoc.Json.Reader
import ApiDoc.Main
import ApiDoc.Protobuf.Reader
import ApiDoc.Proofs.Comment.Tags
import ApiDoc.Proofs.Text.Delimited
import ApiDoc.Proofs.Comment.Blocks
import ApiDoc.Proofs.Comment.WellFormed
import ApiDoc.Proofs.Comment.Rendering
import ApiDoc.Proofs.Comment.RoundTrip
import ApiDoc.Proofs.Protobuf.RoundTrip
import ApiDoc.Proofs.FileTree
import ApiDoc.Proofs.FileTree.Replacement
import ApiDoc.Proofs.Cli.AllOrNothing
import ApiDoc.Proofs.Text.Joined
import ApiDoc.Proofs.Comment.Resumption
import ApiDoc.Proofs.Text.Decoding
import ApiDoc.Proofs.Text.Expression
import ApiDoc.Proofs.Extraction.SelfContained
import ApiDoc.Proofs.Comment.Margins
import ApiDoc.Proofs.Json.RoundTrip
import ApiDoc.Proofs.Json.Literals
import ApiDoc.Proofs.Json.Documents
import ApiDoc.Proofs.Json.Comments
import ApiDoc.Proofs.Comment.Stars
import ApiDoc.Proofs.Input.Expansion
import ApiDoc.Proofs.Report
import ApiDoc.Proofs.Comment.RawBlocks
import ApiDoc.Proofs.Comment.Division
import ApiDoc.Proofs.Comment.TagGrammar
import ApiDoc.Proofs.Comment.Boundary
import ApiDoc.Proofs.Comment.Meaning
import ApiDoc.Proofs.Comment.Insertion
import ApiDoc.Proofs.FileTree.Agreement
import ApiDoc.Proofs.Glob.Agreement
import ApiDoc.Proofs.Input.Agreement
import ApiDoc.Proofs.Cli.Repetition
import ApiDoc.Proofs.FileTree.Rearrangement
import ApiDoc.Proofs.Cli.Rearrangement
import ApiDoc.Proofs.Cli.Verbosity
import ApiDoc.Proofs.Cli.Words
import ApiDoc.Proofs.Cli.Progress
import ApiDoc.Proofs.Cli.Spelling
import ApiDoc.Proofs.Cli.CommandLine
import ApiDoc.Proofs.Extraction.Cut
import ApiDoc.Proofs.Cli.Accounting
import ApiDoc.Proofs.Glob.Enumeration
import ApiDoc.Proofs.Input.Multiplicity
