import ApiDoc.Comment

/-!
Reading a source text, and reporting on it.

Reading a source text reads its blocks one after another. Each element goes into the document, each
refused block to a reporter, and reading goes on.
-/

namespace ApiDoc

class Reporter (σ : Type) where
  skipped : σ → Comment.Error → σ
  parsed : σ → Element → σ := fun reporter _ => reporter

structure Counter where
  count : Nat := 0
  deriving DecidableEq, Repr

instance : Reporter Counter where
  skipped counter _ := ⟨counter.count + 1⟩

structure Collector where
  errors : List Comment.Error := []
  deriving DecidableEq, Repr

instance : Reporter Collector where
  skipped collector error := ⟨collector.errors ++ [error]⟩

instance {σ τ : Type} [Reporter σ] [Reporter τ] : Reporter (σ × τ) where
  skipped pair error := (Reporter.skipped pair.1 error, Reporter.skipped pair.2 error)
  parsed pair element := (Reporter.parsed pair.1 element, Reporter.parsed pair.2 element)

namespace Document

variable {σ : Type} [Reporter σ]

def extend (state : Document × σ) (block : Text) : Document × σ :=
  match Comment.read block with
  | .ok element => (⟨state.1.elements ++ [element]⟩, Reporter.parsed state.2 element)
  | .error error => (state.1, Reporter.skipped state.2 error)

def parse (source : Text) (reporter : σ) : Document × σ :=
  (Comment.blocks source).foldl extend ({}, reporter)

end Document

inductive Report
  | refused (error : Comment.Error)
  | source (text : Text)
  deriving DecidableEq, Repr

namespace Report

variable {σ : Type} [Reporter σ]

def hand (reporter : σ) : Report → Document × σ
  | .refused error => ({}, Reporter.skipped reporter error)
  | .source text => Document.parse text reporter

/-- Hand reports to a reporter one after another: what each of them gives, and the reporter after
it. -/
def handAll (reporter : σ) : List Report → List (Document × σ)
  | [] => []
  | report :: rest =>
      let result := hand reporter report
      result :: handAll result.2 rest

end Report

end ApiDoc
