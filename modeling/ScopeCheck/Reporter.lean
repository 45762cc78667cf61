import ScopeCheck.Snippet.Layout

/-!
# Reporting diagnostics

A reporter holds source files under numbers and renders diagnostics against one of them.
-/

namespace ScopeCheck

/-- The source files that diagnostics can refer to, numbered in the order in which they were
added. -/
structure Reporter where
  files : Array SourceFile := #[]
  deriving DecidableEq, Inhabited

/-- Why diagnostics cannot be rendered. -/
inductive RenderError where
  /-- No file has the number. -/
  | missingFile
  deriving DecidableEq, Inhabited

/-- The text of the error. -/
def RenderError.message : RenderError → String
  | .missingFile => "file missing"

namespace Reporter

/-- Adds a file and returns its number. -/
def addFile (reporter : Reporter) (name text : String) : Nat × Reporter :=
  (reporter.files.size, ⟨reporter.files.push ⟨name, text⟩⟩)

/-- The snippets of some diagnostics, one after the other.  A file is looked for only if there is
something to render. -/
def render (reporter : Reporter) (file : Nat) (diagnostics : List Diagnostic) :
    Except RenderError String :=
  match diagnostics with
  | [] => .ok ""
  | _ =>
    match reporter.files[file]? with
    | none => .error .missingFile
    | some source => .ok (String.join (diagnostics.map source.snippet))

/-- Rendering fails exactly when there is something to render and no such file. -/
theorem render_eq_error_iff (reporter : Reporter) (file : Nat) (diagnostics : List Diagnostic) :
    reporter.render file diagnostics = .error .missingFile ↔
      diagnostics ≠ [] ∧ reporter.files[file]? = none := by
  cases diagnostics with
  | nil => simp [render]
  | cons first rest =>
    simp only [render, ne_eq, reduceCtorEq, not_false_iff, true_and]
    cases reporter.files[file]? <;> simp

end Reporter
end ScopeCheck
