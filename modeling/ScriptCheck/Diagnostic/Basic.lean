/-
  Diagnostics.

  A diagnostic is one finding about a script: where it stands, what it says,
  how it is painted and which repairs go with it.
-/
import ScriptCheck.Message.Catalog
import ScriptCheck.Syntax.Form

namespace ScriptCheck

/-- The place a diagnostic is about: a node, if there is one, and its range. -/
structure Anchor where
  node : Part
  span : Span
deriving DecidableEq, Repr, Inhabited

/-- A message as it is shown. It is kept by number and key, so that it outlives its catalogue. -/
structure RenderedMessage where
  code : Nat
  key : String
  args : List String
  text : String
deriving DecidableEq, Repr, Inhabited

/-- A repair that can be offered with a diagnostic. -/
inductive Fix
  /-- Import the class with the given qualified name. -/
  | addImport (qualifiedName : String)
deriving DecidableEq, Repr, Inhabited

/-- One finding about a script. -/
structure Diagnostic where
  severity : Severity
  anchor : Anchor
  message : RenderedMessage
  highlight : Highlight
  fixes : List Fix
deriving DecidableEq, Repr, Inhabited

namespace Diagnostic

/-- An error, painted as asked. -/
def error (anchor : Anchor) (message : RenderedMessage) (highlight : Highlight)
    (fixes : List Fix) : Diagnostic :=
  ⟨.error, anchor, message, highlight, fixes⟩

/-- A warning; warnings are painted as their severity has it. -/
def warning (anchor : Anchor) (message : RenderedMessage) (fixes : List Fix) : Diagnostic :=
  ⟨.warning, anchor, message, .generic, fixes⟩

/-- The diagnostic as it arrives when it is reported anew: a warning loses its highlight. -/
def replayed (d : Diagnostic) : Diagnostic :=
  match d.severity with
  | .error => error d.anchor d.message d.highlight d.fixes
  | .warning => warning d.anchor d.message d.fixes

end Diagnostic

end ScriptCheck
