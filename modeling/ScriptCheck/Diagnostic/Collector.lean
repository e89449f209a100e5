/-
  Collectors of diagnostics.

  A collector keeps diagnostics in the order in which they are reported. Its
  content can be forwarded to another collector, which reports every diagnostic
  there again, and it can be stored as JSON and read back.
-/
import ScriptCheck.Diagnostic.Basic
import ScriptCheck.Json.Reader
import ScriptCheck.Text.Named

namespace ScriptCheck

/-- Diagnostics in report order. -/
structure Collector where
  diagnostics : List Diagnostic
deriving DecidableEq, Repr, Inhabited

namespace Collector

/-- The collector that nothing was reported to. -/
def empty : Collector := ⟨[]⟩

/-- How many diagnostics were reported. -/
def length (c : Collector) : Nat := c.diagnostics.length

/-- Whether nothing was reported. -/
def isEmpty (c : Collector) : Bool := c.diagnostics.isEmpty

/-- The errors, in report order. -/
def errors (c : Collector) : List Diagnostic := c.diagnostics.filter (·.severity = .error)

/-- The warnings, in report order. -/
def warnings (c : Collector) : List Diagnostic := c.diagnostics.filter (·.severity = .warning)

/-- The collector after one more diagnostic. -/
def report (c : Collector) (d : Diagnostic) : Collector := ⟨c.diagnostics ++ [d]⟩

/-- The collector after an error was reported. -/
def reportError (c : Collector) (anchor : Anchor) (message : RenderedMessage)
    (highlight : Highlight) (fixes : List Fix) : Collector :=
  c.report (.error anchor message highlight fixes)

/-- The collector after a warning was reported. -/
def reportWarning (c : Collector) (anchor : Anchor) (message : RenderedMessage)
    (fixes : List Fix) : Collector :=
  c.report (.warning anchor message fixes)

/-- Reports the content of `source` to `target`: what is left in the source, and the target. -/
def forward (source target : Collector) : Collector × Collector :=
  (empty, source.diagnostics.foldl (fun t d => t.report d.replayed) target)

/-! ### What the operations do to the list of diagnostics -/

@[simp] theorem diagnostics_report (c : Collector) (d : Diagnostic) :
    (c.report d).diagnostics = c.diagnostics ++ [d] := rfl

@[simp] theorem forward_source (source target : Collector) :
    (source.forward target).1 = empty := rfl

/-- Reporting a list one by one appends it, every diagnostic as it arrives. -/
theorem diagnostics_foldl_report (ds : List Diagnostic) (c : Collector) :
    (ds.foldl (fun t d => t.report d.replayed) c).diagnostics =
      c.diagnostics ++ ds.map Diagnostic.replayed := by
  induction ds generalizing c with
  | nil => exact (List.append_nil _).symm
  | cons d ds ih =>
    rw [List.foldl_cons, ih, diagnostics_report, List.map_cons, List.append_assoc]
    rfl

@[simp] theorem diagnostics_forward (source target : Collector) :
    (source.forward target).2.diagnostics =
      target.diagnostics ++ source.diagnostics.map Diagnostic.replayed :=
  diagnostics_foldl_report source.diagnostics target

end Collector

/-! ## The stored form -/

instance : Named Severity := ⟨[("Warning", .warning), ("Error", .error)]⟩

instance : Named Highlight := ⟨[("Generic", .generic), ("UnknownSymbol", .unknownSymbol)]⟩

@[simp] theorem Severity.ofName?_nameOf (s : Severity) : ofName? (nameOf s) = some s := by
  cases s <;> decide

@[simp] theorem Highlight.ofName?_nameOf (h : Highlight) : ofName? (nameOf h) = some h := by
  cases h <;> decide

namespace Collector.Stored

open Json

/-- Reads a span. -/
def span : Reader Span :=
  Reader.complete ["start", "end"]
    (fun name s => do
      let offset ← Reader.word32
      return if name = "start" then { s with start := offset } else { s with stop := offset })
    default

/-- Reads an anchor. -/
def anchor : Reader Anchor :=
  Reader.complete ["node", "span"]
    (fun name a => do
      if name = "node" then
        return { a with node := Part.ofNumber (← Reader.word32) }
      else
        return { a with span := ← span })
    default

/-- Reads a message. -/
def message : Reader RenderedMessage :=
  Reader.complete ["code", "key", "args", "text"]
    (fun name m => do
      if name = "code" then return { m with code := ← Reader.word32 }
      else if name = "key" then return { m with key := ← Reader.string }
      else if name = "args" then return { m with args := ← Reader.list Reader.string }
      else return { m with text := ← Reader.string })
    default

/-- Reads a repair: an object whose only key says which one it is. -/
def fix : Reader Fix := do
  if (← Reader.ahead) = '{' then
    Reader.advance
    if (← Reader.key true) ≠ "AddImport" then throw .mismatch
    Reader.colon
    let name ← Reader.complete ["qualified_name"] (fun _ _ => Reader.string) ""
    if (← Reader.ahead) = '}' then
      Reader.advance
      return .addImport name
    else throw .malformed
  else Reader.refuse

/-- Reads a diagnostic. -/
def diagnostic : Reader Diagnostic :=
  Reader.complete ["category", "anchor", "message", "highlight", "fixes"]
    (fun name d => do
      if name = "category" then
        return { d with severity := ← Reader.named Named.names }
      else if name = "anchor" then return { d with anchor := ← anchor }
      else if name = "message" then return { d with message := ← message }
      else if name = "highlight" then
        return { d with highlight := ← Reader.named Named.names }
      else return { d with fixes := ← Reader.list fix })
    default

/-- Reads a collector. -/
def collector : Reader Collector :=
  Reader.complete ["diagnostics"] (fun _ _ => do return ⟨← Reader.list diagnostic⟩) default

end Collector.Stored

/-- The collector that a JSON text stores. -/
def Collector.parse (text : String) : Except Json.Flaw Collector :=
  Json.parse Stored.collector text

end ScriptCheck
