/-
  The catalogue of messages.

  Six things can be said about a script. Each has a number, a key under which
  other wordings are found, a usual severity and a built-in template; the doc
  comment of each says what its arguments are.
-/

namespace ScriptCheck

/-- How serious a diagnostic is. -/
inductive Severity
  | warning
  | error
deriving DecidableEq, Repr, Inhabited

/-- How the range under a diagnostic is painted. -/
inductive Highlight
  /-- As the severity has it. -/
  | generic
  /-- As a name that stands for nothing. -/
  | unknownSymbol
deriving DecidableEq, Repr, Inhabited

/-- What can be said about a script. -/
inductive Message
  /-- A value's type does not fit where it goes: source type, target type. -/
  | cannotAssign
  /-- A name stands for something that may not be used here: the name. -/
  | cannotAccess
  /-- A name stands for nothing: the name. -/
  | cannotResolve
  /-- A method does not take the arguments it is given: its name. -/
  | cannotApplyMethod
  /-- A class is declared inside another one. -/
  | innerClass
  /-- A loop is written with three clauses. -/
  | legacyFor
deriving DecidableEq, Repr, Inhabited

namespace Message

/-- Every message, in the order of their numbers. -/
def all : List Message :=
  [.cannotAssign, .cannotAccess, .cannotResolve, .cannotApplyMethod, .innerClass, .legacyFor]

/-- The number of a message. -/
def code : Message → Nat
  | .cannotAssign => 3001
  | .cannotAccess => 3002
  | .cannotResolve => 3003
  | .cannotApplyMethod => 3004
  | .innerClass => 3005
  | .legacyFor => 3006

/-- The key under which a wording of the message is found. -/
def key : Message → String
  | .cannotAssign => "cannot.assign"
  | .cannotAccess => "cannot.access"
  | .cannotResolve => "cannot.resolve"
  | .cannotApplyMethod => "cannot.apply.method"
  | .innerClass => "inner.classes.not.supported"
  | .legacyFor => "legacy.for.not.implemented"

/-- The severity a message has unless a rule says otherwise. -/
def severity : Message → Severity
  | .cannotAssign | .cannotAccess | .cannotApplyMethod => .warning
  | .cannotResolve | .innerClass | .legacyFor => .error

/-- The built-in wording. -/
def template : Message → String
  | .cannotAssign => "Cannot assign '{0}' to '{1}'"
  | .cannotAccess => "Cannot access '{0}'"
  | .cannotResolve => "Cannot resolve symbol '{0}'"
  | .cannotApplyMethod => "Method '{0}' cannot be applied to the given arguments"
  | .innerClass => "Inner classes are not supported"
  | .legacyFor => "\"Traditional\" for-loop clause is not implemented in the language yet"

/-- The message with the given number. -/
def ofCode? (code : Nat) : Option Message := all.find? (·.code = code)

/-- The message with the given key. -/
def ofKey? (key : String) : Option Message := all.find? (·.key = key)

/-- Numbers tell messages apart. -/
theorem ofCode?_code (m : Message) : ofCode? m.code = some m := by cases m <;> rfl

/-- Keys tell messages apart. -/
theorem ofKey?_key (m : Message) : ofKey? m.key = some m := by cases m <;> decide

end Message

end ScriptCheck
