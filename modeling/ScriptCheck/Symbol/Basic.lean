/-
  Symbols.

  A symbol is a thing that a name can stand for: a package, a type, a member of
  a type, a local variable or a parameter. Its owner is the type or package it
  is declared in.
-/
import ScriptCheck.Syntax.Form

namespace ScriptCheck

/-- The number of a symbol in its table. -/
abbrev SymbolId := Nat

/-- What a symbol is. -/
inductive SymbolKind
  | package
  /-- A class, interface, enum or trait. -/
  | type
  | method
  | field
  | variableSymbol
  | parameter
deriving DecidableEq, Repr, Inhabited

/-- What is known about a symbol besides its kind. -/
structure SymbolFlags where
  isStatic : Bool
  isPrivate : Bool
  isProtected : Bool
  /-- Visible only inside the package it is declared in. -/
  isPackagePrivate : Bool
  /-- A method that builds markup, whose calls take any arguments. -/
  isBuilder : Bool
  isVarargs : Bool
  isInterface : Bool
deriving DecidableEq, Repr

namespace SymbolFlags

/-- No flag at all. -/
def none : SymbolFlags := ⟨false, false, false, false, false, false, false⟩

instance : Inhabited SymbolFlags := ⟨none⟩

/-- The flags that the modifiers of a declaration bring about. -/
def ofModifiers (m : Modifiers) : SymbolFlags :=
  { none with isStatic := m.isStatic, isPrivate := m.isPrivate, isProtected := m.isProtected }

end SymbolFlags

/-- How many arguments a method takes. -/
structure Arity where
  /-- The parameters that need an argument; the one that takes all that is left is not counted. -/
  required : Nat
  total : Nat
  /-- Whether the last parameter takes all arguments that are left. -/
  varargs : Bool
deriving DecidableEq, Repr, Inhabited

namespace Arity

/-- The arity of a method all of whose parameters need an argument. -/
def fixed (count : Nat) : Arity := ⟨count, count, false⟩

/-- Whether a call with `count` arguments fits. -/
def accepts (a : Arity) (count : Nat) : Bool :=
  a.required ≤ count && (a.varargs || count ≤ a.total)

@[simp] theorem accepts_fixed (n count : Nat) : (fixed n).accepts count = true ↔ count = n := by
  change (decide (n ≤ count) && (false || decide (count ≤ n))) = true ↔ count = n
  rw [Bool.false_or, Bool.and_eq_true, decide_eq_true_iff, decide_eq_true_iff]
  omega

/-- Whether a parameter needs an argument: it has no default and does not take what is left. -/
def needsArgument (p : Variable) : Bool := p.initial.isNone && !p.varargs

/-- The arity of a method with the given parameters; the last one decides whether it is open. -/
def ofParameters (parameters : List Variable) : Arity :=
  ⟨parameters.countP needsArgument, parameters.length,
    (parameters.getLast?.map Variable.varargs).getD false⟩

end Arity

/-- A thing that a name can stand for. -/
structure Symbol where
  id : SymbolId
  name : String
  kind : SymbolKind
  flags : SymbolFlags
  /-- The type or package it is declared in. -/
  owner : Option SymbolId
  /-- The dotted name of a package or type; any other symbol has its plain name here. -/
  qualifiedName : String
  /-- The node that declares it, unless it comes from a library. -/
  declaration : Part
  /-- The qualified names of the direct supertypes of a library type. -/
  supertypes : List String
  /-- How many arguments a method takes. -/
  arity : Option Arity
deriving DecidableEq, Repr, Inhabited

namespace Symbol

/-- Whether the symbol is static. -/
def isStatic (s : Symbol) : Bool := s.flags.isStatic

/-- Whether the symbol is a class, interface, enum or trait. -/
def isType (s : Symbol) : Bool := s.kind = .type

/-- Whether the symbol is a method. -/
def isMethod (s : Symbol) : Bool := s.kind = .method

/-- Whether the symbol can be called with `count` arguments. -/
def accepts (s : Symbol) (count : Nat) : Bool := s.arity.any (·.accepts count)

end Symbol

end ScriptCheck
