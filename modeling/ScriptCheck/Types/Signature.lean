/-
  Signatures and applicability.

  A signature tells what a method takes and returns. A call fits if the
  arguments go into the parameters, where parameters with defaults are left out
  from the right until the numbers agree. A last parameter that takes all
  arguments that are left takes them one by one, or as one array.
-/
import ScriptCheck.Types.Assignability

namespace ScriptCheck

/-- One parameter of a signature; without a type it takes anything. -/
structure Parameter where
  type : Option TypeId
  /-- Whether it has a default and may be left out. -/
  optional : Bool
deriving DecidableEq, Repr, Inhabited

/-- What a method takes and returns. -/
structure Signature where
  parameters : List Parameter
  result : Option TypeId
  /-- Whether the last parameter, an array, takes all arguments that are left. -/
  varargs : Bool
  /-- Whether any arguments will do. -/
  builder : Bool
deriving DecidableEq, Repr, Inhabited

namespace Parameter

/-- Whether an argument goes into the parameter. -/
def takes (w : TypeWorld) (p : Parameter) (argument : TypeId) : Bool :=
  p.type.all (w.isAssignable · argument)

/-- How many parameters need an argument. -/
def requiredCount (parameters : List Parameter) : Nat := parameters.countP (!·.optional)

/-- The list without its first `count` parameters that have defaults. -/
def dropFirst : Nat → List Parameter → List Parameter
  | _, [] => []
  | count, p :: rest =>
    if p.optional && count > 0 then dropFirst (count - 1) rest else p :: dropFirst count rest

/-- The list without its last `count` parameters that have defaults. -/
def dropLast (count : Nat) (parameters : List Parameter) : List Parameter :=
  (dropFirst count parameters.reverse).reverse

@[simp] theorem dropFirst_zero (parameters : List Parameter) :
    dropFirst 0 parameters = parameters := by
  induction parameters with
  | nil => rfl
  | cons p rest ih =>
    rw [dropFirst, ih, if_neg]
    simp

/-- Whether arguments go into parameters, each into the one at its place. -/
def takeAll (w : TypeWorld) (parameters : List Parameter) (arguments : List TypeId) : Bool :=
  (parameters.zip arguments).all fun (p, argument) => p.takes w argument

/-- Whether arguments fit parameters none of which takes more than one. -/
def fitFixed (w : TypeWorld) (parameters : List Parameter) (arguments : List TypeId) : Bool :=
  requiredCount parameters ≤ arguments.length && arguments.length ≤ parameters.length &&
    takeAll w (dropLast (parameters.length - arguments.length) parameters) arguments

/-- Whether the arguments that are left go into the last parameter: a single one as it is, or all
    as elements. -/
def fitRest (w : TypeWorld) (last : Parameter) (rest : List TypeId) : Bool :=
  (match rest with
    | [argument] => last.takes w argument
    | _ => false) ||
  match last.type.bind w.types.element? with
  | some element => rest.all (w.isAssignable element)
  | none => true

/-- Whether arguments fit fixed parameters and a last one, for some number of fixed parameters that
    are kept. -/
def fitOpen (w : TypeWorld) (fixed : List Parameter) (last : Parameter)
    (arguments : List TypeId) : Bool :=
  let required := requiredCount fixed
  let widest := min fixed.length arguments.length
  (List.range' required (widest + 1 - required)).any fun kept =>
    takeAll w (dropLast (fixed.length - kept) fixed) arguments &&
      fitRest w last (arguments.drop kept)

end Parameter

namespace Signature

/-- Whether a call with arguments of known types fits. -/
def fits (w : TypeWorld) (s : Signature) (arguments : List TypeId) : Bool :=
  if s.varargs then
    match s.parameters.getLast? with
    | some last => Parameter.fitOpen w s.parameters.dropLast last arguments
    | none => arguments.isEmpty
  else Parameter.fitFixed w s.parameters arguments

/-- Whether a call may fit: builders take anything, and nothing is said against arguments whose
    types are not all known. -/
def isApplicable (w : TypeWorld) (s : Signature) (arguments : List (Option TypeId)) : Bool :=
  s.builder ||
    match arguments.mapM id with
    | some known => s.fits w known
    | none => true

end Signature

end ScriptCheck
