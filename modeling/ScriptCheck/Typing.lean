/-
  Typing of a script.

  Literals, casts, `new` expressions, references to what has a type and calls
  of methods with a result type have types; all else is unknown, and the rules
  keep silent about it. What is declared without a type has that of the root
  class.

  Typing may number new types, so it threads an interner. It follows the
  nodes of an expression downwards. `Typing` computations carry a budget for
  that and have no outcome when it runs out, which does not happen on a tree
  in which no node lies below itself. Parentheses and assignments that do lie
  below themselves are given up at a fixed depth; their type is unknown.
-/
import ScriptCheck.Script.Access
import ScriptCheck.Types.Environment

namespace ScriptCheck

/-- A computation that numbers types; it has no outcome if its budget runs out. -/
abbrev Typing := StateT Interner Option

/-- A computation of something that may be unknown. -/
abbrev Inference := OptionT Typing

namespace Typing

/-- The outcome of a computation whose budget ran out. -/
def exhausted : Typing α := fun _ => none

/-- Numbers a class. -/
def classType (qualifiedName : String) : Typing TypeId :=
  fun types => some (types.named qualifiedName)

/-- Numbers an array type. -/
def arrayType (element : TypeId) : Typing TypeId := fun types => some (types.array element)

/-- Where each of many things is found, so are all of them. -/
theorem mapM_lift {α β : Type} (f : α → Typing β) (xs : List α) :
    (xs.mapM fun x => (OptionT.lift (f x) : Inference β)) = OptionT.lift (xs.mapM f) := by
  induction xs with
  | nil =>
    rw [List.mapM_nil, List.mapM_nil]
    rfl
  | cons x xs ih =>
    rw [List.mapM_cons, List.mapM_cons, ih]
    apply OptionT.ext
    simp [OptionT.run_lift, OptionT.run_bind]

end Typing

/-- The type of a literal. -/
def LiteralKind.typeId : LiteralKind → TypeId
  | .integer => TypeId.integer
  | .long => TypeId.boxedLong
  | .decimal => TypeId.bigDecimal
  | .double => TypeId.boxedDouble
  | .float => TypeId.boxedFloat
  | .string => TypeId.string
  | .gString => TypeId.gString
  | .true | .false => TypeId.boxedBoolean
  | .null => TypeId.null

/-- The type of those expressions whose kind alone decides it. -/
def Kind.typeId? : Kind → Option TypeId
  | .listLiteral => some TypeId.arrayList
  | .mapLiteral => some TypeId.linkedHashMap
  | .closure => some TypeId.closure
  | _ => none

/-- A script together with the types of its libraries. -/
structure TypedScript where
  script : Script
  environment : Environment

namespace TypedScript

/-- The tree of the script. -/
def tree (s : TypedScript) : Tree := s.script.tree

/-- A budget that suffices for every way down the tree: between two names on the way there are at
    most as many parentheses and assignments as the depth allows. -/
def budget (s : TypedScript) : Nat := (s.tree.size + 1) * (qualifierLimit + 2)

/-! ## Declarations -/

/-- The type that a type node at most `budget` levels deep denotes. -/
def denotedWithin (s : TypedScript) : Nat → NodeId → Inference TypeId
  | 0, _ => OptionT.lift Typing.exhausted
  | budget + 1, i => do
    match s.tree.form? i with
    | some (.primitiveType keyword) => return keyword.typeId
    | some (.arrayType (some element)) =>
      Typing.arrayType (← s.denotedWithin budget element)
    | some (.reference .type _) =>
      match (s.script.resolve i).symbol?.bind s.script.symbols.get? with
      | some symbol =>
        if symbol.isType then Typing.classType symbol.qualifiedName else failure
      | none => failure
    | _ => failure

/-- The type that a type node denotes. -/
def denoted (s : TypedScript) (i : NodeId) : Inference TypeId := s.denotedWithin s.budget i

/-- The type that a variable is declared with. -/
def variableType (s : TypedScript) (data : Variable) : Inference TypeId := do
  let declared ←
    match data.type with
    | some type => s.denoted type
    | none => pure TypeId.object
  if data.varargs then Typing.arrayType declared else return declared

/-- The type that a declaration gives to its variable. -/
def declarationType (s : TypedScript) (i : NodeId) : Inference TypeId :=
  match s.tree.variableAt? i with
  | some data => s.variableType data
  | none => failure

/-- The type of a variable: what the environment says, or else its declaration. -/
def declaredType (s : TypedScript) (i : NodeId) : Inference TypeId :=
  match (s.script.symbolOf? i).bind s.environment.type? with
  | some type => return type
  | none => s.declarationType i

/-- What a parameter of a method takes: anything if it has neither a type nor takes all that is
    left. -/
def parameterOf (s : TypedScript) (data : Variable) : Typing Parameter := do
  let type ←
    if data.type.isSome || data.varargs then (s.variableType data).run else pure none
  return ⟨type, data.initial.isSome⟩

/-- The signature that a method is declared with. -/
def declaredSignature (s : TypedScript) (i : NodeId) : Inference Signature :=
  match s.tree.methodAt? i with
  | none => failure
  | some data => do
    let declared := Binding.parametersOf s.tree data
    let parameters ← declared.mapM fun v => OptionT.lift (s.parameterOf v)
    let result ← OptionT.lift
      (match data.result with
        | some type => (s.denoted type).run
        | none => pure none)
    let varargs := (declared.getLast?.map Variable.varargs).getD false
    return ⟨parameters, result, varargs, false⟩

/-- The signature of a method: what the environment says, or else its declaration. -/
def signatureOf (s : TypedScript) (method : SymbolId) : Inference Signature :=
  match s.script.symbols.get? method with
  | none => failure
  | some symbol =>
    if !symbol.isMethod then failure
    else do
      let signature ←
        match s.environment.signature? method with
        | some signature => pure signature
        | none =>
          match symbol.declaration with
          | some i => s.declaredSignature i
          | none => failure
      return { signature with builder := signature.builder || symbol.flags.isBuilder }

/-! ## Expressions -/

/-- The type of a value that a symbol stands for. -/
def symbolType (s : TypedScript) (symbol : Symbol) : Inference TypeId :=
  match symbol.kind with
  | .field | .variableSymbol | .parameter =>
    match s.environment.type? symbol.id with
    | some type => return type
    | none =>
      match symbol.declaration with
      | some i => s.declarationType i
      | none => failure
  | .method => do
    -- A method that is not called stands for a property that it reads.
    let signature ← s.signatureOf symbol.id
    match signature.result with
    | some type => return type
    | none => failure
  | .type => Typing.classType "java.lang.Class"
  | .package => failure

/-- The class that the members of a value come from, given the type of the value. -/
def receiverClass (s : TypedScript) (type : Inference TypeId) : Typing (Option SymbolId) := do
  match ← type.run with
  | none => return none
  | some t =>
    let types ← get
    return (types.className? (types.boxed t)).bind s.script.symbols.type?

/-- What a reference stands for, where `type` finds the types of values in front of a dot. -/
def resolveVia (s : TypedScript) (type : NodeId → Inference TypeId) (reference : NodeId) :
    Typing Resolution :=
  s.script.resolveWith (fun qualifier => s.receiverClass (type qualifier)) reference

/-- The type of an expression at most `budget` levels deep. Parentheses and assignments are
    followed down to a fixed depth. -/
def typeWithin (s : TypedScript) : Nat → Nat → NodeId → Inference TypeId
  | 0, _, _ => OptionT.lift Typing.exhausted
  | budget + 1, depth, i =>
    if depth > qualifierLimit then failure
    else
      match (s.tree.kind? i).bind Kind.typeId?, s.tree.form? i with
      | some type, _ => return type
      | _, some (.literal kind _) => return kind.typeId
      | _, some (.parenthesized (some inner)) => s.typeWithin budget (depth + 1) inner
      | _, some (.cast _ (some type)) => s.denoted type
      | _, some (.creation (some type) _) => s.denoted type
      | _, some (.assignment _ operator (some right)) =>
        if operator.isSimple then s.typeWithin budget (depth + 1) right else failure
      | _, some (.reference .value _) => do
        let resolution ← s.resolveVia (s.typeWithin budget 0) i
        match resolution.symbol?.bind s.script.symbols.get? with
        | some symbol => s.symbolType symbol
        | none => failure
      | _, some (.call (some callee) _) =>
        if s.tree.isOneOf [.reference] callee then do
          let resolution ← s.resolveVia (s.typeWithin budget 0) callee
          match resolution.symbol? with
          | some symbol =>
            let signature ← s.signatureOf symbol
            match signature.result with
            | some type => return type
            | none => failure
          | none => failure
        else failure
      | _, _ => failure

/-- The type of an expression. -/
def typeOf (s : TypedScript) (i : NodeId) : Inference TypeId := s.typeWithin s.budget 0 i

/-- What a reference stands for. -/
def resolve (s : TypedScript) (reference : NodeId) : Typing Resolution :=
  s.resolveVia s.typeOf reference

/-! ## Calls -/

/-- The argument list of the call that a reference is called by; the list itself may be missing. -/
def callOf? (s : TypedScript) (reference : NodeId) : Option Part := do
  match ← s.tree.form? (← s.tree.parent? reference) with
  | .call callee arguments => if callee = some reference then return arguments else failure
  | _ => failure

/-- The types of the arguments a reference is called with, if it is called. -/
def argumentTypes (s : TypedScript) (reference : NodeId) : Inference (List (Option TypeId)) :=
  match s.callOf? reference with
  | none => failure
  | some arguments =>
    OptionT.lift <| ((arguments.bind s.tree.argumentListAt?).getD []).mapM fun argument =>
      match argument with
      | some i => (s.typeOf i).run
      | none => pure none

/-- The node of the argument list a reference is called with. -/
def argumentsNode? (s : TypedScript) (reference : NodeId) : Option NodeId := do
  (← s.callOf? reference).filter (s.tree.isOneOf [.argumentList])

end TypedScript

end ScriptCheck
