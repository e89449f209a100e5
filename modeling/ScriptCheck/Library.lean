/-
  Libraries.

  A library tells which symbols a script can use and what types they have.
-/
import ScriptCheck.Types.Environment
import ScriptCheck.Symbol.Table

namespace ScriptCheck

/-- Symbols with their types and signatures. -/
structure Library where
  symbols : SymbolTable
  environment : Environment
deriving Inhabited

namespace Library

/-- The library without symbols. -/
def empty : Library := ⟨.empty, .empty⟩

/-- The library of the classes with fixed numbers and of the class of classes, about which nothing
    but their names is known. -/
def standard : Library :=
  ⟨(fixedClasses.map Prod.snd ++ ["java.lang.Class"]).foldl
      (fun symbols name => (symbols.addType name .none []).1) .empty,
    .empty⟩

/-- The library in which a symbol has the type and signature that are given. -/
def describe (l : Library) (symbol : SymbolId) (type : Option TypeId)
    (signature : Option Signature) : Library :=
  let typed :=
    match type with
    | some type => l.environment.setType symbol type
    | none => l.environment
  let described :=
    match signature with
    | some signature => typed.setSignature symbol signature
    | none => typed
  { l with environment := described }

end Library

end ScriptCheck
