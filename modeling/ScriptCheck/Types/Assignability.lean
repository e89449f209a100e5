/-
  Assignability.

  Whether a value of one type may be stored where another one is expected. The
  answer is no only on positive grounds: both types are understood, and nothing
  makes the assignment succeed, be it a conversion, a step up the hierarchy or
  a step down.

  - A value without a type (`null`, `void`) goes anywhere but into `void`.
  - Everything goes into the root class, into strings (by being printed) and
    into truth values (by being tested).
  - Numbers go into numbers, wider or narrower; strings also into characters.
  - Arrays go into arrays element by element, and come from collections.
  - Closures, lists and maps go into any class that is not numeric.
  - Classes go up and down the hierarchy, and anywhere if they are unknown.
-/
import ScriptCheck.Types.Hierarchy
import ScriptCheck.Types.Interner

namespace ScriptCheck

/-- What is known about types: their numbers and the hierarchy of classes. -/
structure TypeWorld where
  types : Interner
  hierarchy : Hierarchy

namespace TypeWorld

/-- Whether one class is above or below the other, or one of them is unknown. -/
def areRelated (w : TypeWorld) (target source : TypeId) : Bool :=
  !w.hierarchy.isKnown target || !w.hierarchy.isKnown source ||
    w.hierarchy.isDerivedFrom source target || w.hierarchy.isDerivedFrom target source

/-- Whether a value goes into a numeric type. A class above the target's own wrapper may hold a
    number. -/
def fitsNumber (w : TypeWorld) (target source : TypeId) : Bool :=
  w.types.isNumeric source ||
    ((target = TypeId.char || target = TypeId.character) &&
      (source = TypeId.string || source = TypeId.gString)) ||
    (w.types.isClass source &&
      (!w.hierarchy.isKnown source ||
        w.hierarchy.isDerivedFrom (w.types.boxed target) source))

/-- Whether arrays go into arrays, judged by their elements; arrays of arrays are opened at most
    `budget` times. -/
def fitsElement (w : TypeWorld) (budget : Nat) (target source : TypeId) : Bool :=
  if target = source then true
  else
    match budget with
    | 0 => true
    | budget + 1 =>
      match w.types.lookup? target, w.types.lookup? source with
      | some (.array t), some (.array s) => w.fitsElement budget t s
      | some (.named _), some (.named _) => target = TypeId.object || w.areRelated target source
      | some (.named _), some (.array _) =>
        target = TypeId.object || target = TypeId.cloneable || target = TypeId.serializable
      | some _, some _ => false
      | _, _ => true

/-- Whether a value that is no array goes into an array. -/
def fitsArray (w : TypeWorld) (source : TypeId) : Bool :=
  w.types.isClass source &&
    (!w.hierarchy.isKnown source || w.hierarchy.isDerivedFrom source TypeId.collection ||
      source = TypeId.object || source = TypeId.cloneable || source = TypeId.serializable)

/-- Whether an array goes into a type that is none. -/
def takesArray (w : TypeWorld) (target : TypeId) : Bool :=
  w.types.isClass target &&
    (target = TypeId.cloneable || target = TypeId.serializable ||
      !w.hierarchy.isKnown target || w.hierarchy.isDerivedFrom TypeId.arrayList target)

/-- Whether a value of a class, or of a primitive by its wrapper, goes into a class. -/
def fitsClass (w : TypeWorld) (target source : TypeId) : Bool :=
  let source := w.types.boxed source
  source = TypeId.closure || w.hierarchy.isDerivedFrom source TypeId.list ||
    w.hierarchy.isDerivedFrom source TypeId.map || w.areRelated target source

/-- Whether a value of type `source` may be stored where `target` is expected. -/
def isAssignable (w : TypeWorld) (target source : TypeId) : Bool :=
  if target = source then true
  else if target = TypeId.void then false
  else if source = TypeId.null || source = TypeId.void || target = TypeId.object then true
  else
    match w.types.lookup? target, w.types.lookup? source with
    | some targetType, some sourceType =>
      if w.types.isNumeric target then w.fitsNumber target source
      else if target = TypeId.string || target = TypeId.boolean || target = TypeId.boxedBoolean
      then true
      else
        match targetType, sourceType with
        | .array t, .array s => w.fitsElement hierarchyLimit t s
        | .array _, _ => w.fitsArray source
        | _, .array _ => w.takesArray target
        | .primitive _, _ => false
        | _, .null => false
        | _, _ => w.fitsClass target source
    | _, _ => true

end TypeWorld

end ScriptCheck
