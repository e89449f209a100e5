/-
  Classes that are registered late.

  A name in type position is looked for in several places, one after the other.
  A class that is registered while a file is open can be found in the later ones.
  The types around the name and those of the file do not depend on it, nor does a
  single import unless it names the class, and what the package of the file had
  it still has. So what is settled by these places stays
  (`settledType?_withSymbols`). The places behind them are answered as before, or
  with the new class, or with a package where there was nothing
  (`lookupType_addType`).
-/
import Mathlib.Data.List.Find
import ScriptCheck.Proofs.Script.File
import ScriptCheck.Proofs.Script.Scopes
import ScriptCheck.Proofs.Symbol.Frame

namespace ScriptCheck.Script

/-- The script with another table of symbols. -/
def withSymbols (s : Script) (symbols : SymbolTable) : Script :=
  { s with binding := { s.binding with symbols := symbols } }

/-- What the first four places say about a simple name in type position: the types around it, those
    of the file, the imports of single types and the package of the file. -/
def settledType? (s : Script) (site : NodeId) (name : String) : Option SymbolId :=
  s.enclosingType? site name <|> s.fileType? name <|> s.importedType? name <|> s.packageType? name

/-- An answer stays, or there was none and it is `new` now. -/
def Fills (new : SymbolId) (before now : Option SymbolId) : Prop :=
  now = before ∨ (before = none ∧ now = some new)

section

variable {s : Script} {u : SymbolTable} {q name : String} {new outer id : SymbolId} {root : NodeId}

/-- A place that is asked first and answers as before makes no difference. -/
theorem Fills.orElse {before now : Option SymbolId} (h : Fills new before now)
    (first : Option SymbolId) : Fills new (first <|> before) (first <|> now) := by
  cases first with
  | none => exact h
  | some id => exact .inl rfl

theorem Fills.sameUnless {before now : Option SymbolId} (h : Fills new before now) :
    SameUnless (some new) now before := by
  rcases h with heq | ⟨-, hnow⟩
  · exact .inl heq.symm
  · exact .inr ⟨new, rfl, hnow⟩

/-- A qualified name stands for what it did, or for the new class. -/
theorem sameUnless_type? (h : s.symbols.GainsType u q new) (p : String) :
    SameUnless (some new) (u.type? p) (s.symbols.type? p) := by
  rw [h.type?_eq]
  split
  · exact .inr ⟨new, rfl, rfl⟩
  · exact .inl rfl

/-- Behind the first four places come the imports on demand, those that need not be declared, and
    last the packages. -/
theorem lookupType_eq (s : Script) (site : NodeId) (name : String) :
    s.lookupType site name =
      ((s.settledType? site name <|> s.onDemandType? name <|> s.implicitType? name) <|>
        s.symbols.package? name) := by
  unfold lookupType settledType?
  simp only [Option.orElse_eq_orElse, Option.orElse_eq_or, Option.or_assoc]

/-! ## The first four places -/

/-- No type gets another nested one. -/
theorem nestedType?_withSymbols (h : s.symbols.GainsType u q new) (hf : s.symbols.Filed)
    (houter : s.symbols.isType outer = true) (name : String) :
    (s.withSymbols u).nestedType? outer name = s.nestedType? outer name := by
  obtain ⟨type, hget, hk⟩ := SymbolTable.isType_iff.mp houter
  unfold nestedType?
  show (u.membersNamed outer name).find? u.isType = _
  rw [h.membersNamed hget hk]
  -- The members were there before, and each is a type now if it was one.
  refine List.find?_congr fun m hm => ?_
  obtain ⟨member, hmember, -⟩ := (hf.membersNamed outer name).mem_iff.mp hm
  unfold SymbolTable.isType
  rw [hmember, h.kept.symbols m member hmember]

theorem enclosingType?_withSymbols (h : s.symbols.GainsType u q new) (hf : s.symbols.Filed)
    (hs : Binding.Sound s.tree root s.binding) (ht : s.tree.Edited) (site : NodeId)
    (name : String) :
    (s.withSymbols u).enclosingType? site name = s.enclosingType? site name := by
  unfold enclosingType?
  show (s.enclosingTypes site).findSome? _ = _
  refine findSome?_congr fun outer hm => ?_
  have houter := isType_of_mem_enclosingTypes hs ht hm
  obtain ⟨type, hget, -⟩ := SymbolTable.isType_iff.mp houter
  show (if (u.get? outer).any _ = true then some outer else _) = _
  rw [nestedType?_withSymbols h hf houter, hget, h.kept.symbols outer type hget]

/-- An import of a single type that is not the new class means what it meant. -/
theorem importedType?_withSymbols (h : s.symbols.GainsType u q new)
    (himports : ∀ data ∈ s.imports, data.onDemand = false → data.isStatic = false → data.path ≠ q)
    (name : String) : (s.withSymbols u).importedType? name = s.importedType? name := by
  unfold importedType?
  show s.imports.findSome? _ = _
  refine findSome?_congr fun data hm => ?_
  split
  · next hsingle =>
    simp only [Bool.and_eq_true, Bool.not_eq_true'] at hsingle
    show u.type? data.path = _
    rw [h.type?_eq, if_neg (himports data hm hsingle.1.1 hsingle.1.2)]
  · rfl

/-- The package of the file has the types that it had, and the new one at most. -/
theorem packageType?_withSymbols (h : s.symbols.GainsType u q new) (name : String) :
    Fills new (s.packageType? name) ((s.withSymbols u).packageType? name) := by
  cases hold : s.packageType? name with
  | some id => exact .inl (h.kept.type? _ id hold)
  | none =>
    rcases sameUnless_type? h (Dotted.within s.binding.filePackage name) with heq | ⟨_, hnew, hnow⟩
    · exact .inl (heq.symm.trans hold)
    · exact .inr ⟨rfl, hnow.trans hnew.symm⟩

/-- What the first four places settle stays. -/
theorem settledType?_withSymbols (h : s.symbols.GainsType u q new) (hf : s.symbols.Filed)
    (hs : Binding.Sound s.tree root s.binding) (ht : s.tree.Edited)
    (himports : ∀ data ∈ s.imports, data.onDemand = false → data.isStatic = false → data.path ≠ q)
    (site : NodeId) (name : String) :
    Fills new (s.settledType? site name) ((s.withSymbols u).settledType? site name) := by
  unfold settledType?
  rw [enclosingType?_withSymbols h hf hs ht, importedType?_withSymbols h himports]
  exact (((packageType?_withSymbols h name).orElse _).orElse _).orElse _

/-! ## The places behind them -/

theorem onDemandType?_sameUnless (h : s.symbols.GainsType u q new) (name : String) :
    SameUnless (some new) ((s.withSymbols u).onDemandType? name) (s.onDemandType? name) := by
  unfold onDemandType?
  show SameUnless _ (s.imports.findSome? _) _
  refine .findSome? fun data _ => ?_
  cases data.onDemand with
  | false => exact .refl none
  | true => exact sameUnless_type? h _

theorem implicitType?_sameUnless (h : s.symbols.GainsType u q new) (name : String) :
    SameUnless (some new) ((s.withSymbols u).implicitType? name) (s.implicitType? name) := by
  unfold implicitType?
  show SameUnless _ (s.implicitImports.findSome? _) _
  refine .findSome? fun path _ => ?_
  cases Dotted.onDemand? path with
  | some outer => exact sameUnless_type? h _
  | none =>
    dsimp only
    by_cases hlast : Dotted.last path = name
    · rw [if_pos hlast, if_pos hlast]
      exact sameUnless_type? h _
    · rw [if_neg hlast, if_neg hlast]
      exact .refl none

/-! ## All places -/

/-- A name that the first four places settle means what it meant. Any other name means what it
    meant, or the new class, or a package that is new where it meant nothing. -/
theorem lookupType_withSymbols (h : s.symbols.GainsType u q new) (hf : s.symbols.Filed)
    (hs : Binding.Sound s.tree root s.binding) (ht : s.tree.Edited)
    (himports : ∀ data ∈ s.imports, data.onDemand = false → data.isStatic = false → data.path ≠ q)
    (site : NodeId) (name : String) :
    ((s.settledType? site name).isSome = true →
      (s.withSymbols u).lookupType site name = s.lookupType site name) ∧
    ((s.withSymbols u).lookupType site name ≠ s.lookupType site name →
      (s.withSymbols u).lookupType site name = some new ∨
      (s.lookupType site name = none ∧ ∃ p, (s.withSymbols u).lookupType site name = some p ∧
        s.symbols.get? p = none ∧ u.HasName .package name p ∧
        name ∈ SymbolTable.packageNames q)) := by
  have hsettled : Fills new (s.settledType? site name)
      ((s.withSymbols u).settledType? site name) :=
    settledType?_withSymbols h hf hs ht himports site name
  rw [lookupType_eq, lookupType_eq]
  constructor
  · intro hsome
    obtain ⟨id, hid⟩ := Option.isSome_iff_exists.mp hsome
    rcases hsettled with heq | ⟨hnone, -⟩
    · rw [heq, hid]
      rfl
    · rw [hnone] at hid
      cases hid
  · intro hne
    have hfront := hsettled.sameUnless.orElse
      ((onDemandType?_sameUnless h name).orElse (implicitType?_sameUnless h name))
    rcases hfront with heq | ⟨_, hnew, hnow⟩
    · -- The places before the packages answer as they did, so a change comes from the packages.
      rw [heq] at hne ⊢
      cases hold : ((s.withSymbols u).settledType? site name <|>
          (s.withSymbols u).onDemandType? name <|> (s.withSymbols u).implicitType? name) with
      | some id =>
        rw [hold] at hne
        exact absurd rfl hne
      | none =>
        rw [hold] at hne
        change u.package? name ≠ s.symbols.package? name at hne
        show u.package? name = _ ∨ (s.symbols.package? name = none ∧ ∃ p, u.package? name = _ ∧ _)
        exact .inr ((h.package?_cases name).resolve_left hne)
    · refine .inl ?_
      rw [hnow, ← hnew]
      rfl

end

/-- A class that is registered on top of a bound file, under a new name that no import of a single
    type has, captures no name that is settled. A name that a type around it, a type of the file,
    an import of a single type or the package of the file gave a meaning keeps it. Any other name
    that changes its meaning means the new class then, or it meant nothing and means one of the
    packages that were added with the class. The class may belong to the package of the file. -/
theorem lookupType_addType {lib : SymbolTable} {t : Tree} {root : NodeId} {imports : List String}
    {s : Script} (hlib : lib.Grown) (ht : t.Edited) (hs : s = ofFile lib t root imports)
    {q : String} (hnew : s.symbols.type? q = none)
    (himports : ∀ data ∈ s.imports, data.onDemand = false → data.isStatic = false → data.path ≠ q)
    (flags : SymbolFlags) (supertypes : List String) :
    let added := s.symbols.addType q flags supertypes
    s.symbols.get? added.2 = none ∧ added.1.HasName .type q added.2 ∧
      ∀ site name,
        ((s.settledType? site name).isSome = true →
          (s.withSymbols added.1).lookupType site name = s.lookupType site name) ∧
        ((s.withSymbols added.1).lookupType site name ≠ s.lookupType site name →
          (s.withSymbols added.1).lookupType site name = some added.2 ∨
          (s.lookupType site name = none ∧ ∃ p,
            (s.withSymbols added.1).lookupType site name = some p ∧ s.symbols.get? p = none ∧
            added.1.HasName .package name p ∧ name ∈ SymbolTable.packageNames q)) := by
  intro added
  have hbound : s.binding.Bound := hs ▸ .file (.libraries hlib) t root
  have hsound : Binding.Sound s.tree root s.binding :=
    hs ▸ Binding.bindFile_sound hlib.consistent t root
  have htree : s.tree.Edited := hs ▸ ht
  have hfiled : s.symbols.Filed :=
    hbound.steps.induct SymbolTable.filed_empty SymbolTable.Filed.step
  have hgains : s.symbols.GainsType added.1 q added.2 :=
    SymbolTable.gainsType_addType hbound.consistent hnew flags supertypes
  exact ⟨hgains.isNew, hgains.hasName,
    fun site name => lookupType_withSymbols hgains hfiled hsound htree himports site name⟩

/-! ## A class of a package that is new -/

/-- A file of the package `app` with a class `Shop`. It imports the types of `lib.model` on demand,
    and has a variable of the type `Item`. -/
def shopTree : Tree :=
  .ofNodes
    [(.package "app", .none),
      (.importing ⟨"lib.model", true, false, none⟩, .none),
      (.identifier "Shop", .none),
      (.typeDecl ⟨.classType, some 2, [], [], none⟩, .none),
      (.reference .type ⟨none, some "Item", default⟩, .none),
      (.identifier "item", .none),
      (.variableLike .localVariable ⟨some 5, some 4, none, false⟩, .none),
      (.sourceFile ⟨"shop", some 0, [some 1], [some 3, some 6]⟩, .none)]

/-- The file without a library. -/
def shop : Script := ofFile .empty shopTree 7 []

/-- With `lib.model.Item` the name `Item` means the class and `lib` the outer package, and both
    meant nothing. `Shop` is the class of the file before and after. -/
theorem lookupType_shop :
    let added := shop.symbols.addType "lib.model.Item" .none []
    (shop.lookupType 4 "Shop" = some 1 ∧
        (shop.withSymbols added.1).lookupType 4 "Shop" = some 1) ∧
      (shop.lookupType 4 "Item" = none ∧
        (shop.withSymbols added.1).lookupType 4 "Item" = some added.2) ∧
      shop.lookupType 4 "lib" = none ∧ ∃ p,
        (shop.withSymbols added.1).lookupType 4 "lib" = some p ∧
        added.1.HasName .package "lib" p := by
  intro added
  have himports : ∀ data ∈ shop.imports, data.onDemand = false → data.isStatic = false →
      data.path ≠ "lib.model.Item" := by
    decide +kernel
  have hbefore : (shop.settledType? 4 "Shop").isSome = true ∧ shop.lookupType 4 "Shop" = some 1 ∧
      shop.lookupType 4 "Item" = none ∧ shop.lookupType 4 "lib" = none := by
    decide +kernel
  have hchanged : (shop.withSymbols added.1).lookupType 4 "Item" ≠ shop.lookupType 4 "Item" ∧
      (shop.withSymbols added.1).lookupType 4 "lib" ≠ shop.lookupType 4 "lib" ∧
      (shop.withSymbols added.1).lookupType 4 "lib" ≠ some added.2 := by
    decide +kernel
  obtain ⟨-, -, hall⟩ := lookupType_addType .start (Tree.built_ofNodes _).edited
    (show shop = ofFile .empty shopTree 7 [] from rfl) (by decide +kernel) himports .none []
  obtain ⟨hsettled, hshop, hitem, hlib⟩ := hbefore
  refine ⟨⟨hshop, ((hall 4 "Shop").1 hsettled).trans hshop⟩, ⟨hitem, ?_⟩, hlib, ?_⟩
  · -- No package around the class is called like that.
    rcases (hall 4 "Item").2 hchanged.1 with hnow | ⟨-, _, -, -, -, hm⟩
    · exact hnow
    · exact absurd hm (by decide +kernel)
  · obtain ⟨-, p, hp, -, hname, -⟩ := ((hall 4 "lib").2 hchanged.2.1).resolve_left hchanged.2.2
    exact ⟨p, hp, hname⟩

end ScriptCheck.Script
