/-
  A variable under another name.

  `SymbolTable.renamed` gives another name to the variables that a node declares.
  Variables have no owner, so no index knows their names, and none of the look-ups
  of a table has another answer afterwards. Adding types and other symbols before
  the renaming or after it comes to the same.
-/
import ScriptCheck.Proofs.Symbol.Growth

namespace ScriptCheck

/-- A variable that is declared at `d` is called `name`; any other symbol is what it is. -/
def Symbol.renamed (d : NodeId) (name : String) (s : Symbol) : Symbol :=
  if s.kind = .variableSymbol ∧ s.declaration = some d then
    { s with name := name, qualifiedName := name }
  else s

/-- The table in which the variables that are declared at `d` are called `name`. -/
def SymbolTable.renamed (d : NodeId) (name : String) (t : SymbolTable) : SymbolTable :=
  { t with symbols := t.symbols.map (Symbol.renamed d name) }

namespace Symbol

variable {d : NodeId} {name : String} {s : Symbol}

/-! ## One symbol -/

@[simp] theorem id_renamed : (s.renamed d name).id = s.id := by
  unfold renamed
  split <;> rfl

@[simp] theorem kind_renamed : (s.renamed d name).kind = s.kind := by
  unfold renamed
  split <;> rfl

@[simp] theorem flags_renamed : (s.renamed d name).flags = s.flags := by
  unfold renamed
  split <;> rfl

@[simp] theorem owner_renamed : (s.renamed d name).owner = s.owner := by
  unfold renamed
  split <;> rfl

@[simp] theorem declaration_renamed : (s.renamed d name).declaration = s.declaration := by
  unfold renamed
  split <;> rfl

@[simp] theorem supertypes_renamed : (s.renamed d name).supertypes = s.supertypes := by
  unfold renamed
  split <;> rfl

@[simp] theorem accepts_renamed (count : Nat) :
    (s.renamed d name).accepts count = s.accepts count := by
  unfold renamed
  split <;> rfl

@[simp] theorem isType_renamed : (s.renamed d name).isType = s.isType := by
  unfold isType
  rw [kind_renamed]

/-- What is no variable keeps its names. -/
theorem renamed_of_kind_ne (h : s.kind ≠ .variableSymbol) : s.renamed d name = s := by
  unfold renamed
  rw [if_neg fun hs => h hs.1]

end Symbol

namespace SymbolTable

section

variable {t : SymbolTable} {d : NodeId} {name : String} {id : SymbolId}

/-! ## Look-ups -/

theorem get?_renamed (t : SymbolTable) (d : NodeId) (name : String) (id : SymbolId) :
    (t.renamed d name).get? id = (t.get? id).map (Symbol.renamed d name) :=
  Array.getElem?_map

@[simp] theorem size_renamed : (t.renamed d name).size = t.size := Array.size_map

@[simp] theorem isType_renamed : (t.renamed d name).isType id = t.isType id := by
  unfold isType
  rw [get?_renamed]
  cases t.get? id with
  | none => rfl
  | some s => exact Symbol.isType_renamed

@[simp] theorem accepts_renamed (count : Nat) :
    (t.renamed d name).accepts id count = t.accepts id count := by
  unfold accepts
  rw [get?_renamed]
  cases t.get? id with
  | none => rfl
  | some s => exact Symbol.accepts_renamed count

/-- What is no variable is as it was. -/
theorem get?_renamed_of_kind_ne {s : Symbol} (h : t.get? id = some s)
    (hk : s.kind ≠ .variableSymbol) : (t.renamed d name).get? id = some s := by
  rw [get?_renamed, h, Option.map_some, Symbol.renamed_of_kind_ne hk]

theorem ownersFrom_renamed (budget : Nat) (part : Option SymbolId) :
    (t.renamed d name).ownersFrom budget part =
      (t.ownersFrom budget part).map (Symbol.renamed d name) := by
  induction budget generalizing part with
  | zero => rfl
  | succ budget ih =>
    cases part with
    | none => rfl
    | some id =>
      rw [ownersFrom, ownersFrom, get?_renamed]
      cases t.get? id with
      | none => rfl
      | some s =>
        dsimp only [Option.map_some]
        rw [ih, Symbol.owner_renamed, List.map_cons]

/-- Packages keep their names, so every symbol lives in the package that it lived in. -/
@[simp] theorem packageNameOf_renamed :
    (t.renamed d name).packageNameOf id = t.packageNameOf id := by
  unfold packageNameOf owners
  rw [ownersFrom_renamed, List.find?_map]
  have hkinds : (fun s : Symbol => decide (s.kind = .package)) ∘ Symbol.renamed d name =
      fun s => decide (s.kind = .package) := by
    funext s
    rw [Function.comp_apply, Symbol.kind_renamed]
  rw [hkinds]
  cases hfound : (t.ownersFrom (hierarchyLimit + 1) (some id)).find?
      (fun s => decide (s.kind = .package)) with
  | none => rfl
  | some s =>
    have hpackage := List.find?_some hfound
    have hk : s.kind = .package := of_decide_eq_true hpackage
    rw [Option.map_some, Symbol.renamed_of_kind_ne (hk ▸ nofun)]

@[simp] theorem outermostType?_renamed :
    (t.renamed d name).outermostType? id = t.outermostType? id := by
  unfold outermostType? owners
  rw [ownersFrom_renamed, List.filter_map]
  have htypes : Symbol.isType ∘ Symbol.renamed d name = Symbol.isType :=
    funext fun _ => Symbol.isType_renamed
  rw [htypes, List.getLast?_map, Option.map_map]
  exact congrArg (Option.map · _) (funext fun _ => Symbol.id_renamed)

/-! ## Growth -/

/-- A symbol that is added before the renaming may as well be added, renamed, after it. Variables
    must not have owners, which would file their names. -/
theorem push_renamed {new : Symbol} (howner : new.kind = .variableSymbol → new.owner = none) :
    (t.renamed d name).push (new.renamed d name) =
      ((t.push new).1.renamed d name, (t.push new).2) := by
  have hid : { new.renamed d name with id := t.size } =
      Symbol.renamed d name { new with id := t.size } := by
    unfold Symbol.renamed
    split <;> rfl
  have hfile : fileMember t.members (new.renamed d name) t.size =
      fileMember t.members new t.size := by
    by_cases hk : new.kind = .variableSymbol
    · unfold fileMember
      rw [Symbol.owner_renamed, howner hk]
    · rw [Symbol.renamed_of_kind_ne hk]
  unfold push
  rw [size_renamed, hid]
  show (SymbolTable.mk _ _ _ _ _, _) = (SymbolTable.mk _ _ _ _ _, _)
  rw [Array.map_push]
  exact congrArg (fun members => (SymbolTable.mk _ t.packages t.types members t.typeNames, t.size))
    hfile

theorem push_renamed_of_kind_ne {new : Symbol} (hk : new.kind ≠ .variableSymbol) :
    (t.renamed d name).push new = ((t.push new).1.renamed d name, (t.push new).2) := by
  have h : (t.renamed d name).push (new.renamed d name) =
      ((t.push new).1.renamed d name, (t.push new).2) :=
    push_renamed fun hv => absurd hv hk
  rwa [Symbol.renamed_of_kind_ne hk] at h

/-- Types are added as before. -/
theorem ensureType_renamed (t : SymbolTable) (d : NodeId) (name : String) (type q : String)
    (flags : SymbolFlags) (owner : Option SymbolId) (declaration : Part) :
    (t.renamed d name).ensureType type q flags owner declaration =
      ((t.ensureType type q flags owner declaration).1.renamed d name,
        (t.ensureType type q flags owner declaration).2) := by
  have hfound : (t.renamed d name).type? q = t.type? q := rfl
  unfold ensureType
  rw [hfound]
  cases t.type? q with
  | some id => rfl
  | none =>
    dsimp only
    unfold pushType
    rw [push_renamed_of_kind_ne (show SymbolKind.type ≠ .variableSymbol from nofun)]
    rfl

/-- The name of a type becomes part of the names of the types inside it, and stays as it is. -/
theorem addNestedType_renamed {outer : SymbolId} (houter : t.isType outer = true) (d : NodeId)
    (name type : String) (flags : SymbolFlags) (declaration : Part) :
    (t.renamed d name).addNestedType outer type flags declaration =
      ((t.addNestedType outer type flags declaration).1.renamed d name,
        (t.addNestedType outer type flags declaration).2) := by
  have hsame : (t.renamed d name).get? outer = t.get? outer := by
    unfold isType at houter
    cases hs : t.get? outer with
    | none => rw [get?_renamed, hs, Option.map_none]
    | some s =>
      rw [hs] at houter
      have hk : s.kind = .type := of_decide_eq_true houter
      exact get?_renamed_of_kind_ne hs (hk ▸ nofun)
  unfold addNestedType
  rw [hsame]
  exact ensureType_renamed t d name type _ flags (some outer) declaration

/-! ## Libraries -/

/-- Libraries have no variables. -/
theorem Grown.kind_ne_variable (h : t.Grown) {s : Symbol} (hs : t.get? id = some s) :
    s.kind ≠ .variableSymbol := by
  induction h generalizing id s with
  | start => cases hs
  | package _ q ih =>
    rcases get?_addPackage_cases hs with hold | hk
    · exact ih hold
    · exact hk ▸ nofun
  | @type t _ q flags supertypes ih =>
    unfold addType at hs
    obtain ⟨old, hold, _, hkind, _⟩ := get?_setSupertypes_cases hs
    rw [hkind]
    rcases get?_ensureType_cases hold with hold | ⟨_, hk, _⟩
    · rcases get?_addPackage_cases hold with hold | hk
      · exact ih hold
      · exact hk ▸ nofun
    · exact hk ▸ nofun
  | nestedType _ outer type flags declaration ih =>
    unfold addNestedType at hs
    rcases get?_ensureType_cases hs with hold | ⟨_, hk, _⟩
    · exact ih hold
    · exact hk ▸ nofun
  | field _ owner type flags ih =>
    rcases get?_push_cases hs with ⟨_, rfl⟩ | hold
    · exact nofun
    · exact ih hold
  | method _ owner type flags arity ih =>
    rcases get?_push_cases hs with ⟨_, rfl⟩ | hold
    · exact nofun
    · exact ih hold

/-- No variable of a library gets another name. -/
theorem Grown.renamed_eq (h : t.Grown) (d : NodeId) (name : String) : t.renamed d name = t := by
  have hsymbols : t.symbols.map (Symbol.renamed d name) = t.symbols := by
    refine Array.ext_getElem? fun i => ?_
    rw [Array.getElem?_map]
    cases hs : t.symbols[i]? with
    | none => rfl
    | some s => rw [Option.map_some, Symbol.renamed_of_kind_ne (h.kind_ne_variable hs)]
  unfold renamed
  rw [hsymbols]

end

end SymbolTable

end ScriptCheck
