/-
  Binding a file with a renamed variable.

  Binding hands out the same symbols to the same nodes whether or not a variable
  has another name, and only the symbols of that variable differ, by their names
  (`bindFile_renamed`). This is a comparison of two walks, node by node. The type
  around a node must be one, as the name of a variable would otherwise become part
  of the qualified names of types.
-/
import ScriptCheck.Proofs.Binding.Declarations
import ScriptCheck.Proofs.Symbol.Renaming
import ScriptCheck.Proofs.Syntax.Renaming

namespace ScriptCheck.Binding

/-- The binding in which the variables that are declared at `d` are called `name`. -/
def renamed (d : NodeId) (name : String) (b : Binding) : Binding :=
  { b with symbols := b.symbols.renamed d name }

/-- The type around a node is one, if there is any. -/
def InType (b : Binding) (outer : Option SymbolId) : Prop :=
  ∀ id, outer = some id → b.symbols.isType id = true

section

variable {t u : Tree} {chosen : NodeId → Bool} {name : String} {d i : NodeId} {b : Binding}
  {package : SymbolId} {outer : Option SymbolId} {form : Form}

/-! ## Single nodes -/

/-- What an identifier or a reference is called does not matter. -/
theorem declareNode_renameAt (j : NodeId) :
    b.declareNode t package outer i (Tree.renameAt chosen name j form) =
      b.declareNode t package outer i form := by
  unfold Tree.renameAt
  split
  · cases form <;> rfl
  · rfl

theorem parametersOf_renamed (h : t.RenamesVariable u chosen name d) (data : Method) :
    parametersOf u data = parametersOf t data := by
  unfold parametersOf
  rw [show u.variableAt? = t.variableAt? from funext h.variableAt?]

/-- A method or a variable enters as before, the renamed variable under its new name. -/
theorem declare_renamed (h : t.RenamesVariable u chosen name d) {kind : SymbolKind}
    {owner : Option SymbolId} (hkind : i = d → kind = .variableSymbol)
    (howner : kind = .variableSymbol → owner = none) (arity : Option Arity) :
    (b.renamed d name).declare u i kind owner arity =
      (b.declare t i kind owner arity).renamed d name := by
  unfold declare
  rw [h.declaredName?, h.modifiers]
  cases t.declaredName? i with
  | none => rw [Option.map_none, ite_self]
  | some old =>
    have hname : (if i = d then (some old).map fun _ => name else some old) =
        some (if i = d then name else old) := by
      split <;> rfl
    rw [hname]
    dsimp only
    unfold SymbolTable.addDeclared
    -- The symbol to add is the one of before, renamed.
    have hsymbol : ∀ flags : SymbolFlags,
        { SymbolTable.plain (if i = d then name else old) kind flags owner with
          declaration := some i, arity := arity } =
        Symbol.renamed d name { SymbolTable.plain old kind flags owner with
          declaration := some i, arity := arity } := by
      intro flags
      unfold Symbol.renamed SymbolTable.plain
      by_cases hi : i = d
      · simp [hi, hkind hi]
      · simp [hi]
    rw [hsymbol]
    unfold renamed
    rw [SymbolTable.push_renamed howner]

/-- So does a type. -/
theorem declareType_renamed (h : t.RenamesVariable u chosen name d) (hi : i ≠ d)
    (hout : b.InType outer) {data : TypeDecl} (hform : t.form? i = some (.typeDecl data)) :
    (b.renamed d name).declareType u package outer i data =
      ((b.declareType t package outer i data).1.renamed d name,
        (b.declareType t package outer i data).2) := by
  have hform' : u.form? i = some (.typeDecl data) := h.form?_eq hform nofun nofun
  have htext : data.name.bind u.textAt? = data.name.bind t.textAt? := by
    rw [← Tree.declaredName?_of_typeDecl hform', h.declaredName?, if_neg hi,
      Tree.declaredName?_of_typeDecl hform]
  unfold declareType
  rw [htext, h.modifiers]
  cases data.name.bind t.textAt? with
  | none => rfl
  | some type =>
    dsimp only
    unfold renamed
    cases outer with
    | none =>
      dsimp only
      rw [SymbolTable.ensureType_renamed]
    | some id =>
      dsimp only
      rw [SymbolTable.addNestedType_renamed (hout id rfl)]

/-- Binding a node comes to the same, but for the name of the renamed variable. -/
theorem declareNode_renamed (ht : t.Built) (h : t.RenamesVariable u chosen name d)
    (hout : b.InType outer) (hform : t.form? i = some form) :
    (b.renamed d name).declareNode u package outer i form =
      ((b.declareNode t package outer i form).1.renamed d name,
        (b.declareNode t package outer i form).2) := by
  -- Only the renamed variable is declared by a node of its kind.
  have hother : form.kind ≠ .variableDeclaration → i ≠ d := by
    rintro hne rfl
    exact hne (Option.some.inj ((ht.kind?_of_form? hform).symm.trans h.kind))
  have hmember : ∀ (kind : SymbolKind) (owner : Option SymbolId) (arity : Option Arity),
      kind ≠ .variableSymbol → form.kind ≠ .variableDeclaration →
        (b.renamed d name).declare u i kind owner arity =
          (b.declare t i kind owner arity).renamed d name := fun kind owner arity hk hne =>
    declare_renamed h (fun hi => absurd hi (hother hne)) (fun heq => absurd heq hk) arity
  cases form with
  | typeDecl data =>
    dsimp only [declareNode]
    rw [declareType_renamed h (hother nofun) hout hform]
  | method data =>
    dsimp only [declareNode]
    rw [hmember .method _ _ nofun nofun, parametersOf_renamed h]
  | variableLike role data =>
    cases role with
    | field =>
      dsimp only [declareNode]
      rw [hmember .field _ _ nofun nofun]
    | parameter =>
      dsimp only [declareNode]
      rw [hmember .parameter _ _ nofun nofun]
    | localVariable =>
      dsimp only [declareNode]
      rw [declare_renamed h (fun _ => rfl) fun _ => rfl]
  | closure parameters body =>
    cases parameters with
    | nil =>
      dsimp only [declareNode, SymbolTable.addDeclared, renamed]
      rw [SymbolTable.push_renamed_of_kind_ne
        (show SymbolKind.parameter ≠ .variableSymbol from nofun)]
    | cons _ _ => rfl
  | _ => rfl

/-! ## The whole walk -/

/-- A type stays one while more is bound. -/
theorem InType.mono {c : Binding} (h : b.InType outer) (he : b.Extends c) : c.InType outer := by
  intro id hid
  have hold := h id hid
  unfold SymbolTable.isType at hold ⊢
  cases hs : b.symbols.get? id with
  | none =>
    rw [hs] at hold
    cases hold
  | some s =>
    rw [hs] at hold
    rw [he.symbols id s hs]
    exact hold

/-- What is around the parts of a node is a type, if what is around the node is one. -/
theorem Entered.inType {result : Binding × Option SymbolId}
    (h : Entered b t package outer i form result) (hb : b.symbols.Consistent)
    (hout : b.InType outer) : result.1.InType result.2 := by
  have he := h.extends
  cases h with
  | type hname =>
    rintro id ⟨⟩
    unfold SymbolTable.isType enterType
    obtain ⟨s, hs, hk, _⟩ := SymbolTable.get?_ensureType hb _ _ _ _ _
    rw [hs]
    exact decide_eq_true hk
  | member arity hkind hne hname => exact hout.mono he
  | implicit => exact hout.mono he
  | nothing => exact hout

/-- Binding a part keeps the table consistent. -/
theorem consistent_bindWithin (t : Tree) (package : SymbolId) (budget : Nat)
    (outer : Option SymbolId) {part : Part} (hb : b.symbols.Consistent) :
    (bindWithin t package budget outer b part).symbols.Consistent :=
  (bindWithin_induct (fun c => c.symbols.Consistent) (fun _ _ _ => True) (fun _ _ => trivial)
    (fun _ hent hc _ => ⟨hent.consistent hc, fun _ _ => trivial⟩) budget hb trivial).1

/-- One part after the other comes to the same, if each of them does. -/
theorem foldl_bindWithin_renamed {budget : Nat}
    (hpart : ∀ {b : Binding} {part : Part}, b.symbols.Consistent → b.InType outer →
      bindWithin u package budget outer (b.renamed d name) part =
        (bindWithin t package budget outer b part).renamed d name)
    (parts : List Part) (hb : b.symbols.Consistent) (hout : b.InType outer) :
    parts.foldl (bindWithin u package budget outer) (b.renamed d name) =
      (parts.foldl (bindWithin t package budget outer) b).renamed d name := by
  induction parts generalizing b with
  | nil => rfl
  | cons part rest ih =>
    have he := extends_bindWithin t package budget outer b part
    rw [List.foldl_cons, List.foldl_cons, hpart hb hout]
    exact ih (consistent_bindWithin t package budget outer hb) (hout.mono he)

/-- Binding a part comes to the same, but for the name of the renamed variable. -/
theorem bindWithin_renamed (ht : t.Built) (h : t.RenamesVariable u chosen name d) (budget : Nat)
    {part : Part} (hb : b.symbols.Consistent) (hout : b.InType outer) :
    bindWithin u package budget outer (b.renamed d name) part =
      (bindWithin t package budget outer b part).renamed d name := by
  induction budget generalizing b outer part with
  | zero => rfl
  | succ budget ih =>
    cases part with
    | none => rfl
    | some i =>
      rw [bindWithin, bindWithin, h.form?]
      cases hform : t.form? i with
      | none => rfl
      | some form =>
        have hent : Entered b t package outer i form _ := entered_declareNode hform
        dsimp only [Option.map_some]
        rw [declareNode_renameAt, declareNode_renamed ht h hout hform, Tree.children_renameAt]
        exact foldl_bindWithin_renamed ih form.children (hent.consistent hb) (hent.inType hb hout)

/-! ## Files -/

theorem packageName_renamed (h : t.Renamed u chosen name) (file : SourceFile) :
    packageName u file = packageName t file := by
  unfold packageName
  cases file.package with
  | none => rfl
  | some i =>
    rw [Option.bind_some, Option.bind_some]
    have hi := h.recalled i
    generalize t.form? i = held, u.form? i = now at hi
    cases hi <;> rfl

/-- Opening a file adds packages only. -/
theorem openFile_renamed {lib : SymbolTable} (hlib : lib.Grown) (h : t.Renamed u chosen name)
    (d root : NodeId) (file : SourceFile) :
    (ofLibraries lib).openFile u root file =
      (((ofLibraries lib).openFile t root file).1.renamed d name,
        ((ofLibraries lib).openFile t root file).2) := by
  unfold openFile renamed
  rw [packageName_renamed h]
  dsimp only [ofLibraries]
  rw [(hlib.package _).renamed_eq]

/-- Binding a file with a renamed variable leads to the same symbols, of which only those of the
    variable have other names. -/
theorem bindFile_renamed {lib : SymbolTable} (hlib : lib.Grown) (ht : t.Built)
    (h : t.RenamesVariable u chosen name d) (root : NodeId) :
    (ofLibraries lib).bindFile u root = ((ofLibraries lib).bindFile t root).renamed d name := by
  by_cases hroot : ∃ file, t.form? root = some (.sourceFile file)
  · obtain ⟨file, hfile⟩ := hroot
    have hfile' : u.form? root = some (.sourceFile file) := h.form?_eq hfile nofun nofun
    rw [bindFile_of_file hfile, bindFile_of_file hfile', openFile_renamed hlib h.toRenamed d,
      h.size]
    refine foldl_bindWithin_renamed (fun hb hout => bindWithin_renamed ht h t.size hb hout)
      file.statements ?_ nofun
    exact (SymbolTable.addPackage_spec hlib.consistent _).1
  · -- A file is neither an identifier nor a reference, so none comes from a renaming.
    have hroot' : ¬∃ file, u.form? root = some (.sourceFile file) := by
      rintro ⟨file, hfile⟩
      have hi := h.recalled root
      rw [hfile] at hi
      generalize t.form? root = held at hi hroot
      cases hi with
      | same => exact hroot ⟨file, rfl⟩
    rw [(bindFile_cases _ t root).resolve_left hroot, (bindFile_cases _ u root).resolve_left hroot']
    unfold renamed ofLibraries
    rw [hlib.renamed_eq]

end

end ScriptCheck.Binding
