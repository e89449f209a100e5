/-
  What binding does, node by node.

  `Entered` lists all that binding a single node can come to: a type, another
  declaration, the parameter `it` of a closure, or nothing. From it follow the
  frame, `Extends`, and the induction over a whole file: `bindWithin_induct`
  carries an invariant of the bindings and a condition on where the walk
  stands, and asks about single nodes only.
-/
import ScriptCheck.Binding
import ScriptCheck.Proofs.Symbol.Steps

namespace ScriptCheck

/-- The kind of the symbol that a node declares. -/
def Form.symbolKind? : Form → Option SymbolKind
  | .typeDecl _ => some .type
  | .method _ => some .method
  | .variableLike .field _ => some .field
  | .variableLike .parameter _ => some .parameter
  | .variableLike .localVariable _ => some .variableSymbol
  | _ => none

/-- No node declares a package. -/
theorem Form.symbolKind?_ne_package (form : Form) : form.symbolKind? ≠ some .package := by
  cases form with
  | variableLike role data => cases role <;> exact nofun
  | _ => exact nofun

/-- A type is called what its name node says. -/
theorem Tree.declaredName?_of_typeDecl {t : Tree} {i : NodeId} {data : TypeDecl}
    (h : t.form? i = some (.typeDecl data)) : t.declaredName? i = data.name.bind t.textAt? := by
  unfold declaredName?
  rw [h]
  rfl

namespace Binding

/-- The qualified name of a type called `name` inside another one, or else inside the package. -/
def typeName (b : Binding) (outer : Option SymbolId) (name : String) : String :=
  match outer with
  | none => Dotted.within b.filePackage name
  | some outer =>
    match b.symbols.get? outer with
    | some s => s.qualifiedName ++ "." ++ name
    | none => name

/-- The flags of the type that a node declares. -/
def typeFlags (t : Tree) (i : NodeId) (data : TypeDecl) : SymbolFlags :=
  { SymbolFlags.ofModifiers (t.modifiers i) with isInterface := isInterface data.kind }

/-- The type that a node declares, looked for or added, and the table it is in. -/
def enterType (b : Binding) (t : Tree) (package : SymbolId) (outer : Option SymbolId)
    (i : NodeId) (data : TypeDecl) (name : String) : SymbolTable × SymbolId :=
  b.symbols.ensureType name (b.typeName outer name) (typeFlags t i data)
    (some (outer.getD package)) (some i)

/-- The symbol of a declaration that is no type. Only members have an owner. -/
def memberSymbol (t : Tree) (outer : Option SymbolId) (i : NodeId) (name : String)
    (kind : SymbolKind) (arity : Option Arity) : Symbol :=
  { SymbolTable.plain name kind
      (SymbolTable.markVarargs (SymbolFlags.ofModifiers (t.modifiers i)) arity)
      (if kind = .method ∨ kind = .field then outer else none) with
    declaration := some i, arity := arity }

/-- The symbol `it` of a closure. -/
def implicitSymbol (i : NodeId) : Symbol :=
  { SymbolTable.plain "it" .parameter .none none with declaration := some i }

/-- What binding a single node can come to. -/
inductive Entered (b : Binding) (t : Tree) (package : SymbolId) (outer : Option SymbolId)
    (i : NodeId) : Form → Binding × Option SymbolId → Prop
  | type {data : TypeDecl} {name : String} (hname : t.declaredName? i = some name) :
    Entered b t package outer i (.typeDecl data)
      ({ b with
          symbols := (b.enterType t package outer i data name).1
          declared := (i, (b.enterType t package outer i data name).2) :: b.declared },
        some (b.enterType t package outer i data name).2)
  | member {form : Form} {name : String} {kind : SymbolKind} (arity : Option Arity)
    (hkind : form.symbolKind? = some kind) (hne : kind ≠ .type)
    (hname : t.declaredName? i = some name) :
    Entered b t package outer i form
      ({ b with
          symbols := (b.symbols.push (memberSymbol t outer i name kind arity)).1
          declared := (i, b.symbols.size) :: b.declared },
        outer)
  | implicit {body : Part} :
    Entered b t package outer i (.closure [] body)
      ({ b with
          symbols := (b.symbols.push (implicitSymbol i)).1
          implicit := (i, b.symbols.size) :: b.implicit },
        outer)
  | nothing {form : Form} (hnone : form.symbolKind? = none ∨ t.declaredName? i = none) :
    Entered b t package outer i form (b, outer)

section

variable {t : Tree} {b : Binding} {package : SymbolId} {outer : Option SymbolId} {i : NodeId}

/-! ## Single nodes -/

/-- Methods and variables enter as members, if they have a name. -/
theorem entered_declare {form : Form} (kind : SymbolKind) (hkind : form.symbolKind? = some kind)
    (hne : kind ≠ .type) {owner : Option SymbolId}
    (howner : owner = if kind = .method ∨ kind = .field then outer else none)
    (arity : Option Arity) :
    Entered b t package outer i form (b.declare t i kind owner arity, outer) := by
  unfold declare
  cases hname : t.declaredName? i with
  | none => exact .nothing (Or.inr hname)
  | some name =>
    subst howner
    exact .member arity hkind hne hname

/-- Binding a node is one of the things that `Entered` lists. -/
theorem entered_declareNode {form : Form} (hform : t.form? i = some form) :
    Entered b t package outer i form (b.declareNode t package outer i form) := by
  cases form with
  | typeDecl data =>
    have hdecl := Tree.declaredName?_of_typeDecl hform
    show Entered b t package outer i _
      ((b.declareType t package outer i data).1, (b.declareType t package outer i data).2.or outer)
    unfold declareType
    cases hname : data.name.bind t.textAt? with
    | none => exact .nothing (Or.inr (hdecl.trans hname))
    | some name => cases outer <;> exact .type (hdecl.trans hname)
  | method data => exact entered_declare .method rfl nofun rfl _
  | variableLike role data =>
    cases role with
    | field => exact entered_declare .field rfl nofun rfl _
    | parameter => exact entered_declare .parameter rfl nofun rfl _
    | localVariable => exact entered_declare .variableSymbol rfl nofun rfl _
  | closure parameters body =>
    cases parameters with
    | nil => exact .implicit
    | cons parameter rest => exact .nothing (Or.inl rfl)
  | _ => exact .nothing (Or.inl rfl)

/-! ## The frame -/

/-- What binding more leaves as it is. -/
structure Extends (b c : Binding) : Prop where
  symbols : b.symbols.Extends c.symbols
  declared : ∀ entry ∈ b.declared, entry ∈ c.declared
  filePackage : c.filePackage = b.filePackage
  root : c.root = b.root

theorem Extends.refl (b : Binding) : b.Extends b :=
  ⟨SymbolTable.Extends.refl _, fun _ h => h, rfl, rfl⟩

theorem Extends.trans {a b c : Binding} (hab : a.Extends b) (hbc : b.Extends c) : a.Extends c :=
  ⟨hab.symbols.trans hbc.symbols, fun e he => hbc.declared e (hab.declared e he),
    hbc.filePackage.trans hab.filePackage, hbc.root.trans hab.root⟩

theorem extends_ensureType (s : SymbolTable) (name q : String) (flags : SymbolFlags)
    (owner : Option SymbolId) (declaration : Part) :
    s.Extends (s.ensureType name q flags owner declaration).1 := by
  rcases SymbolTable.ensureType_cases s name q flags owner declaration with ⟨id, _, h⟩ | ⟨_, h⟩
  · rw [h]
    exact SymbolTable.Extends.refl s
  · rw [h]
    exact SymbolTable.extends_push s _

/-- Binding a node keeps what is there. -/
theorem Entered.extends {form : Form} {result : Binding × Option SymbolId}
    (h : Entered b t package outer i form result) : b.Extends result.1 := by
  cases h with
  | type hname =>
    exact ⟨extends_ensureType _ _ _ _ _ _, fun e he => List.mem_cons_of_mem _ he, rfl, rfl⟩
  | member arity hkind hne hname =>
    exact ⟨SymbolTable.extends_push _ _, fun e he => List.mem_cons_of_mem _ he, rfl, rfl⟩
  | implicit => exact ⟨SymbolTable.extends_push _ _, fun e he => he, rfl, rfl⟩
  | nothing => exact Extends.refl b

/-! ## The whole walk -/

/-- One part after the other: what each of them keeps, and what outlasts growth, is kept. -/
theorem foldl_induct (Inv : Binding → Prop) (At : Binding → Part → Prop)
    {bind : Binding → Part → Binding}
    (mono : ∀ {b c part}, b.Extends c → At b part → At c part)
    (step : ∀ {b part}, Inv b → At b part → Inv (bind b part) ∧ b.Extends (bind b part))
    (parts : List Part) {b : Binding} (hinv : Inv b) (hat : ∀ part ∈ parts, At b part) :
    Inv (parts.foldl bind b) ∧ b.Extends (parts.foldl bind b) := by
  induction parts generalizing b with
  | nil => exact ⟨hinv, Extends.refl b⟩
  | cons part rest ih =>
    obtain ⟨hinv', he⟩ := step hinv (hat part List.mem_cons_self)
    obtain ⟨hlast, he'⟩ := ih hinv' fun p hp => mono he (hat p (List.mem_cons_of_mem _ hp))
    exact ⟨hlast, he.trans he'⟩

/-- To carry an invariant through the walk, single nodes have to keep it. The condition `At` says
    what is known where the walk stands, given the type around it: it must outlast growth, and a
    node must hand it on to its parts. -/
theorem bindWithin_induct (Inv : Binding → Prop) (At : Binding → Option SymbolId → Part → Prop)
    (mono : ∀ {b c outer part}, b.Extends c → At b outer part → At c outer part)
    (step : ∀ {b outer i form result}, t.form? i = some form →
      Entered b t package outer i form result → Inv b → At b outer (some i) →
      Inv result.1 ∧ ∀ part ∈ form.children, At result.1 result.2 part)
    (budget : Nat) {b : Binding} {outer : Option SymbolId} {part : Part}
    (hinv : Inv b) (hat : At b outer part) :
    Inv (bindWithin t package budget outer b part) ∧
      b.Extends (bindWithin t package budget outer b part) := by
  induction budget generalizing b outer part with
  | zero => exact ⟨hinv, Extends.refl b⟩
  | succ budget ih =>
    cases part with
    | none => exact ⟨hinv, Extends.refl b⟩
    | some i =>
      rw [bindWithin]
      cases hform : t.form? i with
      | none => exact ⟨hinv, Extends.refl b⟩
      | some form =>
        -- The node comes first, then its parts, each in the binding that the last one left.
        have hent : Entered b t package outer i form (b.declareNode t package outer i form) :=
          entered_declareNode hform
        obtain ⟨hinv', hat'⟩ := step hform hent hinv hat
        obtain ⟨hlast, he⟩ :=
          foldl_induct Inv (At · (b.declareNode t package outer i form).2 ·) mono ih
            form.children hinv' hat'
        exact ⟨hlast, hent.extends.trans he⟩

/-! ## Files -/

/-- The name of the package that a file is in. -/
def packageName (t : Tree) (file : SourceFile) : String :=
  match file.package.bind t.form? with
  | some (.package name) => name
  | _ => ""

/-- What is known before the statements of a file are bound, and its package. -/
def openFile (b : Binding) (t : Tree) (root : NodeId) (file : SourceFile) : Binding × SymbolId :=
  ({ b with
      symbols := (b.symbols.addPackage (packageName t file)).1
      filePackage := packageName t file
      root := some root },
    (b.symbols.addPackage (packageName t file)).2)

/-- To bind a file is to open it and to bind its statements. -/
theorem bindFile_of_file {root : NodeId} {file : SourceFile}
    (h : t.form? root = some (.sourceFile file)) :
    b.bindFile t root =
      file.statements.foldl (bindWithin t (b.openFile t root file).2 t.size none)
        (b.openFile t root file).1 := by
  unfold bindFile
  rw [h]
  rfl

/-- What is no file changes nothing. -/
theorem bindFile_cases (b : Binding) (t : Tree) (root : NodeId) :
    (∃ file, t.form? root = some (.sourceFile file)) ∨ b.bindFile t root = b := by
  unfold bindFile
  split
  · next file h => exact Or.inl ⟨file, h⟩
  · exact Or.inr rfl

/-- The induction over a whole file, which starts from the opened file. -/
theorem bindFile_induct {root : NodeId} {file : SourceFile}
    (hfile : t.form? root = some (.sourceFile file))
    (Inv : Binding → Prop) (At : Binding → Option SymbolId → Part → Prop)
    (mono : ∀ {b c outer part}, b.Extends c → At b outer part → At c outer part)
    (step : ∀ {c outer i form result}, t.form? i = some form →
      Entered c t (b.openFile t root file).2 outer i form result → Inv c →
      At c outer (some i) →
      Inv result.1 ∧ ∀ part ∈ form.children, At result.1 result.2 part)
    (hinv : Inv (b.openFile t root file).1)
    (hat : ∀ part ∈ file.statements, At (b.openFile t root file).1 none part) :
    Inv (b.bindFile t root) ∧ (b.openFile t root file).1.Extends (b.bindFile t root) := by
  rw [bindFile_of_file hfile]
  exact foldl_induct Inv (At · none ·) mono (bindWithin_induct Inv At mono step t.size)
    file.statements hinv hat

/-! ## Steps -/

theorem last_typeName (b : Binding) (outer : Option SymbolId) {name : String}
    (h : '.' ∉ name.toList) : Dotted.last (b.typeName outer name) = name := by
  unfold typeName
  cases outer with
  | none => exact Dotted.last_within b.filePackage h
  | some outer => exact SymbolTable.last_inside (b.symbols.get? outer) h

/-- To bind a node is to go on step by step. -/
theorem Entered.steps {form : Form} {result : Binding × Option SymbolId}
    (h : Entered b t package outer i form result) : b.symbols.Steps result.1.symbols := by
  cases h with
  | type hname => exact SymbolTable.steps_ensureType _ (b.last_typeName outer) _ _ _
  | member arity hkind hne hname =>
    refine .single (.plain ⟨hne, fun heq => form.symbolKind?_ne_package ?_⟩)
    rw [hkind]
    exact congrArg some heq
  | implicit => exact .single (.plain ⟨nofun, nofun⟩)
  | nothing => exact .refl

/-- Binding a node keeps the table consistent. -/
theorem Entered.consistent {form : Form} {result : Binding × Option SymbolId}
    (h : Entered b t package outer i form result) (hb : b.symbols.Consistent) :
    result.1.symbols.Consistent :=
  h.steps.induct hb SymbolTable.Consistent.step

/-- The bindings that binding files on top of libraries leads to. -/
inductive Bound : Binding → Prop
  | libraries {symbols : SymbolTable} (h : symbols.Grown) : Bound (ofLibraries symbols)
  | file {b : Binding} (h : Bound b) (t : Tree) (root : NodeId) : Bound (b.bindFile t root)

/-- However many files were bound, the table came about step by step. -/
theorem Bound.steps {b : Binding} (h : b.Bound) : SymbolTable.empty.Steps b.symbols := by
  induction h with
  | libraries h => exact h.steps
  | @file b _ t root ih =>
    rcases bindFile_cases b t root with ⟨file, hfile⟩ | hsame
    · have hopen : SymbolTable.empty.Steps (b.openFile t root file).1.symbols :=
        ih.trans (SymbolTable.steps_addPackage _ _)
      refine (bindFile_induct hfile (fun c => SymbolTable.empty.Steps c.symbols)
        (fun _ _ _ => True) (fun _ _ => trivial) ?_ hopen fun _ _ => trivial).1
      intro c outer i form result _ hent hc _
      exact ⟨hc.trans hent.steps, fun _ _ => trivial⟩
    · rw [hsame]
      exact ih

/-- However many files were bound, the table is consistent. -/
theorem Bound.consistent {b : Binding} (h : b.Bound) : b.symbols.Consistent :=
  h.steps.induct SymbolTable.consistent_empty SymbolTable.Consistent.step

end

end Binding

end ScriptCheck
