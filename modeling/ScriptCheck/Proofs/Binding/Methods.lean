/-
  Which methods there are.

  A method comes from a library, where it has no declaration, or from a node of
  the script that declares a method. In the latter case its arity is that of the
  parameters which the node holds, and it is no builder. `knowsMethods` says so
  of a table, and binding a file on top of a library leads to such a table.
-/
import ScriptCheck.Proofs.Binding.Growth

namespace ScriptCheck

/-- A method of a library has no declaration, and any other one is declared by a node and has the
    arity that the node gives it. -/
def SymbolTable.KnowsMethods (t : SymbolTable) (tree : Tree) : Prop :=
  ∀ id s, t.get? id = some s → s.kind = .method → ∀ i, s.declaration = some i →
    ∃ data, tree.methodAt? i = some data ∧
      s.arity = some (Arity.ofParameters (Binding.parametersOf tree data)) ∧
      s.flags.isBuilder = false

namespace SymbolTable

variable {t : SymbolTable} {tree : Tree}

/-- A new symbol does no harm if it is no method, or has no declaration. -/
theorem KnowsMethods.push (ht : t.KnowsMethods tree) {new : Symbol}
    (hnew : new.kind ≠ .method ∨ new.declaration = none) : (t.push new).1.KnowsMethods tree := by
  intro id s h hk i hi
  rcases get?_push_cases h with ⟨_, rfl⟩ | h
  · rcases hnew with hne | hnone
    · exact absurd hk hne
    · rw [hnone] at hi
      cases hi
  · exact ht _ _ h hk i hi

theorem KnowsMethods.ensureType (ht : t.KnowsMethods tree) (name q : String)
    (flags : SymbolFlags) (owner : Option SymbolId) (declaration : Part) :
    (t.ensureType name q flags owner declaration).1.KnowsMethods tree := by
  rcases ensureType_cases t name q flags owner declaration with ⟨id, _, h⟩ | ⟨_, h⟩
  · rw [h]
    exact ht
  · rw [h]
    exact ht.push (Or.inl (show SymbolKind.type ≠ .method from nofun))

theorem KnowsMethods.addPackage (ht : t.KnowsMethods tree) (q : String) :
    (t.addPackage q).1.KnowsMethods tree := by
  intro id s h hk i hi
  rcases get?_addPackage_cases h with h | hpackage
  · exact ht _ _ h hk i hi
  · rw [hpackage] at hk
    cases hk

theorem KnowsMethods.setSupertypes (ht : t.KnowsMethods tree) (id : SymbolId)
    (names : List String) : (t.setSupertypes id names).KnowsMethods tree := by
  intro j s h hk i hi
  rw [get?_setSupertypes] at h
  split at h
  · obtain ⟨old, ho, rfl⟩ := Option.map_eq_some_iff.mp h
    exact ht _ _ ho hk i hi
  · exact ht _ _ h hk i hi

/-- No method of a library has a declaration. -/
theorem Grown.knowsMethods (h : t.Grown) (tree : Tree) : t.KnowsMethods tree := by
  induction h with
  | start =>
    intro id s h
    cases h
  | package _ q ih => exact ih.addPackage q
  | type _ q flags supertypes ih =>
    unfold addType
    exact ((ih.addPackage _).ensureType _ _ _ _ _).setSupertypes _ _
  | nestedType _ outer name flags declaration ih =>
    unfold addNestedType
    exact ih.ensureType _ _ _ _ _
  | field _ owner name flags ih =>
    exact ih.push (Or.inl (show SymbolKind.field ≠ .method from nofun))
  | method _ owner name flags arity ih => exact ih.push (Or.inr rfl)

end SymbolTable

namespace Binding

variable {t : Tree} {b : Binding} {package : SymbolId} {outer : Option SymbolId} {i : NodeId}

/-- A method enters with the arity of its parameters. -/
theorem knowsMethods_declare_method {data : Method} (hform : t.form? i = some (.method data))
    (hb : b.symbols.KnowsMethods t) :
    (b.declare t i .method outer
      (some (Arity.ofParameters (parametersOf t data)))).symbols.KnowsMethods t := by
  unfold declare
  split
  · exact hb
  · intro id s h hk j hj
    rcases SymbolTable.get?_push_cases h with ⟨_, rfl⟩ | h
    · have hij : i = j := Option.some.inj hj
      subst hij
      refine ⟨data, ?_, rfl, ?_⟩
      · unfold Tree.methodAt?
        rw [hform]
      · show (SymbolTable.markVarargs _ _).isBuilder = false
        unfold SymbolTable.markVarargs
        split <;> rfl
    · exact hb _ _ h hk j hj

/-- Binding a node enters a method only with its own arity. -/
theorem knowsMethods_declareNode {form : Form} (hform : t.form? i = some form)
    (hb : b.symbols.KnowsMethods t) :
    (b.declareNode t package outer i form).1.symbols.KnowsMethods t := by
  by_cases hmethod : ∃ data, form = .method data
  · obtain ⟨data, rfl⟩ := hmethod
    exact knowsMethods_declare_method hform hb
  · -- Any other node enters a symbol that is no method, or nothing.
    have hkind : form.symbolKind? ≠ some .method := by
      intro hk
      cases form with
      | method data => exact hmethod ⟨data, rfl⟩
      | variableLike role data => cases role <;> cases hk
      | _ => cases hk
    have hent : Entered b t package outer i form (b.declareNode t package outer i form) :=
      entered_declareNode hform
    generalize b.declareNode t package outer i form = result at hent ⊢
    cases hent with
    | type hname => exact hb.ensureType _ _ _ _ _
    | member arity hk hne hname =>
      exact hb.push (Or.inl fun heq => hkind (hk.trans (congrArg some heq)))
    | implicit => exact hb.push (Or.inl (show SymbolKind.parameter ≠ .method from nofun))
    | nothing => exact hb

theorem knowsMethods_bindWithin (budget : Nat) {part : Part} (hb : b.symbols.KnowsMethods t) :
    (bindWithin t package budget outer b part).symbols.KnowsMethods t := by
  induction budget generalizing b outer part with
  | zero => exact hb
  | succ budget ih =>
    cases part with
    | none => exact hb
    | some i =>
      rw [bindWithin]
      cases hform : t.form? i with
      | none => exact hb
      | some form =>
        have hnode : (b.declareNode t package outer i form).1.symbols.KnowsMethods t :=
          knowsMethods_declareNode hform hb
        dsimp only
        generalize (b.declareNode t package outer i form).2 = inner
        exact List.foldlRecOn (motive := fun b : Binding => b.symbols.KnowsMethods t)
          form.children _ hnode fun _ hc _ _ => ih hc

/-- In a file bound on top of a library, methods have the arities that they are written with. -/
theorem knowsMethods_bindFile {lib : SymbolTable} (hlib : lib.Grown) (t : Tree) (root : NodeId) :
    ((ofLibraries lib).bindFile t root).symbols.KnowsMethods t := by
  rcases bindFile_cases (ofLibraries lib) t root with ⟨file, hfile⟩ | hsame
  · rw [bindFile_of_file hfile]
    have hopen : ((ofLibraries lib).openFile t root file).1.symbols.KnowsMethods t :=
      (hlib.knowsMethods t).addPackage _
    exact List.foldlRecOn (motive := fun b : Binding => b.symbols.KnowsMethods t) file.statements _
      hopen fun _ hc _ _ => knowsMethods_bindWithin t.size hc
  · rw [hsame]
    exact hlib.knowsMethods t

end Binding

end ScriptCheck
