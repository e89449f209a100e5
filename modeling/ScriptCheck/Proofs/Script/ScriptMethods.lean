/-
  Access to what stands outside of all types.

  A method or field that no named type is around has no owner, and so neither a
  package nor an outermost type by which access to it could be judged.
  `bindFile_members` gives the symbols of all declarations that are no types,
  and `isAccessible_of_unowned` says what access comes to without an owner:
  what is private may be used nowhere, what is protected only by scripts of the
  default package. `isAccessible_scriptMethod` is this for the methods that a
  script declares among its statements, and for the calls that resolve to them.
-/
import ScriptCheck.Proofs.Binding.TypeNesting
import ScriptCheck.Proofs.Script.File
import ScriptCheck.Proofs.Script.QualifiedNames

namespace ScriptCheck

namespace SymbolTable

section

variable {t : SymbolTable} {id : SymbolId} {s : Symbol}

/-! ## Symbols without owners -/

theorem owners_of_unowned (hget : t.get? id = some s) (howner : s.owner = none) :
    t.owners id = [s] := by
  unfold owners hierarchyLimit
  rw [ownersFrom, hget]
  dsimp only
  rw [howner]
  rfl

/-- Only packages themselves are in a package without having an owner. -/
theorem packageNameOf_of_unowned (hget : t.get? id = some s) (howner : s.owner = none)
    (hk : s.kind ≠ .package) : t.packageNameOf id = "" := by
  unfold packageNameOf
  rw [owners_of_unowned hget howner, List.find?_cons_of_neg (by simpa using hk)]
  rfl

/-- Only types themselves are in a type without having an owner. -/
theorem outermostType?_of_unowned (hget : t.get? id = some s) (howner : s.owner = none)
    (hk : s.kind ≠ .type) : t.outermostType? id = none := by
  unfold outermostType?
  rw [owners_of_unowned hget howner,
    List.filter_cons_of_neg (by simpa [Symbol.isType] using hk)]
  rfl

end

end SymbolTable

namespace Binding

/-- What is declared and is no type has the symbol that its node and the types around it give
    to it. -/
def EntersMembers (b : Binding) (t : Tree) (root : NodeId) : Prop :=
  ∀ i id form kind, (i, id) ∈ b.declared → t.form? i = some form →
    form.symbolKind? = some kind → kind ≠ .type →
    ∃ outer name arity, b.Around t root i outer ∧
      b.symbols.get? id = some { memberSymbol t outer i name kind arity with id := id }

section

variable {lib : SymbolTable} {t : Tree} {b : Binding} {package : SymbolId}
  {outer : Option SymbolId} {i root : Nat} {form : Form} {result : Binding × Option SymbolId}

/-! ## Declarations that are no types -/

/-- A member symbol has the access that the modifiers of its node say. -/
theorem flags_memberSymbol (t : Tree) (outer : Option SymbolId) (i : NodeId) (name : String)
    (kind : SymbolKind) (arity : Option Arity) :
    let flags := (memberSymbol t outer i name kind arity).flags
    flags.isPrivate = (t.modifiers i).isPrivate ∧
      flags.isProtected = (t.modifiers i).isProtected ∧ flags.isPackagePrivate = false := by
  show (SymbolTable.markVarargs _ arity).isPrivate = _ ∧
    (SymbolTable.markVarargs _ arity).isProtected = _ ∧
    (SymbolTable.markVarargs _ arity).isPackagePrivate = _
  unfold SymbolTable.markVarargs
  split <;> exact ⟨rfl, rfl, rfl⟩

/-- Binding a node enters it so. -/
theorem EntersMembers.entered (hb : b.EntersMembers t root)
    (hst : Stands t root b outer (some i)) (hform : t.form? i = some form)
    (hent : Entered b t package outer i form result) : result.1.EntersMembers t root := by
  obtain ⟨-, ha⟩ := hst i rfl (Tree.lt_size_of_form? hform)
  have he := hent.extends
  -- What was there before outlasts the node.
  have hold : ∀ j id form kind, (j, id) ∈ b.declared → t.form? j = some form →
      form.symbolKind? = some kind → kind ≠ .type →
      ∃ outer name arity, result.1.Around t root j outer ∧
        result.1.symbols.get? id =
          some { memberSymbol t outer j name kind arity with id := id } := by
    intro j id form kind hm hform hkind hne
    obtain ⟨outer, name, arity, hj, hget⟩ := hb j id form kind hm hform hkind hne
    exact ⟨outer, name, arity, hj.mono he, he.symbols id _ hget⟩
  intro j id form' kind hm hform' hkind hne
  cases hent with
  | type hname =>
    rcases List.mem_cons.mp hm with heq | hm
    · obtain ⟨rfl, rfl⟩ := Prod.mk.inj heq
      obtain rfl := Option.some.inj (hform.symm.trans hform')
      exact absurd (Option.some.inj hkind).symm hne
    · exact hold j id form' kind hm hform' hkind hne
  | member arity hkind' hne' hname =>
    rcases List.mem_cons.mp hm with heq | hm
    · obtain ⟨rfl, rfl⟩ := Prod.mk.inj heq
      obtain rfl := Option.some.inj (hform.symm.trans hform')
      obtain rfl := Option.some.inj (hkind'.symm.trans hkind)
      exact ⟨outer, _, arity, ha.mono he, SymbolTable.get?_push_self _ _⟩
    · exact hold j id form' kind hm hform' hkind hne
  | implicit => exact hold j id form' kind hm hform' hkind hne
  | nothing => exact hold j id form' kind hm hform' hkind hne

/-- After a file was bound, all that it declares and that is no type was entered so. -/
theorem bindFile_members (lib : SymbolTable) (ht : t.WellShaped) (root : NodeId) :
    ((ofLibraries lib).bindFile t root).EntersMembers t root := by
  rcases bindFile_cases (ofLibraries lib) t root with ⟨file, hfile⟩ | hsame
  · have hopen : ((ofLibraries lib).openFile t root file).1.EntersMembers t root :=
      fun _ _ _ _ hm => absurd hm List.not_mem_nil
    refine (bindFile_induct hfile (EntersMembers · t root) (Stands t root)
      (fun he hst => hst.mono he) ?_ hopen (stands_statement ht hfile _)).1
    intro c outer i form result hform hent hc hst
    exact ⟨hc.entered hst hform hent, hst.children ht hform hent⟩
  · rw [hsame]
    exact fun _ _ _ _ hm => absurd hm List.not_mem_nil

end

end Binding

namespace Script

section

variable {s : Script} {lib : SymbolTable} {t : Tree} {root i : Nat} {imports : List String}
  {id : SymbolId} {site : NodeId}

/-! ## Access -/

/-- Without an owner access hangs on the modifiers and on the package of the script alone, wherever
    the place of use is. -/
theorem isAccessible_of_unowned {target : Symbol} (hget : s.symbols.get? id = some target)
    (hk : target.kind = .method ∨ target.kind = .field) (howner : target.owner = none)
    (hpackage : target.flags.isPackagePrivate = false) :
    s.isAccessible id site = true ↔ target.flags.isPrivate = false ∧
      (target.flags.isProtected = true → s.binding.filePackage = "") := by
  have hmember : target.kind ≠ .package ∧ target.kind ≠ .type := by
    rcases hk with hk | hk <;> rw [hk] <;> decide
  have houtermost := SymbolTable.outermostType?_of_unowned hget howner hmember.2
  have hname := SymbolTable.packageNameOf_of_unowned hget howner hmember.1
  have haccess : s.isAccessible id site =
      if target.flags.isPrivate then false
      else if target.flags.isProtected then decide ("" = s.binding.filePackage)
      else true := by
    unfold isAccessible
    rw [hget]
    rcases hk with hk | hk <;> simp [hk, houtermost, hname, howner, hpackage]
  rw [haccess]
  cases target.flags.isPrivate <;> cases target.flags.isProtected <;> simp

/-- So it is for the methods and fields that no named type is around. -/
theorem isAccessible_outside_types (ht : t.WellShaped) {form : Form} {kind : SymbolKind}
    (hform : t.form? i = some form) (hkind : form.symbolKind? = some kind)
    (hk : kind = .method ∨ kind = .field) (houtside : t.typesAround root i = [])
    (hid : (ofFile lib t root imports).symbolOf? i = some id) :
    (ofFile lib t root imports).isAccessible id site = true ↔
      (t.modifiers i).isPrivate = false ∧ ((t.modifiers i).isProtected = true →
        (ofFile lib t root imports).binding.filePackage = "") := by
  have hne : kind ≠ .type := by
    rcases hk with rfl | rfl <;> decide
  obtain ⟨outer, name, arity, ha, hget⟩ := Binding.bindFile_members lib ht root i id form kind
    (Binding.mem_declared_of_symbolOf? hid) hform hkind hne
  obtain rfl : outer = none := by
    unfold Binding.Around at ha
    rw [houtside] at ha
    exact ha
  have howner : (Binding.memberSymbol t none i name kind arity).owner = none := ite_self none
  obtain ⟨hprivate, hprotected, hpackage⟩ :=
    Binding.flags_memberSymbol t none i name kind arity
  rw [isAccessible_of_unowned (s := ofFile lib t root imports) hget hk howner hpackage]
  rw [← hprivate, ← hprotected]

/-- A method that a script declares among its statements has a symbol. The script may use it, at
    whatever place, exactly if it is not private and, if it is protected, the script is in the
    default package; and so for every reference that resolves to it. -/
theorem isAccessible_scriptMethod (ht : t.WellShaped) {file : SourceFile} {data : Method}
    {name : String} (hfile : t.form? root = some (.sourceFile file))
    (hstatement : some i ∈ file.statements) (hmethod : t.form? i = some (.method data))
    (hname : t.declaredName? i = some name) :
    ∃ id, (ofFile lib t root imports).symbolOf? i = some id ∧
      (∀ site, (ofFile lib t root imports).isAccessible id site = true ↔
        (t.modifiers i).isPrivate = false ∧
          ((t.modifiers i).isProtected = true → Binding.packageName t file = "")) ∧
      ∀ (receiver : NodeId → Id (Option SymbolId)) (r : NodeId),
        (Id.run ((ofFile lib t root imports).resolveWith receiver r)).symbol? = some id →
        (Id.run ((ofFile lib t root imports).resolveWith receiver r) = .accessible id ↔
          (t.modifiers i).isPrivate = false ∧
            ((t.modifiers i).isProtected = true → Binding.packageName t file = "")) := by
  have hlt : i < t.size := Tree.lt_size_of_form? hmethod
  have hparent : t.parent? i = some root := by
    rw [ht.parent?_eq_some_iff, Tree.children_of_form? hfile]
    exact ⟨List.mem_append_right _ hstatement, hlt⟩
  obtain ⟨id, hid⟩ : ∃ id, (ofFile lib t root imports).symbolOf? i = some id :=
    Binding.exists_symbolOf? ht (.statement hfile hstatement hlt) hname _
  have haccess : ∀ site, (ofFile lib t root imports).isAccessible id site = true ↔
      (t.modifiers i).isPrivate = false ∧
        ((t.modifiers i).isProtected = true → Binding.packageName t file = "") := by
    intro site
    have hpackage : (ofFile lib t root imports).binding.filePackage =
        Binding.packageName t file := filePackage_ofFile hfile
    rw [← hpackage]
    exact isAccessible_outside_types ht hmethod rfl (.inl rfl) (ht.typesAround_of_root hparent) hid
  refine ⟨id, hid, haccess, fun receiver r hr => ?_⟩
  rw [resolveWith_of_symbol? hr, ← haccess r]
  cases (ofFile lib t root imports).isAccessible id r <;> simp

end

/-! ## A script with methods of its own -/

/-- The parts of the script below. -/
def helpersFile : SourceFile :=
  ⟨"helpers", some 0, [], [some 2, some 4, some 6, some 10, some 14, some 18]⟩

/-- The tree of a script in the package `app` that declares a protected method `helper`, a private
    method `secret` and a method `run` without modifiers, and calls all three of them. -/
def helpersTree : Tree :=
  .ofNodes
    [(.package "app", .none),
      (.identifier "helper", .none),
      (.method ⟨some 1, none, [], none⟩, { Modifiers.none with isProtected := true }),
      (.identifier "secret", .none),
      (.method ⟨some 3, none, [], none⟩, { Modifiers.none with isPrivate := true }),
      (.identifier "run", .none),
      (.method ⟨some 5, none, [], none⟩, .none),
      (.reference .value ⟨none, some "helper", default⟩, .none),
      (.argumentList [], .none),
      (.call (some 7) (some 8), .none),
      (.expressionStatement (some 9), .none),
      (.reference .value ⟨none, some "secret", default⟩, .none),
      (.argumentList [], .none),
      (.call (some 11) (some 12), .none),
      (.expressionStatement (some 13), .none),
      (.reference .value ⟨none, some "run", default⟩, .none),
      (.argumentList [], .none),
      (.call (some 15) (some 16), .none),
      (.expressionStatement (some 17), .none),
      (.sourceFile helpersFile, .none)]

/-- The script without a library. -/
def helpers : Script := ofFile .empty helpersTree 19 []

theorem helpersTree_wellShaped : helpersTree.WellShaped :=
  (Tree.built_ofNodes _).wellShaped (by decide +kernel)

/-- What the script declares, and how it may be used. -/
theorem helpersTree_facts :
    (helpersTree.form? 19 = some (.sourceFile helpersFile) ∧
      Binding.packageName helpersTree helpersFile = "app") ∧
    (helpersTree.form? 2 = some (.method ⟨some 1, none, [], none⟩) ∧
      helpersTree.declaredName? 2 = some "helper" ∧
      (helpersTree.modifiers 2).isProtected = true) ∧
    (helpersTree.form? 4 = some (.method ⟨some 3, none, [], none⟩) ∧
      helpersTree.declaredName? 4 = some "secret" ∧ (helpersTree.modifiers 4).isPrivate = true) ∧
    helpersTree.form? 6 = some (.method ⟨some 5, none, [], none⟩) ∧
      helpersTree.declaredName? 6 = some "run" ∧ (helpersTree.modifiers 6).isPrivate = false ∧
      (helpersTree.modifiers 6).isProtected = false := by
  decide +kernel

/-- The methods have the first three symbols, and these are what is called outside of all types. -/
theorem symbolOf?_helpers :
    (helpers.symbolOf? 2 = some 1 ∧ helpers.symbolOf? 4 = some 2 ∧ helpers.symbolOf? 6 = some 3) ∧
      ((helpers.resolve 7).symbol? = some 1 ∧ (helpers.resolve 11).symbol? = some 2 ∧
        (helpers.resolve 15).symbol? = some 3) ∧
      (∀ above ∈ helpersTree.ancestors 7, helpersTree.isOneOf [.typeDeclaration] above = false) ∧
      helpers.isAccessible 1 7 = false := by
  decide +kernel

/-- The script may use `run` everywhere, but `helper` and `secret` nowhere, so that it may call
    neither of them. -/
theorem isAccessible_helpers :
    (∀ site, helpers.isAccessible 1 site = false) ∧ (∀ site, helpers.isAccessible 2 site = false) ∧
      (∀ site, helpers.isAccessible 3 site = true) ∧ helpers.resolve 7 = .inaccessible 1 ∧
      helpers.resolve 11 = .inaccessible 2 ∧ helpers.resolve 15 = .accessible 3 := by
  obtain ⟨⟨hfile, hpackage⟩, ⟨hform, hname, hprotected⟩, ⟨hform', hname', hprivate⟩, hform'',
    hname'', hopen, hopen'⟩ := helpersTree_facts
  obtain ⟨⟨hhelper, hsecret, hrun⟩, ⟨hcall, hcall', hcall''⟩, -⟩ := symbolOf?_helpers
  obtain ⟨helper, h, haccess, -⟩ :=
    @isAccessible_scriptMethod .empty helpersTree 19 2 [] helpersTree_wellShaped _ _ _ hfile
      (by decide) hform hname
  obtain ⟨secret, h', haccess', -⟩ :=
    @isAccessible_scriptMethod .empty helpersTree 19 4 [] helpersTree_wellShaped _ _ _ hfile
      (by decide) hform' hname'
  obtain ⟨run, h'', haccess'', hresolved⟩ :=
    @isAccessible_scriptMethod .empty helpersTree 19 6 [] helpersTree_wellShaped _ _ _ hfile
      (by decide) hform'' hname''
  obtain rfl : helper = 1 := Option.some.inj (h.symm.trans hhelper)
  obtain rfl : secret = 2 := Option.some.inj (h'.symm.trans hsecret)
  obtain rfl : run = 3 := Option.some.inj (h''.symm.trans hrun)
  rw [hpackage] at haccess
  have hno : ∀ site, helpers.isAccessible 1 site = false := fun site =>
    Bool.eq_false_iff.mpr fun h => absurd (((haccess site).mp h).2 hprotected) (by decide)
  have hno' : ∀ site, helpers.isAccessible 2 site = false := fun site =>
    Bool.eq_false_iff.mpr fun h => absurd (hprivate.symm.trans ((haccess' site).mp h).1) (by decide)
  have hfree : (helpersTree.modifiers 6).isPrivate = false ∧
      ((helpersTree.modifiers 6).isProtected = true →
        Binding.packageName helpersTree helpersFile = "") :=
    ⟨hopen, fun h => absurd (hopen'.symm.trans h) (by decide)⟩
  refine ⟨hno, hno', fun site => (haccess'' site).mpr hfree, ?_, ?_,
    (hresolved (fun _ => pure none) 15 hcall'').mpr hfree⟩
  · exact (resolveWith_of_symbol? hcall).trans (if_neg (by rw [hno]; decide))
  · exact (resolveWith_of_symbol? hcall').trans (if_neg (by rw [hno']; decide))

/-- A script can have methods that it may not use, outside of all types. -/
theorem script_refused_its_method :
    ¬∀ (lib : SymbolTable) (t : Tree) (root : NodeId) (imports : List String) (file : SourceFile)
      (i : NodeId) (data : Method) (id : SymbolId) (site : NodeId), lib.Grown → t.WellShaped →
      t.form? root = some (.sourceFile file) → some i ∈ file.statements →
      t.form? i = some (.method data) → (ofFile lib t root imports).symbolOf? i = some id →
      (∀ above ∈ t.ancestors site, t.isOneOf [.typeDeclaration] above = false) →
      (ofFile lib t root imports).isAccessible id site = true := by
  intro hall
  obtain ⟨⟨hfile, -⟩, ⟨hform, -⟩, -⟩ := helpersTree_facts
  obtain ⟨⟨hsymbol, -⟩, -, houtside, hno⟩ := symbolOf?_helpers
  have hyes : helpers.isAccessible 1 7 = true :=
    hall .empty helpersTree 19 [] _ 2 _ 1 7 .start helpersTree_wellShaped hfile (by decide) hform
      hsymbol houtside
  rw [hno] at hyes
  cases hyes

end Script

end ScriptCheck
