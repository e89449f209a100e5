/-
  Access to what an offered import brings in.

  Imports are offered for classes that are visible outside of their packages:
  those that are private, or private to a package, are left out. A protected
  class is not, although it may be used nowhere outside of its package. What
  owns it is the package, and no class inherits from that.
  `IsCandidate.isAccessible` says so of every candidate and every place. An
  offered import is therefore of use exactly if the class is not protected, and
  following it turns an unresolved name into an inaccessible one otherwise
  (`isAccessible_importFixes`).
-/
import ScriptCheck.Proofs.Script.ImportRepairs
import ScriptCheck.Proofs.Script.QualifiedNames

namespace ScriptCheck.Script

section

variable {s : Script} {root r site : NodeId} {name q : String} {id : SymbolId} {file : SourceFile}
  {span : Span} {parent : Part} {symbol : Symbol}

/-- What imports are offered for are candidates of the name of the reference. -/
theorem exists_candidate_of_mem_importFixes (hs : s.symbols.Filed)
    (h : .addImport q ∈ s.importFixes r) : ∃ name id, s.IsCandidate name q id := by
  cases hname : (s.tree.referenceAt? r).bind Reference.name? with
  | none =>
    unfold importFixes at h
    rw [hname] at h
    cases h
  | some name => exact ⟨name, (mem_importFixes_iff_of_name hs hname).mp h⟩

/-- A candidate may be used unless it is protected, and then it may be used nowhere. -/
theorem IsCandidate.isAccessible (h : s.IsCandidate name q id)
    (hget : s.symbols.get? id = some symbol) (site : NodeId) :
    s.isAccessible id site = !symbol.flags.isProtected := by
  obtain ⟨found, owner, package, hfound, ⟨hk, -, -⟩, ⟨hprivate, hpackagePrivate⟩, ho, hp, hpk, -,
    hother⟩ := h
  obtain rfl : symbol = found := Option.some.inj (hget.symm.trans hfound)
  have hpackage : s.symbols.packageNameOf id = package.qualifiedName :=
    packageNameOf_of_owner hget (hk ▸ nofun) ho hp hpk
  -- The package is no type that another one could inherit from.
  have hnone : symbol.owner.filter s.symbols.isType = none := by
    have htype : s.symbols.isType owner = false := by
      unfold SymbolTable.isType Symbol.isType
      rw [hp, Option.any_some, hpk]
      rfl
    rw [ho, Option.filter_some, htype]
    rfl
  unfold Script.isAccessible
  rw [hget]
  dsimp only
  rw [hk, hpackage, hnone]
  simp only [hprivate, hpackagePrivate, hother, decide_false, Bool.false_or, Bool.false_eq_true,
    if_false]
  cases symbol.flags.isProtected <;> rfl

/-- With the import written, a plain name in type position stands for the class. -/
theorem symbol?_resolve_withImport (hroot : s.binding.root = some root)
    (hfile : s.tree.form? root = some (.sourceFile file)) (hr : s.tree.IsTypeName r name)
    (hunresolved : s.resolve r = .unresolved) (hlast : Dotted.last q = name)
    (hq : s.symbols.type? q = some id)
    (hoff : parent = none ∨ s.tree.size ∉ s.tree.ancestors r) :
    ((s.withImport root (.single q) span parent).resolve r).symbol? = some id := by
  have hnone : s.lookupType r name = none := by
    rw [← lookup_of_isTypeName hr, ← symbol?_resolve, hunresolved]
    rfl
  obtain ⟨reference, hform, hplain⟩ := hr
  have hne : r ≠ s.tree.size := Nat.ne_of_lt (Tree.lt_size_of_form? hform)
  have hr' : (s.withImport root (.single q) span parent).tree.IsTypeName r name :=
    ⟨reference, Tree.form?_withImport_of_reference hform, hplain⟩
  rw [symbol?_resolve, lookup_of_isTypeName hr']
  exact lookupType_withImport hroot hfile hne hoff hnone hlast hq

/-- A class whose import is offered may be used, wherever it is, exactly if it is not protected.
    Whatever the import is written into, a reference that then resolves to the class is accessible
    or not accordingly, and a plain name in type position that stood for nothing does resolve to
    it. -/
theorem isAccessible_importFixes (hs : s.binding.Bound) (hq : .addImport q ∈ s.importFixes r) :
    ∃ id symbol, s.symbols.type? q = some id ∧ s.symbols.get? id = some symbol ∧
      (∀ site, s.isAccessible id site = true ↔ symbol.flags.isProtected = false) ∧
      (∀ root span parent (receiver : NodeId → Id (Option SymbolId)),
        (Id.run ((s.withImport root (.single q) span parent).resolveWith receiver r)).symbol? =
          some id →
        Id.run ((s.withImport root (.single q) span parent).resolveWith receiver r) =
          if symbol.flags.isProtected then .inaccessible id else .accessible id) ∧
      ∀ root file name span parent, s.binding.root = some root →
        s.tree.form? root = some (.sourceFile file) → s.tree.IsTypeName r name →
        '.' ∉ name.toList → s.resolve r = .unresolved →
        (parent = none ∨ s.tree.size ∉ s.tree.ancestors r) →
        (s.withImport root (.single q) span parent).resolve r =
          if symbol.flags.isProtected then .inaccessible id else .accessible id := by
  have hc : s.symbols.Consistent := hs.consistent
  have hfiled : s.symbols.Filed := hs.steps.induct SymbolTable.filed_empty SymbolTable.Filed.step
  have hnamed : s.symbols.SimplyNamed :=
    hs.steps.induct SymbolTable.simplyNamed_empty SymbolTable.SimplyNamed.step
  obtain ⟨offered, id, hcandidate⟩ := exists_candidate_of_mem_importFixes hfiled hq
  have ⟨symbol, _, _, hget, ⟨hk, _, hname⟩, _⟩ := hcandidate
  have hid : s.symbols.type? q = some id := hc.type?_of_get? hget hk hname
  -- Neither the symbols nor the package change when the import is written.
  have houtcome : ∀ root span parent (receiver : NodeId → Id (Option SymbolId)),
      (Id.run ((s.withImport root (.single q) span parent).resolveWith receiver r)).symbol? =
        some id →
      Id.run ((s.withImport root (.single q) span parent).resolveWith receiver r) =
        if symbol.flags.isProtected then .inaccessible id else .accessible id := by
    intro root span parent receiver hsymbol
    have hkept : (s.withImport root (.single q) span parent).IsCandidate offered q id := hcandidate
    rw [resolveWith_of_symbol? hsymbol, hkept.isAccessible hget]
    cases symbol.flags.isProtected <;> rfl
  refine ⟨id, symbol, hid, hget, fun site => ?_, houtcome, ?_⟩
  · rw [hcandidate.isAccessible hget, Bool.not_eq_true']
  · intro root file name span parent hroot hfile hr hdot hunresolved hoff
    refine houtcome root span parent (fun _ => pure none) ?_
    obtain ⟨other, hother⟩ := (mem_importFixes_iff hfiled hr).mp hq
    obtain ⟨hid', hlast⟩ := hother.type?_and_last hc hnamed hdot
    obtain rfl : id = other := Option.some.inj (hid.symm.trans hid')
    exact symbol?_resolve_withImport hroot hfile hr hunresolved hlast hid hoff

end

/-! ## A protected class -/

/-- Two classes of one name in packages of their own, the first one protected. -/
def guardedLibrary : SymbolTable :=
  ((SymbolTable.empty.addType "lib.Item" { SymbolFlags.none with isProtected := true } []).1.addType
    "shop.Item" .none []).1

theorem guardedLibrary_grown : guardedLibrary.Grown := .type (.type .start _ _ _) _ _ _

/-- The file of the package `app` that uses the type `Item`, on top of them. -/
def guarded : Script := ofFile guardedLibrary orderTree 5 []

theorem guarded_bound : guarded.binding.Bound := .file (.libraries guardedLibrary_grown) orderTree 5

/-- Both imports are offered, but the first class may not be used by the file. -/
theorem guarded_facts :
    (guarded.resolve 2 = .unresolved ∧
      guarded.importFixes 2 = [.addImport "lib.Item", .addImport "shop.Item"]) ∧
    (guarded.symbols.type? "lib.Item" = some 1 ∧
      (guarded.symbols.get? 1).map (·.flags.isProtected) = some true) ∧
    guarded.symbols.type? "shop.Item" = some 3 ∧
      (guarded.symbols.get? 3).map (·.flags.isProtected) = some false := by
  decide +kernel

/-- With the one import the name stands for a class that may not be used, with the other for one
    that may. -/
theorem resolve_guarded :
    guarded.isAccessible 1 2 = false ∧
      (guarded.withImport 5 (.single "lib.Item") default (some 5)).resolve 2 = .inaccessible 1 ∧
      (guarded.withImport 5 (.single "shop.Item") default (some 5)).resolve 2 = .accessible 3 := by
  obtain ⟨⟨hunresolved, hfixes⟩, ⟨hlib, hprotected⟩, hshop, hopen⟩ := guarded_facts
  have hname : guarded.tree.IsTypeName 2 "Item" := ⟨_, rfl, rfl, rfl⟩
  have hoff : some 5 = none ∨ guarded.tree.size ∉ guarded.tree.ancestors 2 :=
    .inr ((Tree.built_ofNodes _).size_not_mem_ancestors 2)
  have hoffered : .addImport "lib.Item" ∈ guarded.importFixes 2 ∧
      .addImport "shop.Item" ∈ guarded.importFixes 2 := by
    rw [hfixes]
    decide
  obtain ⟨id, symbol, hid, hget, haccess, -, hrepair⟩ :=
    isAccessible_importFixes guarded_bound hoffered.1
  obtain ⟨id', symbol', hid', hget', -, -, hrepair'⟩ :=
    isAccessible_importFixes guarded_bound hoffered.2
  obtain rfl : id = 1 := Option.some.inj (hid.symm.trans hlib)
  obtain rfl : id' = 3 := Option.some.inj (hid'.symm.trans hshop)
  rw [hget, Option.map_some, Option.some_inj] at hprotected
  rw [hget', Option.map_some, Option.some_inj] at hopen
  refine ⟨?_, ?_, ?_⟩
  · rw [Bool.eq_false_iff, Ne, haccess 2, hprotected]
    decide
  · rw [hrepair 5 _ "Item" default (some 5) rfl rfl hname (by decide) hunresolved hoff, hprotected]
    rfl
  · rw [hrepair' 5 _ "Item" default (some 5) rfl rfl hname (by decide) hunresolved hoff, hopen]
    rfl

/-- Not every class whose import is offered may be used. -/
theorem offered_import_refused :
    ¬∀ (lib : SymbolTable) (t : Tree) (root : NodeId) (imports : List String) (r : NodeId)
      (q : String) (id : SymbolId), lib.Grown → t.Built →
      .addImport q ∈ (ofFile lib t root imports).importFixes r →
      (ofFile lib t root imports).symbols.type? q = some id →
      (ofFile lib t root imports).isAccessible id r = true := by
  intro hall
  obtain ⟨⟨-, hfixes⟩, ⟨hlib, -⟩, -⟩ := guarded_facts
  have hoffered : .addImport "lib.Item" ∈ guarded.importFixes 2 := hfixes ▸ List.mem_cons_self
  have hrefused : guarded.isAccessible 1 2 = false := by decide +kernel
  have haccess : guarded.isAccessible 1 2 = true :=
    hall guardedLibrary orderTree 5 [] 2 "lib.Item" 1 guardedLibrary_grown (Tree.built_ofNodes _)
      hoffered hlib
  rw [hrefused] at haccess
  cases haccess

end ScriptCheck.Script
