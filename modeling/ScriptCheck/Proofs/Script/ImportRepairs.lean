/-
  What an offered import repairs.

  For a plain name in type position that stands for nothing, some imports are
  offered. `resolve_importFixes` says which: one for each class of that name
  that lies directly in a package other than the file's own one and is visible
  from outside, and each class once. It also says what they are good for: with
  any one of them written at the end of the file's imports, the name stands for
  the class.

  The second part compares two look-ups, before and after. Single imports come
  third of seven places, so the first two have to stay silent, and no earlier
  one of the same simple name may come to life.
-/
import Mathlib.Data.List.Nodup
import ScriptCheck.Proofs.Binding.Growth
import ScriptCheck.Proofs.Script.File
import ScriptCheck.Proofs.Script.Levels
import ScriptCheck.Proofs.Script.Scopes
import ScriptCheck.Proofs.Symbol.Indexes
import ScriptCheck.Proofs.Syntax.ImportLists
import ScriptCheck.Script.Access
import ScriptCheck.Script.Imports

namespace ScriptCheck

/-- Whether a node is a plain name in type position. -/
def Tree.IsTypeName (t : Tree) (i : NodeId) (name : String) : Prop :=
  ∃ data, t.form? i = some (.reference .type data) ∧ data.qualifier = none ∧
    data.name? = some name

/-- The import of a single thing under its own name. -/
def Import.single (path : String) : Import := ⟨path, false, false, none⟩

namespace Script

/-- A class that a plain name could mean if it was imported. It lies directly in a package that has
    a name and is not the file's, and it is visible outside of it. -/
def IsCandidate (s : Script) (name q : String) (id : SymbolId) : Prop :=
  ∃ symbol owner package, s.symbols.get? id = some symbol ∧
    (symbol.kind = .type ∧ symbol.name = name ∧ symbol.qualifiedName = q) ∧
    (symbol.flags.isPrivate = false ∧ symbol.flags.isPackagePrivate = false) ∧
    symbol.owner = some owner ∧ s.symbols.get? owner = some package ∧ package.kind = .package ∧
    package.qualifiedName ≠ "" ∧ package.qualifiedName ≠ s.binding.filePackage

/-- The script after an import was written at the end of the imports of the file at `root`, with the
    symbols as they are. -/
def withImport (s : Script) (root : NodeId) (data : Import) (span : Span) (parent : Part) :
    Script :=
  { s with tree := s.tree.withImport root data span parent }

section

variable {s : Script} {root r : NodeId} {name q : String} {id : SymbolId} {file : SourceFile}
  {data : Import} {span : Span} {parent : Part}

/-! ## What is offered -/

/-- Where repetitions were taken out there are none. -/
theorem nodup_eraseDups {α : Type} [DecidableEq α] (l : List α) : l.eraseDups.Nodup := by
  cases l with
  | nil => exact List.nodup_nil
  | cons a rest =>
    rw [List.eraseDups_cons, List.nodup_cons]
    refine ⟨fun hmem => ?_, nodup_eraseDups (rest.filter fun b => !b == a)⟩
    rw [List.mem_eraseDups, List.mem_filter] at hmem
    simp at hmem
termination_by l.length
decreasing_by exact Nat.lt_succ_of_le (List.length_filter_le _ _)

/-- What lies directly in a package lives in that package. -/
theorem packageNameOf_of_owner {t : SymbolTable} {symbol package : Symbol} {owner : SymbolId}
    (hs : t.get? id = some symbol) (hk : symbol.kind ≠ .package)
    (ho : symbol.owner = some owner) (hp : t.get? owner = some package)
    (hpk : package.kind = .package) : t.packageNameOf id = package.qualifiedName := by
  have howners : ∃ rest, t.owners id = symbol :: package :: rest := by
    refine ⟨t.ownersFrom (hierarchyLimit - 1) package.owner, ?_⟩
    unfold SymbolTable.owners
    show t.ownersFrom (hierarchyLimit - 1 + 1 + 1) (some id) = _
    rw [SymbolTable.ownersFrom, hs]
    dsimp only
    rw [ho, SymbolTable.ownersFrom, hp]
  obtain ⟨rest, howners⟩ := howners
  unfold SymbolTable.packageNameOf
  rw [howners]
  simp [hk, hpk]

theorem importable?_eq_some_iff {symbol : Symbol} (hs : s.symbols.get? id = some symbol)
    (hk : symbol.kind = .type) : s.importable? id = some q ↔ s.IsCandidate symbol.name q id := by
  have hne : symbol.kind ≠ .package := by
    rw [hk]
    exact nofun
  unfold importable?
  rw [hs]
  dsimp only [Option.bind_eq_bind, Option.bind_some]
  constructor
  · intro h
    obtain ⟨owner, ho, h⟩ := Option.bind_eq_some_iff.mp h
    obtain ⟨package, hp, h⟩ := Option.bind_eq_some_iff.mp h
    split at h
    · cases h
    · next hvisible =>
      simp only [Bool.or_eq_true, decide_eq_true_eq, not_or, Bool.not_eq_true, not_not] at hvisible
      obtain ⟨⟨hpk, hprivate⟩, hpackagePrivate⟩ := hvisible
      rw [packageNameOf_of_owner hs hne ho hp hpk] at h
      split at h
      · cases h
      · next hpackage =>
        simp only [Bool.or_eq_true, decide_eq_true_eq, not_or] at hpackage
        exact ⟨symbol, owner, package, hs, ⟨hk, rfl, Option.some.inj h⟩,
          ⟨hprivate, hpackagePrivate⟩, ho, hp, hpk, hpackage⟩
  · rintro ⟨symbol', owner, package, hs', ⟨_, _, rfl⟩, ⟨hprivate, hpackagePrivate⟩, ho, hp, hpk,
      hname, hother⟩
    obtain rfl : symbol = symbol' := Option.some.inj (hs.symm.trans hs')
    rw [ho, Option.bind_some, hp, Option.bind_some, packageNameOf_of_owner hs hne ho hp hpk]
    simp [hpk, hprivate, hpackagePrivate, hname, hother]

/-- For a name the imports of all candidates are offered, and no others. -/
theorem mem_importFixes_iff_of_name (hs : s.symbols.Filed)
    (hname : (s.tree.referenceAt? r).bind Reference.name? = some name) :
    .addImport q ∈ s.importFixes r ↔ ∃ id, s.IsCandidate name q id := by
  have hfixes : s.importFixes r =
      (((s.symbols.typesNamed name).filterMap s.importable?).eraseDups).map Fix.addImport := by
    unfold importFixes
    rw [hname]
  rw [hfixes, List.mem_map]
  simp only [List.mem_eraseDups, List.mem_filterMap, Fix.addImport.injEq, exists_eq_right]
  refine exists_congr fun id => ?_
  rw [(hs.typesNamed name).mem_iff]
  constructor
  · rintro ⟨⟨symbol, hget, hk, rfl⟩, himport⟩
    exact (importable?_eq_some_iff hget hk).mp himport
  · intro hc
    have ⟨symbol, _, _, hget, ⟨hk, hname, _⟩, _⟩ := hc
    refine ⟨⟨symbol, hget, hk, hname⟩, (importable?_eq_some_iff hget hk).mpr ?_⟩
    rw [hname]
    exact hc

theorem mem_importFixes_iff (hs : s.symbols.Filed) (hr : s.tree.IsTypeName r name) :
    .addImport q ∈ s.importFixes r ↔ ∃ id, s.IsCandidate name q id := by
  obtain ⟨reference, hform, _, hname⟩ := hr
  refine mem_importFixes_iff_of_name hs ?_
  unfold Tree.referenceAt?
  rw [hform]
  exact hname

theorem nodup_importFixes (s : Script) (r : NodeId) : (s.importFixes r).Nodup := by
  unfold importFixes
  split
  · exact List.nodup_nil
  · refine (nodup_eraseDups _).map fun a b h => ?_
    cases h
    rfl

/-! ## Looking a type name up -/

theorem lookup_of_isTypeName (hr : s.tree.IsTypeName r name) :
    s.top.lookup r = s.lookupType r name := by
  obtain ⟨reference, hform, hqualifier, hname⟩ := hr
  exact lookup_levelAbove_type hform hname hqualifier

theorem file?_of_root (hroot : s.binding.root = some root)
    (hfile : s.tree.form? root = some (.sourceFile file)) : s.file? = some file := by
  unfold file?
  rw [hroot, Option.bind_some, hfile]

theorem mem_imports_iff (hfile : s.file? = some file) : data ∈ s.imports ↔
    ∃ i, some i ∈ file.imports ∧ s.tree.form? i = some (.importing data) := by
  unfold imports
  rw [hfile, Option.map_some, Option.getD_some, List.mem_filterMap]
  constructor
  · rintro ⟨part, hm, hdata⟩
    split at hdata
    · next found hpart =>
      obtain ⟨i, rfl, hi⟩ := Option.bind_eq_some_iff.mp hpart
      obtain rfl := Option.some.inj hdata
      exact ⟨i, hm, hi⟩
    · cases hdata
  · rintro ⟨i, hm, hi⟩
    refine ⟨some i, hm, ?_⟩
    rw [Option.bind_some, hi]

/-! ## One import more -/

theorem file?_withImport (hroot : s.binding.root = some root)
    (hfile : s.tree.form? root = some (.sourceFile file)) :
    (s.withImport root data span parent).file? =
      some { file with imports := file.imports ++ [some s.tree.size] } :=
  file?_of_root (s := s.withImport root data span parent) hroot (Tree.form?_withImport_root hfile)

/-- The import is there. -/
theorem mem_imports_withImport_self (hroot : s.binding.root = some root)
    (hfile : s.tree.form? root = some (.sourceFile file)) :
    data ∈ (s.withImport root data span parent).imports := by
  rw [mem_imports_iff (file?_withImport hroot hfile)]
  exact ⟨s.tree.size, List.mem_append_right _ (List.mem_singleton_self _),
    Tree.form?_withImport_self⟩

/-- Nothing else is imported that was not before. -/
theorem mem_imports_of_withImport (hroot : s.binding.root = some root)
    (hfile : s.tree.form? root = some (.sourceFile file)) {other : Import}
    (h : other ∈ (s.withImport root data span parent).imports) :
    other ∈ s.imports ∨ other = data := by
  obtain ⟨i, hm, hi⟩ := (mem_imports_iff (file?_withImport hroot hfile)).mp h
  have hheld : Form.Rewritten (some s.tree.size) data (s.tree.form? i)
      (some (.importing other)) := hi ▸ Tree.form?_withImport i
  rcases hheld.importing with hold | heq
  · refine Or.inl ((mem_imports_iff (file?_of_root hroot hfile)).mpr ⟨i, ?_, hold⟩)
    -- The new node was not there, so this is one of the imports before it.
    rcases List.mem_append.mp hm with hm | hm
    · exact hm
    · have hsize : i = s.tree.size := Option.some.inj (List.mem_singleton.mp hm)
      exact absurd (Tree.lt_size_of_form? hold) (Nat.not_lt.mpr (Nat.le_of_eq hsize.symm))
  · exact Or.inr heq

/-- A name that no import brought in is brought in by the new one. -/
theorem importedType?_withImport (hroot : s.binding.root = some root)
    (hfile : s.tree.form? root = some (.sourceFile file)) (hnone : s.importedType? name = none)
    (hlast : Dotted.last q = name) (hq : s.symbols.type? q = some id) :
    (s.withImport root (.single q) span parent).importedType? name = some id := by
  let brings : Import → Option SymbolId := fun data =>
    if !data.onDemand && !data.isStatic && importedName data = name then
      s.symbols.type? data.path
    else none
  have hold : ∀ data ∈ s.imports, brings data = none := List.findSome?_eq_none_iff.mp hnone
  have hnew : brings (.single q) = some id := by
    have hname : importedName (.single q) = name := hlast
    show (if !false && !false && importedName (.single q) = name then s.symbols.type? q
      else none) = some id
    rw [hname, hq]
    simp
  show (s.withImport root (.single q) span parent).imports.findSome? brings = some id
  cases hfound : (s.withImport root (.single q) span parent).imports.findSome? brings with
  | none =>
    have hmem : Import.single q ∈ (s.withImport root (.single q) span parent).imports :=
      mem_imports_withImport_self hroot hfile
    rw [List.findSome?_eq_none_iff.mp hfound _ hmem] at hnew
    cases hnew
  | some other =>
    obtain ⟨data, hmem, hdata⟩ := List.exists_of_findSome?_eq_some hfound
    rcases mem_imports_of_withImport hroot hfile hmem with hmem | rfl
    · rw [hold data hmem] at hdata
      cases hdata
    · exact hdata.symm.trans hnew

/-- The types around another node are the same. -/
theorem enclosingTypes_withImport (hr : r ≠ s.tree.size)
    (hoff : parent = none ∨ s.tree.size ∉ s.tree.ancestors r) :
    (s.withImport root data span parent).enclosingTypes r = s.enclosingTypes r := by
  unfold enclosingTypes
  show (((s.tree.withImport root data span parent).ancestors r).filter
    ((s.tree.withImport root data span parent).isOneOf [.typeDeclaration])).filterMap _ = _
  have hkinds : (s.tree.withImport root data span parent).isOneOf [.typeDeclaration] =
      s.tree.isOneOf [.typeDeclaration] := funext (Tree.isOneOf_withImport (by decide))
  rw [Tree.ancestors_withImport hr hoff, hkinds]
  rfl

/-- The types of the file are the same. -/
theorem fileType?_withImport (hroot : s.binding.root = some root)
    (hfile : s.tree.form? root = some (.sourceFile file)) :
    (s.withImport root data span parent).fileType? name = s.fileType? name := by
  have hstatements : (s.withImport root data span parent).statements = s.statements := by
    unfold statements
    rw [file?_withImport hroot hfile, file?_of_root hroot hfile]
    rfl
  unfold fileType?
  rw [hstatements]
  refine congrArg (List.findSome? · s.statements) (funext fun statement => ?_)
  cases statement with
  | none => rfl
  | some i =>
    show (if (s.tree.withImport root data span parent).isOneOf [.typeDeclaration] i &&
      (s.tree.withImport root data span parent).declaredName? i = some name then _ else _) = _
    rw [Tree.isOneOf_withImport (by decide), Tree.declaredName?_withImport]
    rfl

/-- A name that stood for nothing stands for the class that is imported. -/
theorem lookupType_withImport (hroot : s.binding.root = some root)
    (hfile : s.tree.form? root = some (.sourceFile file)) (hr : r ≠ s.tree.size)
    (hoff : parent = none ∨ s.tree.size ∉ s.tree.ancestors r)
    (hnone : s.lookupType r name = none) (hlast : Dotted.last q = name)
    (hq : s.symbols.type? q = some id) :
    (s.withImport root (.single q) span parent).lookupType r name = some id := by
  unfold lookupType at hnone
  simp only [Option.orElse_eq_none] at hnone
  obtain ⟨henclosing, hfileType, himported, _⟩ := hnone
  have henclosing' : (s.withImport root (.single q) span parent).enclosingType? r name = none := by
    unfold enclosingType?
    rw [enclosingTypes_withImport hr hoff]
    exact henclosing
  unfold lookupType
  rw [henclosing', fileType?_withImport hroot hfile, hfileType,
    importedType?_withImport hroot hfile himported hlast hq]
  rfl

/-! ## Repairs -/

/-- A candidate is registered under its qualified name, which ends in the name it is wanted for. -/
theorem IsCandidate.type?_and_last (hs : s.symbols.Consistent) (hnamed : s.symbols.SimplyNamed)
    (hdot : '.' ∉ name.toList) (h : s.IsCandidate name q id) :
    s.symbols.type? q = some id ∧ Dotted.last q = name := by
  obtain ⟨symbol, _, _, hget, ⟨hk, rfl, rfl⟩, _⟩ := h
  exact ⟨hs.type?_of_get? hget hk rfl, hnamed id symbol hget hk hdot⟩

/-- For a plain name in type position that stands for nothing, the imports of exactly the candidates
    are offered, and no class twice. With any one of them written at the end of the imports of the
    file, the name stands for the class that is registered under what was imported, whatever the
    range and the parent of the new import. A tree whose links were set by hand may lead from the
    name to a node that is not there yet; if that is the new import, it must have no parent. -/
theorem resolve_importFixes {s : Script} (hs : s.binding.Bound)
    (hroot : s.binding.root = some root) (hfile : s.tree.form? root = some (.sourceFile file))
    (hr : s.tree.IsTypeName r name) (hdot : '.' ∉ name.toList)
    (hunresolved : s.resolve r = .unresolved) :
    (s.importFixes r).Nodup ∧
      (∀ q, .addImport q ∈ s.importFixes r ↔ ∃ id, s.IsCandidate name q id) ∧
      (∀ q q', .addImport q ∈ s.importFixes r → .addImport q' ∈ s.importFixes r →
        s.symbols.type? q = s.symbols.type? q' → q = q') ∧
      ∀ q, .addImport q ∈ s.importFixes r → ∃ id, s.symbols.type? q = some id ∧
        ∀ span parent, (parent = none ∨ s.tree.size ∉ s.tree.ancestors r) →
          ((s.withImport root (.single q) span parent).resolve r).symbol? = some id := by
  have hc : s.symbols.Consistent := hs.consistent
  have hfiled : s.symbols.Filed := hs.steps.induct SymbolTable.filed_empty SymbolTable.Filed.step
  have hnamed : s.symbols.SimplyNamed :=
    hs.steps.induct SymbolTable.simplyNamed_empty SymbolTable.SimplyNamed.step
  have hoffered : ∀ q, .addImport q ∈ s.importFixes r →
      ∃ id, s.symbols.type? q = some id ∧ Dotted.last q = name := by
    intro q hq
    obtain ⟨id, hcandidate⟩ := (mem_importFixes_iff hfiled hr).mp hq
    exact ⟨id, hcandidate.type?_and_last hc hnamed hdot⟩
  refine ⟨nodup_importFixes s r, fun q => mem_importFixes_iff hfiled hr, fun q q' hq hq' heq => ?_,
    fun q hq => ?_⟩
  · obtain ⟨id, hid, _⟩ := hoffered q hq
    obtain ⟨symbol, hget, _, hname⟩ := hc.get?_of_type? hid
    obtain ⟨symbol', hget', _, hname'⟩ := hc.get?_of_type? (heq.symm.trans hid)
    rw [← hname, ← hname', Option.some.inj (hget.symm.trans hget')]
  · obtain ⟨id, hid, hlast⟩ := hoffered q hq
    refine ⟨id, hid, fun span parent hoff => ?_⟩
    obtain ⟨reference, hform, hplain⟩ := hr
    have hnone : s.lookupType r name = none := by
      rw [← lookup_of_isTypeName ⟨reference, hform, hplain⟩, ← symbol?_resolve, hunresolved]
      rfl
    have hne : r ≠ s.tree.size := Nat.ne_of_lt (Tree.lt_size_of_form? hform)
    have hr' : (s.withImport root (.single q) span parent).tree.IsTypeName r name :=
      ⟨reference, Tree.form?_withImport_of_reference hform, hplain⟩
    rw [symbol?_resolve, lookup_of_isTypeName hr']
    exact lookupType_withImport hroot hfile hne hoff hnone hlast hid

end

/-! ## Two classes to choose from -/

/-- A file of the package `app` that uses the type `Item`. It imports a class of that name, but one
    that is not there. -/
def orderTree : Tree :=
  .ofNodes
    [(.package "app", .none),
      (.importing (.single "gone.Item"), .none),
      (.reference .type ⟨none, some "Item", default⟩, .none),
      (.identifier "item", .none),
      (.variableLike .localVariable ⟨some 3, some 2, none, false⟩, .none),
      (.sourceFile ⟨"order", some 0, [some 1], [some 4]⟩, .none)]

/-- Classes of the name in the default package, in two others, and inside another class. -/
def orderLibrary : SymbolTable :=
  let t := (SymbolTable.empty.addType "Item" .none []).1
  let t := (t.addType "shop.Item" .none []).1
  let t := (t.addType "app.model.Item" .none []).1
  (t.addNestedType 3 "Item" .none none).1

theorem orderLibrary_grown : orderLibrary.Grown :=
  .nestedType (.type (.type (.type .start _ _ _) _ _ _) _ _ _) _ _ _ _

/-- The file on top of the library. -/
def order : Script := ofFile orderLibrary orderTree 5 []

theorem order_bound : order.binding.Bound := .file (.libraries orderLibrary_grown) orderTree 5

/-- Two imports are offered, and either one gives `Item` its class. -/
theorem resolve_importFixes_order :
    (order.resolve 2 = .unresolved ∧
      order.importFixes 2 = [.addImport "shop.Item", .addImport "app.model.Item"]) ∧
    ∀ q, .addImport q ∈ order.importFixes 2 → ∃ id, order.symbols.type? q = some id ∧
      ((order.withImport 5 (.single q) default (some 5)).resolve 2).symbol? = some id := by
  have hunresolved : order.resolve 2 = .unresolved := by decide +kernel
  have hname : order.tree.IsTypeName 2 "Item" := ⟨_, rfl, rfl, rfl⟩
  refine ⟨⟨hunresolved, by decide +kernel⟩, fun q hq => ?_⟩
  obtain ⟨id, hid, hresolves⟩ :=
    (resolve_importFixes order_bound rfl rfl hname (by decide) hunresolved).2.2.2 q hq
  exact ⟨id, hid, hresolves default (some 5)
    (Or.inr ((Tree.built_ofNodes _).size_not_mem_ancestors 2))⟩

end Script

end ScriptCheck
