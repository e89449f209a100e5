/-
  Lexical scoping of local variables.

  A name that stands for a local variable is used where the variable is seen
  (`SeenFrom`). The other way round, the innermost block that declares a name
  before its use decides what it means, unless a scope further inside offers the
  name (`Offers`). `resolve_local` says both. The first part has two exceptions:
  what stands in the header of a file sees all variables of the file, and `this`
  can stand for a variable that a type body is the value of. For the second part,
  the block has to be one that binding visits.
-/
import ScriptCheck.Proofs.Script.File
import ScriptCheck.Proofs.Script.Offers
import ScriptCheck.Proofs.Script.QualifiedNames

namespace ScriptCheck.Script

section

variable {s : Script} {name : String} {count : Option Nat} {inType : Bool}
  {child scope root d B r : NodeId} {id : SymbolId} {statements : List Part}

/-! ## What stands for a local variable -/

theorem hasKind_of_variable (hs : Binding.Sound s.tree root s.binding) (ht : s.tree.Built)
    (hd : s.symbolOf? d = some id) (hkind : s.tree.isOneOf [.variableDeclaration] d = true) :
    s.HasKind [.variableSymbol] id := by
  refine hasKind_of_symbolOf? hs ht.edited hd hkind fun form hk k hsk => ?_
  cases form with
  | variableLike role data =>
    cases role with
    | localVariable => exact List.mem_singleton.mpr (Option.some.inj hsk).symm
    | _ => cases hk
  | reference role data => cases role <;> cases hk
  | collection role elements => cases role <;> cases hk
  | _ => cases hk

/-- A local variable is declared by one node. -/
theorem eq_of_symbolOf? (hs : Binding.Sound s.tree root s.binding)
    (hvar : s.HasKind [.variableSymbol] id) {i : NodeId} (hi : s.symbolOf? i = some id)
    (hd : s.symbolOf? d = some id) : i = d := by
  obtain ⟨symbol, hget, hk⟩ := hvar
  have hne : symbol.kind ≠ .type := by
    rw [List.mem_singleton.mp hk]
    decide
  have hdeclaration : ∀ {j}, s.symbolOf? j = some id → symbol.declaration = some j := by
    intro j hj
    obtain ⟨symbol', hget', hd⟩ := hs.declared (Binding.mem_declared_of_symbolOf? hj)
    obtain rfl : symbol = symbol' := Option.some.inj (hget.symm.trans hget')
    exact hd.declaration hne
  exact Option.some.inj ((hdeclaration hi).symm.trans (hdeclaration hd))

/-- What stands for a name in a type body is a member, unless it is `this`. -/
theorem hasKind_of_offeredInType (hs : s.symbols.Consistent) {body : NodeId}
    (h : s.offeredInType name count body = some id) :
    s.HasKind [.field, .type, .method] id ∨
      (name = "this" ∧ ∃ i, s.tree.parent? body = some i ∧ s.symbolOf? i = some id) := by
  obtain ⟨type, htype, hm⟩ := Option.bind_eq_some_iff.mp h
  obtain ⟨i, hi, hid⟩ := Option.bind_eq_some_iff.mp htype
  unfold classScopeMember at hm
  split at hm
  · next hthis => exact Or.inr ⟨hthis, i, hi, hid.trans hm⟩
  · left
    split at hm
    · have hparent : id ∈ s.supertypesOf type := List.mem_of_mem_head? hm
      exact (hasKind_of_isType (isType_of_mem_supertypesOf hs hparent)).mono (by decide)
    · exact hasKind_of_memberWith hm

/-- A scope that offers a local variable of a block or file is that block or file, or a type body
    that is the value of the variable. -/
theorem Offers.of_variable (hs : Binding.Sound s.tree root s.binding) (ht : s.tree.WellShaped)
    (h : s.Offers name count inType child scope id) (hd : s.symbolOf? d = some id)
    (hkind : s.tree.isOneOf [.variableDeclaration] d = true)
    (hB : some d ∈ s.tree.statementsOf B) :
    (scope = B ∧ s.tree.LastLocal name (s.tree.statementsBefore B child) d ∧
        (s.tree.isOneOf [.sourceFile] B = true → inType = false)) ∨
      (name = "this" ∧ s.tree.kind? scope = some .classBody ∧ s.tree.parent? scope = some d) := by
  have hvar := hasKind_of_variable hs ht.built hd hkind
  have hunique : ∀ {i}, s.symbolOf? i = some id → i = d := fun hi => eq_of_symbolOf? hs hvar hi hd
  have hlt : d < s.tree.size := (hs.reached (Binding.mem_declared_of_symbolOf? hd)).lt_size
  have hscope : ∀ {x}, some d ∈ s.tree.children x → x = B := fun hx =>
    ht.part_unique hlt hx (Tree.mem_children_of_statementsOf hB)
  -- Whatever is offered under the symbol of `d` is `d`, and `d` is a part of one node only.
  cases h with
  | localVariable hlast hid hfile =>
    obtain rfl := hunique hid
    obtain rfl := hscope (Tree.mem_children_of_statementsOf (Tree.mem_statementsOf hlast.mem))
    exact Or.inl ⟨rfl, hlast, hfile⟩
  | parameter hm _ hid =>
    obtain rfl := hunique hid
    obtain ⟨hc, hnil⟩ := Tree.mem_children_of_parameters hm
    obtain rfl := hscope hc
    rw [hnil] at hB
    cases hB
  | it _ _ hid =>
    obtain ⟨symbol, hget, hk⟩ := hs.implicit (Binding.mem_of_lookup hid)
    have hparam : s.HasKind [.parameter] id := ⟨symbol, hget, List.mem_singleton.mpr hk⟩
    exact (hvar.disjoint hparam (by decide)).elim
  | loopVariable _ hi _ hid =>
    obtain rfl := hunique hid
    obtain ⟨header, hc, hnil⟩ := Tree.mem_children_of_loopVariable hi
    obtain rfl := hscope hc
    rw [hnil] at hB
    cases hB
  | member hbody hid =>
    rcases hasKind_of_offeredInType hs.consistent hid with hmember | ⟨hthis, i, hi, hid⟩
    · exact (hvar.disjoint hmember (by decide)).elim
    · obtain rfl := hunique hid
      exact Or.inr ⟨hthis, Tree.isOneOf_singleton_iff.mp hbody, hi⟩
  | method _ _ _ hmethod _ hid =>
    obtain rfl := hunique hid
    rw [Tree.isOneOf_singleton_iff] at hkind hmethod
    rw [hmethod] at hkind
    cases hkind

/-! ## What a name resolves to -/

theorem lookup_of_isValueName (hr : s.tree.IsValueName r name) :
    s.top.lookup r =
      (s.lookupValue (classScopeMember s.supertypesOf (s.findMember · · · 0))
          (s.level qualifierLimit).member r name (s.argumentCount? r) <|>
        s.lookupType r name) := by
  obtain ⟨data, hform, hqualifier, hname⟩ := hr
  exact lookup_levelAbove_value hform hname hqualifier

/-- Local variables may be used wherever they are found. -/
theorem resolve_eq_accessible (hvar : s.HasKind [.variableSymbol] id)
    (h : s.top.lookup r = some id) : s.resolve r = .accessible id := by
  have hmay : s.isAccessible id r = true := by
    obtain ⟨symbol, hget, hk⟩ := hvar
    unfold isAccessible
    rw [hget]
    dsimp only
    rw [List.mem_singleton.mp hk]
  have hsymbol : (s.resolve r).symbol? = some id := (symbol?_resolve s r).trans h
  exact (resolveWith_of_symbol? hsymbol).trans (if_pos hmay)

/-- What a name that stands for a local variable says about the place of the variable. -/
theorem seenFrom_of_lookup (hs : Binding.Sound s.tree root s.binding) (ht : s.tree.WellShaped)
    (hc : s.Covered) (hr : s.tree.IsValueName r name) (h : s.top.lookup r = some id)
    (hd : s.symbolOf? d = some id) (hkind : s.tree.isOneOf [.variableDeclaration] d = true)
    (hB : some d ∈ s.tree.statementsOf B) :
    s.tree.SeenFrom r name B d ∨ s.tree.SeenFromHeader r name B d ∨
      (name = "this" ∧ ∃ body ∈ s.tree.ancestors r,
        s.tree.kind? body = some .classBody ∧ s.tree.parent? body = some d) := by
  have hvar := hasKind_of_variable hs ht.built hd hkind
  rw [lookup_of_isValueName hr] at h
  -- A scope, a static import or a type: the last two never give a local variable.
  rcases eq_some_of_orElse h with h | ⟨_, h⟩
  · rcases eq_some_of_orElse h with h | ⟨_, h⟩
    · obtain ⟨inner, scope, outer, hsplit, ho⟩ := searchScopes_eq_some h
      rw [Bool.false_or] at ho
      have hpath : s.tree.PathTo r scope inner := ⟨outer, hsplit⟩
      rcases (offers_of_offered? ht.built hc ho).of_variable hs ht hd hkind hB with
        ⟨rfl, hlast, hfile⟩ | ⟨hthis, hbody, hp⟩
      · have hbodies : s.tree.isOneOf [.sourceFile] scope = true →
            ∀ x ∈ inner, s.tree.kind? x ≠ some .classBody := by
          intro hk x hx hbody
          have hno := hfile hk
          unfold passesBody at hno
          rw [List.any_eq_false] at hno
          exact hno x hx (decide_eq_true hbody)
        by_cases hm : some (inner.getLastD r) ∈ s.tree.statementsOf scope
        · exact Or.inl ⟨inner, hpath, hm, hlast, hbodies⟩
        · have hpart := (ht.parent?_eq_some_iff.mp hpath.parent?).1
          obtain ⟨file, hform, hheader⟩ := (Tree.mem_statementsOf_or_header hpart
            (List.ne_nil_of_mem hB)).resolve_left hm
          rw [Tree.statementsBefore_eq hm] at hlast
          have hk : s.tree.isOneOf [.sourceFile] scope = true :=
            Tree.isOneOf_singleton_iff.mpr (ht.built.kind?_of_form? hform)
          exact Or.inr (Or.inl
            ⟨inner, file, hpath, hform, hheader, Tree.statementsOf_file hform ▸ hlast, hbodies hk⟩)
      · exact Or.inr (Or.inr ⟨hthis, scope, hpath.mem, hbody, hp⟩)
    · have himported : s.HasKind [.field, .type, .method] id :=
        hasKind_of_staticImport? (fun hm => hasKind_of_memberWith hm) h
      exact (hvar.disjoint himported (by decide)).elim
  · exact (hvar.disjoint (hasKind_of_lookupType hs ht.built h) (by decide)).elim

/-- The innermost scope that offers something for a name decides what it means. -/
theorem lookup_of_offered (ht : s.tree.WellShaped) (hc : s.Covered)
    (hr : s.tree.IsValueName r name) {inner : List NodeId} (hpath : s.tree.PathTo r scope inner)
    (hoffer : s.offered? (classScopeMember s.supertypesOf (s.findMember · · · 0) · name
      (s.argumentCount? r)) (s.pickOverload · (s.argumentCount? r)) name (s.passesBody inner)
      (inner.getLastD r) scope = some id)
    (hnone : ∀ before x after, inner = before ++ x :: after → ∀ other,
      ¬s.Offers name (s.argumentCount? r) (s.passesBody before) (before.getLastD r) x other) :
    s.top.lookup r = some id := by
  have hthere : ∀ x ∈ inner ++ [scope], (s.tree.kind? x).isSome = true := by
    intro x hx
    obtain ⟨outer, hsplit⟩ := hpath
    refine ht.isSome_kind?_of_mem_ancestors (i := r) ?_
    rw [hsplit, List.append_cons]
    exact List.mem_append_left _ hx
  rw [lookup_of_isValueName hr]
  unfold lookupValue
  obtain ⟨outer, hsplit⟩ := hpath
  have hsearch : s.searchScopes
      (s.offered? (classScopeMember s.supertypesOf (s.findMember · · · 0) · name
        (s.argumentCount? r)) (s.pickOverload · (s.argumentCount? r)) name)
      false r (inner ++ scope :: outer) = some id := by
    refine searchScopes_append hthere ?_ ?_
    · intro before x after hx other ho
      rw [Bool.false_or] at ho
      exact absurd (offers_of_offered? ht.built hc ho) (hnone before x after hx other)
    · rw [Bool.false_or]
      exact hoffer
  rw [hsplit, hsearch]
  rfl

/-- The innermost block that declares a name before its use decides what it means. -/
theorem lookup_of_innermost (ht : s.tree.WellShaped) (hc : s.Covered)
    (hr : s.tree.IsValueName r name) {inner : List NodeId}
    (hform : s.tree.form? B = some (.block statements)) (hpath : s.tree.PathTo r B inner)
    (hlast : s.tree.LastLocal name (s.tree.statementsBefore B (inner.getLastD r)) d)
    (hd : s.symbolOf? d = some id)
    (hnone : ∀ before x after, inner = before ++ x :: after → ∀ other,
      ¬s.Offers name (s.argumentCount? r) (s.passesBody before) (before.getLastD r) x other) :
    s.top.lookup r = some id := by
  have hstatements := Tree.statementsOf_block hform
  have hbefore : s.declaredBefore? statements (inner.getLastD r) name = some id := by
    refine (declaredBefore?_eq_some_iff fun i hm hi => ?_).mpr ⟨d, hstatements ▸ hlast, hd⟩
    have hname := of_decide_eq_true (Bool.and_eq_true_iff.mp hi).2
    exact hc (Tree.mem_statementsOf hlast.mem) hd (hstatements ▸ hm) hname
  refine lookup_of_offered ht hc hr hpath ?_ hnone
  unfold offered? Tree.isOneOf
  rw [ht.built.kind?_of_form? hform, hform]
  exact hbefore

end

section

variable {lib : SymbolTable} {t : Tree} {root r : NodeId} {name : String}
  {imports : List String}

/-! ## Scoping in a file -/

theorem covered_ofFile (hlib : lib.Grown) (ht : t.WellShaped) :
    (ofFile lib t root imports).Covered := by
  intro scope d i id name hd hid hi hname
  have hreached : t.Reached root d :=
    (Binding.bindFile_sound hlib.consistent t root).reached (Binding.mem_declared_of_symbolOf? hid)
  exact Binding.exists_symbolOf? ht
    (hreached.beside ht hd hi (Tree.lt_size_of_declaredName? hname)) hname _

/-- Local variables are lexically scoped. A name that resolves to a variable declared among the
    statements of a block or file is used inside of it, after the declaration and with no other one
    of the name in between, unless it stands in the header of the file or is the `this` of a type
    body inside the declaration. And a name that is declared before its use in a block around it
    resolves to the last such variable, unless a scope further inside offers the name. -/
theorem resolve_local (hlib : lib.Grown) (ht : t.WellShaped) (hr : t.IsValueName r name) :
    (∀ d scope id, (ofFile lib t root imports).symbolOf? d = some id →
      t.isOneOf [.variableDeclaration] d = true → some d ∈ t.statementsOf scope →
      ((ofFile lib t root imports).resolve r).symbol? = some id →
        t.SeenFrom r name scope d ∨ t.SeenFromHeader r name scope d ∨
          (name = "this" ∧ ∃ body ∈ t.ancestors r,
            t.kind? body = some .classBody ∧ t.parent? body = some d)) ∧
    (∀ scope statements inner, t.form? scope = some (.block statements) → t.Reached root scope →
      t.PathTo r scope inner →
      (∃ i, some i ∈ t.statementsBefore scope (inner.getLastD r) ∧
        t.declaresLocal name i = true) →
      (∀ before x after, inner = before ++ x :: after → ∀ other,
        ¬(ofFile lib t root imports).Offers name
          ((ofFile lib t root imports).argumentCount? r)
          ((ofFile lib t root imports).passesBody before) (before.getLastD r) x other) →
        ∃ d id, t.LastLocal name (t.statementsBefore scope (inner.getLastD r)) d ∧
          (ofFile lib t root imports).symbolOf? d = some id ∧
          (ofFile lib t root imports).resolve r = .accessible id ∧
          (ofFile lib t root imports).HasKind [.variableSymbol] id) := by
  have hs : Binding.Sound t root (ofFile lib t root imports).binding :=
    Binding.bindFile_sound hlib.consistent t root
  have hc : (ofFile lib t root imports).Covered := covered_ofFile hlib ht
  constructor
  · intro d scope id hd hkind hscope hfound
    rw [symbol?_resolve] at hfound
    exact seenFrom_of_lookup hs ht hc hr hfound hd hkind hscope
  · intro scope statements inner hform hreached hpath hlocal hnone
    obtain ⟨d, hlast⟩ := Tree.exists_lastLocal hlocal
    have hm := Tree.mem_statementsOf hlast.mem
    obtain ⟨_, _, _, hlocal, _⟩ := id hlast
    obtain ⟨hkind, hname⟩ := Bool.and_eq_true_iff.mp hlocal
    have hname := of_decide_eq_true hname
    obtain ⟨id, hd⟩ : ∃ id, (ofFile lib t root imports).symbolOf? d = some id :=
      Binding.exists_symbolOf? ht (.part hreached (Tree.mem_children_of_statementsOf hm)
        (Tree.lt_size_of_declaredName? hname)) hname _
    have hvar : (ofFile lib t root imports).HasKind [.variableSymbol] id :=
      hasKind_of_variable hs ht.built hd hkind
    have hfound := lookup_of_innermost ht hc hr hform hpath hlast hd hnone
    exact ⟨d, id, hlast, hd, resolve_eq_accessible hvar hfound, hvar⟩

end

/-! ## A block and some oddities -/

/-- A file with a block that declares `x` and uses it. -/
def blockTree : Tree :=
  .ofNodes
    [(.identifier "x", .none),
      (.variableLike .localVariable ⟨some 0, none, none, false⟩, .none),
      (.reference .value ⟨none, some "x", default⟩, .none),
      (.block [some 1, some 2], .none),
      (.sourceFile ⟨"block", none, [], [some 3]⟩, .none)]

theorem blockTree_wellShaped : blockTree.WellShaped :=
  (Tree.built_ofNodes _).wellShaped (by decide +kernel)

theorem blockTree_isValueName : blockTree.IsValueName 2 "x" :=
  ⟨_, rfl, rfl, rfl⟩

/-- The file without a library. -/
def block : Script := ofFile .empty blockTree 4 []

/-- The use sees the declaration, and resolves to it. -/
theorem resolve_local_block :
    (blockTree.SeenFrom 2 "x" 3 1 ∨ blockTree.SeenFromHeader 2 "x" 3 1 ∨
      ("x" = "this" ∧ ∃ body ∈ blockTree.ancestors 2,
        blockTree.kind? body = some .classBody ∧ blockTree.parent? body = some 1)) ∧
    ∃ d id, blockTree.LastLocal "x" (blockTree.statementsBefore 3 2) d ∧
      block.symbolOf? d = some id ∧ block.resolve 2 = .accessible id ∧
      block.HasKind [.variableSymbol] id := by
  have hreached : blockTree.Reached 4 3 :=
    .statement (show blockTree.form? 4 = some (.sourceFile ⟨"block", none, [], [some 3]⟩) from rfl)
      List.mem_cons_self (by decide +kernel)
  obtain ⟨hseen, hfound⟩ :=
    @resolve_local .empty blockTree 4 2 "x" [] .start blockTree_wellShaped blockTree_isValueName
  constructor
  · exact hseen 1 3 1 (by decide +kernel) (by decide +kernel) (by decide +kernel)
      (by decide +kernel)
  · refine hfound 3 [some 1, some 2] [] rfl hreached ⟨[4], by decide +kernel⟩
      ⟨1, by decide +kernel, by decide +kernel⟩ ?_
    intro before x after h
    cases before <;> cases h

/-- A file that uses `x` among its imports and has a block there that declares `y` and uses it. Its
    statements declare `x`, and `v`, whose value is a type body with a `this` in it. -/
def oddTree : Tree :=
  .ofNodes
    [(.identifier "x", .none),
      (.variableLike .localVariable ⟨some 0, none, none, false⟩, .none),
      (.reference .value ⟨none, some "x", default⟩, .none),
      (.identifier "y", .none),
      (.variableLike .localVariable ⟨some 3, none, none, false⟩, .none),
      (.reference .value ⟨none, some "y", default⟩, .none),
      (.block [some 4, some 5], .none),
      (.identifier "v", .none),
      (.reference .value ⟨none, some "this", default⟩, .none),
      (.classBody [some 8], .none),
      (.variableLike .localVariable ⟨some 7, none, some 9, false⟩, .none),
      (.sourceFile ⟨"odd", none, [some 2, some 6], [some 1, some 10]⟩, .none)]

theorem oddTree_wellShaped : oddTree.WellShaped :=
  (Tree.built_ofNodes _).wellShaped (by decide +kernel)

/-- The file without a library. -/
def odd : Script := ofFile .empty oddTree 11 []

/-- The `x` of the imports and the `this` resolve to variables that do not stand in statements
    before them, and `y` is not found, although it is declared right before its use. -/
theorem resolve_odd :
    oddTree.WellShaped ∧
    (oddTree.IsValueName 2 "x" ∧ some 1 ∈ oddTree.statementsOf 11 ∧
      ∃ id, odd.symbolOf? 1 = some id ∧ odd.resolve 2 = .accessible id ∧
        ¬oddTree.SeenFrom 2 "x" 11 1) ∧
    (oddTree.IsValueName 8 "this" ∧ some 10 ∈ oddTree.statementsOf 11 ∧
      ∃ id, odd.symbolOf? 10 = some id ∧ odd.resolve 8 = .accessible id ∧
        ¬oddTree.SeenFrom 8 "this" 11 10) ∧
    (oddTree.IsValueName 5 "y" ∧ oddTree.form? 6 = some (.block [some 4, some 5]) ∧
      oddTree.PathTo 5 6 [] ∧ oddTree.LastLocal "y" (oddTree.statementsBefore 6 5) 4 ∧
      odd.resolve 5 = .unresolved) := by
  have himport : ¬oddTree.SeenFrom 2 "x" 11 1 := by
    -- The way up from the import is the file alone.
    rintro ⟨inner, ⟨outer, hpath⟩, hm, _⟩
    rw [show oddTree.ancestors 2 = [11] by decide +kernel] at hpath
    cases inner with
    | nil => exact absurd hm (by decide +kernel)
    | cons _ inner => simp at hpath
  have hthis : ¬oddTree.SeenFrom 8 "this" 11 10 := by
    -- The statement around `this` is the declaration itself.
    rintro ⟨inner, ⟨outer, hpath⟩, _, hlast, _⟩
    rw [show oddTree.ancestors 8 = [9, 10, 11] by decide +kernel] at hpath
    rcases inner with _ | ⟨_, _ | ⟨_, _ | ⟨_, inner⟩⟩⟩
    · simp at hpath
    · simp at hpath
    · simp only [List.cons_append, List.nil_append, List.cons.injEq] at hpath
      obtain ⟨rfl, rfl, _⟩ := hpath
      exact absurd hlast.mem (by decide +kernel)
    · simp at hpath
  refine ⟨oddTree_wellShaped, ⟨⟨_, rfl, rfl, rfl⟩, by decide +kernel, 1, ?_, ?_, himport⟩,
    ⟨⟨_, rfl, rfl, rfl⟩, by decide +kernel, 2, ?_, ?_, hthis⟩,
    ⟨_, rfl, rfl, rfl⟩, rfl, ⟨[11], ?_⟩, ⟨[], [], ?_, ?_, nofun⟩, ?_⟩
  all_goals decide +kernel

end ScriptCheck.Script
