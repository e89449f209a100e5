/-
  The diagnostic policy.

  `Due` is the policy: it lists what is to be reported at a node and for which
  reason, given the tree and what the host answers, one question after the
  other. `annotate_policy` says that annotating a node reports what is due and
  nothing else.

  The policy speaks of the nearest method or field around a name. Upward walks
  end after a limited number of steps, and so does this notion: about a name
  that is nested too deeply in a static method, nothing is reported.
-/
import ScriptCheck.Proofs.Annotation.Isolation
import ScriptCheck.Proofs.Annotation.Reports

namespace ScriptCheck

/-! ## The policy -/

namespace Checker

/-- What is due at a node. The host is asked from a numbering of types, and every answer may leave
    another one, the last of which comes with the finding. -/
inductive Due (c : Checker) (i : NodeId) (types : Interner) : Finding → Interner → Prop
  /-- The right side of a plain assignment does not go into the left side. -/
  | assignment {left right : Part} {target source : TypeId} {types₁ types₂ : Interner}
    (hform : c.tree.form? i = some (.assignment left .assign right))
    (hleft : (c.host.expressionType left).Gives types (some target) types₁)
    (hright : (c.host.expressionType right).Gives types₁ (some source) types₂)
    (hmisfit : TypeWorld.isAssignable ⟨types₂, c.hierarchy⟩ target source = false) :
    Due c i types
      ⟨.warning, right, .cannotAssign, [types₂.text source, types₂.text target], .generic, []⟩
      types₂
  /-- An initial value does not go into its variable. -/
  | initial {role : VariableRole} {data : Variable} {value : NodeId} {target source : TypeId}
    {types₁ types₂ : Interner}
    (hform : c.tree.form? i = some (.variableLike role data)) (hvalue : data.initial = some value)
    (hsource : (c.host.expressionType (some value)).Gives types (some source) types₁)
    (htarget : (c.host.declaredType i).Gives types₁ (some target) types₂)
    (hmisfit : TypeWorld.isAssignable ⟨types₂, c.hierarchy⟩ target source = false) :
    Due c i types
      ⟨.warning, some value, .cannotAssign, [types₂.text source, types₂.text target], .generic, []⟩
      types₂
  /-- A type is declared in the body of another one, under a name that is there. -/
  | innerNamed {data : TypeDecl} {body name : NodeId}
    (hform : c.tree.form? i = some (.typeDecl data)) (hbody : c.tree.parent? i = some body)
    (hkind : c.tree.kind? body = some .classBody) (hname : data.name = some name)
    (hthere : name < c.tree.size) :
    Due c i types ⟨.error, some name, .innerClass, [], .generic, []⟩ types
  /-- A type is declared in the body of another one, and its name is not there. -/
  | innerUnnamed {data : TypeDecl} {body : NodeId}
    (hform : c.tree.form? i = some (.typeDecl data)) (hbody : c.tree.parent? i = some body)
    (hkind : c.tree.kind? body = some .classBody)
    (hname : ∀ name, data.name = some name → c.tree.size ≤ name) :
    Due c i types ⟨.error, some i, .innerClass, [], .generic, []⟩ types
  /-- A value is used that may not be used there. -/
  | inaccessibleValue {data : Reference} {name : String} {symbol : SymbolId} {types₁ : Interner}
    (hform : c.tree.form? i = some (.reference .value data)) (hname : data.name? = some name)
    (hresolve : (c.host.resolve i).Gives types (.inaccessible symbol) types₁) :
    Due c i types ⟨.warning, some i, .cannotAccess, [name], .generic, []⟩ types₁
  /-- A method that is no builder does not take the arguments that it is called with. -/
  | misapplied {data : Reference} {name : String} {method : SymbolId} {signature : Signature}
    {arguments : List (Option TypeId)} {list : Part}
    {types₁ types₂ types₃ types₄ types₅ : Interner}
    (hform : c.tree.form? i = some (.reference .value data)) (hname : data.name? = some name)
    (hresolve : (c.host.resolve i).Gives types (.accessible method) types₁)
    (hkind : (c.host.symbolKind method).Gives types₁ (some .method) types₂)
    (hsignature : (c.host.signature method).Gives types₂ (some signature) types₃)
    (hbuilder : signature.builder = false)
    (harguments : (c.host.argumentTypes i).Gives types₃ (some arguments) types₄)
    (hmisfit : signature.isApplicable ⟨types₄, c.hierarchy⟩ arguments = false)
    (hlist : (c.host.argumentsNode i).Gives types₄ (some list) types₅) :
    Due c i types ⟨.warning, list, .cannotApplyMethod, [name], .generic, []⟩ types₅
  /-- In a static member, a plain name stands for nothing. -/
  | unresolvedStatic {data : Reference} {name : String} {types₁ : Interner}
    (hform : c.tree.form? i = some (.reference .value data)) (hname : data.name? = some name)
    (hplain : data.qualifier = none)
    (hresolve : (c.host.resolve i).Gives types .unresolved types₁)
    (hstatic : c.tree.InStatic i) :
    Due c i types ⟨.error, some i, .cannotResolve, [name], .unknownSymbol, []⟩ types₁
  /-- Elsewhere, a plain name stands for nothing, and something is looked up in it. -/
  | unresolvedQualifier {data : Reference} {name : String} {outer : NodeId} {fixes : List Fix}
    {types₁ types₂ : Interner}
    (hform : c.tree.form? i = some (.reference .value data)) (hname : data.name? = some name)
    (hplain : data.qualifier = none)
    (hresolve : (c.host.resolve i).Gives types .unresolved types₁)
    (hstatic : ¬c.tree.InStatic i) (houter : c.tree.parent? i = some outer)
    (hkind : c.tree.kind? outer = some .reference)
    (hfixes : (c.host.importFixes i).Gives types₁ fixes types₂) :
    Due c i types ⟨.warning, some i, .cannotResolve, [name], .generic, fixes⟩ types₂
  /-- The name of a type or package stands for nothing. -/
  | unresolvedType {data : Reference} {name : String} {fixes : List Fix}
    {types₁ types₂ : Interner}
    (hform : c.tree.form? i = some (.reference .type data)) (hname : data.name? = some name)
    (hresolve : (c.host.resolve i).Gives types .unresolved types₁)
    (hfixes : (c.host.importFixes i).Gives types₁ fixes types₂) :
    Due c i types ⟨.error, some i, .cannotResolve, [name], .unknownSymbol, fixes⟩ types₂
  /-- The name of a type or package stands for what may not be used there. -/
  | inaccessibleType {data : Reference} {name : String} {symbol : SymbolId} {types₁ : Interner}
    (hform : c.tree.form? i = some (.reference .type data)) (hname : data.name? = some name)
    (hresolve : (c.host.resolve i).Gives types (.inaccessible symbol) types₁) :
    Due c i types ⟨.error, some i, .cannotAccess, [name], .generic, []⟩ types₁
  /-- A loop is written with three clauses. -/
  | legacyFor (hkind : c.tree.kind? i = some .legacyForClause) :
    Due c i types ⟨.error, some i, .legacyFor, [], .generic, []⟩ types

variable {c : Checker} {i : NodeId} {types : Interner} {d : Diagnostic}

/-! ## Which rule a node gets -/

/-- What a node holds if it is this to the rules. -/
def Describes (t : Tree) (i : NodeId) : Subject → Prop
  | .typeReference data => t.form? i = some (.reference .type data)
  | .valueReference data => t.form? i = some (.reference .value data)
  | .typeDecl data => t.form? i = some (.typeDecl data)
  | .variableLike data => ∃ role, t.form? i = some (.variableLike role data)
  | .assignment left operator right => t.form? i = some (.assignment left operator right)
  | .legacyFor => t.kind? i = some .legacyForClause
  | .other => True

theorem describes_of_ofNode {t : Tree} {subject : Subject}
    (h : Subject.ofNode t i = .ok subject) : Describes t i subject := by
  unfold Subject.ofNode at h
  split at h
  · cases h
    trivial
  next kind hkind =>
  split at h
  · next hlegacy =>
    cases h
    subst hlegacy
    exact hkind
  split at h
  · cases h
    trivial
  split at h
  · next hform =>
    cases h
    exact hform
  · next hform =>
    cases h
    exact hform
  · next hform =>
    cases h
    exact hform
  · next hform =>
    cases h
    exact ⟨_, hform⟩
  · next hform =>
    cases h
    exact hform
  · cases h

theorem ofNode_of_describes {t : Tree} (ht : t.Edited) {subject : Subject}
    (h : Describes t i subject) (hne : subject ≠ .other) :
    Subject.ofNode t i = .ok subject := by
  -- What a node holds decides its kind, so that the data is asked for as what it is.
  unfold Subject.ofNode
  cases subject with
  | typeReference data =>
    rw [ht.kind?_of_form? h, h]
    rfl
  | valueReference data =>
    rw [ht.kind?_of_form? h, h]
    rfl
  | typeDecl data =>
    rw [ht.kind?_of_form? h, h]
    rfl
  | variableLike data =>
    obtain ⟨role, h⟩ := h
    rw [ht.kind?_of_form? h, h]
    cases role <;> rfl
  | assignment left operator right =>
    rw [ht.kind?_of_form? h, h]
    rfl
  | legacyFor =>
    rw [show t.kind? i = some .legacyForClause from h]
    rfl
  | other => exact absurd rfl hne

/-- What the rule of a node reports is due. -/
theorem exists_due_of_reports (h : (c.check i).Reports types d) :
    ∃ f types', c.Due i types f types' ∧ c.Words f types' d := by
  unfold check at h
  cases hsubject : Subject.ofNode c.tree i with
  | error f =>
    rw [hsubject] at h
    exact absurd h (Rule.not_reports_throw f)
  | ok subject =>
    rw [hsubject] at h
    have hform := describes_of_ofNode hsubject
    cases subject with
    | typeReference data =>
      obtain ⟨name, resolution, types₁, hname, hresolve, h⟩ := reports_checkTypeReference.mp h
      cases resolution with
      | unresolved =>
        obtain ⟨fixes, types₂, hfixes, h⟩ := h
        exact ⟨_, _, .unresolvedType hform hname hresolve hfixes, h⟩
      | inaccessible symbol => exact ⟨_, _, .inaccessibleType hform hname hresolve, h⟩
      | accessible symbol => exact h.elim
    | valueReference data =>
      obtain ⟨name, resolution, types₁, hname, hresolve, h⟩ := reports_checkValueReference.mp h
      cases resolution with
      | inaccessible symbol => exact ⟨_, _, .inaccessibleValue hform hname hresolve, h⟩
      | accessible symbol =>
        obtain ⟨types₂, hkind, h⟩ := h
        obtain ⟨signature, arguments, list, types₃, types₄, types₅, hsignature, hbuilder,
          harguments, hmisfit, hlist, h⟩ := reports_checkCall.mp h
        exact ⟨_, _, .misapplied hform hname hresolve hkind hsignature hbuilder harguments hmisfit
          hlist, h⟩
      | unresolved =>
        obtain ⟨hplain, h⟩ := h
        rcases reports_reportUnresolved.mp h with
          ⟨hstatic, h⟩ | ⟨hstatic, outer, fixes, types₂, houter, hkind, hfixes, h⟩
        · exact ⟨_, _, .unresolvedStatic hform hname hplain hresolve hstatic, h⟩
        · exact ⟨_, _, .unresolvedQualifier hform hname hplain hresolve hstatic houter hkind
            hfixes, h⟩
    | typeDecl data =>
      obtain ⟨body, hbody, hkind, h⟩ := reports_checkTypeDecl.mp h
      rcases namePlace_cases c.tree data.name i with ⟨name, hname, hthere, hplace⟩ | ⟨hname, hplace⟩
      · exact ⟨_, _, .innerNamed hform hbody hkind hname hthere, hplace ▸ h⟩
      · exact ⟨_, _, .innerUnnamed hform hbody hkind hname, hplace ▸ h⟩
    | variableLike data =>
      obtain ⟨role, hform⟩ := hform
      obtain ⟨value, target, source, types₁, types₂, hvalue, hsource, htarget, h⟩ :=
        reports_checkVariable.mp h
      obtain ⟨hmisfit, h⟩ := reports_checkFits.mp h
      exact ⟨_, _, .initial hform hvalue hsource htarget hmisfit, h⟩
    | assignment left operator right =>
      obtain ⟨rfl, target, source, types₁, types₂, hleft, hright, h⟩ :=
        reports_checkAssignment.mp h
      obtain ⟨hmisfit, h⟩ := reports_checkFits.mp h
      exact ⟨_, _, .assignment hform hleft hright hmisfit, h⟩
    | legacyFor => exact ⟨_, _, .legacyFor hform, (reports_errorAt _ _ _ _ _).mp h⟩
    | other => exact absurd h Rule.not_reports_none

/-- What is due at a node is reported by its rule. -/
theorem reports_of_due (ht : c.tree.Edited) {f : Finding} {types' : Interner}
    (hdue : c.Due i types f types') (hwords : c.Words f types' d) :
    (c.check i).Reports types d := by
  have hrule : ∀ subject, Describes c.tree i subject → subject ≠ .other →
      Subject.ofNode c.tree i = .ok subject := fun _ => ofNode_of_describes ht
  unfold check
  cases hdue with
  | assignment hform hleft hright hmisfit =>
    rw [hrule (.assignment _ _ _) hform nofun]
    exact reports_checkAssignment.mpr
      ⟨rfl, _, _, _, _, hleft, hright, reports_checkFits.mpr ⟨hmisfit, hwords⟩⟩
  | initial hform hvalue hsource htarget hmisfit =>
    rw [hrule (.variableLike _) ⟨_, hform⟩ nofun]
    exact reports_checkVariable.mpr
      ⟨_, _, _, _, _, hvalue, hsource, htarget, reports_checkFits.mpr ⟨hmisfit, hwords⟩⟩
  | @innerNamed data body name hform hbody hkind hname hthere =>
    rw [hrule (.typeDecl _) hform nofun]
    have hplace : (data.name.filter (· < c.tree.size)).or (some i) = some name := by
      rcases namePlace_cases c.tree data.name i with ⟨_, heq, _, hplace⟩ | ⟨habsent, _⟩
      · rwa [hname.symm.trans heq]
      · exact absurd hthere (Nat.not_lt.mpr (habsent name hname))
    refine reports_checkTypeDecl.mpr ⟨_, hbody, hkind, ?_⟩
    rw [hplace]
    exact hwords
  | @innerUnnamed data body hform hbody hkind hname =>
    rw [hrule (.typeDecl _) hform nofun]
    have hplace : (data.name.filter (· < c.tree.size)).or (some i) = some i := by
      rcases namePlace_cases c.tree data.name i with ⟨name, heq, hthere, _⟩ | ⟨_, hplace⟩
      · exact absurd hthere (Nat.not_lt.mpr (hname name heq))
      · exact hplace
    refine reports_checkTypeDecl.mpr ⟨_, hbody, hkind, ?_⟩
    rw [hplace]
    exact hwords
  | inaccessibleValue hform hname hresolve =>
    rw [hrule (.valueReference _) hform nofun]
    exact reports_checkValueReference.mpr ⟨_, _, _, hname, hresolve, hwords⟩
  | misapplied hform hname hresolve hkind hsignature hbuilder harguments hmisfit hlist =>
    rw [hrule (.valueReference _) hform nofun]
    refine reports_checkValueReference.mpr ⟨_, _, _, hname, hresolve, _, hkind, ?_⟩
    exact reports_checkCall.mpr
      ⟨_, _, _, _, _, _, hsignature, hbuilder, harguments, hmisfit, hlist, hwords⟩
  | unresolvedStatic hform hname hplain hresolve hstatic =>
    rw [hrule (.valueReference _) hform nofun]
    refine reports_checkValueReference.mpr ⟨_, _, _, hname, hresolve, hplain, ?_⟩
    exact reports_reportUnresolved.mpr (Or.inl ⟨hstatic, hwords⟩)
  | unresolvedQualifier hform hname hplain hresolve hstatic houter hkind hfixes =>
    rw [hrule (.valueReference _) hform nofun]
    refine reports_checkValueReference.mpr ⟨_, _, _, hname, hresolve, hplain, ?_⟩
    exact reports_reportUnresolved.mpr
      (Or.inr ⟨hstatic, _, _, _, houter, hkind, hfixes, hwords⟩)
  | unresolvedType hform hname hresolve hfixes =>
    rw [hrule (.typeReference _) hform nofun]
    exact reports_checkTypeReference.mpr ⟨_, _, _, hname, hresolve, _, _, hfixes, hwords⟩
  | inaccessibleType hform hname hresolve =>
    rw [hrule (.typeReference _) hform nofun]
    exact reports_checkTypeReference.mpr ⟨_, _, _, hname, hresolve, hwords⟩
  | legacyFor hkind =>
    rw [hrule .legacyFor hkind nofun]
    exact (reports_errorAt _ _ _ _ _).mpr hwords

/-- What a node contributes is what its rule reports. -/
theorem mem_contribution_iff : d ∈ c.contribution i types ↔ (c.check i).Reports types d := by
  unfold contribution Rule.Reports
  cases hrun : (c.check i).exec types with
  | mk result types' =>
    rcases result with p | f | found
    · exact iff_of_false List.not_mem_nil (by simp)
    · exact iff_of_false List.not_mem_nil (by simp)
    · simp

/-! ## A name that is not known -/

/-- A name in parentheses in a static method is checked by a host that does not know it. -/
def nestedChecker (n : Nat) : Checker :=
  ⟨.nestedTree n, .standard,
    HostTable.host ⟨.resolved [], [], [], [], [], [], [], [], []⟩ .builtIn, true⟩

/-- What there is to be said about the name. -/
def nameFinding : Finding := ⟨.error, some 0, .cannotResolve, ["x"], .unknownSymbol, []⟩

/-- The same in words. -/
def nameDiagnostic : Diagnostic :=
  .error ⟨some 0, default⟩
    ⟨Message.code .cannotResolve, Message.key .cannotResolve, ["x"],
      Wording.builtIn .cannotResolve ["x"]⟩
    .unknownSymbol []

theorem edited_nestedChecker (n : Nat) : (nestedChecker n).tree.Edited :=
  (Tree.built_nestedTree n).edited

theorem returns_nestedChecker (n : Nat) : (nestedChecker n).host.Returns :=
  HostTable.returns_host rfl .builtIn

theorem due_nestedChecker {n : Nat} (hn : n < ancestorLimit) (types : Interner) :
    (nestedChecker n).Due 0 types nameFinding types :=
  .unresolvedStatic (Tree.form?_nestedTree n) rfl rfl rfl (Tree.inStatic_nestedTree_iff.mpr hn)

/-- Nothing is reported if the method is too far away. -/
theorem contribution_nestedChecker {n : Nat} (hn : ancestorLimit ≤ n) (types : Interner) :
    (nestedChecker n).contribution 0 types = [] := by
  refine List.eq_nil_iff_forall_not_mem.mpr fun d hd => ?_
  have hsubject : Subject.ofNode (nestedChecker n).tree 0 =
      .ok (.valueReference ⟨none, some "x", default⟩) :=
    ofNode_of_describes (edited_nestedChecker n) (Tree.form?_nestedTree n) nofun
  have hreports := mem_contribution_iff.mp hd
  unfold check at hreports
  rw [hsubject] at hreports
  have hvalue : ((nestedChecker n).checkValueReference 0 ⟨none, some "x", default⟩).Reports
      types d := hreports
  obtain ⟨name, resolution, types₁, _, hresolve, h⟩ := reports_checkValueReference.mp hvalue
  cases hresolve
  rcases reports_reportUnresolved.mp h.2 with ⟨hstatic, _⟩ | ⟨_, outer, _, _, houter, hkind, _⟩
  · exact absurd (Tree.inStatic_nestedTree_iff.mp hstatic) (Nat.not_lt.mpr hn)
  · -- The name is in parentheses, and nothing is looked up in it.
    have hone : 1 ≤ n := Nat.le_trans (by decide) hn
    cases (Tree.parent?_nestedTree (Nat.zero_le n)).symm.trans houter
    cases (Tree.kind?_nestedTree Nat.one_pos hone).symm.trans hkind

/-! ## What annotation reports -/

/-- If the host answers every question, annotating a node ends, and adds to the collector what is
    due at the node. That is one diagnostic at most. -/
theorem annotate_policy (ht : c.tree.Edited) (hh : c.host.Returns) (i : NodeId) (sink : Collector)
    (types : Interner) :
    ∃ found types',
      (c.annotate i sink).exec types = (.ok ⟨sink.diagnostics ++ found⟩, types') ∧
        found.length ≤ 1 ∧
        ∀ d, d ∈ found ↔ ∃ f types', c.Due i types f types' ∧ c.Words f types' d := by
  obtain ⟨result, last, hend⟩ := ends_check hh i types
  -- Isolated or not, the rule does not break off.
  have hsurvives : c.Survives i types := Or.inr ⟨result, congrArg Prod.fst hend⟩
  refine ⟨c.contribution i types, c.typesAfter i types, hsurvives.exec_annotate sink,
    length_contribution_le c i types, fun d => ?_⟩
  rw [mem_contribution_iff]
  constructor
  · exact exists_due_of_reports
  · rintro ⟨f, types', hdue, hwords⟩
    exact reports_of_due ht hdue hwords

/-- The method is near enough, and the error is all there is. -/
theorem annotate_nestedChecker :
    (nestedChecker 2).tree.Edited ∧ (nestedChecker 2).host.Returns ∧
      (nestedChecker 2).Due 0 .initial nameFinding .initial ∧
      (((nestedChecker 2).annotate 0 .empty).exec .initial).1 = .ok ⟨[nameDiagnostic]⟩ := by
  have hdue : (nestedChecker 2).Due 0 .initial nameFinding .initial :=
    due_nestedChecker (by decide) .initial
  obtain ⟨found, types', hrun, hlength, hfound⟩ :=
    annotate_policy (edited_nestedChecker 2) (returns_nestedChecker 2) 0 .empty .initial
  have hmem : nameDiagnostic ∈ found := (hfound _).mpr ⟨_, _, hdue, _, _, rfl, rfl⟩
  obtain ⟨d, rfl⟩ := List.length_eq_one_iff.mp
    (Nat.le_antisymm hlength (List.length_pos_of_mem hmem))
  obtain rfl := List.mem_singleton.mp hmem
  exact ⟨edited_nestedChecker 2, returns_nestedChecker 2, hdue, congrArg Prod.fst hrun⟩

/-- The nearest method around the name is static, but it is out of reach of upward walks. The name
    stands for nothing, and nothing is reported. -/
theorem annotate_nestedChecker_deep :
    (nestedChecker 512).tree.Edited ∧ (nestedChecker 512).host.Returns ∧
      (nestedChecker 512).tree.form? 0 =
        some (.reference .value ⟨none, some "x", default⟩) ∧
      ((nestedChecker 512).host.resolve 0).Gives .initial .unresolved .initial ∧
      (nestedChecker 512).tree.Nearest [.methodDeclaration, .fieldDeclaration] 0 513 513 ∧
      ((nestedChecker 512).tree.modifiers 513).isStatic = true ∧
      (((nestedChecker 512).annotate 0 .empty).exec .initial).1 = .ok ⟨[]⟩ := by
  refine ⟨edited_nestedChecker 512, returns_nestedChecker 512, Tree.form?_nestedTree 512, rfl,
    Tree.nearest_nestedTree 512, Tree.isStatic_nestedTree 512, ?_⟩
  have hsurvives : (nestedChecker 512).Survives 0 .initial := Or.inl rfl
  have hnone : (nestedChecker 512).contribution 0 .initial = [] :=
    contribution_nestedChecker (by decide) .initial
  rw [hsurvives.exec_annotate, hnone]
  rfl

end Checker

end ScriptCheck
