/-
  Calls that are warned about.

  A call is warned about if the overload that it means does not take its
  arguments. Which overload that is goes by the number of arguments alone, so
  another one may well take them; `overloads_of_cannotApply` says which of them
  can: only those that are searched later, if both they and the one that is
  meant accept the number of arguments.
-/
import ScriptCheck.Proofs.Annotation.Isolation
import ScriptCheck.Proofs.Script.File
import ScriptCheck.Proofs.Script.Overloads
import ScriptCheck.Proofs.Typing.Signatures

namespace ScriptCheck

namespace Checker

variable {c : Checker} {i : NodeId} {types types' : Interner} {d : Diagnostic}

/-- Rules that are not about calls do not say that a method cannot be applied. -/
theorem covers_otherMessages (c : Checker) :
    c.Covers fun d => d.message.key ≠ Message.cannotApplyMethod.key := by
  have hkey : ∀ message : Message, message ≠ .cannotApplyMethod →
      message.key ≠ Message.cannotApplyMethod.key := by
    intro message
    cases message <;> decide
  constructor
  · intro node message args highlight fixes hne
    apply finds_errorAt
    intro text
    exact hkey message hne
  · intro node message args fixes hne
    apply finds_warningAt
    intro text
    exact hkey message hne

/-- A call is warned about if the host knows the method and its signature and the arguments, and the
    one does not take the others. -/
theorem exists_answers_of_checkCall {method : SymbolId} {name : String}
    (h : (c.checkCall i method name).exec types = (.ok (.ok (some d)), types')) :
    ∃ signature arguments signed last,
      (c.host.signature method).exec types = (.ok (some signature), signed) ∧
        (c.host.argumentTypes i).exec signed = (.ok (some arguments), last) ∧
        signature.isApplicable ⟨last, c.hierarchy⟩ arguments = false := by
  obtain ⟨signature, signed, hsignature, h⟩ := Rule.exists_answer_of_exec h
  cases signature with
  | none => cases h
  | some signature =>
    dsimp only at h
    split at h
    · cases h
    obtain ⟨arguments, last, harguments, h⟩ := Rule.exists_answer_of_exec h
    cases arguments with
    | none => cases h
    | some arguments =>
      rw [exec_typeWorld_bind] at h
      split at h
      · cases h
      · next happlicable =>
        exact ⟨signature, arguments, signed, last, hsignature, harguments,
          Bool.not_eq_true _ ▸ happlicable⟩

/-- If a rule says that a method cannot be applied, the host resolved the node to the method, and
    knows its signature and the arguments, which do not fit. -/
theorem exists_answers_of_check (h : (c.check i).exec types = (.ok (.ok (some d)), types'))
    (hd : d.message.key = Message.cannotApplyMethod.key) :
    ∃ method signature arguments resolved asked signed last,
      (c.host.resolve i).exec types = (.ok (.accessible method), resolved) ∧
        (c.host.symbolKind method).exec resolved = (.ok (some .method), asked) ∧
        (c.host.signature method).exec asked = (.ok (some signature), signed) ∧
        (c.host.argumentTypes i).exec signed = (.ok (some arguments), last) ∧
        signature.isApplicable ⟨last, c.hierarchy⟩ arguments = false := by
  have hcovers := c.covers_otherMessages
  unfold check at h
  cases hsubject : Subject.ofNode c.tree i with
  | error f =>
    rw [hsubject] at h
    cases h
  | ok subject =>
    rw [hsubject] at h
    cases subject with
    | valueReference data =>
      replace h : (c.checkValueReference i data).exec types = _ := h
      unfold checkValueReference at h
      split at h
      · cases h
      next name _ =>
      obtain ⟨resolution, resolved, hresolve, h⟩ := Rule.exists_answer_of_exec h
      cases resolution with
      | inaccessible symbol =>
        have hfinds := hcovers.warning (some i) .cannotAccess [name] [] nofun
        exact absurd hd (hfinds _ _ _ h)
      | unresolved =>
        dsimp only at h
        split at h
        · exact absurd hd (hcovers.finds_reportUnresolved i name _ _ _ h)
        · cases h
      | accessible symbol =>
        obtain ⟨kind, asked, hkind, h⟩ := Rule.exists_answer_of_exec h
        split at h
        · next hmethod =>
          subst hmethod
          obtain ⟨signature, arguments, signed, last, hs, ha, hno⟩ :=
            exists_answers_of_checkCall h
          exact ⟨symbol, signature, arguments, resolved, asked, signed, last, hresolve, hkind, hs,
            ha, hno⟩
        · cases h
    | typeReference data => exact absurd hd (hcovers.finds_checkTypeReference i data _ _ _ h)
    | typeDecl data => exact absurd hd (hcovers.finds_checkTypeDecl i data _ _ _ h)
    | variableLike data => exact absurd hd (hcovers.finds_checkVariable i data _ _ _ h)
    | assignment left operator right =>
      exact absurd hd (hcovers.finds_checkAssignment left operator right _ _ _ h)
    | legacyFor =>
      have hfinds := hcovers.error (some i) .legacyFor [] .generic [] nofun
      exact absurd hd (hfinds _ _ _ h)
    | other => cases h

end Checker

namespace TypedScript

variable {s : TypedScript} {i : NodeId}

/-- The number of arguments is that of the argument list. -/
theorem argumentCount?_eq (s : TypedScript) (i : NodeId) :
    s.script.argumentCount? i = (s.callOf? i).map s.script.argumentsIn := by
  unfold Script.argumentCount? callOf? tree
  cases s.script.tree.parent? i with
  | none => rfl
  | some parent =>
    simp only [Option.bind_eq_bind, Option.bind_some]
    cases s.script.tree.form? parent with
    | none => rfl
    | some form =>
      simp only [Option.bind_some]
      cases form with
      | call callee arguments =>
        dsimp only
        split <;> rfl
      | _ => rfl

/-- As many types of arguments are found as a reference is called with. -/
theorem yields_argumentTypes (s : TypedScript) (i : NodeId) :
    Inference.Yields (fun arguments => s.script.argumentCount? i = some arguments.length)
      (s.argumentTypes i) := by
  rw [argumentCount?_eq]
  unfold argumentTypes
  cases hcall : s.callOf? i with
  | none => exact Inference.yields_failure
  | some arguments =>
    refine Inference.yields_lift fun types found types' hrun => ?_
    have hlength := (Typing.forall₂_of_run_mapM (R := fun _ _ => True)
      (fun _ _ _ _ _ => trivial) hrun).length_eq
    rw [← hlength, Option.map_some]
    unfold Script.argumentsIn
    show some ((arguments.bind s.tree.argumentListAt?).map List.length |>.getD 0) = _
    cases arguments.bind s.tree.argumentListAt? with
    | none => rfl
    | some list => rfl

/-! ## Warnings about calls -/

/-- A call is warned about only if the overload that it means does not take its arguments, and then
    hardly any other one does. Let `method` be what the callee resolves to, and a member of the type
    `type` that the number of arguments finds. Of the other methods of that name which the type has
    or inherits, one that may take the arguments stands behind `method` in search order, and it and
    `method` both accept the number of arguments. -/
theorem overloads_of_cannotApply {lib : SymbolTable} {t : Tree} {root : NodeId}
    {imports : List String} (hlib : lib.Grown) (hs : s.script = .ofFile lib t root imports)
    (hierarchy : Hierarchy) (options : Options) (fixes : NodeId → List Fix) (wording : Wording)
    {sink : Collector} {types : Interner} {d : Diagnostic}
    (hreport : (((s.checker hierarchy options fixes wording).annotate i sink).exec types).1 =
      .ok ⟨sink.diagnostics ++ [d]⟩)
    (hd : d.message.key = Message.cannotApplyMethod.key) :
    ∃ method signature arguments resolved signed last,
      (s.resolve i).run types = some (.accessible method, resolved) ∧
      (s.signatureOf method).run.run resolved = some (some signature, signed) ∧
      (s.argumentTypes i).run.run signed = some (some (arguments.map some), last) ∧
      signature.isApplicable ⟨last, hierarchy⟩ (arguments.map some) = false ∧
      s.script.argumentCount? i = some arguments.length ∧
      ∀ type name depth,
        s.script.findMember type name (s.script.argumentCount? i) depth = some method →
        ∃ before after, s.script.overloads type name depth = before ++ method :: after ∧
          ∀ other ∈ before ++ after, s.FitsArity other → s.MayTake other arguments →
            other ∈ after ∧ s.script.symbols.accepts method arguments.length = true ∧
              s.script.symbols.accepts other arguments.length = true := by
  have hmethods : s.script.symbols.KnowsMethods s.tree := by
    unfold tree
    rw [hs]
    exact Binding.knowsMethods_bindFile hlib t root
  obtain ⟨method, signature, found, resolved, asked, signed, last, hresolve, hkind, hsignature,
    harguments, hno⟩ := Checker.exists_answers_of_check (Checker.exec_check_of_annotate hreport) hd
  -- The host of a script answers with what typing finds.
  have hresolve' := Check.run_of_exec_answer hresolve nofun
  have hsignature' := Check.run_of_exec_answer hsignature nofun
  have harguments' := Check.run_of_exec_answer harguments nofun
  have hmethod : s.script.HasKind [.method] method ∧ resolved = asked := by
    obtain ⟨hanswer, hsame⟩ := Prod.mk.inj hkind
    obtain ⟨symbol, hget, hk⟩ := Option.map_eq_some_iff.mp (Except.ok.inj hanswer)
    exact ⟨⟨symbol, hget, List.mem_singleton.mpr hk⟩, hsame⟩
  obtain ⟨_, arguments, rfl, _⟩ := Signature.isApplicable_eq_false_iff.mp hno
  have hcount : s.script.argumentCount? i = some arguments.length := by
    have hlength : s.script.argumentCount? i = some (arguments.map some).length :=
      s.yields_argumentTypes i _ _ _ harguments'
    rw [hlength, List.length_map]
  refine ⟨method, signature, arguments, resolved, signed, last, hresolve', hmethod.2 ▸ hsignature',
    harguments', hno, hcount, fun type name depth hmember => ?_⟩
  -- The overloads before the chosen one do not accept the number of arguments, and what does not
  -- accept it does not take the arguments.
  rw [hcount] at hmember
  obtain ⟨before, after, hsplit, hbefore, hnone⟩ :=
    Script.exists_split_of_findMember hmember hmethod.1
  refine ⟨before, after, hsplit, fun other hm hfits htakes => ?_⟩
  have haccepts := accepts_of_mayTake hmethods hfits htakes
  refine ⟨?_, ?_, haccepts⟩
  · rcases List.mem_append.mp hm with hm | hm
    · rw [hbefore other hm] at haccepts
      cases haccepts
    · exact hm
  · cases hself : s.script.symbols.accepts method arguments.length with
    | true => rfl
    | false =>
      have hother : other ∈ s.script.overloads type name depth := by
        rw [hsplit]
        rcases List.mem_append.mp hm with hm | hm
        · exact List.mem_append_left _ hm
        · exact List.mem_append_right _ (List.mem_cons_of_mem _ hm)
      rw [hnone hself other hother] at haccepts
      cases haccepts

/-! ## Three overloads -/

/-- A class with `f(int)`, `f(int, int)` and `f(int[])`, and a method that calls `f` with a list. -/
def overloadsTree : Tree :=
  .ofNodes
    [(.identifier "a", .none),
      (.primitiveType .int, .none),
      (.variableLike .parameter ⟨some 0, some 1, none, false⟩, .none),
      (.identifier "f", .none),
      (.method ⟨some 3, none, [some 2], none⟩, .none),
      (.identifier "a", .none),
      (.primitiveType .int, .none),
      (.variableLike .parameter ⟨some 5, some 6, none, false⟩, .none),
      (.identifier "b", .none),
      (.primitiveType .int, .none),
      (.variableLike .parameter ⟨some 8, some 9, none, false⟩, .none),
      (.identifier "f", .none),
      (.method ⟨some 11, none, [some 7, some 10], none⟩, .none),
      (.identifier "c", .none),
      (.primitiveType .int, .none),
      (.arrayType (some 14), .none),
      (.variableLike .parameter ⟨some 13, some 15, none, false⟩, .none),
      (.identifier "f", .none),
      (.method ⟨some 17, none, [some 16], none⟩, .none),
      (.reference .value ⟨none, some "f", default⟩, .none),
      (.collection .list [], .none),
      (.argumentList [some 20], .none),
      (.call (some 19) (some 21), .none),
      (.block [some 22], .none),
      (.identifier "g", .none),
      (.method ⟨some 24, none, [], some 23⟩, .none),
      (.classBody [some 4, some 12, some 18, some 25], .none),
      (.identifier "C", .none),
      (.typeDecl ⟨.classType, some 27, [], [], some 26⟩, .none),
      (.sourceFile ⟨"overloads", none, [], [some 28]⟩, .none)]

/-- The class without a library. -/
def overloading : TypedScript := ⟨.ofFile .empty overloadsTree 29 [], .empty⟩

/-- What is said about the call of `f`. -/
def overloadsFinding : Diagnostic :=
  .warning ⟨some 21, default⟩
    ⟨Message.code .cannotApplyMethod, Message.key .cannotApplyMethod, ["f"],
      Wording.builtIn .cannotApplyMethod ["f"]⟩ []

/-- The call means `f(int)` and is warned about, and `f(int, int)` does not take the list either. -/
theorem overloads_overloading :
    (((overloading.checker .standard .standard (fun _ => []) .builtIn).annotate 19 .empty).exec
      .initial).1 = .ok ⟨[overloadsFinding]⟩ ∧
    overloading.script.overloads 1 "f" 0 = [2, 4, 7] ∧
    ∃ arguments signed last,
      (overloading.argumentTypes 19).run.run signed = some (some (arguments.map some), last) ∧
        ¬overloading.MayTake 4 arguments := by
  have hreport : (((overloading.checker .standard .standard (fun _ => []) .builtIn).annotate 19
      .empty).exec .initial).1 = .ok ⟨[overloadsFinding]⟩ := by
    decide +kernel
  have hlist : overloading.script.overloads 1 "f" 0 = [2, 4, 7] := by decide +kernel
  obtain ⟨method, signature, arguments, resolved, signed, last, hresolve, _, harguments, _, hcount,
    hoverloads⟩ := overloads_of_cannotApply (s := overloading) .start rfl .standard .standard
      (fun _ => []) .builtIn (d := overloadsFinding) hreport rfl
  have hmethod : method = 2 := by
    have hrun : ((overloading.resolve 19).run .initial).map Prod.fst = some (.accessible 2) := by
      decide +kernel
    rw [hresolve] at hrun
    cases hrun
    rfl
  subst hmethod
  refine ⟨hreport, hlist, arguments, signed, last, harguments, fun htakes => ?_⟩
  have hfound : overloading.script.findMember 1 "f" (overloading.script.argumentCount? 19) 0 =
      some 2 := by
    decide +kernel
  obtain ⟨before, after, hsplit, hother⟩ := hoverloads 1 "f" 0 hfound
  have hmem : 4 ∈ before ++ after := by
    have hall : 4 ∈ before ++ 2 :: after := by
      rw [← hsplit, hlist]
      decide
    simpa using hall
  have hfits : overloading.FitsArity 4 := by
    intro signature symbol hknown
    cases (show none = some signature from hknown)
  have haccepts := (hother 4 hmem hfits htakes).2.2
  have hone : arguments.length = 1 := by
    have hcall : overloading.script.argumentCount? 19 = some 1 := by decide +kernel
    rw [hcall] at hcount
    exact (Option.some.inj hcount).symm
  rw [hone] at haccepts
  revert haccepts
  decide +kernel

/-- A library class with methods `f` of two arguments, of a single one, and of three. The last one
    is a builder. -/
def mismatchedLibrary : SymbolTable :=
  ((((SymbolTable.empty.addType "L" .none []).1.addMethod 1 "f" .none (.fixed 2)).1.addMethod 1 "f"
    .none (.fixed 1)).1.addMethod 1 "f" { SymbolFlags.none with isBuilder := true } (.fixed 3)).1

/-- The environment gives the first method a signature with a single parameter, an `Integer`, the
    second one a signature with a `List`, and the builder a signature without parameters. -/
def mismatchedEnvironment : Environment :=
  ((Environment.empty.setSignature 2
    ⟨[⟨some TypeId.integer, false⟩], none, false, false⟩).setSignature 3
      ⟨[⟨some TypeId.list, false⟩], none, false, false⟩).setSignature 4 ⟨[], none, false, false⟩

/-- A class that inherits from the library class and has a method that calls `f` with a number. -/
def mismatchedTree : Tree :=
  .ofNodes
    [(.reference .type ⟨none, some "L", default⟩, .none),
      (.identifier "A", .none),
      (.reference .value ⟨none, some "f", default⟩, .none),
      (.literal .integer "1", .none),
      (.argumentList [some 3], .none),
      (.call (some 2) (some 4), .none),
      (.block [some 5], .none),
      (.identifier "g", .none),
      (.method ⟨some 7, none, [], some 6⟩, .none),
      (.classBody [some 8], .none),
      (.typeDecl ⟨.classType, some 1, [some 0], [], some 9⟩, .none),
      (.sourceFile ⟨"mismatched", none, [], [some 10]⟩, .none)]

/-- The class on top of the library. -/
def mismatched : TypedScript :=
  ⟨.ofFile mismatchedLibrary mismatchedTree 11 [], mismatchedEnvironment⟩

/-- Whether a method has a known signature that takes the arguments as the standard hierarchy has
    it. -/
def takes (s : TypedScript) (method : SymbolId) (arguments : List (Option TypeId)) : Bool :=
  ((s.signatureOf method).run.run .initial).any fun found =>
    found.1.any (·.isApplicable ⟨found.2, .standard⟩ arguments)

/-- A call that is warned about may fit another overload: one behind the one it means, here
    `f(int[])` behind `f(int)`, one whose arity does not accept what its signature admits, or a
    builder. -/
theorem overloads_taken :
    ((((overloading.checker .standard .standard (fun _ => []) .builtIn).annotate 19 .empty).exec
        .initial).1 = .ok ⟨[overloadsFinding]⟩ ∧
      ((overloading.resolve 19).run .initial).map Prod.fst = some (.accessible 2) ∧
      overloading.script.findMember 1 "f" (overloading.script.argumentCount? 19) 0 = some 2 ∧
      ((overloading.argumentTypes 19).run.run .initial).map Prod.fst =
        some (some [some TypeId.arrayList]) ∧
      7 ∈ overloading.script.overloads 1 "f" 0 ∧
      overloading.takes 7 [some TypeId.arrayList] = true) ∧
    ((((mismatched.checker .standard .standard (fun _ => []) .builtIn).annotate 2 .empty).exec
        .initial).1.toOption.map (·.diagnostics.map (·.message.key)) =
          some [Message.cannotApplyMethod.key] ∧
      ((mismatched.resolve 2).run .initial).map Prod.fst = some (.accessible 3) ∧
      mismatched.script.findMember 5 "f" (mismatched.script.argumentCount? 2) 0 = some 3 ∧
      ((mismatched.argumentTypes 2).run.run .initial).map Prod.fst =
        some (some [some TypeId.integer]) ∧
      mismatched.script.overloads 5 "f" 0 = [2, 3, 4] ∧
      mismatched.takes 2 [some TypeId.integer] = true ∧
      mismatched.takes 4 [some TypeId.integer] = true) := by
  refine ⟨⟨?_, ?_, ?_, ?_, ?_, ?_⟩, ⟨?_, ?_, ?_, ?_, ?_, ?_, ?_⟩⟩
  all_goals decide +kernel

end TypedScript

end ScriptCheck
