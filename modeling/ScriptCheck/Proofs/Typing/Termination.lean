/-
  Typing comes to an end.

  To type a reference it has to be resolved, and to resolve it the type of the
  value in front of its dot may be asked for. Each such question starts counting
  qualifiers anew, so the depth of qualifiers bounds nothing. What falls is the
  number of the node: the receiver asks only about qualifiers, which stand before
  the references that hold them, and the names in the clauses of a declaration,
  which stand anywhere, are looked up without it.

  `typing_ends` says that nothing that is asked of the types of a script runs out
  of budget, whatever the symbols, the class hierarchy, the environment and the
  numbering, as long as the parts of a node stand before it.
-/
import ScriptCheck.Proofs.Typing.Arities

namespace ScriptCheck

theorem Tree.lt_size_of_isOneOf {t : Tree} {kinds : List Kind} {i : NodeId}
    (h : t.isOneOf kinds i = true) : i < t.size := by
  obtain ⟨k, hk, _⟩ := (Option.any_eq_true ..).mp h
  exact lt_size_of_kind? hk

namespace TypedScript

open Typing (Ends)

variable {s : TypedScript} {budget i : Nat}

/-! ## Declarations -/

theorem ends_declarationType (h : s.tree.Descends) (i : NodeId) :
    Ends (s.declarationType i).run := by
  unfold declarationType
  split
  · exact ends_variableType h _
  · exact Typing.ends_pure none

theorem ends_declaredType (h : s.tree.Descends) (i : NodeId) : Ends (s.declaredType i).run := by
  unfold declaredType
  split
  · exact Typing.ends_pure _
  · exact ends_declarationType h i

theorem ends_declaredSignature (h : s.tree.Descends) (i : NodeId) :
    Ends (s.declaredSignature i).run := by
  intro types
  cases hdata : s.tree.methodAt? i with
  | none =>
    unfold declaredSignature
    rw [hdata]
    exact ⟨_, rfl⟩
  | some data =>
    obtain ⟨_, _, hrun⟩ := exists_declaredSignature h hdata types
    exact ⟨_, hrun⟩

theorem ends_signatureOf (h : s.tree.Descends) (method : SymbolId) :
    Ends (s.signatureOf method).run := by
  unfold signatureOf
  split
  · exact Typing.ends_pure none
  split
  · exact Typing.ends_pure none
  split
  · exact Typing.Ends.bind_run (Typing.ends_pure _) fun _ => Typing.ends_pure _
  split
  · exact Typing.Ends.bind_run (ends_declaredSignature h _) fun _ => Typing.ends_pure _
  · exact Typing.Ends.bind_run (Typing.ends_pure none) fun _ => Typing.ends_pure _

/-- The type of a value that a symbol stands for is that of its declaration or of its getter. -/
theorem ends_symbolType (h : s.tree.Descends) (symbol : Symbol) :
    Ends (s.symbolType symbol).run := by
  unfold symbolType
  split
  -- Fields, local variables and parameters.
  case h_1 | h_2 | h_3 =>
    split
    · exact Typing.ends_pure _
    · split
      · exact ends_declarationType h _
      · exact Typing.ends_pure none
  -- Methods, types and packages.
  · refine Typing.Ends.bind_run (ends_signatureOf h symbol.id) fun signature => ?_
    split
    · exact Typing.ends_pure _
    · exact Typing.ends_pure none
  · exact Typing.Ends.run_lift fun types => ⟨_, rfl⟩
  · exact Typing.ends_pure none

/-! ## References -/

/-- A node stands before another one, or it is missing. -/
def Precedes (t : Tree) (i j : Nat) : Prop := i < j ∨ t.size ≤ i

theorem precedes_of_part (h : s.tree.Descends) {c : Nat} (hc : some c ∈ s.tree.children i) :
    Precedes s.tree c i := by
  rcases Nat.lt_or_ge c s.tree.size with hsize | hsize
  · exact Or.inl (h hc hsize)
  · exact Or.inr hsize

section

variable {receiver : NodeId → Typing (Option SymbolId)}

theorem ends_qualifierVia {resolve : NodeId → Typing (Option SymbolId)} {qualifier : NodeId}
    (hresolve : qualifier < s.tree.size → Ends (resolve qualifier))
    (hreceiver : Ends (receiver qualifier)) :
    Ends (s.script.qualifierVia resolve receiver qualifier) := by
  have htype : Ends (do return (← receiver qualifier).map Qualifier.type) :=
    hreceiver.bind fun _ => Typing.ends_pure _
  unfold Script.qualifierVia
  split
  · next hkind =>
    refine (hresolve (Tree.lt_size_of_isOneOf hkind)).bind fun found => ?_
    cases found with
    | none => exact Typing.ends_pure _
    | some id =>
      dsimp only
      split
      · exact Typing.ends_pure _
      split
      · exact Typing.ends_pure _
      · exact Typing.ends_pure _
      · exact htype
  · exact htype

/-- A lookup ends if the receiver does for every node before the reference: qualifiers of qualifiers
    are asked about as well, and stand still further before. -/
theorem ends_lookupWithin (h : s.tree.Descends) (n : Nat) {reference : NodeId}
    (hreceiver : ∀ i, Precedes s.tree i reference → Ends (receiver i)) :
    Ends (s.script.lookupWithin receiver n reference) := by
  induction n generalizing reference with
  | zero => exact Typing.ends_pure _
  | succ n ih =>
    rw [Script.lookupWithin]
    unfold Script.lookupVia
    dsimp only
    split
    · next role data hform =>
      split
      · exact Typing.ends_pure _
      split
      · next qualifier hq =>
        have hchildren : s.tree.children reference = Form.single data.qualifier :=
          Tree.children_of_form? hform
        have hpart : some qualifier ∈ s.tree.children reference := by
          rw [hchildren]
          exact Form.mem_single.mpr hq.symm
        have hbefore := precedes_of_part h hpart
        refine (ends_qualifierVia (fun hsize => ih fun i hi => hreceiver i ?_)
          (hreceiver qualifier hbefore)).bind fun _ => Typing.ends_pure _
        have hlt := h hpart hsize
        rcases hi with hi | hi
        · exact Or.inl (Nat.lt_trans hi hlt)
        · exact Or.inr hi
      · exact Typing.ends_pure _
      · exact Typing.ends_pure _
    · exact Typing.ends_pure _

theorem ends_receiverClass {type : Inference TypeId} (htype : Ends type.run) :
    Ends (s.receiverClass type) := by
  unfold receiverClass
  refine htype.bind fun found => ?_
  cases found with
  | none => exact Typing.ends_pure _
  | some t => exact fun types => ⟨_, rfl⟩

theorem ends_resolveVia (h : s.tree.Descends) {type : NodeId → Inference TypeId}
    {reference : NodeId} (htype : ∀ i, Precedes s.tree i reference → Ends (type i).run) :
    Ends (s.resolveVia type reference) := by
  unfold resolveVia Script.resolveWith
  refine (ends_lookupWithin h _ fun i hi => ends_receiverClass (htype i hi)).bind fun found => ?_
  cases found with
  | none => exact Typing.ends_pure _
  | some symbol => exact Typing.ends_pure _

end

/-! ## Expressions -/

/-- An expression is typed within a budget that is greater than its number by two. -/
theorem ends_typeWithin (h : s.tree.Descends) (depth : Nat)
    (hb : i + 1 < budget ∨ (s.tree.size ≤ i ∧ 0 < budget)) :
    Ends (s.typeWithin budget depth i).run := by
  induction budget generalizing depth i with
  | zero => omega
  | succ budget ih =>
    -- Whatever stands before a node that is there, or is missing, is typed with one step less.
    have hpart : ∀ {c : Nat} (depth : Nat), i < s.tree.size → Precedes s.tree c i →
        Ends (s.typeWithin budget depth c).run := by
      intro c depth hi hc
      refine ih depth ?_
      rcases hc with hc | hc <;> omega
    rw [typeWithin]
    split
    · exact Typing.ends_pure none
    split
    · exact Typing.ends_pure _
    · exact Typing.ends_pure _
    -- Something in parentheses.
    · next inner hform _ =>
      refine hpart _ (Tree.lt_size_of_form? hform) (precedes_of_part h ?_)
      rw [Tree.children_of_form? hform]
      exact Form.mem_single.mpr rfl
    -- A type that is written down, in a cast or behind `new`.
    · exact ends_denoted h _
    · exact ends_denoted h _
    -- What is assigned.
    · next operator right hform _ =>
      split
      · refine hpart _ (Tree.lt_size_of_form? hform) (precedes_of_part h ?_)
        rw [Tree.children_of_form? hform]
        exact List.mem_append_right _ (Form.mem_single.mpr rfl)
      · exact Typing.ends_pure none
    -- A name: the depth starts anew, and only the number of the receiver has fallen.
    · next hform _ =>
      refine Typing.Ends.bind_run (Typing.Ends.run_lift (ends_resolveVia h fun c hc =>
        hpart 0 (Tree.lt_size_of_form? hform) hc)) fun resolution => ?_
      split
      · exact ends_symbolType h _
      · exact Typing.ends_pure none
    -- A call: what stands before the name that is called stands before the call.
    · next callee _ hform _ =>
      split
      · next hkind =>
        have hcallee : some callee ∈ s.tree.children i := by
          rw [Tree.children_of_form? hform]
          exact List.mem_append_left _ (Form.mem_single.mpr rfl)
        have hlt := h hcallee (Tree.lt_size_of_isOneOf hkind)
        refine Typing.Ends.bind_run (Typing.Ends.run_lift (ends_resolveVia h fun c hc =>
          hpart 0 (Tree.lt_size_of_form? hform) (hc.imp_left (Nat.lt_trans · hlt))))
          fun resolution => ?_
        split
        · refine Typing.Ends.bind_run (ends_signatureOf h _) fun signature => ?_
          split
          · exact Typing.ends_pure _
          · exact Typing.ends_pure none
        · exact Typing.ends_pure none
      · exact Typing.ends_pure none
    · exact Typing.ends_pure none

theorem ends_typeOf (h : s.tree.Descends) (i : Nat) : Ends (s.typeOf i).run := by
  refine ends_typeWithin h 0 ?_
  unfold budget
  have hmul : (s.tree.size + 1) * 2 ≤ (s.tree.size + 1) * (qualifierLimit + 2) :=
    Nat.mul_le_mul_left _ (by omega)
  by_cases hi : i < s.tree.size
  · exact Or.inl (by omega)
  · exact Or.inr ⟨by omega, by omega⟩

theorem ends_resolve (h : s.tree.Descends) (reference : NodeId) : Ends (s.resolve reference) :=
  ends_resolveVia h fun i _ => ends_typeOf h i

theorem ends_argumentTypes (h : s.tree.Descends) (reference : NodeId) :
    Ends (s.argumentTypes reference).run := by
  unfold argumentTypes
  split
  · exact Typing.ends_pure none
  · refine Typing.Ends.run_lift (Typing.ends_mapM (fun argument => ?_) _)
    cases argument with
    | none => exact Typing.ends_pure none
    | some i => exact ends_typeOf h i

/-- Where the parts of a node stand before it, typing never runs out of budget: from any numbering,
    every node has its type or none, every reference its resolution, every variable and method what
    it is declared with, and every call its argument types. -/
theorem typing_ends (h : s.tree.Descends) (types : Interner) :
    (∀ i, ∃ result, (s.typeOf i).run.run types = some result) ∧
      (∀ i, ∃ result, (s.resolve i).run types = some result) ∧
      (∀ i, ∃ result, (s.declaredType i).run.run types = some result) ∧
      (∀ method, ∃ result, (s.signatureOf method).run.run types = some result) ∧
      (∀ i, ∃ result, (s.argumentTypes i).run.run types = some result) :=
  ⟨fun i => ends_typeOf h i types, fun i => ends_resolve h i types,
    fun i => ends_declaredType h i types, fun method => ends_signatureOf h method types,
    fun i => ends_argumentTypes h i types⟩

/-- A file with `class A extends B`, `class B extends A`, a variable `A a` and `a.b.c(a)`. -/
def circularTree : Tree :=
  .ofNodes
    [(.identifier "A", .none),
      (.reference .type ⟨none, some "B", default⟩, .none),
      (.typeDecl ⟨.classType, some 0, [some 1], [], none⟩, .none),
      (.identifier "B", .none),
      (.reference .type ⟨none, some "A", default⟩, .none),
      (.typeDecl ⟨.classType, some 3, [some 4], [], none⟩, .none),
      (.reference .type ⟨none, some "A", default⟩, .none),
      (.identifier "a", .none),
      (.variableLike .localVariable ⟨some 7, some 6, none, false⟩, .none),
      (.reference .value ⟨none, some "a", default⟩, .none),
      (.reference .value ⟨some 9, some "b", default⟩, .none),
      (.reference .value ⟨some 10, some "c", default⟩, .none),
      (.reference .value ⟨none, some "a", default⟩, .none),
      (.argumentList [some 12], .none),
      (.call (some 11) (some 13), .none),
      (.sourceFile ⟨"circular", none, [], [some 2, some 5, some 8, some 14]⟩, .none)]

/-- The classes without a library. -/
def circularScript : TypedScript := ⟨.ofFile .empty circularTree 15 [], .empty⟩

/-- The receivers of the call are asked for, and the classes extend one another. -/
theorem typing_ends_circular :
    circularTree.Descends ∧
      (∃ result, (circularScript.typeOf 14).run.run .initial = some result) ∧
      (∃ result, (circularScript.resolve 11).run .initial = some result) ∧
      (∃ result, (circularScript.declaredType 8).run.run .initial = some result) ∧
      (∃ result, (circularScript.signatureOf 0).run.run .initial = some result) ∧
      (∃ result, (circularScript.argumentTypes 11).run.run .initial = some result) := by
  have h : circularScript.tree.Descends :=
    ((Tree.built_ofNodes _).wellShaped (by decide +kernel)).descends
  obtain ⟨htype, hresolve, hdeclared, hsignature, harguments⟩ := typing_ends h .initial
  exact ⟨h, htype 14, hresolve 11, hdeclared 8, hsignature 0, harguments 11⟩

end TypedScript

end ScriptCheck
