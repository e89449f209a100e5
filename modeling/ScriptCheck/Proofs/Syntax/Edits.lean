/-
  Trees in an editor.

  While a program is being edited, the headers of nodes are changed. A node may
  then lose its data or get at the data of another node, but never at data of
  another sort: the stores hold what belongs into them. So a node that holds
  anything is of the kind of what it holds (`Edited.kind?_of_form?`).
-/
import ScriptCheck.Proofs.Syntax.Shape

namespace ScriptCheck

/-- The kinds that share a store with others, by the names of their stores. -/
def Kind.sharedStores : List Kind := [.fieldDeclaration, .reference, .listLiteral]

/-- A kind that shares no store is the only one that is kept in its store. -/
theorem Kind.eq_of_store_eq {a k : Kind} (h : a.store = k.store)
    (ha : a.store ∉ sharedStores) : a = k := by
  have hall : ∀ a ∈ all, ∀ k ∈ all, a.store = k.store → a.store ∉ sharedStores → a = k := by
    decide
  exact hall a (mem_all a) k (mem_all k) h ha

/-- What is read under a kind that it is kept with is of that kind. -/
theorem Form.kind_ofKind {k : Kind} {form : Form} (h : form.kind.store = k.store) :
    (form.ofKind k).kind = k := by
  cases form with
  | variableLike role data => cases role <;> cases k <;> first | rfl | cases h
  | reference role data => cases role <;> cases k <;> first | rfl | cases h
  | collection role elements => cases role <;> cases k <;> first | rfl | cases h
  | _ =>
    have hk := Kind.eq_of_store_eq h (by simp [kind, Kind.store, Kind.sharedStores])
    exact hk

namespace Tree

/-- The trees that adding nodes and changing headers lead to. -/
inductive Edited : Tree → Prop
  | start : Edited empty
  | add {t : Tree} (h : Edited t) (form : Form) (span : Span) (modifiers : Modifiers) :
    Edited (t.add form span modifiers)
  | modify {t : Tree} (h : Edited t) (i : NodeId) (change : Node → Node) :
    Edited (t.modify i change)

section

variable {t : Tree} {i : NodeId} {form : Form}

theorem Built.edited (h : t.Built) : t.Edited := by
  induction h with
  | start => exact .start
  | add _ form span modifiers ih => exact ih.add form span modifiers

/-- A store holds only what belongs into it. -/
theorem Edited.store_eq (h : t.Edited) {k : Kind} (hm : form ∈ t.store k) :
    form.kind.store = k.store := by
  induction h with
  | start =>
    have hempty : empty.store k = #[] := by
      show (Vector.replicate Kind.count (#[] : Array Form))[k.storeIndex] = #[]
      rw [Fin.getElem_fin, Vector.getElem_replicate]
    rw [hempty] at hm
    exact absurd hm (Array.not_mem_empty form)
  | @add t _ new span modifiers ih =>
    rw [store_add] at hm
    split at hm
    · next hk =>
      rcases Array.mem_push.mp hm with hm | rfl
      · exact ih hm
      · exact hk.2.symm
    · exact ih hm
  | modify _ i change ih => exact ih hm

/-- A node is of the kind of what it holds. -/
theorem Edited.kind?_of_form? (h : t.Edited) (hf : t.form? i = some form) :
    t.kind? i = some form.kind := by
  rw [form?_eq_header?] at hf
  obtain ⟨⟨k, slot⟩, hheader, hentry⟩ := Option.bind_eq_some_iff.mp hf
  obtain ⟨slot, rfl, hread⟩ := Option.bind_eq_some_iff.mp hentry
  obtain ⟨stored, hstored, rfl⟩ := Option.map_eq_some_iff.mp hread
  have hkind : t.kind? i = some k := by
    obtain ⟨node, hnode, heq⟩ := Option.map_eq_some_iff.mp hheader
    obtain ⟨rfl, _⟩ := Prod.mk.inj heq
    unfold kind?
    rw [hnode]
    rfl
  rw [hkind, Form.kind_ofKind (h.store_eq (Array.mem_of_getElem? hstored))]

end

end Tree

end ScriptCheck
