/-
  Writing an import.

  `Tree.withImport` is a tree after an import was written at the end of the
  imports of a file: the tree has one more node, and the file lists it. Whatever
  else is asked of the tree has the same answer as before. For what nodes hold,
  `form?_withImport` lists all that can differ, and the other lemmas of the
  frame follow from it: what is neither a file nor an import is held by the same
  nodes, and the way up from a node stays the same if the new node is not on it.

  Nothing is assumed about the tree. Links and places in stores that lead
  nowhere may lead to the new node afterwards.
-/
import ScriptCheck.Proofs.Syntax.Variables

namespace ScriptCheck

/-- A file with one more import, the last one. Anything else stays as it is. -/
def Form.withImport (part : Part) : Form → Form
  | .sourceFile file => .sourceFile { file with imports := file.imports ++ [part] }
  | form => form

/-- The text of an identifier. -/
def Form.text? : Form → Option String
  | .identifier text => some text
  | _ => none

/-- It does not matter under which kind a form is read. -/
theorem Form.ofKind_withImport (part : Part) (k : Kind) (form : Form) :
    (form.withImport part).ofKind k = (form.ofKind k).withImport part := by
  cases form with
  | variableLike role data => cases k <;> rfl
  | reference role data => cases k <;> rfl
  | collection role elements => cases k <;> rfl
  | _ => rfl

/-- What can be held before and after an import was written: the same, a file with one more import,
    or the import where there was nothing. -/
inductive Form.Rewritten (part : Part) (data : Import) : Option Form → Option Form → Prop
  | same (held : Option Form) : Rewritten part data held held
  | file (file : SourceFile) : Rewritten part data (some (.sourceFile file))
    (some (.sourceFile { file with imports := file.imports ++ [part] }))
  | new : Rewritten part data none (some (.importing data))

/-- What is asked about neither files nor imports has the same answer. -/
theorem Form.Rewritten.bind_eq {α : Type} {f : Form → Option α} {part : Part} {data : Import}
    {held now : Option Form} (h : Rewritten part data held now)
    (hfile : ∀ file, f (.sourceFile file) = none) (himport : ∀ data, f (.importing data) = none) :
    now.bind f = held.bind f := by
  cases h with
  | same => rfl
  | file file => rw [Option.bind_some, Option.bind_some, hfile, hfile]
  | new => exact himport data

theorem Form.Rewritten.eq_of_reference {part : Part} {data : Import} {role : ReferenceRole}
    {reference : Reference} {now : Option Form}
    (h : Rewritten part data (some (.reference role reference)) now) :
    now = some (.reference role reference) := by
  cases h with
  | same => rfl

theorem Form.Rewritten.importing {part : Part} {data data' : Import} {held : Option Form}
    (h : Rewritten part data held (some (.importing data'))) :
    held = some (.importing data') ∨ data' = data := by
  cases h with
  | same => exact Or.inl rfl
  | new => exact Or.inr rfl

theorem Form.rewritten_withImport (part : Part) (data : Import) (form : Form) :
    Rewritten part data (some form) (some (form.withImport part)) := by
  cases form with
  | sourceFile file => exact .file file
  | _ => exact .same _

namespace Tree

/-- The tree with one more node, which is an import. -/
def addImport (t : Tree) (data : Import) (span : Span) (parent : Part) : Tree :=
  (t.add (.importing data) span .none).modify t.size fun node => { node with parent := parent }

/-- The tree after an import was written at the end of the imports of the file at `root`. -/
def withImport (t : Tree) (root : NodeId) (data : Import) (span : Span) (parent : Part) : Tree :=
  let grown := t.addImport data span parent
  match t.header? root with
  | some (k, some slot) =>
    { grown with
      stores := grown.stores.set k.storeIndex
        ((grown.store k).modify slot (Form.withImport (some t.size))) k.storeIndex_lt }
  | _ => grown

section

variable {t : Tree} {root i j : NodeId} {data : Import} {span : Span} {parent : Part}

/-! ## Headers -/

theorem nodes_withImport :
    (t.withImport root data span parent).nodes = (t.addImport data span parent).nodes := by
  unfold withImport
  split <;> rfl

/-- The headers of the nodes that were there stay as they are. -/
theorem node?_withImport (h : i ≠ t.size) :
    (t.withImport root data span parent).node? i = t.node? i := by
  have hadd : ((t.add (.importing data) span .none).modify t.size _).node? i = _ :=
    node?_modify_of_ne _ h.symm fun node => { node with parent := parent }
  unfold node? at hadd ⊢
  rw [nodes_withImport]
  refine hadd.trans ?_
  show (t.nodes.push _)[i]? = t.nodes[i]?
  rw [Array.getElem?_push]
  exact if_neg h

theorem node?_withImport_self : (t.withImport root data span parent).node? t.size =
    some ⟨.importDeclaration, span, parent, .none, some (t.store .importDeclaration).size⟩ := by
  have hnew : (t.add (.importing data) span .none).node? t.size =
      some ⟨.importDeclaration, span, none, .none, some (t.store .importDeclaration).size⟩ :=
    Array.getElem?_push_size
  have hadd : ((t.add (.importing data) span .none).modify t.size _).node? t.size = _ :=
    node?_modify_self _ t.size fun node => { node with parent := parent }
  rw [hnew] at hadd
  unfold node? at hadd ⊢
  rw [nodes_withImport]
  exact hadd

theorem header?_withImport (i : NodeId) : (t.withImport root data span parent).header? i =
    if i = t.size then some (.importDeclaration, some (t.store .importDeclaration).size)
    else t.header? i := by
  unfold header?
  split
  · next h =>
    rw [h, node?_withImport_self]
    rfl
  · next h => rw [node?_withImport h]

/-- The new node is an import, and no other node is of another kind than before. -/
theorem kind?_withImport (i : NodeId) : (t.withImport root data span parent).kind? i =
    if i = t.size then some .importDeclaration else t.kind? i := by
  unfold kind?
  split
  · next h =>
    rw [h, node?_withImport_self]
    rfl
  · next h => rw [node?_withImport h]

theorem parent?_withImport (i : NodeId) : (t.withImport root data span parent).parent? i =
    if i = t.size then parent else t.parent? i := by
  unfold parent?
  split
  · next h =>
    rw [h, node?_withImport_self]
    rfl
  · next h => rw [node?_withImport h]

/-! ## What nodes hold -/

/-- What lies at a place of a store: the new import is stored too, and the form of the file lists
    it. -/
theorem getElem?_store_withImport (k : Kind) (slot : Nat) :
    ((t.withImport root data span parent).store k)[slot]? =
      (((t.add (.importing data) span .none).store k)[slot]?).map
        (if (t.header? root).map (Prod.map Kind.store id) = some (k.store, some slot) then
          Form.withImport (some t.size) else id) := by
  unfold withImport
  split
  · next k' slot' hroot =>
    have hwhere : (t.header? root).map (Prod.map Kind.store id) = some (k.store, some slot) ↔
        k.store = k'.store ∧ slot' = slot := by
      rw [hroot]
      simp [eq_comm]
    rw [store_set]
    by_cases hk : k.store = k'.store
    · have hstore : (t.addImport data span parent).store k' =
          (t.add (.importing data) span .none).store k := store_eq_of_store_eq hk.symm
      rw [if_pos hk, hstore, Array.getElem?_modify]
      by_cases hslot : slot' = slot
      · rw [if_pos hslot, if_pos (hwhere.mpr ⟨hk, hslot⟩)]
      · rw [if_neg hslot, if_neg fun h => hslot (hwhere.mp h).2, Option.map_id_fun, id_eq]
    · rw [if_neg hk, if_neg fun h => hk (hwhere.mp h).1, Option.map_id_fun, id_eq]
      rfl
  · next hroot =>
    rw [if_neg, Option.map_id_fun, id_eq]
    · rfl
    · intro h
      obtain ⟨⟨k', slot'⟩, hentry, heq⟩ := Option.map_eq_some_iff.mp h
      obtain ⟨_, rfl⟩ := Prod.mk.inj heq
      exact hroot k' slot hentry

/-- Storing the import leaves every place that is taken as it is. -/
theorem getElem?_store_addImport (k : Kind) (slot : Nat) :
    ((t.add (.importing data) span .none).store k)[slot]? = (t.store k)[slot]? ∨
      ((t.store k)[slot]? = none ∧
        ((t.add (.importing data) span .none).store k)[slot]? = some (.importing data)) := by
  rw [store_add]
  split
  · rw [Array.getElem?_push]
    split
    · next hslot => exact Or.inr ⟨Array.getElem?_eq_none (Nat.le_of_eq hslot.symm), rfl⟩
    · exact Or.inl rfl
  · exact Or.inl rfl

/-- What a node of a kind holds whose data lies at a place. -/
def read? (t : Tree) (k : Kind) (slot : Nat) : Option Form :=
  ((t.store k)[slot]?).map (Form.ofKind k)

theorem read?_withImport (k : Kind) (slot : Nat) :
    Form.Rewritten (some t.size) data (t.read? k slot)
      ((t.withImport root data span parent).read? k slot) := by
  unfold read?
  rw [getElem?_store_withImport]
  rcases getElem?_store_addImport k slot with hold | ⟨hnone, hnew⟩
  · rw [hold]
    cases hform : (t.store k)[slot]? with
    | none => exact .same none
    | some form =>
      rw [Option.map_some, Option.map_some, Option.map_some]
      split
      · rw [Form.ofKind_withImport]
        exact Form.rewritten_withImport _ _ _
      · exact .same _
  · rw [hnone, hnew]
    split <;> exact .new

/-- The new node holds the import. -/
theorem form?_withImport_self :
    (t.withImport root data span parent).form? t.size = some (.importing data) := by
  have hstored : ((t.add (.importing data) span .none).store .importDeclaration)[
      (t.store .importDeclaration).size]? = some (.importing data) := by
    rw [store_add]
    exact Array.getElem?_push_size
  rw [form?_eq_header?, header?_withImport, if_pos rfl]
  show Option.map _ (((t.withImport root data span parent).store .importDeclaration)[_]?) = _
  rw [getElem?_store_withImport, hstored]
  split <;> rfl

/-- Any other node holds what it held, but for a file that was changed; one that held nothing may
    hold the import, too. -/
theorem form?_withImport (i : NodeId) : Form.Rewritten (some t.size) data (t.form? i)
    ((t.withImport root data span parent).form? i) := by
  by_cases hi : i = t.size
  · rw [hi, form?_withImport_self, form?_eq_none (Nat.le_refl _)]
    exact .new
  · rw [form?_eq_header?, form?_eq_header?, header?_withImport, if_neg hi]
    cases t.header? i with
    | none => exact .same none
    | some entry =>
      obtain ⟨k, slot⟩ := entry
      cases slot with
      | none => exact .same none
      | some slot => exact read?_withImport k slot

/-- The file lists the import last. -/
theorem form?_withImport_root {file : SourceFile} (h : t.form? root = some (.sourceFile file)) :
    (t.withImport root data span parent).form? root =
      some (.sourceFile { file with imports := file.imports ++ [some t.size] }) := by
  have hne : root ≠ t.size := Nat.ne_of_lt (lt_size_of_form? h)
  rw [form?_eq_header?] at h ⊢
  obtain ⟨⟨k, slot⟩, hheader, hentry⟩ := Option.bind_eq_some_iff.mp h
  obtain ⟨slot, rfl, hread⟩ := Option.bind_eq_some_iff.mp hentry
  obtain ⟨form, hform, hfile⟩ := Option.map_eq_some_iff.mp hread
  have hwhere : (t.header? root).map (Prod.map Kind.store id) = some (k.store, some slot) := by
    rw [hheader]
    rfl
  -- The place of the file is taken, so the new import does not lie there.
  have hold : ((t.add (.importing data) span .none).store k)[slot]? = some form := by
    rcases getElem?_store_addImport k slot with hold | ⟨hnone, _⟩
    · rw [hold, hform]
    · rw [hnone] at hform
      cases hform
  rw [header?_withImport, if_neg hne, hheader]
  show Option.map _ (((t.withImport root data span parent).store k)[slot]?) = _
  rw [getElem?_store_withImport, hold, if_pos hwhere, Option.map_some, Option.map_some,
    Form.ofKind_withImport, hfile]
  rfl

/-! ## The frame -/

theorem textAt?_eq_bind (t : Tree) (i : NodeId) : t.textAt? i = (t.form? i).bind Form.text? := by
  unfold textAt?
  cases t.form? i with
  | none => rfl
  | some form => cases form <;> rfl

theorem textAt?_withImport : (t.withImport root data span parent).textAt? = t.textAt? := by
  funext i
  rw [textAt?_eq_bind, textAt?_eq_bind]
  exact (form?_withImport i).bind_eq (fun _ => rfl) fun _ => rfl

/-- No declaration gets another name. -/
theorem declaredName?_withImport (i : NodeId) :
    (t.withImport root data span parent).declaredName? i = t.declaredName? i := by
  unfold declaredName?
  rw [textAt?_withImport]
  exact (form?_withImport i).bind_eq (fun _ => rfl) fun _ => rfl

/-- A reference stays as it is. -/
theorem form?_withImport_of_reference {role : ReferenceRole} {reference : Reference}
    (h : t.form? i = some (.reference role reference)) :
    (t.withImport root data span parent).form? i = some (.reference role reference) := by
  have hi : Form.Rewritten (some t.size) data (t.form? i)
      ((t.withImport root data span parent).form? i) := form?_withImport i
  rw [h] at hi
  exact hi.eq_of_reference

/-- No node becomes a declaration of a type. -/
theorem isOneOf_withImport {kinds : List Kind} (hkinds : .importDeclaration ∉ kinds) (i : NodeId) :
    (t.withImport root data span parent).isOneOf kinds i = t.isOneOf kinds i := by
  unfold isOneOf
  rw [kind?_withImport]
  split
  · next hi =>
    have hnone : t.kind? i = none := by
      unfold kind? node?
      rw [Array.getElem?_eq_none (Nat.le_of_eq hi.symm)]
      rfl
    rw [hnone]
    simp [hkinds]
  · rfl

/-- No way up in a tree that was built leads to a node that is added later. -/
theorem Built.size_not_mem_ancestors (hb : t.Built) (i : NodeId) : t.size ∉ t.ancestors i :=
  fun h => Nat.lt_irrefl _ (hb.lt_size_of_mem_ancestors h)

/-- The way up from another node stays the same if the new node has no parent or is not on it. -/
theorem ancestors_withImport (hi : i ≠ t.size) (hoff : parent = none ∨ t.size ∉ t.ancestors i) :
    (t.withImport root data span parent).ancestors i = t.ancestors i := by
  unfold ancestors
  rw [parent?_withImport, if_neg hi]
  refine climb_congr fun j hj => ?_
  rw [parent?_withImport]
  split
  · next hsize =>
    have hnone : t.parent? j = none := parent?_eq_none (Nat.le_of_eq hsize.symm)
    rw [hnone]
    rcases hoff with hparent | hoff
    · exact hparent
    · exact absurd (hsize ▸ hj) hoff
  · rfl

end

end Tree

end ScriptCheck
