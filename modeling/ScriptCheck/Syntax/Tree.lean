/-
  Syntax trees.

  A tree numbers its nodes in the order in which they are added. A node carries
  a small header; what it holds lies in the store of its kind, and the header
  says at which place. Adding a node makes it the parent of those of its
  children that are there already, the node itself included; a child that is
  missing, or that is added later, is only remembered.

  Headers can be changed afterwards, as happens while a program is being
  edited. A node whose kind was changed holds what lies at its old place in the
  store of the new kind.

  A node's number, and its place in a store, is a natural number where 32 bits
  are meant, so fewer than 2^32 nodes are assumed: `add` never runs out of
  numbers.
-/
import ScriptCheck.Syntax.Form

namespace ScriptCheck

/-- The header of a node. -/
structure Node where
  kind : Kind
  span : Span
  parent : Part
  modifiers : Modifiers
  /-- The place in the store of the kind, unless the node holds nothing. -/
  slot : Option Nat
deriving DecidableEq, Repr, Inhabited

/-- All nodes of a script. -/
structure Tree where
  nodes : Array Node
  stores : Vector (Array Form) Kind.count

/-- The place of a kind's store. -/
def Kind.storeIndex (k : Kind) : Fin count := ⟨k.store.ctorIdx, by cases k <;> decide⟩

/-- Every kind has a store. -/
theorem Kind.storeIndex_lt (k : Kind) : (k.storeIndex : Nat) < count := k.storeIndex.isLt

/-- Stores have the same place only if they are the same. -/
theorem Kind.storeIndex_inj {a b : Kind} : a.storeIndex = b.storeIndex ↔ a.store = b.store := by
  constructor
  · intro h
    have h : a.store.ctorIdx = b.store.ctorIdx := congrArg Fin.val h
    cases ha : a.store <;> cases hb : b.store <;> simp_all [Kind.ctorIdx]
  · intro h
    exact Fin.ext (by simp [storeIndex, h])

namespace Tree

/-- The tree without nodes. -/
def empty : Tree := ⟨#[], Vector.replicate Kind.count #[]⟩

/-- How many nodes there are. -/
def size (t : Tree) : Nat := t.nodes.size

/-- The header of a node. -/
def node? (t : Tree) (i : NodeId) : Option Node := t.nodes[i]?

/-- What was added to the store of a kind, in order. -/
def store (t : Tree) (k : Kind) : Array Form := t.stores[k.storeIndex]

/-- Kinds that are kept together have one store. -/
theorem store_eq_of_store_eq {t : Tree} {k k' : Kind} (h : k.store = k'.store) :
    t.store k = t.store k' :=
  congrArg (fun index : Fin Kind.count => t.stores[index]) (Kind.storeIndex_inj.mpr h)

/-- The kind of a node. -/
def kind? (t : Tree) (i : NodeId) : Option Kind := (t.node? i).map Node.kind

/-- The range of a node. -/
def span? (t : Tree) (i : NodeId) : Option Span := (t.node? i).map Node.span

/-- The parent of a node, if it has one. -/
def parent? (t : Tree) (i : NodeId) : Part := (t.node? i).bind Node.parent

/-- The modifiers of a node; nothing has none. -/
def modifiers (t : Tree) (i : NodeId) : Modifiers :=
  ((t.node? i).map Node.modifiers).getD Modifiers.none

/-- What a node is and holds, unless its data is missing. -/
def form? (t : Tree) (i : NodeId) : Option Form := do
  let node ← t.node? i
  let slot ← node.slot
  let form ← (t.store node.kind)[slot]?
  return form.ofKind node.kind

/-- What the store of a kind holds for a node: nothing if the node is of a kind kept elsewhere, or
    if its data is missing. -/
def dataIn? (t : Tree) (k : Kind) (i : NodeId) : Option Form := do
  let node ← t.node? i
  let slot ← node.slot
  if node.kind.store = k.store then
    let form ← (t.store k)[slot]?
    return form.ofKind node.kind
  else none

/-- What a node holds is what the store of its kind holds for it. -/
theorem dataIn?_eq_form? (t : Tree) (k : Kind) (i : NodeId) :
    t.dataIn? k i = if (t.kind? i).map Kind.store = some k.store then t.form? i else none := by
  unfold dataIn? form? kind?
  cases hnode : t.node? i with
  | none => rfl
  | some node =>
    simp only [Option.map_some, Option.some_inj, Option.bind_eq_bind, Option.bind_some]
    by_cases hk : node.kind.store = k.store
    · rw [if_pos hk, ← store_eq_of_store_eq hk]
      simp only [hk, if_true]
    · rw [if_neg hk]
      simp only [hk, if_false]
      cases node.slot <;> rfl

/-! ## Growth -/

/-- Makes `parent` the parent of a node that is there. -/
def adopt (nodes : Array Node) (parent : NodeId) (child : Part) : Array Node :=
  match child with
  | some i => nodes.modify i fun node => { node with parent := some parent }
  | none => nodes

/-- Puts a form into the store of its kind; returns its place. Forms without content have none. -/
def keep (stores : Vector (Array Form) Kind.count) (form : Form) :
    Option Nat × Vector (Array Form) Kind.count :=
  if form = .unknown then (none, stores)
  else
    let index := form.kind.storeIndex
    (some stores[index].size, stores.set index (stores[index].push form))

/-- Adds a node, which becomes the parent of its children. -/
def add (t : Tree) (form : Form) (span : Span) (modifiers : Modifiers) : Tree :=
  let (slot, stores) := keep t.stores form
  let node : Node := ⟨form.kind, span, none, modifiers, slot⟩
  ⟨form.adopted.foldl (adopt · t.size ·) (t.nodes.push node), stores⟩

/-- Changes the header of a node, if it is there. -/
def modify (t : Tree) (i : NodeId) (change : Node → Node) : Tree :=
  { t with nodes := t.nodes.modify i change }

/-! ### What growth keeps -/

@[simp] theorem size_adopt (nodes : Array Node) (parent : NodeId) (child : Part) :
    (adopt nodes parent child).size = nodes.size := by
  cases child with
  | none => rfl
  | some i => exact Array.size_modify ..

@[simp] theorem size_foldl_adopt (parts : List Part) (parent : NodeId) (nodes : Array Node) :
    (parts.foldl (adopt · parent ·) nodes).size = nodes.size := by
  induction parts generalizing nodes with
  | nil => rfl
  | cons part rest ih => rw [List.foldl_cons, ih, size_adopt]

/-- A tree grows by one node, which gets the next number. -/
@[simp] theorem size_add (t : Tree) (form : Form) (span : Span) (modifiers : Modifiers) :
    (t.add form span modifiers).size = t.size + 1 := by
  unfold add size
  rw [size_foldl_adopt, Array.size_push]

/-- Becoming the child of a node changes nothing but the parent: what does not depend on it stays
    as it is. -/
theorem map_adopt {f : Node → α} (hf : ∀ node part, f { node with parent := part } = f node)
    (nodes : Array Node) (parent : NodeId) (child : Part) (i : NodeId) :
    ((adopt nodes parent child)[i]?).map f = (nodes[i]?).map f := by
  cases child with
  | none => rfl
  | some c =>
    unfold adopt
    rw [Array.getElem?_modify]
    split
    · rw [Option.map_map]
      exact congrArg (Option.map · nodes[i]?) (funext fun node => hf node (some parent))
    · rfl

theorem map_foldl_adopt {f : Node → α} (hf : ∀ node part, f { node with parent := part } = f node)
    (parts : List Part) (parent : NodeId) (nodes : Array Node) (i : NodeId) :
    ((parts.foldl (adopt · parent ·) nodes)[i]?).map f = (nodes[i]?).map f := by
  induction parts generalizing nodes with
  | nil => rfl
  | cons part rest ih => rw [List.foldl_cons, ih, map_adopt hf]

/-- Growth leaves the nodes that are there as they are, their parents aside. -/
theorem map_node?_add_of_lt {f : Node → α}
    (hf : ∀ node part, f { node with parent := part } = f node) {t : Tree} {i : NodeId}
    (h : i < t.size) (form : Form) (span : Span) (modifiers : Modifiers) :
    ((t.add form span modifiers).node? i).map f = (t.node? i).map f := by
  unfold add node?
  rw [map_foldl_adopt hf, Array.getElem?_push_lt h, Array.getElem?_eq_getElem h]

/-- What a new node has, its parent aside. -/
theorem map_node?_add_self {f : Node → α}
    (hf : ∀ node part, f { node with parent := part } = f node) (t : Tree) (form : Form)
    (span : Span) (modifiers : Modifiers) :
    ((t.add form span modifiers).node? t.size).map f =
      some (f ⟨form.kind, span, none, modifiers, (keep t.stores form).1⟩) := by
  unfold add node?
  rw [map_foldl_adopt hf]
  exact congrArg (Option.map f) Array.getElem?_push_size

@[simp] theorem kind?_add_self (t : Tree) (form : Form) (span : Span) (modifiers : Modifiers) :
    (t.add form span modifiers).kind? t.size = some form.kind :=
  map_node?_add_self (fun _ _ => rfl) t form span modifiers

theorem kind?_add_of_lt {t : Tree} {i : NodeId} (h : i < t.size) (form : Form) (span : Span)
    (modifiers : Modifiers) : (t.add form span modifiers).kind? i = t.kind? i :=
  map_node?_add_of_lt (fun _ _ => rfl) h form span modifiers

@[simp] theorem node?_modify_self (t : Tree) (i : NodeId) (change : Node → Node) :
    (t.modify i change).node? i = (t.node? i).map change := by
  unfold modify node?
  rw [Array.getElem?_modify, if_pos rfl]

@[simp] theorem node?_modify_of_ne (t : Tree) {i j : NodeId} (h : i ≠ j) (change : Node → Node) :
    (t.modify i change).node? j = t.node? j := by
  unfold modify node?
  rw [Array.getElem?_modify, if_neg h]

/-! ## Views -/

/-- The reference at a node. -/
def referenceAt? (t : Tree) (i : NodeId) : Option Reference :=
  match t.form? i with
  | some (.reference _ data) => some data
  | _ => none

/-- The variable that a node declares. -/
def variableAt? (t : Tree) (i : NodeId) : Option Variable :=
  match t.form? i with
  | some (.variableLike _ data) => some data
  | _ => none

/-- The method that a node declares. -/
def methodAt? (t : Tree) (i : NodeId) : Option Method :=
  match t.form? i with
  | some (.method data) => some data
  | _ => none

/-- The type that a node declares. -/
def typeDeclAt? (t : Tree) (i : NodeId) : Option TypeDecl :=
  match t.form? i with
  | some (.typeDecl data) => some data
  | _ => none

/-- The arguments in an argument list. -/
def argumentListAt? (t : Tree) (i : NodeId) : Option (List Part) :=
  match t.form? i with
  | some (.argumentList arguments) => some arguments
  | _ => none

/-- The text of an identifier. -/
def textAt? (t : Tree) (i : NodeId) : Option String :=
  match t.form? i with
  | some (.identifier text) => some text
  | _ => none

/-- The name that a declaration of a type, a method or a variable gives to what it declares. -/
def declaredName? (t : Tree) (i : NodeId) : Option String := do
  let name ← match ← t.form? i with
    | .typeDecl data => data.name
    | .method data => data.name
    | .variableLike _ data => data.name
    | _ => none
  t.textAt? name

/-- The parts of a node in source order. -/
def children (t : Tree) (i : NodeId) : List Part :=
  match t.form? i with
  | some form => form.children
  | none => []

end Tree

end ScriptCheck
