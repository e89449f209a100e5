/-
  Giving nodes other names.

  A form can be called something else: an identifier gets another text and a
  reference another name, and all other forms stay as they are. `renameWhere` does
  so to some of the nodes that are added to a tree. `Renamed` says what the trees
  before and after have in common. Whatever does not read the names of identifiers
  and references then has the same answer in both, for which `Form.Recalled` lists
  what a node can hold before and after.
-/
import Mathlib.Data.List.Induction
import ScriptCheck.Proofs.Syntax.Variables

namespace ScriptCheck

/-- The same form under another name. Only identifiers and references have names of their own. -/
def Form.called (name : String) : Form → Form
  | .identifier _ => .identifier name
  | .reference role data => .reference role { data with name := some name }
  | form => form

/-- What can be held before and after a renaming: the same, or what is called something else. -/
inductive Form.Recalled (name : String) : Option Form → Option Form → Prop
  | same (held : Option Form) : Recalled name held held
  | identifier (text : String) : Recalled name (some (.identifier text)) (some (.identifier name))
  | reference (role : ReferenceRole) (data : Reference) :
    Recalled name (some (.reference role data))
      (some (.reference role { data with name := some name }))

namespace Tree

/-- The part of a declaration that is its name. -/
def namePart (t : Tree) (i : NodeId) : Part :=
  match t.form? i with
  | some (.typeDecl data) => data.name
  | some (.method data) => data.name
  | some (.variableLike _ data) => data.name
  | _ => none

/-- What the form of a node becomes if the chosen nodes are called `name`. -/
def renameAt (chosen : NodeId → Bool) (name : String) (i : NodeId) (form : Form) : Form :=
  if chosen i then form.called name else form

/-- The additions of a tree, with the chosen nodes called `name`. -/
def renameWhere (chosen : NodeId → Bool) (name : String) (additions : List Addition) :
    List Addition :=
  additions.mapIdx fun i a => { a with form := renameAt chosen name i a.form }

/-- The second tree is the first one with the chosen nodes called `name`. -/
structure Renamed (t u : Tree) (chosen : NodeId → Bool) (name : String) : Prop where
  size : u.size = t.size
  header : ∀ i, (u.node? i).map (fun node => (node.kind, node.modifiers)) =
    (t.node? i).map fun node => (node.kind, node.modifiers)
  parent? : ∀ i, u.parent? i = t.parent? i
  form? : ∀ i, u.form? i = (t.form? i).map (renameAt chosen name i)

/-- Of the names that declarations give, only that of the variable declared at `d` is another
    one, if it has a name at all. -/
structure RenamesVariable (t u : Tree) (chosen : NodeId → Bool) (name : String) (d : NodeId) :
    Prop extends t.Renamed u chosen name where
  kind : t.kind? d = some .variableDeclaration
  declaredName? : ∀ i, u.declaredName? i =
    if i = d then (t.declaredName? i).map fun _ => name else t.declaredName? i

section

variable {t u : Tree} {chosen : NodeId → Bool} {name : String} {i : Nat} {form : Form}

/-! ## Forms -/

@[simp] theorem kind_renameAt : (renameAt chosen name i form).kind = form.kind := by
  unfold renameAt
  split
  · cases form <;> rfl
  · rfl

@[simp] theorem children_renameAt : (renameAt chosen name i form).children = form.children := by
  unfold renameAt
  split
  · cases form <;> rfl
  · rfl

/-- Only what is nothing becomes nothing. -/
theorem renameAt_eq_unknown_iff : renameAt chosen name i form = .unknown ↔ form = .unknown := by
  unfold renameAt
  split
  · cases form <;> simp [Form.called]
  · rfl

/-! ## Names of declarations -/

theorem declaredName?_eq_bind (t : Tree) (i : NodeId) :
    t.declaredName? i = (t.namePart i).bind t.textAt? := by
  unfold declaredName? namePart
  cases t.form? i with
  | none => rfl
  | some form => cases form <;> rfl

theorem mem_children_of_namePart {part : NodeId} (h : t.namePart i = some part) :
    some part ∈ t.children i := by
  unfold namePart at h
  split at h
  · next hform =>
    rw [children_of_form? hform]
    simp [Form.children, h]
  · next hform =>
    rw [children_of_form? hform]
    simp [Form.children, h]
  · next hform =>
    rw [children_of_form? hform]
    simp [Form.children, h]
  · cases h

theorem lt_size_of_textAt? {text : String} (h : t.textAt? i = some text) : i < t.size := by
  unfold textAt? at h
  split at h
  · next hform => exact lt_size_of_form? hform
  · cases h

/-! ## Renaming while a tree grows -/

theorem renamed_empty (chosen : NodeId → Bool) (name : String) :
    empty.Renamed empty chosen name :=
  ⟨rfl, fun _ => rfl, fun _ => rfl, fun _ => rfl⟩

/-- The trees stay alike with one node more, which is added to the second one under its new name if
    it is chosen. -/
theorem Renamed.add (h : t.Renamed u chosen name) (ht : t.Built) (hu : u.Built) (form : Form)
    (span : Span) (modifiers : Modifiers) :
    (t.add form span modifiers).Renamed
      (u.add (renameAt chosen name t.size form) span modifiers) chosen name := by
  have hsize : (u.add (renameAt chosen name t.size form) span modifiers).size =
      (t.add form span modifiers).size := by
    rw [size_add, size_add, h.size]
  refine ⟨hsize, fun i => ?_, fun i => ?_, fun i => ?_⟩
  · rcases Nat.lt_trichotomy i t.size with hlt | rfl | hgt
    · rw [map_node?_add_of_lt (fun _ _ => rfl) hlt,
        map_node?_add_of_lt (fun _ _ => rfl) (h.size ▸ hlt), h.header]
    · rw [map_node?_add_self fun _ _ => rfl, ← h.size, map_node?_add_self fun _ _ => rfl,
        kind_renameAt]
    · have hout : (t.add form span modifiers).size ≤ i := by
        rw [size_add]
        exact hgt
      unfold node?
      rw [Array.getElem?_eq_none hout, Array.getElem?_eq_none (Nat.le_trans hsize.le hout)]
  · rw [parent?_add, parent?_add, h.size, children_renameAt, h.parent?]
  · rcases Nat.lt_trichotomy i t.size with hlt | rfl | hgt
    · rw [ht.form?_add_of_lt hlt, hu.form?_add_of_lt (h.size ▸ hlt), h.form?]
    · rw [form?_add_self, ← h.size, form?_add_self, h.size]
      simp only [renameAt_eq_unknown_iff]
      split <;> rfl
    · have hout : (t.add form span modifiers).size ≤ i := by
        rw [size_add]
        exact hgt
      rw [form?_eq_none hout, form?_eq_none (Nat.le_trans hsize.le hout)]
      rfl

/-- Renaming additions renames the nodes of the tree that they lead to. -/
theorem renamed_ofAdditions (chosen : NodeId → Bool) (name : String) (additions : List Addition) :
    (ofAdditions additions).Renamed (ofAdditions (renameWhere chosen name additions)) chosen
      name := by
  induction additions using List.reverseRecOn with
  | nil => exact renamed_empty chosen name
  | append_singleton rest a ih =>
    have hsize : (ofAdditions rest).size = rest.length := by
      unfold ofAdditions
      rw [size_grow]
      exact Nat.zero_add _
    have hlast : renameWhere chosen name (rest ++ [a]) =
        renameWhere chosen name rest ++
          [{ a with form := renameAt chosen name rest.length a.form }] := by
      unfold renameWhere
      rw [List.mapIdx_concat]
    unfold ofAdditions at ih hsize ⊢
    rw [hlast, grow_append, grow_append, ← hsize]
    exact ih.add (built_ofAdditions _) (built_ofAdditions _) a.form a.span a.modifiers

/-! ## What stays -/

theorem Renamed.kind? (h : t.Renamed u chosen name) (i : NodeId) : u.kind? i = t.kind? i := by
  have hheader := congrArg (Option.map Prod.fst) (h.header i)
  rw [Option.map_map, Option.map_map] at hheader
  exact hheader

theorem Renamed.modifiers (h : t.Renamed u chosen name) (i : NodeId) :
    u.modifiers i = t.modifiers i := by
  have hheader := congrArg (Option.map Prod.snd) (h.header i)
  rw [Option.map_map, Option.map_map] at hheader
  exact congrArg (·.getD .none) hheader

theorem Renamed.isOneOf (h : t.Renamed u chosen name) (kinds : List Kind) :
    u.isOneOf kinds = t.isOneOf kinds := by
  funext i
  unfold Tree.isOneOf
  rw [h.kind?]

theorem Renamed.ancestors (h : t.Renamed u chosen name) (i : NodeId) :
    u.ancestors i = t.ancestors i := by
  unfold Tree.ancestors
  rw [h.parent?]
  exact climb_congr fun j _ => h.parent? j

theorem Renamed.recalled (h : t.Renamed u chosen name) (i : NodeId) :
    Form.Recalled name (t.form? i) (u.form? i) := by
  rw [h.form? i]
  cases t.form? i with
  | none => exact .same none
  | some form =>
    rw [Option.map_some]
    unfold renameAt
    split
    · cases form with
      | identifier text => exact .identifier text
      | reference role data => exact .reference role data
      | _ => exact .same _
    · exact .same _

/-! Questions that are about neither identifiers nor references. -/

theorem Renamed.namePart (h : t.Renamed u chosen name) (i : NodeId) :
    u.namePart i = t.namePart i := by
  unfold Tree.namePart
  have hi := h.recalled i
  generalize t.form? i = held, u.form? i = now at hi
  cases hi <;> rfl

theorem Renamed.variableAt? (h : t.Renamed u chosen name) (i : NodeId) :
    u.variableAt? i = t.variableAt? i := by
  unfold Tree.variableAt?
  have hi := h.recalled i
  generalize t.form? i = held, u.form? i = now at hi
  cases hi <;> rfl

theorem Renamed.typeDeclAt? (h : t.Renamed u chosen name) (i : NodeId) :
    u.typeDeclAt? i = t.typeDeclAt? i := by
  unfold Tree.typeDeclAt?
  have hi := h.recalled i
  generalize t.form? i = held, u.form? i = now at hi
  cases hi <;> rfl

theorem Renamed.argumentListAt? (h : t.Renamed u chosen name) (i : NodeId) :
    u.argumentListAt? i = t.argumentListAt? i := by
  unfold Tree.argumentListAt?
  have hi := h.recalled i
  generalize t.form? i = held, u.form? i = now at hi
  cases hi <;> rfl

theorem Renamed.loopVariable (h : t.Renamed u chosen name) (clause : Part) :
    u.loopVariable clause = t.loopVariable clause := by
  unfold Tree.loopVariable
  cases clause with
  | none => rfl
  | some i =>
    rw [Option.bind_some, Option.bind_some]
    have hi := h.recalled i
    generalize t.form? i = held, u.form? i = now at hi
    cases hi <;> rfl

/-- The text of an identifier that is chosen is the new name. -/
theorem Renamed.textAt? (h : t.Renamed u chosen name) (i : NodeId) :
    u.textAt? i = (t.textAt? i).map fun text => if chosen i then name else text := by
  unfold Tree.textAt?
  rw [h.form? i]
  cases t.form? i with
  | none => rfl
  | some form =>
    rw [Option.map_some]
    unfold renameAt
    cases chosen i <;> cases form <;> rfl

/-- What is neither an identifier nor a reference is held as before. -/
theorem Renamed.form?_eq (h : t.Renamed u chosen name) (hform : t.form? i = some form)
    (hidentifier : form.kind ≠ .identifier)
    (hreference : ∀ role data, form ≠ .reference role data) : u.form? i = some form := by
  have hi := h.recalled i
  rw [hform] at hi
  generalize u.form? i = now at hi
  cases hi with
  | same => rfl
  | identifier text => exact absurd rfl hidentifier
  | reference role data => exact absurd rfl (hreference role data)

end

end Tree

end ScriptCheck
