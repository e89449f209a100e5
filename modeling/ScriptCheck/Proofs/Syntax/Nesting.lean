/-
  The way up in a well-shaped tree.

  `above` lists all nodes above a node; `ancestors` is cut off, but agrees with
  it if it is shorter than the limit. `Reached` are the nodes of a file that lie
  below its statements, which are those that binding visits. `typesAround` are
  the named types of the file around a node, and `typeName` is the qualified
  name that their nesting gives to a type.
-/
import ScriptCheck.Proofs.Syntax.Edits
import ScriptCheck.Text.Dotted

namespace ScriptCheck.Tree

/-- All nodes above a node, the nearest first. -/
def above (t : Tree) (i : NodeId) : List NodeId := t.climb t.size (t.parent? i)

/-- The nodes at or below the statements of a file. -/
inductive Reached (t : Tree) (root : NodeId) : NodeId → Prop
  | statement {file : SourceFile} {c : NodeId} (hfile : t.form? root = some (.sourceFile file))
    (h : some c ∈ file.statements) (hc : c < t.size) : Reached t root c
  | part {p c : NodeId} (hp : Reached t root p) (h : some c ∈ t.children p) (hc : c < t.size) :
    Reached t root c

/-- Whether a node declares a type and gives it a name. -/
def isNamedType (t : Tree) (i : NodeId) : Bool :=
  t.isOneOf [.typeDeclaration] i && (t.declaredName? i).isSome

/-- The named types around a node inside the file at `root`, the innermost first. -/
def typesAround (t : Tree) (root i : NodeId) : List NodeId :=
  ((t.above i).takeWhile (· ≠ root)).filter t.isNamedType

/-- The qualified name of the first of the given types, each of which lies in the next one, and the
    last one in the package. -/
def nameInside (t : Tree) (package : String) : List NodeId → String
  | [] => package
  | [i] => Dotted.within package ((t.declaredName? i).getD "")
  | i :: outer => t.nameInside package outer ++ "." ++ (t.declaredName? i).getD ""

/-- The qualified name of a named type. -/
def typeName (t : Tree) (package : String) (root i : NodeId) : String :=
  t.nameInside package (i :: t.typesAround root i)

section

variable {t : Tree} {root i c p : Nat}

/-! ## The whole way up -/

/-- Once a walk upwards has steps enough to leave the tree, more of them change nothing. -/
theorem WellShaped.climb_eq (h : t.WellShaped) {n m : Nat} {part : Part}
    (hpart : ∀ p, part = some p → p < t.size ∧ t.size ≤ p + n ∧ t.size ≤ p + m) :
    t.climb n part = t.climb m part := by
  induction n generalizing m part with
  | zero =>
    cases part with
    | none => cases m <;> rfl
    | some p =>
      obtain ⟨hlt, hle, _⟩ := hpart p rfl
      exact absurd hlt (Nat.not_lt.mpr hle)
  | succ n ih =>
    cases part with
    | none => cases m <;> rfl
    | some p =>
      obtain ⟨hlt, hn, hm⟩ := hpart p rfl
      cases m with
      | zero => exact absurd hlt (Nat.not_lt.mpr hm)
      | succ m =>
        refine congrArg (p :: ·) (ih fun q hq => ⟨h.parent_lt_size hq, ?_, ?_⟩)
        · have := h.lt_parent hq
          omega
        · have := h.lt_parent hq
          omega

/-- A walk that stops before its steps are used up has seen everything. -/
theorem climb_of_length_lt {n m : Nat} {part : Part} (hn : (t.climb n part).length < n)
    (hm : (t.climb n part).length < m) : t.climb m part = t.climb n part := by
  induction n generalizing m part with
  | zero => exact absurd hn (Nat.not_lt_zero _)
  | succ n ih =>
    cases m with
    | zero => exact absurd hm (Nat.not_lt_zero _)
    | succ m =>
      cases part with
      | none => rfl
      | some p =>
        rw [climb, List.length_cons] at hn hm
        exact congrArg (p :: ·) (ih (Nat.lt_of_succ_lt_succ hn) (Nat.lt_of_succ_lt_succ hm))

theorem above_of_parent?_eq_none (hp : t.parent? c = none) : t.above c = [] := by
  unfold above
  rw [hp]
  cases t.size <;> rfl

theorem WellShaped.above_of_parent? (h : t.WellShaped) (hp : t.parent? c = some p) :
    t.above c = p :: t.above p := by
  have hlt := h.parent_lt_size hp
  unfold above
  rw [hp]
  cases hsize : t.size with
  | zero => omega
  | succ n =>
    refine congrArg (p :: ·) (h.climb_eq fun q hq => ⟨h.parent_lt_size hq, ?_, ?_⟩)
    · have := h.lt_parent hq
      omega
    · have := h.lt_parent hq
      omega

/-- What is reported as the ancestors of a node is all of them, if it is shorter than the limit. -/
theorem WellShaped.ancestors_eq_above (h : t.WellShaped)
    (hlen : (t.ancestors i).length < ancestorLimit) : t.ancestors i = t.above i := by
  -- A walk with steps enough for both agrees with either of them.
  have hmore : t.climb (t.size + ancestorLimit) (t.parent? i) = t.ancestors i :=
    climb_of_length_lt hlen (Nat.lt_of_lt_of_le hlen (Nat.le_add_left _ _))
  rw [← hmore]
  exact h.climb_eq fun p hp => ⟨h.parent_lt_size hp, by omega, by omega⟩

/-- To prove something of all nodes, prove it of those without a parent and carry it down. -/
theorem WellShaped.induction_down (h : t.WellShaped) {P : NodeId → Prop}
    (top : ∀ c, t.parent? c = none → P c)
    (down : ∀ c p, t.parent? c = some p → P p → P c) (i : NodeId) : P i := by
  -- Parents have greater numbers, so the induction is on the distance to the end.
  have hall : ∀ n i, t.size ≤ i + n → P i := by
    intro n
    induction n with
    | zero => exact fun i hi => top i (parent?_eq_none hi)
    | succ n ih =>
      intro i hi
      cases hp : t.parent? i with
      | none => exact top i hp
      | some p =>
        have hlt := h.lt_parent hp
        exact down i p hp (ih p (by omega))
  exact hall t.size i (Nat.le_add_left _ _)

/-- Everything above a node has a greater number. -/
theorem WellShaped.lt_of_mem_above (h : t.WellShaped) (hm : p ∈ t.above i) : i < p := by
  induction i using h.induction_down with
  | top c hc =>
    rw [above_of_parent?_eq_none hc] at hm
    cases hm
  | down c q hq ih =>
    have hlt := h.lt_parent hq
    rw [h.above_of_parent? hq] at hm
    rcases List.mem_cons.mp hm with rfl | hm
    · exact hlt
    · exact Nat.lt_trans hlt (ih hm)

/-! ## The nodes of a file -/

/-- A node is of the kind of what it holds. -/
theorem Built.kind?_of_form? (h : t.Built) {form : Form} (hf : t.form? i = some form) :
    t.kind? i = some form.kind :=
  h.edited.kind?_of_form? hf

theorem isOneOf_singleton_iff {k : Kind} : t.isOneOf [k] i = true ↔ t.kind? i = some k := by
  unfold isOneOf
  cases t.kind? i with
  | none => exact iff_of_false nofun nofun
  | some kind => simp

theorem Reached.lt_size (hr : t.Reached root i) : i < t.size := by
  cases hr with
  | statement _ _ hc => exact hc
  | part _ _ hc => exact hc

theorem Reached.exists_file (hr : t.Reached root i) :
    ∃ file, t.form? root = some (.sourceFile file) := by
  induction hr with
  | statement hfile _ _ => exact ⟨_, hfile⟩
  | part _ _ _ ih => exact ih

/-- The way up from a node below the statements leads to one of them and then to the file. -/
theorem Reached.parent? (h : t.WellShaped) (hr : t.Reached root i) :
    t.parent? i = some root ∨ ∃ p, t.parent? i = some p ∧ t.Reached root p := by
  cases hr with
  | @statement file _ hfile hs hc =>
    refine Or.inl (h.parent?_eq_some_iff.mpr ⟨?_, hc⟩)
    rw [children_of_form? hfile]
    exact List.mem_append_right _ hs
  | part hp hs hc => exact Or.inr ⟨_, h.parent?_eq_some_iff.mpr ⟨hs, hc⟩, hp⟩

theorem Reached.lt_root (h : t.WellShaped) (hr : t.Reached root i) : i < root := by
  induction hr with
  | @statement file c hfile hs hc =>
    refine h.lt_of_part ?_ hc
    rw [children_of_form? hfile]
    exact List.mem_append_right _ hs
  | part _ hs hc ih => exact Nat.lt_trans (h.lt_of_part hs hc) ih

/-- What lies below a node that is reached is reached too. -/
theorem Reached.of_mem_above (h : t.WellShaped) (hr : t.Reached root p) (hm : p ∈ t.above i) :
    t.Reached root i := by
  induction i using h.induction_down with
  | top c hc =>
    rw [above_of_parent?_eq_none hc] at hm
    cases hm
  | down c q hq ih =>
    obtain ⟨hpart, hc⟩ := h.parent?_eq_some_iff.mp hq
    rw [h.above_of_parent? hq] at hm
    rcases List.mem_cons.mp hm with rfl | hm
    · exact .part hr hpart hc
    · exact .part (ih hm) hpart hc

/-! ## Types around a node -/

theorem WellShaped.typesAround_of_root (h : t.WellShaped) (hp : t.parent? c = some root) :
    t.typesAround root c = [] := by
  unfold typesAround
  rw [h.above_of_parent? hp, List.takeWhile_cons_of_neg (by simp)]
  rfl

theorem WellShaped.typesAround_of_parent? (h : t.WellShaped) (hp : t.parent? c = some p)
    (hne : p ≠ root) :
    t.typesAround root c =
      if t.isNamedType p then p :: t.typesAround root p else t.typesAround root p := by
  unfold typesAround
  rw [h.above_of_parent? hp, List.takeWhile_cons_of_pos (by simpa using hne), List.filter_cons]

/-- The types around the innermost one are the others. -/
theorem WellShaped.typesAround_of_cons (h : t.WellShaped) {type : NodeId} {outer : List NodeId}
    (hi : t.typesAround root i = type :: outer) :
    t.typesAround root type = outer ∧ t.isNamedType type = true ∧ type ∈ t.above i := by
  induction i using h.induction_down with
  | top c hc =>
    unfold typesAround at hi
    rw [above_of_parent?_eq_none hc] at hi
    cases hi
  | down c p hp ih =>
    by_cases hroot : p = root
    · subst hroot
      rw [h.typesAround_of_root hp] at hi
      cases hi
    · rw [h.typesAround_of_parent? hp hroot] at hi
      rw [h.above_of_parent? hp]
      split at hi
      · next hn =>
        injection hi with htype houter
        subst htype
        exact ⟨houter, hn, List.mem_cons_self⟩
      · obtain ⟨h1, h2, h3⟩ := ih hi
        exact ⟨h1, h2, List.mem_cons_of_mem _ h3⟩

theorem typesAround_subset_above {type : NodeId} (hm : type ∈ t.typesAround root i) :
    type ∈ t.above i ∧ t.isNamedType type = true := by
  unfold typesAround at hm
  obtain ⟨hw, hn⟩ := List.mem_filter.mp hm
  exact ⟨(List.takeWhile_sublist _).subset hw, hn⟩

end

end ScriptCheck.Tree
