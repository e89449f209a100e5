/-
  The nearest node around another one.

  `Nearest` says which node of certain kinds is the nearest one above a node, and
  how many steps up it is. Upward walks take a limited number of steps, so they
  find it only if it is not too far away (`ancestorOf?_eq_some_iff`).
-/
import ScriptCheck.Proofs.Syntax.Nesting

namespace ScriptCheck.Tree

/-- The node so many steps up from a node, which itself is no step up. -/
def stepsUp (t : Tree) : Nat → NodeId → Part
  | 0, i => some i
  | n + 1, i => (t.parent? i).bind (t.stepsUp n)

/-- The nearest node above another one that is of one of the given kinds is `n` steps up. -/
structure Nearest (t : Tree) (kinds : List Kind) (i : NodeId) (n : Nat) (m : NodeId) : Prop where
  pos : 0 < n
  reached : t.stepsUp n i = some m
  kind : t.isOneOf kinds m = true
  first : ∀ k x, 0 < k → k < n → t.stepsUp k i = some x → t.isOneOf kinds x = false

section

variable {t : Tree} {kinds : List Kind} {i m : NodeId}

/-- A way up lists what is one step further up at each place, as far as it goes. -/
theorem getElem?_climb (t : Tree) (budget : Nat) (part : Part) (k : Nat) :
    (t.climb budget part)[k]? = if k < budget then part.bind (t.stepsUp k) else none := by
  induction budget generalizing part k with
  | zero => rfl
  | succ budget ih =>
    cases part with
    | none => simp [climb]
    | some i =>
      rw [climb]
      cases k with
      | zero => simp [stepsUp]
      | succ k =>
        rw [List.getElem?_cons_succ, ih]
        simp [stepsUp]

/-- The last step up can be taken apart like the first one. -/
theorem stepsUp_succ (t : Tree) (n : Nat) (i : NodeId) :
    t.stepsUp (n + 1) i = (t.stepsUp n i).bind t.parent? := by
  induction n generalizing i with
  | zero => cases h : t.parent? i <;> simp [stepsUp, h]
  | succ n ih =>
    rw [stepsUp, stepsUp, Option.bind_assoc]
    exact congrArg _ (funext ih)

theorem getElem?_ancestors (t : Tree) (i : NodeId) (k : Nat) :
    (t.ancestors i)[k]? = if k < ancestorLimit then t.stepsUp (k + 1) i else none :=
  t.getElem?_climb ancestorLimit (t.parent? i) k

/-- A search in a list ends at the first place where it can. -/
theorem find?_eq_some_iff_getElem? {α : Type} {p : α → Bool} {l : List α} {a : α} :
    l.find? p = some a ↔
      ∃ k : Nat, l[k]? = some a ∧ p a = true ∧
        ∀ (j : Nat) (x : α), j < k → l[j]? = some x → p x = false := by
  rw [List.find?_eq_some_iff_getElem]
  constructor
  · rintro ⟨ha, k, hk, rfl, hbefore⟩
    refine ⟨k, List.getElem?_eq_getElem hk, ha, fun j x hj hx => ?_⟩
    obtain ⟨_, rfl⟩ := List.getElem?_eq_some_iff.mp hx
    simpa using hbefore j hj
  · rintro ⟨k, hk, ha, hbefore⟩
    obtain ⟨hlt, rfl⟩ := List.getElem?_eq_some_iff.mp hk
    refine ⟨ha, k, hlt, rfl, fun j hj => ?_⟩
    have hjlt : j < l.length := Nat.lt_trans hj hlt
    simp [hbefore j _ hj (List.getElem?_eq_getElem hjlt)]

/-- A search upwards finds the nearest node of its kinds if that is within its limit. -/
theorem ancestorOf?_eq_some_iff : t.ancestorOf? i kinds = some m ↔
    ∃ n ≤ ancestorLimit, t.Nearest kinds i n m := by
  -- The place `k` of the list is `k + 1` steps up.
  have hplace : ∀ {k x}, k < ancestorLimit →
      ((t.ancestors i)[k]? = some x ↔ t.stepsUp (k + 1) i = some x) := by
    intro k x hk
    rw [getElem?_ancestors, if_pos hk]
  unfold ancestorOf?
  rw [find?_eq_some_iff_getElem?]
  constructor
  · rintro ⟨k, hget, hkind, hbefore⟩
    have hk : k < ancestorLimit := by
      obtain ⟨hlt, _⟩ := List.getElem?_eq_some_iff.mp hget
      exact Nat.lt_of_lt_of_le hlt (t.length_ancestors_le i)
    refine ⟨k + 1, hk, Nat.succ_pos k, (hplace hk).mp hget, hkind, fun j x hpos hj hx => ?_⟩
    cases j with
    | zero => exact absurd hpos (Nat.lt_irrefl 0)
    | succ j =>
      have hjk : j < k := by omega
      exact hbefore j x hjk ((hplace (Nat.lt_trans hjk hk)).mpr hx)
  · rintro ⟨n, hle, hpos, hreached, hkind, hfirst⟩
    cases n with
    | zero => exact absurd hpos (Nat.lt_irrefl 0)
    | succ k =>
      refine ⟨k, (hplace hle).mpr hreached, hkind, fun j x hj hx => ?_⟩
      have hstep := (hplace (Nat.lt_trans hj hle)).mp hx
      exact hfirst (j + 1) x (Nat.succ_pos j) (Nat.succ_lt_succ hj) hstep

end

/-- Whether the nearest method or field around a node, within the limit of upward walks, is
    static. -/
def InStatic (t : Tree) (i : NodeId) : Prop :=
  ∃ n ≤ ancestorLimit, ∃ m,
    t.Nearest [.methodDeclaration, .fieldDeclaration] i n m ∧ (t.modifiers m).isStatic = true

/-! ## A name deep in a static method -/

section

/-- A name in so many pairs of parentheses. -/
def nestedName : Nat → Tree
  | 0 => .add .empty (.reference .value ⟨none, some "x", default⟩) default .none
  | n + 1 => (nestedName n).add (.parenthesized (some n)) default .none

/-- A static method around a name in so many pairs of parentheses. -/
def nestedTree (n : Nat) : Tree :=
  (nestedName n).add (.method ⟨none, none, [], some n⟩) default
    { Modifiers.none with isStatic := true }

variable {n i k : Nat}

theorem size_nestedName (n : Nat) : (nestedName n).size = n + 1 := by
  induction n with
  | zero => rfl
  | succ n ih => rw [nestedName, size_add, ih]

theorem size_nestedTree (n : Nat) : (nestedTree n).size = n + 2 := by
  rw [nestedTree, size_add, size_nestedName]

theorem built_nestedName (n : Nat) : (nestedName n).Built := by
  induction n with
  | zero => exact Built.start.add _ _ _
  | succ n ih => exact ih.add _ _ _

theorem built_nestedTree (n : Nat) : (nestedTree n).Built := (built_nestedName n).add _ _ _

/-- Each node of a nested name is in the next one. -/
theorem parent?_nestedName (hi : i < n) : (nestedName n).parent? i = some (i + 1) := by
  induction n with
  | zero => exact absurd hi (Nat.not_lt_zero i)
  | succ n ih =>
    rw [nestedName, parent?_add, size_nestedName]
    rcases Nat.lt_succ_iff_lt_or_eq.mp hi with hlt | rfl
    · have hother : ¬(i ≤ n + 1 ∧ some i ∈ (Form.parenthesized (some n)).children) := by
        simp [Form.children, Form.single, Nat.ne_of_lt hlt]
      rw [if_neg hother, ih hlt]
    · have hpart : i ≤ i + 1 ∧ some i ∈ (Form.parenthesized (some i)).children := by
        simp [Form.children, Form.single]
      rw [if_pos hpart]

theorem parent?_nestedTree (hi : i ≤ n) : (nestedTree n).parent? i = some (i + 1) := by
  rw [nestedTree, parent?_add, size_nestedName]
  rcases Nat.lt_or_eq_of_le hi with hlt | rfl
  · have hother : ¬(i ≤ n + 1 ∧
        some i ∈ (Form.method ⟨none, none, [], some n⟩).children) := by
      simp [Form.children, Form.single, Nat.ne_of_lt hlt]
    rw [if_neg hother, parent?_nestedName hlt]
  · have hpart : i ≤ i + 1 ∧
        some i ∈ (Form.method ⟨none, none, [], some i⟩).children := by
      simp [Form.children, Form.single]
    rw [if_pos hpart]

/-- Every node of the tree is as many steps above the name as its number says. -/
theorem stepsUp_nestedTree (h : i + k ≤ n + 1) : (nestedTree n).stepsUp k i = some (i + k) := by
  induction k generalizing i with
  | zero => rfl
  | succ k ih =>
    rw [stepsUp, parent?_nestedTree (by omega), Option.bind_some, ih (by omega)]
    congr 1
    omega

theorem kind?_nestedName (hpos : 0 < i) (hi : i ≤ n) :
    (nestedName n).kind? i = some .parenthesized := by
  induction n with
  | zero => omega
  | succ n ih =>
    rw [nestedName]
    rcases Nat.lt_or_eq_of_le hi with hlt | rfl
    · rw [kind?_add_of_lt (by rw [size_nestedName]; exact hlt), ih (Nat.le_of_lt_succ hlt)]
    · rw [← size_nestedName n, kind?_add_self]
      rfl

theorem kind?_nestedTree (hpos : 0 < i) (hi : i ≤ n) :
    (nestedTree n).kind? i = some .parenthesized := by
  rw [nestedTree, kind?_add_of_lt ?_, kind?_nestedName hpos hi]
  rw [size_nestedName]
  exact Nat.lt_succ_of_le hi

theorem form?_nestedName (n : Nat) :
    (nestedName n).form? 0 = some (.reference .value ⟨none, some "x", default⟩) := by
  induction n with
  | zero => rfl
  | succ n ih =>
    rw [nestedName, (built_nestedName n).form?_add_of_lt (by rw [size_nestedName]; omega), ih]

theorem form?_nestedTree (n : Nat) :
    (nestedTree n).form? 0 = some (.reference .value ⟨none, some "x", default⟩) := by
  rw [nestedTree, (built_nestedName n).form?_add_of_lt (by rw [size_nestedName]; omega),
    form?_nestedName]

theorem form?_nestedName_succ (hi : i < n) :
    (nestedName n).form? (i + 1) = some (.parenthesized (some i)) := by
  induction n with
  | zero => exact absurd hi (Nat.not_lt_zero i)
  | succ n ih =>
    rw [nestedName]
    rcases Nat.lt_succ_iff_lt_or_eq.mp hi with hlt | rfl
    · rw [(built_nestedName n).form?_add_of_lt (by rw [size_nestedName]; omega), ih hlt]
    · rw [← size_nestedName i, form?_add_self, if_neg nofun]

theorem form?_nestedTree_succ (hi : i < n) :
    (nestedTree n).form? (i + 1) = some (.parenthesized (some i)) := by
  rw [nestedTree, (built_nestedName n).form?_add_of_lt (by rw [size_nestedName]; omega),
    form?_nestedName_succ hi]

theorem form?_nestedTree_last (n : Nat) :
    (nestedTree n).form? (n + 1) = some (.method ⟨none, none, [], some n⟩) := by
  rw [nestedTree, ← size_nestedName n, form?_add_self, if_neg nofun]

/-- The method is the nearest one around the name. -/
theorem nearest_nestedTree (n : Nat) :
    (nestedTree n).Nearest [.methodDeclaration, .fieldDeclaration] 0 (n + 1) (n + 1) := by
  have hkind : (nestedTree n).kind? (n + 1) = some .methodDeclaration := by
    rw [nestedTree, ← size_nestedName n, kind?_add_self]
    rfl
  refine ⟨Nat.succ_pos n, ?_, ?_, ?_⟩
  · rw [stepsUp_nestedTree (by omega), Nat.zero_add]
  · unfold isOneOf
    rw [hkind]
    rfl
  · intro k x hpos hk hx
    rw [stepsUp_nestedTree (by omega), Nat.zero_add] at hx
    obtain rfl := Option.some.inj hx
    unfold isOneOf
    rw [kind?_nestedTree hpos (Nat.le_of_lt_succ hk)]
    rfl

theorem isStatic_nestedTree (n : Nat) :
    ((nestedTree n).modifiers (n + 1)).isStatic = true := by
  unfold modifiers
  rw [nestedTree, ← size_nestedName n, map_node?_add_self fun _ _ => rfl]
  rfl

/-- The limit of upward walks decides whether the name counts as being in a static member. -/
theorem inStatic_nestedTree_iff : (nestedTree n).InStatic 0 ↔ n < ancestorLimit := by
  constructor
  · rintro ⟨k, hk, m, hnearest, -⟩
    refine Nat.lt_of_not_le fun hn => ?_
    -- Within the limit there are parentheses only.
    have hle : k ≤ n := Nat.le_trans hk hn
    have hreached := hnearest.reached
    rw [stepsUp_nestedTree (by omega), Nat.zero_add] at hreached
    obtain rfl := Option.some.inj hreached
    have hkind := hnearest.kind
    unfold isOneOf at hkind
    rw [kind?_nestedTree hnearest.pos hle] at hkind
    cases hkind
  · intro hn
    exact ⟨n + 1, hn, n + 1, nearest_nestedTree n, isStatic_nestedTree n⟩

end

end ScriptCheck.Tree
