/-
  Lookups come to an end.

  The lookups of a script ask one another: a reference asks for its qualifier, a
  member for the supertypes of its type, supertypes for the names in the clauses
  of a declaration, and these are references again. Here they are written as
  they call one another, with nothing to stop them but the depth that each call
  is given and the cursors of the walks. How deep calls may nest is an argument
  apart, which no lookup looks at: a computation whose calls do not fit has no
  outcome.

  `lookups_return` says that all of them have one as soon as there is room for a
  fixed number of nested calls, whatever the tree, the symbols and the binding:
  links may run in circles or lead nowhere, and classes may extend one another
  or themselves. The outcome is what the levels say.

  A call at one depth makes calls at the next one, or calls of a lower rank at
  its own, and no depth past the limit asks anything. So the induction is on the
  depths that are left (`Settled.above`), and within a depth the calls come in
  the order of their ranks: supertypes, lineages, members, type bodies, scopes,
  imports, values, qualified names, references.
-/
import ScriptCheck.Script.Access
import ScriptCheck.Proofs.Script.Levels

namespace ScriptCheck

/-- The outcome of a computation; one whose calls nest deeper than there is room for has none. -/
abbrev Outcome (α : Type) := Option α

/-- With room for so many nested calls or more, a computation has the given result. -/
def Returns {α : Type} (room : Nat) (run : Nat → Outcome α) (result : α) : Prop :=
  ∀ calls ≥ room, run calls = some result

namespace Script

/-- What is called `name` in some types and is of one of the given kinds. -/
def among (s : Script) (kinds : List SymbolKind) (types : List SymbolId) (name : String) :
    List SymbolId :=
  types.flatMap fun t =>
    (s.symbols.membersNamed t name).filter fun m =>
      (s.symbols.get? m).any (kinds.contains ·.kind)

/-- The names in the declaration of a type that are to stand for its supertypes. -/
def clausesOf (s : Script) (symbol : Symbol) : List Part :=
  match symbol.declaration.bind s.tree.typeDeclAt? with
  | some data => data.extended ++ data.implemented
  | none => []

/-! ## The lookups as they call one another -/

mutual

/-- What a reference stands for. -/
def lookupAt (s : Script) : Nat → Nat → NodeId → Outcome (Option SymbolId)
  | 0, _, _ => none
  | calls + 1, depth, reference => do
    if depth > qualifierLimit then return none
    match s.tree.form? reference with
    | some (.reference role data) =>
      match data.name? with
      | some name =>
        let count := s.argumentCount? reference
        match data.qualifier, role with
        | some qualifier, _ => s.qualifiedAt calls depth qualifier name count
        | none, .type => return s.lookupType reference name
        | none, .value =>
          match ← s.valueAt calls depth reference name count with
          | some id => return some id
          | none => return s.lookupType reference name
      | none => return none
    | _ => return none

/-- What a name stands for behind a dot; no types of values are known. -/
def qualifiedAt (s : Script) :
    Nat → Nat → NodeId → String → Option Nat → Outcome (Option SymbolId)
  | 0, _, _, _, _ => none
  | calls + 1, depth, qualifier, name, count => do
    if s.tree.isOneOf [.reference, .typeReference] qualifier then
      match ← s.lookupAt calls (depth + 1) qualifier with
      | none => return none
      | some id =>
        match s.symbols.get? id with
        | none => return none
        | some symbol =>
          match symbol.kind with
          | .package =>
            return s.symbols.type? (symbol.qualifiedName ++ "." ++ name) <|>
              s.symbols.package? (symbol.qualifiedName ++ "." ++ name)
          | .type => s.memberAt calls (depth + 1) id name count
          | _ => return none
    else return none

/-- What a simple name stands for in value position, types aside. -/
def valueAt (s : Script) :
    Nat → Nat → NodeId → String → Option Nat → Outcome (Option SymbolId)
  | 0, _, _, _, _ => none
  | calls + 1, depth, reference, name, count => do
    match ← s.scopesAt calls depth name count false reference (s.tree.ancestors reference) with
    | some id => return some id
    | none => s.importedAt calls depth name count

/-- Asks the scopes one after the other. -/
def scopesAt (s : Script) :
    Nat → Nat → String → Option Nat → Bool → NodeId → List NodeId → Outcome (Option SymbolId)
  | 0, _, _, _, _, _, _ => none
  | _ + 1, _, _, _, _, _, [] => return none
  | calls + 1, depth, name, count, inType, child, scope :: outer => do
    match s.tree.kind? scope with
    | none => return none
    | some kind =>
      match ← s.offeredAt calls depth name count inType child scope with
      | some id => return some id
      | none => s.scopesAt calls depth name count (inType || kind = .classBody) scope outer

/-- What a single scope offers; only a type body asks for more than the tree and its symbols. -/
def offeredAt (s : Script) :
    Nat → Nat → String → Option Nat → Bool → NodeId → NodeId → Outcome (Option SymbolId)
  | 0, _, _, _, _, _, _ => none
  | calls + 1, depth, name, count, inType, child, scope =>
    if s.tree.isOneOf [.classBody] scope then s.typeBodyAt calls depth scope name count
    else return s.offered? (fun _ => none) (s.pickOverload · count) name inType child scope

/-- What a name stands for directly inside a type body. -/
def typeBodyAt (s : Script) :
    Nat → Nat → NodeId → String → Option Nat → Outcome (Option SymbolId)
  | 0, _, _, _, _ => none
  | calls + 1, depth, body, name, count => do
    match (s.tree.parent? body).bind s.symbolOf? with
    | none => return none
    | some type =>
      if name = "this" then return some type
      else if name = "super" then return (← s.supertypesAt calls depth type).head?
      else s.memberAt calls depth type name count

/-- A member that a static import brings in under a name. -/
def importedAt (s : Script) : Nat → Nat → String → Option Nat → Outcome (Option SymbolId)
  | 0, _, _, _ => none
  | calls + 1, depth, name, count =>
    s.imports.findSomeM? fun data =>
      if !data.isStatic then return none
      else if data.onDemand then
        match s.symbols.type? data.path with
        | none => return none
        | some type => s.memberAt calls (depth + 1) type name count
      else
        match Dotted.splitLast? data.path with
        | none => return none
        | some (outer, imported) =>
          if data.alias?.getD imported = name then
            match s.symbols.type? outer with
            | none => return none
            | some type => s.memberAt calls (depth + 1) type imported count
          else return none

/-- The member of a type that a name means. -/
def memberAt (s : Script) :
    Nat → Nat → SymbolId → String → Option Nat → Outcome (Option SymbolId)
  | 0, _, _, _, _ => none
  | calls + 1, depth, type, name, count => do
    if depth > qualifierLimit then return none
    let types ← s.lineageAt calls (depth + 1) 0 [type] []
    match count, (s.among [.field, .type] types name).head? with
    | some _, field => return s.pickOverload (s.among [.method] types name) count <|> field
    | none, some id => return some id
    | none, none =>
      match ← s.accessorAt calls depth type name with
      | some id => return some id
      | none => return (s.among [.method] types name).head?

/-- The method that reads the property `name`; each of the two names is looked for in a walk of its
    own. -/
def accessorAt (s : Script) : Nat → Nat → SymbolId → String → Outcome (Option SymbolId)
  | 0, _, _, _ => none
  | calls + 1, depth, type, name =>
    if name = "" then return none
    else
      ["get", "is"].findSomeM? fun verb => do
        let types ← s.lineageAt calls (depth + 1) 0 [type] []
        let called := verb ++ String.ofList (Uppercase.capitalize name.toList)
        return (s.among [.method] types called).find? (s.symbols.accepts · 0)

/-- Walks breadth first: looks at one entry of the queue after the other, and adds the supertypes of
    those that were not taken before to the queue itself. -/
def lineageAt (s : Script) :
    Nat → Nat → Nat → List SymbolId → List SymbolId → Outcome (List SymbolId)
  | 0, _, _, _, _ => none
  | calls + 1, depth, cursor, queue, taken => do
    match queue[cursor]? with
    | none => return taken.reverse
    | some type =>
      if cursor ≥ hierarchyLimit then return taken.reverse
      if taken.contains type then s.lineageAt calls depth (cursor + 1) queue taken
      else
        let parents ← s.supertypesAt calls depth type
        s.lineageAt calls depth (cursor + 1) (queue ++ parents) (type :: taken)

/-- The direct supertypes of a type. -/
def supertypesAt (s : Script) : Nat → Nat → SymbolId → Outcome (List SymbolId)
  | 0, _, _ => none
  | calls + 1, depth, type => do
    match s.symbols.get? type with
    | none => return []
    | some symbol =>
      if depth > qualifierLimit then return []
      let found ← (s.clausesOf symbol).mapM fun clause =>
        match clause with
        | none => return none
        | some i => s.lookupAt calls (depth + 1) i
      let declared := found.filterMap
        (·.filter fun parent => parent ≠ type && s.symbols.isType parent)
      return match symbol.supertypes.filterMap s.symbols.type? ++ declared with
        | [] => ((s.symbols.type? "java.lang.Object").filter (· ≠ type)).toList
        | parents => parents

end

/-- Whether a type is another one or inherits from it: walks like a lineage, and stops when it comes
    to that type. -/
def subclassFrom (s : Script) (ancestor : SymbolId) :
    Nat → Nat → List SymbolId → List SymbolId → Outcome Bool
  | 0, _, _, _ => none
  | calls + 1, cursor, queue, visited => do
    match queue[cursor]? with
    | none => return false
    | some type =>
      if cursor ≥ hierarchyLimit then return false
      if type = ancestor then return true
      if visited.contains type then s.subclassFrom ancestor calls (cursor + 1) queue visited
      else
        let parents ← s.supertypesAt calls 0 type
        s.subclassFrom ancestor calls (cursor + 1) (queue ++ parents) (type :: visited)

/-- Whether a type around a place inherits from the owner of a symbol. -/
def inheritsAt (s : Script) (calls : Nat) (owner : Option SymbolId) (site : NodeId) :
    Outcome Bool :=
  match owner.filter s.symbols.isType with
  | none => return false
  | some owner =>
    (s.enclosingTypes site).anyM fun type => s.subclassFrom owner calls 0 [type] []

/-- Whether a symbol may be used at a place. -/
def accessibleFrom (s : Script) (calls : Nat) (symbol : SymbolId) (site : NodeId) :
    Outcome Bool :=
  match s.symbols.get? symbol with
  | none => return true
  | some target =>
    match target.kind with
    | .package | .variableSymbol | .parameter => return true
    | .type | .method | .field =>
      let samePackage : Bool := s.symbols.packageNameOf symbol = s.binding.filePackage
      if target.flags.isPrivate then
        let declaredIn := s.symbols.outermostType? symbol
        return declaredIn.isSome && declaredIn = (s.enclosingTypes site).getLast?
      else if target.flags.isProtected then
        if samePackage then return true else s.inheritsAt calls target.owner site
      else if target.flags.isPackagePrivate then return samePackage
      else return true

/-- What a reference stands for and whether it may be used. -/
def resolveFrom (s : Script) (calls : Nat) (reference : NodeId) : Outcome Resolution := do
  Resolution.ofSearch (← s.lookupAt calls 0 reference) fun symbol =>
    s.accessibleFrom calls symbol reference

/-! ## Room for calls -/

/-- The calls that a depth nests at most before it makes one at the next depth. -/
def roomPerDepth : Nat := hierarchyLimit + ancestorLimit + 9

/-- Room enough for the lookups of a depth. -/
def roomAt (depth : Nat) : Nat := (qualifierLimit + 1 - depth) * roomPerDepth + 1

/-- Room enough for all questions from outside: those for supertypes with a walk around them. -/
def callLimit : Nat := roomAt 0 + hierarchyLimit + 1

end Script

namespace Returns

variable {α : Type} {room more : Nat} {run : Nat → Outcome α} {result : α}

theorem mono (h : Returns room run result) (hle : room ≤ more) : Returns more run result :=
  fun calls hc => h calls (Nat.le_trans hle hc)

/-- A call takes the room of one, and what it calls has the rest. -/
theorem succ (h : ∀ calls ≥ room, run (calls + 1) = some result) :
    Returns (room + 1) run result := by
  intro calls hc
  obtain ⟨left, rfl⟩ : ∃ left, calls = left + 1 := ⟨calls - 1, by omega⟩
  exact h left (by omega)

end Returns

/-- A computation over a list has an outcome if its parts do. -/
theorem mapM_outcome {α β : Type} {f : α → Outcome β} {g : α → β} (h : ∀ x, f x = some (g x))
    (xs : List α) : xs.mapM f = some (xs.map g) := by
  induction xs with
  | nil => rfl
  | cons x xs ih =>
    rw [List.mapM_cons, h, ih]
    rfl

/-- A search through a list has an outcome if its parts do. -/
theorem findSomeM?_outcome {α β : Type} {f : α → Outcome (Option β)} {g : α → Option β}
    (h : ∀ x, f x = some (g x)) (xs : List α) : xs.findSomeM? f = some (xs.findSome? g) := by
  induction xs with
  | nil => rfl
  | cons x xs ih =>
    rw [List.findSomeM?, List.findSome?_cons, h]
    cases g x with
    | none => exact ih
    | some y => rfl

/-- A test of a list has an outcome if its parts do. -/
theorem anyM_outcome {α : Type} {f : α → Outcome Bool} {g : α → Bool} (h : ∀ x, f x = some (g x))
    (xs : List α) : xs.anyM f = some (xs.any g) := by
  induction xs with
  | nil => rfl
  | cons x xs ih =>
    rw [List.anyM, List.any_cons, h]
    cases g x with
    | true => rfl
    | false => exact ih

namespace Script

section

variable {s : Script} {room depth cursor : Nat} {supertypes : Supertypes} {below : Level}

theorem inherited_eq_among (kinds : List SymbolKind) (type : SymbolId) (name : String) :
    s.inherited supertypes kinds type name = s.among kinds (lineage supertypes type) name := rfl

/-! ## Walks -/

/-- What is left of a queue after one more entry. -/
theorem drop_eq_cons_of_getElem? {α : Type} {queue : List α} {x : α}
    (h : queue[cursor]? = some x) (more : List α) :
    queue.drop cursor = x :: queue.drop (cursor + 1) ∧
      (queue ++ more).drop (cursor + 1) = queue.drop (cursor + 1) ++ more := by
  obtain ⟨hlt, hx⟩ := List.getElem?_eq_some_iff.mp h
  refine ⟨?_, List.drop_append_of_le_length hlt⟩
  rw [List.drop_eq_getElem_cons hlt, hx]

/-- A walk ends if each of its questions for supertypes does: the queue may grow, but the cursor
    moves on at every step and stops at the limit. -/
theorem lineageAt_returns
    (hs : ∀ type, Returns room (s.supertypesAt · depth type) (supertypes type)) {budget : Nat}
    (hb : cursor + budget = hierarchyLimit) (queue taken : List SymbolId) :
    Returns (room + budget + 1) (s.lineageAt · depth cursor queue taken)
      (walkLineage supertypes budget (queue.drop cursor) taken) := by
  induction budget generalizing cursor queue taken with
  | zero =>
    refine Returns.succ fun calls _ => ?_
    rw [lineageAt]
    cases queue[cursor]? with
    | none => rfl
    | some type =>
      have hge : cursor ≥ hierarchyLimit := Nat.le_of_eq hb.symm
      dsimp only
      rw [if_pos hge]
      rfl
  | succ budget ih =>
    refine Returns.succ fun calls hc => ?_
    rw [lineageAt]
    cases hq : queue[cursor]? with
    | none =>
      rw [List.drop_eq_nil_of_le (List.getElem?_eq_none_iff.mp hq)]
      rfl
    | some type =>
      obtain ⟨hdrop, happend⟩ := drop_eq_cons_of_getElem? hq (supertypes type)
      have hnext : cursor + 1 + budget = hierarchyLimit := by omega
      have hlt : ¬cursor ≥ hierarchyLimit := by omega
      dsimp only
      rw [hdrop, walkLineage, if_neg hlt]
      split
      · exact ih hnext queue taken calls hc
      · have hparents : s.supertypesAt calls depth type = some (supertypes type) :=
          hs type calls (by omega)
        rw [hparents, ← happend]
        exact ih hnext _ _ calls hc

/-- The walk for a supertype ends likewise, and says whether a lineage holds it. -/
theorem subclassFrom_returns
    (hs : ∀ type, Returns room (s.supertypesAt · 0 type) (supertypes type)) {ancestor : SymbolId}
    {budget : Nat} (hb : cursor + budget = hierarchyLimit) (queue visited : List SymbolId)
    (hnew : ancestor ∉ visited) :
    Returns (room + budget + 1) (s.subclassFrom ancestor · cursor queue visited)
      ((walkLineage supertypes budget (queue.drop cursor) visited).contains ancestor) := by
  -- Where the walk gives up, the lineage is what was visited.
  have hstop : ∀ visited : List SymbolId, ancestor ∉ visited →
      some false = some (visited.reverse.contains ancestor) := by
    intro visited hnew
    simp [hnew]
  induction budget generalizing cursor queue visited with
  | zero =>
    refine Returns.succ fun calls _ => ?_
    rw [subclassFrom]
    cases queue[cursor]? with
    | none => exact hstop visited hnew
    | some type =>
      have hge : cursor ≥ hierarchyLimit := Nat.le_of_eq hb.symm
      dsimp only
      rw [if_pos hge]
      exact hstop visited hnew
  | succ budget ih =>
    refine Returns.succ fun calls hc => ?_
    rw [subclassFrom]
    cases hq : queue[cursor]? with
    | none =>
      rw [List.drop_eq_nil_of_le (List.getElem?_eq_none_iff.mp hq)]
      exact hstop visited hnew
    | some type =>
      obtain ⟨hdrop, happend⟩ := drop_eq_cons_of_getElem? hq (supertypes type)
      have hnext : cursor + 1 + budget = hierarchyLimit := by omega
      have hlt : ¬cursor ≥ hierarchyLimit := by omega
      dsimp only
      rw [hdrop, walkLineage, if_neg hlt]
      by_cases hfound : type = ancestor
      · -- The type that is looked for is taken now and stays in the lineage.
        subst hfound
        have hmem : ∀ queue, type ∈ walkLineage supertypes budget queue (type :: visited) :=
          fun queue => mem_walkLineage_of_mem_taken List.mem_cons_self
        rw [if_pos rfl, if_neg (by simpa using hnew), List.contains_iff_mem.mpr (hmem _)]
        rfl
      · rw [if_neg hfound]
        split
        · exact ih hnext queue visited hnew calls hc
        · have hother : ancestor ∉ type :: visited := by
            rw [List.mem_cons, not_or]
            exact ⟨Ne.symm hfound, hnew⟩
          have hparents : s.supertypesAt calls 0 type = some (supertypes type) :=
            hs type calls (by omega)
          rw [hparents, ← happend]
          exact ih hnext _ _ hother calls hc

/-! ## One depth after the other -/

/-- The lookups of a depth have the outcomes that a level says. -/
structure Settled (s : Script) (room depth : Nat) (level : Level) : Prop where
  lookup : ∀ reference, Returns room (s.lookupAt · depth reference) (level.lookup reference)
  supertypes : ∀ type, Returns room (s.supertypesAt · depth type) (level.supertypes type)
  member : ∀ type name count,
    Returns room (s.memberAt · depth type name count) (level.member type name count)

/-- Past the limit nothing is asked and nothing is found. -/
theorem settled_of_lt (h : qualifierLimit < depth) : s.Settled 1 depth (s.level 0) := by
  refine ⟨fun reference => Returns.succ fun calls _ => ?_,
    fun type => Returns.succ fun calls _ => ?_,
    fun type name count => Returns.succ fun calls _ => ?_⟩
  · rw [lookupAt, if_pos h]
    rfl
  · rw [supertypesAt]
    split
    · rfl
    · rw [if_pos h]
      rfl
  · rw [memberAt, if_pos h]
    rfl

/-- Supertypes are found where the names one depth further down are. -/
theorem supertypesAt_returns (hd : depth ≤ qualifierLimit) {lookup : NodeId → Option SymbolId}
    (hl : ∀ i, Returns room (s.lookupAt · (depth + 1) i) (lookup i)) (type : SymbolId) :
    Returns (room + 1) (s.supertypesAt · depth type) (s.directSupertypes lookup type) := by
  refine Returns.succ fun calls hc => ?_
  rw [supertypesAt]
  unfold directSupertypes
  cases s.symbols.get? type with
  | none => rfl
  | some symbol =>
    dsimp only
    have hclause : ∀ clause : Part, (match clause with
        | none => return none
        | some i => s.lookupAt calls (depth + 1) i) = some (clause.bind lookup) := by
      intro clause
      cases clause with
      | none => rfl
      | some i => exact hl i calls hc
    have hdeclared : ((s.clausesOf symbol).map (Option.bind · lookup)).filterMap
          (·.filter fun parent => parent ≠ type && s.symbols.isType parent) =
        (s.clausesOf symbol).filterMap fun clause =>
          (clause.bind lookup).filter fun parent => parent ≠ type && s.symbols.isType parent :=
      List.filterMap_map
    rw [if_neg (Nat.not_lt.mpr hd), mapM_outcome hclause]
    refine congrArg some ?_
    rw [hdeclared]
    rfl

section

variable (hs : ∀ type, Returns room (s.supertypesAt · (depth + 1) type) (supertypes type))

include hs

/-- The walk through a lineage of the next depth. -/
theorem lineageAt_next_returns (type : SymbolId) :
    Returns (room + hierarchyLimit + 1) (s.lineageAt · (depth + 1) 0 [type] [])
      (lineage supertypes type) :=
  lineageAt_returns hs (Nat.zero_add _) [type] []

theorem accessorAt_returns (type : SymbolId) (name : String) :
    Returns (room + hierarchyLimit + 2) (s.accessorAt · depth type name)
      (s.accessor? supertypes type name) := by
  refine Returns.succ fun calls hc => ?_
  have hwalk : s.lineageAt calls (depth + 1) 0 [type] [] = some (lineage supertypes type) :=
    lineageAt_next_returns hs type calls hc
  unfold accessor?
  rw [accessorAt]
  split
  · rfl
  · refine findSomeM?_outcome (fun verb => ?_) _
    rw [hwalk]
    rfl

/-- Members are found where supertypes one depth further down are. -/
theorem memberAt_returns (hd : depth ≤ qualifierLimit) (type : SymbolId) (name : String)
    (count : Option Nat) :
    Returns (room + hierarchyLimit + 3) (s.memberAt · depth type name count)
      (s.memberWith supertypes type name count) := by
  refine Returns.succ fun calls hc => ?_
  -- The walk for the member itself and those for its getters come one after the other.
  have hwalk : s.lineageAt calls (depth + 1) 0 [type] [] = some (lineage supertypes type) :=
    lineageAt_next_returns hs type calls (by omega)
  have haccessor : s.accessorAt calls depth type name = some (s.accessor? supertypes type name) :=
    accessorAt_returns hs type name calls hc
  unfold memberWith fields methods
  rw [memberAt, if_neg (Nat.not_lt.mpr hd), hwalk, haccessor]
  simp only [inherited_eq_among]
  cases count with
  | some n => rfl
  | none =>
    cases hfield : (s.among [.field, .type] (lineage supertypes type) name).head? with
    | some id => simp [hfield]
    | none =>
      cases s.accessor? supertypes type name <;> simp [hfield]

end

section

variable {member : MemberSearch}
  (hs : ∀ type, Returns room (s.supertypesAt · depth type) (supertypes type))
  (hm : ∀ type name count,
    Returns room (s.memberAt · depth type name count) (member type name count))

include hs hm

/-- A type body asks for supertypes and members at its own depth. -/
theorem typeBodyAt_returns (body : NodeId) (name : String) (count : Option Nat) :
    Returns (room + 1) (s.typeBodyAt · depth body name count)
      (((s.tree.parent? body).bind s.symbolOf?).bind
        (classScopeMember supertypes member · name count)) := by
  refine Returns.succ fun calls hc => ?_
  rw [typeBodyAt]
  cases (s.tree.parent? body).bind s.symbolOf? with
  | none => rfl
  | some type =>
    rw [Option.bind_some]
    unfold classScopeMember
    dsimp only
    split
    · rfl
    · split
      · have hparents : s.supertypesAt calls depth type = some (supertypes type) :=
          hs type calls hc
        rw [hparents]
        rfl
      · exact hm type name count calls hc

/-- A scope that is no type body asks for no member. -/
theorem offeredAt_returns (name : String) (count : Option Nat) (inType : Bool)
    (child scope : NodeId) :
    Returns (room + 2) (s.offeredAt · depth name count inType child scope)
      (s.offered? (classScopeMember supertypes member · name count) (s.pickOverload · count) name
        inType child scope) := by
  refine Returns.succ fun calls hc => ?_
  rw [offeredAt]
  unfold offered?
  split
  · exact typeBodyAt_returns hs hm scope name count calls hc
  · rfl

/-- The scopes around a name are asked one inside the next. -/
theorem scopesAt_returns (name : String) (count : Option Nat) (inType : Bool) (child : NodeId)
    (scopes : List NodeId) :
    Returns (room + scopes.length + 3) (s.scopesAt · depth name count inType child scopes)
      (s.searchScopes
        (s.offered? (classScopeMember supertypes member · name count) (s.pickOverload · count) name)
        inType child scopes) := by
  induction scopes generalizing inType child with
  | nil =>
    refine Returns.succ fun calls _ => ?_
    rw [scopesAt]
    rfl
  | cons scope outer ih =>
    refine Returns.succ fun calls hc => ?_
    rw [List.length_cons] at hc
    rw [scopesAt, searchScopes]
    cases s.tree.kind? scope with
    | none => rfl
    | some kind =>
      have hoffered : s.offeredAt calls depth name count inType child scope =
          some (s.offered? (classScopeMember supertypes member · name count)
            (s.pickOverload · count) name inType child scope) :=
        offeredAt_returns hs hm name count inType child scope calls (by omega)
      dsimp only
      rw [hoffered]
      cases s.offered? (classScopeMember supertypes member · name count)
          (s.pickOverload · count) name inType child scope with
      | some id => rfl
      | none => exact ih _ scope calls (by omega)

end

/-- Static imports ask for members one depth further down. -/
theorem importedAt_returns {member : MemberSearch}
    (hm : ∀ type name count,
      Returns room (s.memberAt · (depth + 1) type name count) (member type name count))
    (name : String) (count : Option Nat) :
    Returns (room + 1) (s.importedAt · depth name count) (s.staticImport? member name count) := by
  refine Returns.succ fun calls hc => ?_
  have hm' : ∀ type name count,
      s.memberAt calls (depth + 1) type name count = some (member type name count) :=
    fun type name count => hm type name count calls hc
  rw [importedAt]
  refine findSomeM?_outcome (fun data => ?_) s.imports
  split
  · rfl
  split
  · cases htype : s.symbols.type? data.path with
    | none => simp
    | some type => simp [hm']
  · cases hsplit : Dotted.splitLast? data.path with
    | none => simp
    | some parts =>
      obtain ⟨outer, imported⟩ := parts
      by_cases hname : data.alias?.getD imported = name
      · cases htype : s.symbols.type? outer with
        | none => simp [hname, htype]
        | some type => simp [hname, htype, hm']
      · simp [hname]

/-- Behind a dot, the qualifier and its members are looked up one depth further down. -/
theorem qualifiedAt_returns (hbelow : s.Settled room (depth + 1) below) (qualifier : NodeId)
    (name : String) (count : Option Nat) :
    Returns (room + 1) (s.qualifiedAt · depth qualifier name count)
      ((s.qualifierBelow below qualifier).bind (s.insideQualifier below.member name count)) := by
  refine Returns.succ fun calls hc => ?_
  rw [qualifiedAt]
  unfold qualifierBelow
  split
  · have hlookup : s.lookupAt calls (depth + 1) qualifier = some (below.lookup qualifier) :=
      hbelow.lookup qualifier calls hc
    rw [hlookup]
    cases below.lookup qualifier with
    | none => rfl
    | some id =>
      rw [Option.bind_some]
      unfold asQualifier
      cases hsymbol : s.symbols.get? id with
      | none => simp [hsymbol]
      | some symbol =>
        cases hkind : symbol.kind with
        | type => simp [hsymbol, hkind, hbelow.member id name count calls hc, insideQualifier]
        | package => simp [hsymbol, hkind, insideQualifier]
        | _ => simp [hsymbol, hkind]
  · rfl

/-- A simple name asks for members right inside a type body at its own depth, and for imported ones
    at the next. -/
theorem valueAt_returns {member : MemberSearch}
    (hs : ∀ type, Returns room (s.supertypesAt · depth type) (supertypes type))
    (hm : ∀ type name count,
      Returns room (s.memberAt · depth type name count) (member type name count))
    (hbelow : s.Settled room (depth + 1) below) (reference : NodeId) (name : String)
    (count : Option Nat) :
    Returns (room + ancestorLimit + 4) (s.valueAt · depth reference name count)
      (s.lookupValue (classScopeMember supertypes member) below.member reference name count) := by
  refine Returns.succ fun calls hc => ?_
  have hlength := s.tree.length_ancestors_le reference
  have hscopes := scopesAt_returns hs hm name count false reference (s.tree.ancestors reference)
    calls (by omega)
  dsimp only at hscopes
  rw [valueAt, hscopes]
  unfold lookupValue
  cases s.searchScopes (s.offered? (classScopeMember supertypes member · name count)
      (s.pickOverload · count) name) false reference (s.tree.ancestors reference) with
  | some id => rfl
  | none => exact importedAt_returns hbelow.member name count calls (by omega)

/-- The lookups of one depth have outcomes if those of the next one do. -/
theorem Settled.above (hbelow : s.Settled room (depth + 1) below) (hd : depth ≤ qualifierLimit) :
    s.Settled (room + roomPerDepth) depth (s.levelAbove below) := by
  -- Questions for supertypes and members take less room than those for references.
  let near := room + hierarchyLimit + 3
  have hsupertypes : ∀ type,
      Returns near (s.supertypesAt · depth type) ((s.levelAbove below).supertypes type) :=
    fun type => (supertypesAt_returns hd hbelow.lookup type).mono (by omega)
  have hmember : ∀ type name count,
      Returns near (s.memberAt · depth type name count)
        ((s.levelAbove below).member type name count) :=
    memberAt_returns hbelow.supertypes hd
  have hnear : s.Settled near (depth + 1) below :=
    ⟨fun reference => (hbelow.lookup reference).mono (by omega),
      fun type => (hbelow.supertypes type).mono (by omega),
      fun type name count => (hbelow.member type name count).mono (by omega)⟩
  have hle : near + ancestorLimit + 5 ≤ room + roomPerDepth := by
    unfold roomPerDepth
    omega
  refine ⟨fun reference => Returns.mono (Returns.succ fun calls hc => ?_) hle,
    fun type => (hsupertypes type).mono (by omega),
    fun type name count => (hmember type name count).mono (by omega)⟩
  rw [lookupAt, if_neg (Nat.not_lt.mpr hd)]
  split
  · next role data hform =>
    cases hname : data.name? with
    | none =>
      rw [lookup_levelAbove_unnamed hform hname]
      rfl
    | some name =>
      dsimp only
      cases hq : data.qualifier with
      | some qualifier =>
        rw [lookup_levelAbove_qualified hform hname hq]
        exact qualifiedAt_returns hbelow qualifier name _ calls (by omega)
      | none =>
        cases role with
        | type =>
          rw [lookup_levelAbove_type hform hname hq]
          rfl
        | value =>
          have hvalue := valueAt_returns hsupertypes hmember hnear reference name
            (s.argumentCount? reference) calls (by omega)
          dsimp only at hvalue ⊢
          rw [lookup_levelAbove_value hform hname hq, hvalue]
          cases s.lookupValue (classScopeMember (s.levelAbove below).supertypes
            (s.levelAbove below).member) below.member reference name
              (s.argumentCount? reference) <;> rfl
  · next hform =>
    rw [lookup_levelAbove_of_not_reference hform]
    rfl

end

/-- Every depth has outcomes, those of its level: from the depths past the limit upwards. -/
theorem settled (s : Script) (depth : Nat) : s.Settled (roomAt depth) depth (s.levelAt depth) := by
  unfold levelAt roomAt
  obtain ⟨left, hleft⟩ : ∃ left, qualifierLimit + 1 - depth = left := ⟨_, rfl⟩
  rw [hleft]
  induction left generalizing depth with
  | zero =>
    rw [Nat.zero_mul]
    exact settled_of_lt (by omega)
  | succ left ih =>
    rw [Nat.succ_mul, Nat.add_right_comm]
    exact (ih (depth + 1) (by omega)).above (by omega)

/-! ## Questions from outside -/

theorem roomAt_le_callLimit (depth : Nat) : roomAt depth ≤ callLimit := by
  have hmul :
      (qualifierLimit + 1 - depth) * roomPerDepth ≤ (qualifierLimit + 1 - 0) * roomPerDepth :=
    Nat.mul_le_mul_right _ (by omega)
  unfold callLimit roomAt
  omega

theorem isSubclass_returns (s : Script) (type ancestor : SymbolId) :
    Returns callLimit (s.subclassFrom ancestor · 0 [type] []) (s.isSubclass type ancestor) :=
  subclassFrom_returns (s.settled 0).supertypes (Nat.zero_add _) [type] [] List.not_mem_nil

theorem inheritsAt_eq (s : Script) {calls : Nat} (h : calls ≥ callLimit) (owner : Option SymbolId)
    (site : NodeId) :
    s.inheritsAt calls owner site =
      some (match owner.filter s.symbols.isType with
        | some owner => (s.enclosingTypes site).any (s.isSubclass · owner)
        | none => false) := by
  unfold inheritsAt
  cases owner.filter s.symbols.isType with
  | none => rfl
  | some owner => exact anyM_outcome (fun type => s.isSubclass_returns type owner calls h) _

theorem isAccessible_returns (s : Script) (symbol : SymbolId) (site : NodeId) :
    Returns callLimit (s.accessibleFrom · symbol site) (s.isAccessible symbol site) := by
  intro calls h
  unfold accessibleFrom isAccessible
  cases s.symbols.get? symbol with
  | none => rfl
  | some target =>
    dsimp only
    -- Three kinds can be used everywhere, and the other three are treated alike.
    cases target.kind with
    | package | variableSymbol | parameter => rfl
    | type | method | field =>
      dsimp only
      split
      · rfl
      split
      · rw [inheritsAt_eq s h]
        cases decide (s.symbols.packageNameOf symbol = s.binding.filePackage) <;> rfl
      · split <;> rfl

theorem resolve_returns (s : Script) (reference : NodeId) :
    Returns callLimit (s.resolveFrom · reference) (s.resolve reference) := by
  intro calls h
  have hlookup : s.lookupAt calls 0 reference = some (s.top.lookup reference) :=
    (s.settled 0).lookup reference calls (Nat.le_trans (roomAt_le_callLimit 0) h)
  dsimp only
  unfold resolveFrom resolve resolveWith
  rw [hlookup, lookupWithin_none]
  show Resolution.ofSearch (s.top.lookup reference) _ =
    some (Id.run (Resolution.ofSearch (s.top.lookup reference) _))
  cases s.top.lookup reference with
  | none => rfl
  | some symbol =>
    have hmay : s.accessibleFrom calls symbol reference = some (s.isAccessible symbol reference) :=
      isAccessible_returns s symbol reference calls h
    unfold Resolution.ofSearch
    dsimp only
    rw [hmay]
    rfl

/-- Lookups end on every script, with room for a fixed number of nested calls, and the levels say
    with what. Nothing is asked of the tree, of the symbols or of the binding. -/
theorem lookups_return (s : Script) :
    (∀ reference, Returns callLimit (s.resolveFrom · reference) (s.resolve reference)) ∧
      (∀ type, Returns callLimit (s.supertypesAt · 0 type) (s.supertypesOf type)) ∧
      (∀ type name count depth, Returns callLimit (s.memberAt · depth type name count)
        (s.findMember type name count depth)) ∧
      (∀ type ancestor, Returns callLimit (s.subclassFrom ancestor · 0 [type] [])
        (s.isSubclass type ancestor)) :=
  ⟨s.resolve_returns,
    fun type => ((s.settled 0).supertypes type).mono (roomAt_le_callLimit 0),
    fun type name count depth =>
      ((s.settled depth).member type name count).mono (roomAt_le_callLimit depth),
    s.isSubclass_returns⟩

end Script

end ScriptCheck
