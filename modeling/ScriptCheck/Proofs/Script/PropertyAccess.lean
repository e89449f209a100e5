/-
  Reading a property.

  A name that is not called means a field, or a method that reads the property
  of that name, `getName` or `isName`. The search takes the first of these that
  it comes to (`findMember_eq_head?`), and only then it is asked whether that
  one may be used. So a property can be unreadable although it has a method
  that would read it: a private field hides the public method
  (`field_hides_reader`). `resolveWith_of_accessor` says what is in the way
  when a method may be used and the property may not.
-/
import ScriptCheck.Proofs.Script.File
import ScriptCheck.Proofs.Script.Overloads
import ScriptCheck.Proofs.Script.QualifiedNames

namespace ScriptCheck.Script

/-- The fields and nested types called `name`, in the order in which a search at `depth` comes to
    them. -/
def fieldsNamed (s : Script) (type : SymbolId) (name : String) (depth : Nat) : List SymbolId :=
  s.fields (s.levelAt (depth + 1)).supertypes type name

/-- The methods that read the property `name`: those called `getName`, then those called `isName`,
    as far as they can be called without arguments. -/
def accessors (s : Script) (type : SymbolId) (name : String) (depth : Nat) : List SymbolId :=
  if name = "" then []
  else
    ["get", "is"].flatMap fun verb =>
      (s.overloads type (verb ++ String.ofList (Uppercase.capitalize name.toList)) depth).filter
        (s.symbols.accepts · 0)

section

variable {s : Script} {type id : SymbolId} {name : String} {depth : Nat}

/-! ## The first one -/

/-- The method that reads a property is the first of those that do. -/
theorem accessor?_eq_head? (s : Script) (type : SymbolId) (name : String) (depth : Nat) :
    s.accessor? (s.levelAt (depth + 1)).supertypes type name =
      (s.accessors type name depth).head? := by
  unfold accessor? accessors
  split
  · rfl
  · simp only [List.head?_flatMap, List.head?_filter, overloads]

/-- A name that is not called means the first field or nested type, or else the first method that
    reads the property, or else the first method. -/
theorem findMember_eq_head? (hd : depth ≤ qualifierLimit) :
    s.findMember type name none depth =
      (s.fieldsNamed type name depth ++ s.accessors type name depth ++
        s.overloads type name depth).head? := by
  rw [findMember_eq, if_pos hd, memberWith, accessor?_eq_head?, List.append_assoc,
    List.head?_append, List.head?_append, Option.or_eq_orElse, Option.or_eq_orElse]
  rfl

/-- Accessors are the methods `getName` and `isName` of the types of the lineage that can be called
    without arguments. -/
theorem mem_accessors_iff : id ∈ s.accessors type name depth ↔
    name ≠ "" ∧ s.symbols.accepts id 0 = true ∧ ∃ verb ∈ ["get", "is"],
      id ∈ s.overloads type (verb ++ String.ofList (Uppercase.capitalize name.toList)) depth := by
  unfold accessors
  split
  · next h => simp [h]
  · next h =>
    simp only [List.mem_flatMap, List.mem_filter, h, ne_eq, not_false_iff, true_and]
    constructor
    · rintro ⟨verb, hverb, hm, haccepts⟩
      exact ⟨haccepts, verb, hverb, hm⟩
    · rintro ⟨haccepts, verb, hverb, hm⟩
      exact ⟨verb, hverb, hm, haccepts⟩

/-! ## Whether it may be used -/

/-- A reference that is not called resolves to the member that a name means in a type. -/
structure ReadsMember (s : Script) (receiver : NodeId → Id (Option SymbolId)) (r : NodeId)
    (type : SymbolId) (name : String) (depth : Nat) : Prop where
  uncalled : s.argumentCount? r = none
  found : ∃ id, (Id.run (s.resolveWith receiver r)).symbol? = some id ∧
    s.findMember type name (s.argumentCount? r) depth = some id

/-- Behind a type a reference resolves to a member, if to anything. -/
theorem readsMember_of_qualified {receiver : NodeId → Id (Option SymbolId)} {r qualifier : NodeId}
    {role : ReferenceRole} {data : Reference}
    (hform : s.tree.form? r = some (.reference role data)) (hname : data.name? = some name)
    (hq : data.qualifier = some qualifier)
    (htype : s.qualifierOf? receiver qualifier = some (.type type))
    (hcount : s.argumentCount? r = none)
    (hsome : (Id.run (s.resolveWith receiver r)).symbol? = some id) :
    s.ReadsMember receiver r type name 1 := by
  refine ⟨hcount, id, hsome, ?_⟩
  rw [← symbol?_resolveWith_of_type hform hname hq htype]
  exact hsome

/-- The first in a list may be used if one of the list may be and so may all before it. -/
theorem isAccessible_of_head? {r : NodeId} {front rest : List SymbolId} {m first : SymbolId}
    (hfirst : (front ++ m :: rest).head? = some first) (hm : s.isAccessible m r = true)
    (hfront : ∀ p ∈ front, s.isAccessible p r = true) : s.isAccessible first r = true := by
  cases front with
  | nil =>
    obtain rfl : m = first := Option.some.inj hfirst
    exact hm
  | cons p front =>
    obtain rfl : p = first := Option.some.inj hfirst
    exact hfront p List.mem_cons_self

/-- A property that has a method to read it, which may be used at the place of the reference, is
    judged by the first of its fields, nested types and such methods. It may be used itself unless
    one of those that stand before the method may not. -/
theorem resolveWith_of_accessor {receiver : NodeId → Id (Option SymbolId)} {r : NodeId}
    {m : SymbolId} (hr : s.ReadsMember receiver r type name depth)
    (hm : m ∈ s.accessors type name depth) (hmay : s.isAccessible m r = true) :
    ∃ first before after,
      (s.fieldsNamed type name depth ++ s.accessors type name depth).head? = some first ∧
      Id.run (s.resolveWith receiver r) =
        (if s.isAccessible first r then .accessible first else .inaccessible first) ∧
      s.accessors type name depth = before ++ m :: after ∧
      ((∀ p ∈ s.fieldsNamed type name depth ++ before, s.isAccessible p r = true) →
        Id.run (s.resolveWith receiver r) = .accessible first) := by
  obtain ⟨hcount, found, hsymbol, hmember⟩ := hr
  obtain ⟨before, after, hsplit⟩ := List.append_of_mem hm
  rw [hcount] at hmember
  have hd : depth ≤ qualifierLimit := by
    rw [findMember_eq] at hmember
    split at hmember
    · assumption
    · cases hmember
  -- Methods called `name` come last, and there is something before them.
  have hfirst : (s.fieldsNamed type name depth ++ s.accessors type name depth).head? =
      some found := by
    rw [findMember_eq_head? hd, hsplit] at hmember
    rw [hsplit]
    simpa only [List.head?_append, List.head?_cons, Option.or_some, Option.some_or,
      Option.or_assoc] using hmember
  have houtcome := resolveWith_of_symbol? hsymbol
  refine ⟨found, before, after, hfirst, houtcome, hsplit, fun hfront => ?_⟩
  rw [hsplit, ← List.append_assoc] at hfirst
  rw [houtcome, if_pos (isAccessible_of_head? hfirst hmay hfront)]

end

/-! ## A private field with a method that reads it -/

/-- A file with a class `Bean` that has a private field `x` and methods `getX` and `isReady`, and a
    class `Foo` that reads `Bean.x` and `Bean.ready`. -/
def beanTree : Tree :=
  .ofNodes
    [(.identifier "x", .none),
      (.variableLike .field ⟨some 0, none, none, false⟩, { Modifiers.none with isPrivate := true }),
      (.identifier "getX", .none),
      (.method ⟨some 2, none, [], none⟩, .none),
      (.identifier "isReady", .none),
      (.method ⟨some 4, none, [], none⟩, .none),
      (.identifier "Bean", .none),
      (.classBody [some 1, some 3, some 5], .none),
      (.typeDecl ⟨.classType, some 6, [], [], some 7⟩, .none),
      (.reference .value ⟨none, some "Bean", default⟩, .none),
      (.reference .value ⟨some 9, some "x", default⟩, .none),
      (.expressionStatement (some 10), .none),
      (.reference .value ⟨none, some "Bean", default⟩, .none),
      (.reference .value ⟨some 12, some "ready", default⟩, .none),
      (.expressionStatement (some 13), .none),
      (.block [some 11, some 14], .none),
      (.identifier "run", .none),
      (.method ⟨some 16, none, [], some 15⟩, .none),
      (.classBody [some 17], .none),
      (.identifier "Foo", .none),
      (.typeDecl ⟨.classType, some 19, [], [], some 18⟩, .none),
      (.sourceFile ⟨"bean", none, [], [some 8, some 20]⟩, .none)]

/-- The file without a library. -/
def bean : Script := ofFile .empty beanTree 21 []

theorem readsMember_bean :
    bean.ReadsMember (fun _ => pure none) 10 1 "x" 1 ∧
      bean.ReadsMember (fun _ => pure none) 13 1 "ready" 1 := by
  have hx : bean.tree.form? 10 = some (.reference .value ⟨some 9, some "x", default⟩) := by
    decide +kernel
  have hready : bean.tree.form? 13 = some (.reference .value ⟨some 12, some "ready", default⟩) := by
    decide +kernel
  have hfound : (bean.resolve 10).symbol? = some 2 ∧ (bean.resolve 13).symbol? = some 4 := by
    decide +kernel
  exact ⟨readsMember_of_qualified hx rfl rfl (by decide +kernel) (by decide +kernel) hfound.1,
    readsMember_of_qualified hready rfl rfl (by decide +kernel) (by decide +kernel) hfound.2⟩

/-- The field is in the way of `getX`, but nothing is in the way of `isReady`. -/
theorem resolve_bean :
    (bean.isAccessible 3 10 = true ∧ bean.resolve 10 = .inaccessible 2) ∧
      bean.resolve 13 = .accessible 4 := by
  have hx : bean.accessors 1 "x" 1 = [3] := by decide +kernel
  have hready : bean.accessors 1 "ready" 1 = [4] := by decide +kernel
  have hfields : bean.fieldsNamed 1 "x" 1 = [2] ∧ bean.fieldsNamed 1 "ready" 1 = [] := by
    decide +kernel
  have hmay : bean.isAccessible 3 10 = true ∧ bean.isAccessible 4 13 = true := by decide +kernel
  have hprivate : bean.isAccessible 2 10 = false := by decide +kernel
  refine ⟨⟨hmay.1, ?_⟩, ?_⟩
  · obtain ⟨first, _, _, hfirst, houtcome, -, -⟩ :=
      resolveWith_of_accessor readsMember_bean.1 (hx ▸ List.mem_singleton_self 3) hmay.1
    rw [hfields.1] at hfirst
    obtain rfl : 2 = first := Option.some.inj hfirst
    rw [hprivate] at houtcome
    exact houtcome
  · obtain ⟨first, before, _, hfirst, -, hsplit, hall⟩ :=
      resolveWith_of_accessor readsMember_bean.2 (hready ▸ List.mem_singleton_self 4) hmay.2
    rw [hready] at hsplit
    rw [hfields.2, hready] at hfirst
    obtain rfl : 4 = first := Option.some.inj hfirst
    obtain ⟨rfl, -⟩ | ⟨-, hnil⟩ := List.append_eq_singleton_iff.mp hsplit.symm
    case inr => cases hnil
    refine hall fun p hp => ?_
    rw [hfields.2] at hp
    cases hp

/-- A property with a method that reads it and may be used can be unreadable. -/
theorem field_hides_reader :
    ¬∀ (lib : SymbolTable) (t : Tree) (root : NodeId) (imports : List String)
      (receiver : NodeId → Id (Option SymbolId)) (r : NodeId) (type : SymbolId) (name : String)
      (depth : Nat) (m : SymbolId), lib.Grown → t.WellShaped →
      (ofFile lib t root imports).ReadsMember receiver r type name depth →
      m ∈ (ofFile lib t root imports).accessors type name depth →
      (ofFile lib t root imports).isAccessible m r = true →
      ∀ id, Id.run ((ofFile lib t root imports).resolveWith receiver r) ≠ .inaccessible id := by
  intro hall
  have hshape : beanTree.WellShaped := (Tree.built_ofNodes _).wellShaped (by decide +kernel)
  have hx : bean.accessors 1 "x" 1 = [3] := by decide +kernel
  have hno : bean.resolve 10 = .inaccessible 2 := by decide +kernel
  exact hall .empty beanTree 21 [] (fun _ => pure none) 10 1 "x" 1 3 .start hshape
    readsMember_bean.1 (hx ▸ List.mem_singleton_self 3) (by decide +kernel) 2 hno

end ScriptCheck.Script
