/-
  Types by their texts.

  A type is written with its base first, a primitive, `null` or a class, and
  with a pair of brackets for every dimension behind it. The brackets can be
  taken off again as long as no base ends in a pair of them, and the base can
  be read as long as no class is called like a primitive or `null` (`Telling`).
  So reading the text of a type gives the type back (`ofText_text`): its number,
  from an interner that stays as it is. Two numbers with one text are therefore
  one number (`text_eq_iff`).

  Opened `hierarchyLimit` times, an array still shows its base. The bound on
  dimensions is what `opened?` says about one opening more.
-/
import ScriptCheck.Proofs.Types.ArrayAssignability

namespace ScriptCheck

/-- A class of this name has a text of its own: it is not taken for an array, a primitive or
    `null`. -/
structure Telling (name : String) : Prop where
  noArray : ¬"[]".toList <:+ name.toList
  noPrimitive : ∀ p : Primitive, name ≠ p.keyword
  notNull : name ≠ "null"

/-- The names of the fixed classes are their own. -/
theorem telling_of_mem_fixedClasses : ∀ c ∈ fixedClasses, Telling c.2 := by
  have hall : ∀ c ∈ fixedClasses, ¬"[]".toList <:+ c.2.toList ∧
      (∀ p ∈ Primitive.all, c.2 ≠ p.keyword) ∧ c.2 ≠ "null" := by
    decide +kernel
  intro c hc
  obtain ⟨harray, hprimitive, hnull⟩ := hall c hc
  exact ⟨harray, fun p => hprimitive p (by cases p <;> decide), hnull⟩

/-- Whether a type is no array, and as a class has a telling name. -/
def Ty.Legible : Ty → Prop
  | .named name => Telling name
  | .array _ => False
  | .primitive _ | .null => True

/-! ## Brackets -/

/-- From a text that does not end in brackets none are taken off. -/
theorem splitDimensions_of_not_suffix {base : List Char} (h : ¬"[]".toList <:+ base) :
    splitDimensions base.reverse = (0, base.reverse) := by
  unfold splitDimensions
  split
  · next front heq =>
    refine absurd ⟨front.reverse, ?_⟩ h
    rw [← List.reverse_reverse base, heq]
    simp
  · rfl

/-- A pair of brackets at the end is one dimension more. -/
theorem splitDimensions_append (text : String) :
    splitDimensions (text ++ "[]").toList.reverse =
      ((splitDimensions text.toList.reverse).1 + 1, (splitDimensions text.toList.reverse).2) := by
  have hchars : (text ++ "[]").toList.reverse = ']' :: '[' :: text.toList.reverse := by
    simp [String.toList_append]
  rw [hchars, splitDimensions]

namespace Interner

section

variable {i : Interner} {t s base : TypeId} {type : Ty} {n budget : Nat}

/-! ## The text of a base -/

/-- The text of a legible type does not end in brackets, and reading it gives the type. -/
theorem ofBase_text (hl : i.lookup? t = some type) (h : type.Legible) (budget : Nat) :
    ¬"[]".toList <:+ (i.textWithin budget t).toList ∧ Ty.ofBase (i.textWithin budget t) = type := by
  cases type with
  | primitive p =>
    have htext : i.textWithin budget t = p.keyword := by rw [textWithin, hl]
    rw [htext, Ty.ofBase, Primitive.ofKeyword?_keyword]
    refine ⟨?_, rfl⟩
    cases p <;> decide
  | null =>
    have htext : i.textWithin budget t = "null" := by rw [textWithin, hl]
    rw [htext]
    decide
  | named name =>
    have htext : i.textWithin budget t = name := by rw [textWithin, hl]
    have hnone : Primitive.ofKeyword? name = none := by
      rw [Primitive.ofKeyword?, List.find?_eq_none]
      intro p _ heq
      exact h.noPrimitive p (of_decide_eq_true heq).symm
    rw [htext, Ty.ofBase, hnone]
    exact ⟨h.noArray, if_neg h.notNull⟩
  | array element => exact h.elim

/-! ## The text of an array -/

/-- An array is written as its elements are, with a pair of brackets behind. -/
theorem textWithin_of_element? (h : i.element? t = some s) (budget : Nat) :
    i.textWithin (budget + 1) t = i.textWithin budget s ++ "[]" := by
  rw [textWithin, element?_eq_some_iff.mp h]

/-- The brackets that are taken off a text are the dimensions of the type. -/
theorem splitDimensions_text (h : i.opened? n t = some base) (hn : n ≤ budget)
    (hl : i.lookup? base = some type) (htype : type.Legible) :
    (splitDimensions (i.textWithin budget t).toList.reverse).1 = n ∧
      Ty.ofBase (String.ofList (splitDimensions (i.textWithin budget t).toList.reverse).2.reverse) =
        type := by
  induction n generalizing t budget with
  | zero =>
    obtain rfl : t = base := Option.some.inj h
    obtain ⟨hbrackets, hbase⟩ := ofBase_text hl htype budget
    rw [splitDimensions_of_not_suffix hbrackets, List.reverse_reverse, String.ofList_toList]
    exact ⟨rfl, hbase⟩
  | succ n ih =>
    obtain ⟨element, harray, hrest⟩ := exists_element?_of_opened? h
    obtain ⟨budget, rfl⟩ := Nat.exists_eq_add_of_le' hn
    have hroom : n ≤ budget + n := Nat.le_add_left n budget
    obtain ⟨hcount, hbase⟩ := ih hrest hroom
    rw [← Nat.add_assoc, textWithin_of_element? harray, splitDimensions_append, hcount]
    exact ⟨rfl, hbase⟩

/-! ## Reading a text -/

/-- Known arrays are answered with their numbers. -/
theorem Grown.arrays_of_opened? (hi : i.Grown) (h : i.opened? n t = some base) :
    i.arrays base n = (t, i) := by
  induction n generalizing t with
  | zero => rw [Interner.arrays, Option.some.inj h]
  | succ n ih =>
    obtain ⟨element, harray, hrest⟩ := exists_element?_of_opened? h
    rw [Interner.arrays, ih hrest]
    exact hi.intern_eq (element?_eq_some_iff.mp harray)

/-- The text of a type whose base is legible gives the type back. -/
theorem Grown.ofText_text (hi : i.Grown) (h : i.opened? n t = some base) (hn : n ≤ hierarchyLimit)
    (hl : i.lookup? base = some type) (htype : type.Legible) : i.ofText (i.text t) = (t, i) := by
  obtain ⟨hcount, hbase⟩ := splitDimensions_text h hn hl htype
  unfold ofText text
  dsimp only
  rw [hcount, hbase, hi.intern_eq hl]
  exact hi.arrays_of_opened? h

/-! ## What was asked for -/

/-- What a number stands for after requests: what it did, or something that was asked for. -/
theorem lookup?_run_cases {requests : List Request} (h : (i.run requests).lookup? t = some type) :
    i.lookup? t = some type ∨ ∃ request ∈ requests, request.asked = type := by
  induction requests generalizing i with
  | nil => exact .inl h
  | cons request rest ih =>
    rw [run_cons] at h
    rcases ih h with hfirst | ⟨later, hm, hlater⟩
    · rcases lookup?_intern_cases hfirst with hold | ⟨-, hnew⟩
      · exact .inl hold
      · exact .inr ⟨request, List.mem_cons_self, hnew.symm⟩
    · exact .inr ⟨later, List.mem_cons_of_mem _ hm, hlater⟩

/-- If all classes that were asked for have telling names, all classes have. -/
theorem telling_of_lookup?_run {requests : List Request}
    (hnames : ∀ request ∈ requests, ∀ name, request.asked = .named name → Telling name)
    {name : String} (h : (initial.run requests).lookup? t = some (.named name)) : Telling name := by
  rcases lookup?_run_cases h with hfixed | ⟨request, hm, hasked⟩
  · have hmem : Ty.named name ∈ fixedTypes :=
      List.mem_of_getElem? ((lookup?_initial t).symm.trans hfixed)
    -- The fixed types that are classes are the fixed classes.
    simp only [fixedTypes, List.mem_append, List.mem_map, List.mem_singleton, reduceCtorEq,
      and_false, exists_false, or_false, false_or, Ty.named.injEq] at hmem
    obtain ⟨c, hc, rfl⟩ := hmem
    exact telling_of_mem_fixedClasses c hc
  · exact hnames request hm name hasked

/-! ## Dimensions -/

/-- A type that can be opened no more than so many times has a base that it is opened to. -/
theorem Layered.exists_opened? (h : i.Layered) (ht : t < i.size)
    (hbound : i.opened? (budget + 1) t = none) :
    ∃ n ≤ budget, ∃ base, i.opened? n t = some base ∧ i.IsBase base := by
  induction budget generalizing t with
  | zero =>
    obtain ⟨type, hl⟩ := (exists_lookup?_iff i t).mpr ht
    refine ⟨0, Nat.le_refl 0, t, rfl, type, hl, ?_⟩
    rintro element rfl
    rw [opened?, element?_eq_some_iff.mpr hl] at hbound
    cases hbound
  | succ budget ih =>
    cases he : i.element? t with
    | none =>
      obtain ⟨type, hl⟩ := (exists_lookup?_iff i t).mpr ht
      refine ⟨0, Nat.zero_le _, t, rfl, type, hl, ?_⟩
      rintro element rfl
      rw [element?_eq_some_iff.mpr hl] at he
      cases he
    | some element =>
      rw [opened?, he, Option.bind_some] at hbound
      obtain ⟨n, hn, base, hopened, hbase⟩ :=
        ih (Nat.lt_trans (h t element he) ht) hbound
      refine ⟨n + 1, Nat.succ_le_succ hn, base, ?_, hbase⟩
      rw [opened?, he, Option.bind_some]
      exact hopened

/-- After requests for arrays of known types and for classes with telling names, texts give their
    types back, up to as many dimensions as are opened. -/
theorem ofText_run {requests : List Request} (hknown : initial.OverKnown requests)
    (hnames : ∀ request ∈ requests, ∀ name, request.asked = .named name → Telling name)
    (ht : t < (initial.run requests).size)
    (hbound : (initial.run requests).opened? (hierarchyLimit + 1) t = none) :
    (initial.run requests).ofText ((initial.run requests).text t) = (t, initial.run requests) := by
  have hgrown : (initial.run requests).Grown := Grown.start.run requests
  have hlayered : (initial.run requests).Layered := layered_initial.run hknown
  obtain ⟨n, hn, base, hopened, type, hl, hbase⟩ := hlayered.exists_opened? ht hbound
  refine hgrown.ofText_text hopened hn hl ?_
  cases type with
  | primitive p => trivial
  | null => trivial
  | named name => exact telling_of_lookup?_run hnames hl
  | array element => exact hbase element rfl

end

/-! ## One text, one type -/

/-- After requests for arrays of known types and for classes with telling names, two types that can
    be opened at most as often as arrays are opened for their texts have the same text only if they
    are the same. -/
theorem text_eq_iff {requests : List Request} (hknown : initial.OverKnown requests)
    (hnames : ∀ request ∈ requests, ∀ name, request.asked = .named name → Telling name)
    {t s : TypeId} (ht : t < (initial.run requests).size) (hs : s < (initial.run requests).size)
    (htBound : (initial.run requests).opened? (hierarchyLimit + 1) t = none)
    (hsBound : (initial.run requests).opened? (hierarchyLimit + 1) s = none) :
    (initial.run requests).text t = (initial.run requests).text s ↔ t = s := by
  constructor
  · intro heq
    have hread := ofText_run hknown hnames ht htBound
    rw [heq, ofText_run hknown hnames hs hsBound] at hread
    exact (congrArg Prod.fst hread).symm
  · rintro rfl
    rfl

/-- A class whose name ends in a single bracket, an array of it, another class and an array of
    arrays of that one: the two arrays have different texts. -/
theorem text_arrays_ne :
    let requests : List Request :=
      [.named "app.Foo]", .array 35, .named "app.Foo", .array 37, .type (.array 38)]
    (initial.run requests).text 36 = "app.Foo][]" ∧
      (initial.run requests).text 39 = "app.Foo[][]" ∧
      (initial.run requests).text 36 ≠ (initial.run requests).text 39 := by
  intro requests
  have hknown : initial.OverKnown requests := by decide +kernel
  have hnames : ∀ request ∈ requests, ∀ name, request.asked = .named name → Telling name := by
    have htelling : Telling "app.Foo]" ∧ Telling "app.Foo" :=
      ⟨⟨by decide, fun p => by cases p <;> decide, by decide⟩,
        ⟨by decide, fun p => by cases p <;> decide, by decide⟩⟩
    intro request hm name hasked
    simp only [requests, List.mem_cons, List.not_mem_nil, or_false] at hm
    rcases hm with rfl | rfl | rfl | rfl | rfl <;> cases hasked
    · exact htelling.1
    · exact htelling.2
  have hsize : (initial.run requests).size = 40 := by decide +kernel
  have hbounds : (initial.run requests).opened? (hierarchyLimit + 1) 36 = none ∧
      (initial.run requests).opened? (hierarchyLimit + 1) 39 = none := by
    decide +kernel
  refine ⟨by decide +kernel, by decide +kernel, fun heq => ?_⟩
  have hsame := (text_eq_iff hknown hnames (by rw [hsize]; decide) (by rw [hsize]; decide)
    hbounds.1 hbounds.2).mp heq
  exact absurd hsame (by decide)

end Interner

end ScriptCheck
