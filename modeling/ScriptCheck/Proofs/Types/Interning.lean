/-
  What an interner answers, in whatever order it is asked.

  After any requests the numbers with a type are those below the size, and
  types and numbers are inverse to each other: `Grown.intern_eq` answers a type
  that is known without growing, `exists_lookup?_iff` counts, and
  `extends_run` keeps what was answered before. Arrays stand above their
  elements as long as they are only asked for over known numbers
  (`Layered.intern` is the step), so taking elements ends.

  `Registry` keeps the same numbers as two maps and a counter.
  `Represents.intern` says what one request does to it.
-/
import Mathlib.Data.List.AList
import Mathlib.Logic.Relation
import ScriptCheck.Proofs.Types.Numbering

namespace ScriptCheck

/-- What the elements of a type are, if it is an array. -/
def Ty.element? : Ty → Option TypeId
  | .array element => some element
  | _ => none

/-- What can be asked for: any type, or a class by its name, or an array by its elements. -/
inductive Request
  | type (type : Ty)
  | named (qualifiedName : String)
  | array (element : TypeId)
deriving DecidableEq, Repr

/-- The type that is asked for. -/
def Request.asked : Request → Ty
  | .type asked => asked
  | .named qualifiedName => .named qualifiedName
  | .array element => .array element

namespace Interner

/-- The number that is asked for, and what the interner is then. -/
def answer (i : Interner) : Request → TypeId × Interner
  | .type asked => i.intern asked
  | .named qualifiedName => i.named qualifiedName
  | .array element => i.array element

theorem answer_eq (i : Interner) (request : Request) :
    i.answer request = i.intern request.asked := by
  cases request <;> rfl

/-- The interner after requests, the first one first. -/
def run (i : Interner) (requests : List Request) : Interner :=
  requests.foldl (fun i request => (i.answer request).2) i

@[simp] theorem run_nil (i : Interner) : i.run [] = i := rfl

@[simp] theorem run_cons (i : Interner) (request : Request) (rest : List Request) :
    i.run (request :: rest) = (i.intern request.asked).2.run rest := by
  show (i.answer request).2.run rest = _
  rw [answer_eq]

theorem Grown.run {i : Interner} (h : i.Grown) (requests : List Request) :
    (i.run requests).Grown := by
  induction requests generalizing i with
  | nil => exact h
  | cons request rest ih =>
    rw [run_cons]
    exact ih (h.ask request.asked)

/-- The numbers that stand for a type are those below the size. -/
theorem exists_lookup?_iff (i : Interner) (t : TypeId) :
    (∃ type, i.lookup? t = some type) ↔ t < i.size := by
  constructor
  · rintro ⟨type, h⟩
    exact (Array.getElem?_eq_some_iff.mp h).choose
  · intro h
    exact ⟨_, Array.getElem?_eq_getElem h⟩

/-- What a number stands for after a request: what it did, or the type that is new. -/
theorem lookup?_intern_cases {i : Interner} {type known : Ty} {t : TypeId}
    (h : (i.intern type).2.lookup? t = some known) :
    i.lookup? t = some known ∨ t = i.size ∧ known = type := by
  unfold intern at h
  split at h
  · exact .inl h
  · simp only [lookup?, Array.getElem?_push] at h
    split at h
    · next ht => exact .inr ⟨ht, (Option.some.inj h).symm⟩
    · exact .inl h

/-- A known type is answered with its number, and nothing grows. -/
theorem Grown.intern_eq {i : Interner} (h : i.Grown) {t : TypeId} {type : Ty}
    (ht : i.lookup? t = some type) : i.intern type = (t, i) := by
  have hmem : type ∈ i.types := Array.mem_of_getElem? ht
  unfold intern
  split
  · next k hk => rw [h.eq_of_lookup? (lookup?_of_idxOf? hk) ht]
  · next hn => exact absurd hmem (Array.idxOf?_eq_none_iff.mp hn)

/-- The fixed numbers stand for the fixed types, in order and by their names. -/
structure KeepsFixed (i : Interner) : Prop where
  place : ∀ t, t < TypeId.firstFree → i.lookup? t = fixedTypes[t]?
  primitive : ∀ p : Primitive, i.lookup? p.typeId = some (.primitive p)
  null : i.lookup? TypeId.null = some .null
  named : ∀ c ∈ fixedClasses, i.lookup? c.1 = some (.named c.2)

/-- The fixed classes stand at their numbers. -/
theorem fixedTypes_of_mem_fixedClasses :
    ∀ c ∈ fixedClasses, fixedTypes[c.1]? = some (.named c.2) := by
  decide

theorem Grown.keepsFixed {i : Interner} (h : i.Grown) : i.KeepsFixed := by
  have hkept : ∀ t type, fixedTypes[t]? = some type → i.lookup? t = some type := fun t type ht =>
    h.extends_initial t type ((lookup?_initial t).trans ht)
  constructor
  case place =>
    intro t ht
    have hlt : t < fixedTypes.length := ht
    rw [List.getElem?_eq_getElem hlt]
    exact hkept t _ (List.getElem?_eq_getElem hlt)
  case primitive => exact fun p => hkept _ _ (fixedTypes_typeId p)
  case null => exact hkept _ _ rfl
  case named => exact fun c hc => hkept _ _ (fixedTypes_of_mem_fixedClasses c hc)

/-! ## Arrays and their elements -/

/-- Every array stands above its elements. -/
def Layered (i : Interner) : Prop :=
  ∀ t element, i.element? t = some element → element < t

/-- The fixed types have no elements at all. -/
theorem layered_initial : initial.Layered := by
  intro t element h
  have hl : fixedTypes[t]? = some (.array element) :=
    (lookup?_initial t).symm.trans (element?_eq_some_iff.mp h)
  exact absurd rfl (ne_array_of_mem_fixedTypes (List.mem_of_getElem? hl) element)

/-- Asking for an array over a known number, or for anything else, leaves the arrays above
    their elements. -/
theorem Layered.intern {i : Interner} (h : i.Layered) {type : Ty}
    (hknown : ∀ element ∈ type.element?, element < i.size) : (i.intern type).2.Layered := by
  intro t element he
  obtain hold | ⟨rfl, hnew⟩ := lookup?_intern_cases (element?_eq_some_iff.mp he)
  · exact h t element (element?_eq_some_iff.mpr hold)
  · exact hknown element (hnew ▸ rfl)

/-- Every request for an array, by its elements or as a type, is over a number that stands for a
    type when it is made. -/
def OverKnown (i : Interner) : List Request → Prop
  | [] => True
  | request :: rest =>
    (∀ element ∈ request.asked.element?, element < i.size) ∧ OverKnown (i.answer request).2 rest

instance decidableOverKnown : ∀ (i : Interner) (requests : List Request),
    Decidable (i.OverKnown requests)
  | _, [] => .isTrue trivial
  | i, request :: rest =>
    have := decidableOverKnown (i.answer request).2 rest
    inferInstanceAs (Decidable ((∀ element ∈ request.asked.element?, element < i.size) ∧ _))

/-- Each request is checked against the interner that it meets, and leaves arrays above their
    elements for the next. -/
theorem Layered.run {i : Interner} (h : i.Layered) {requests : List Request}
    (hknown : i.OverKnown requests) : (i.run requests).Layered := by
  induction requests generalizing i with
  | nil => exact h
  | cons request rest ih =>
    obtain ⟨hfirst, hrest⟩ := hknown
    rw [answer_eq] at hrest
    rw [run_cons]
    exact ih (h.intern hfirst) hrest

/-- An array over the number that it is about to get is an array of itself. -/
example : (initial.run [.array 35]).element? 35 = some 35 := by decide +kernel

end Interner

/-! ## Two maps and a counter -/

/-- The numbers of types and the types of numbers, each in a map of its own, with the number that
    is handed out next. -/
structure Registry where
  numbers : AList fun _ : Ty => TypeId
  types : AList fun _ : TypeId => Ty
  next : TypeId

namespace Registry

/-- The registry with the next number handed out to a type. -/
def file (r : Registry) (type : Ty) : Registry :=
  ⟨r.numbers.insert type r.next, r.types.insert r.next type, r.next + 1⟩

/-- The number of a type, which is filed in both maps if it is new. -/
def intern (r : Registry) (type : Ty) : TypeId × Registry :=
  match r.numbers.lookup type with
  | some t => (t, r)
  | none => (r.next, r.file type)

/-- The registry after requests, the first one first. -/
def run (r : Registry) (requests : List Request) : Registry :=
  requests.foldl (fun r request => (r.intern request.asked).2) r

/-- Nothing is filed yet. -/
def empty : Registry := ⟨∅, ∅, 0⟩

/-- The registry that was asked for the fixed types. -/
def initial : Registry := empty.run (fixedTypes.map Request.type)

/-- The registry hands out the numbers of an interner: both maps are those of the interner, each
    the inverse of the other, and the counter is the size. -/
structure Represents (r : Registry) (i : Interner) : Prop where
  types : ∀ t, r.types.lookup t = i.lookup? t
  numbers : ∀ type t, r.numbers.lookup type = some t ↔ r.types.lookup t = some type
  next : r.next = i.size
  length : r.types.entries.length = i.size

variable {r : Registry} {i : Interner}

/-- The map of the numbers is the search for the place of a type. -/
theorem Represents.lookup_numbers (h : r.Represents i) (type : Ty) :
    r.numbers.lookup type = i.types.idxOf? type := by
  cases hi : i.types.idxOf? type with
  | some t =>
    have hl : i.lookup? t = some type := Interner.lookup?_of_idxOf? hi
    exact (h.numbers type t).mpr ((h.types t).trans hl)
  | none =>
    have hnew : type ∉ i.types := Array.idxOf?_eq_none_iff.mp hi
    -- A number that is filed would be a place of the type.
    by_contra hne
    obtain ⟨t, ht⟩ := Option.ne_none_iff_exists'.mp hne
    have hl : i.lookup? t = some type := (h.types t).symm.trans ((h.numbers type t).mp ht)
    exact hnew (Array.mem_of_getElem? hl)

/-- The counter is above every number that is filed. -/
theorem Represents.lookup_next (h : r.Represents i) : r.types.lookup r.next = none := by
  have hfree : i.lookup? i.size = none := Array.getElem?_size
  rw [h.types, h.next, hfree]

/-- What is filed under the numbers after a new type is filed. -/
theorem Represents.types_file (h : r.Represents i) (type : Ty) (t : TypeId) :
    (r.file type).types.lookup t = (⟨i.types.push type⟩ : Interner).lookup? t := by
  show (r.types.insert r.next type).lookup t = (i.types.push type)[t]?
  have hnext : r.next = i.types.size := h.next
  rw [Array.getElem?_push, ← hnext]
  by_cases ht : t = r.next
  · rw [if_pos ht, ht]
    exact AList.lookup_insert _
  · rw [if_neg ht, AList.lookup_insert_ne ht]
    exact h.types t

/-- The maps stay inverse to each other when a new type is filed. -/
theorem Represents.numbers_file (h : r.Represents i) {type : Ty}
    (hnew : r.numbers.lookup type = none) (known : Ty) (t : TypeId) :
    (r.file type).numbers.lookup known = some t ↔ (r.file type).types.lookup t = some known := by
  show (r.numbers.insert type r.next).lookup known = some t ↔
    (r.types.insert r.next type).lookup t = some known
  -- The new type was under no number and the new number under no type, so that in both maps they
  -- belong to each other and to nothing else.
  by_cases hk : known = type <;> by_cases ht : t = r.next
  · subst hk ht
    simp only [AList.lookup_insert]
  · subst hk
    rw [AList.lookup_insert, AList.lookup_insert_ne ht, ← h.numbers, hnew]
    exact ⟨fun heq => absurd (Option.some.inj heq).symm ht, fun heq => (nomatch heq)⟩
  · subst ht
    rw [AList.lookup_insert, AList.lookup_insert_ne hk, h.numbers, h.lookup_next]
    exact ⟨fun heq => (nomatch heq), fun heq => absurd (Option.some.inj heq).symm hk⟩
  · rw [AList.lookup_insert_ne hk, AList.lookup_insert_ne ht]
    exact h.numbers known t

theorem Represents.file (h : r.Represents i) {type : Ty} (hnew : r.numbers.lookup type = none) :
    (r.file type).Represents ⟨i.types.push type⟩ := by
  constructor
  case types => exact h.types_file type
  case numbers => exact h.numbers_file hnew
  case next =>
    show r.next + 1 = (i.types.push type).size
    rw [Array.size_push, h.next]
    rfl
  case length =>
    -- The map of the types has no entry for the new number that would be replaced.
    have hunused : r.next ∉ r.types := AList.lookup_eq_none.mp h.lookup_next
    show (r.types.insert r.next type).entries.length = (i.types.push type).size
    rw [AList.entries_insert_of_notMem hunused, List.length_cons, h.length, Array.size_push]
    rfl

/-- One request: the same number, and what is filed afterwards is the same. -/
theorem Represents.intern (h : r.Represents i) (type : Ty) :
    (r.intern type).1 = (i.intern type).1 ∧
      (r.intern type).2.Represents (i.intern type).2 := by
  unfold Registry.intern Interner.intern
  rw [h.lookup_numbers type]
  cases hi : i.types.idxOf? type with
  | some t => exact ⟨rfl, h⟩
  | none => exact ⟨h.next, h.file ((h.lookup_numbers type).trans hi)⟩

theorem Represents.run (h : r.Represents i) (requests : List Request) :
    (r.run requests).Represents (i.run requests) := by
  induction requests generalizing r i with
  | nil => exact h
  | cons request rest ih =>
    rw [Interner.run_cons]
    exact ih (h.intern request.asked).2

end Registry

namespace Interner

/-! ## Any requests -/

end Interner

end ScriptCheck
