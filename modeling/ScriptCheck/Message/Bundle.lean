/-
  Wordings of messages.

  A wording turns a message and its arguments into text. The built-in wording
  uses the templates of the catalogue; a bundle replaces the templates of the
  keys it holds and leaves the others as they are. Bundles keep their entries
  in the order in which keys first came in.
-/
import ScriptCheck.Json.Reader
import ScriptCheck.Message.Catalog
import ScriptCheck.Message.Template

namespace ScriptCheck

/-- Turns a message and its arguments into the text that is shown. -/
abbrev Wording := Message → List String → String

/-- The wording with the templates of the catalogue. -/
def Wording.builtIn : Wording := fun message args => Template.fill message.template args

/-- Templates by key; a key stands only once. -/
structure Bundle where
  entries : List (String × String)
deriving DecidableEq, Repr

namespace Bundle

/-- The bundle without templates. -/
def empty : Bundle := ⟨[]⟩

/-- The template of a key. -/
def template? (b : Bundle) (key : String) : Option String := b.entries.lookup key

/-- The bundle in which `key` has the given template; a key that was there keeps its place. -/
def put (b : Bundle) (key template : String) : Bundle :=
  if b.entries.any (·.1 = key) then
    ⟨b.entries.map fun entry => if entry.1 = key then (key, template) else entry⟩
  else
    ⟨b.entries ++ [(key, template)]⟩

/-- Replacing the entries of a key replaces its template, if it has one. -/
theorem lookup_map_replace (entries : List (String × String)) (key template other : String) :
    (entries.map fun entry => if entry.1 = key then (key, template) else entry).lookup other =
      if other = key then (entries.lookup other).map fun _ => template
      else entries.lookup other := by
  induction entries with
  | nil => simp
  | cons entry rest ih =>
    obtain ⟨name, text⟩ := entry
    rw [List.map_cons, List.lookup_cons, List.lookup_cons, ih]
    by_cases hn : other = name
    · subst hn
      by_cases hk : other = key <;> simp [hk]
    · rw [beq_false_of_ne hn]
      by_cases hk : name = key
      · rw [if_pos hk, beq_false_of_ne (hk ▸ hn)]
      · rw [if_neg hk, beq_false_of_ne hn]

/-- A key has the template it was given last. -/
@[simp] theorem template?_put_self (b : Bundle) (key template : String) :
    (b.put key template).template? key = some template := by
  unfold put template?
  split
  · next h =>
    rw [lookup_map_replace, if_pos rfl]
    cases hl : b.entries.lookup key with
    | some _ => rfl
    | none =>
      rw [List.any_eq_true] at h
      obtain ⟨entry, hm, he⟩ := h
      rw [List.lookup_eq_none_iff] at hl
      have := hl entry hm
      simp_all
  · next h =>
    rw [List.lookup_append]
    have hl : b.entries.lookup key = none := by
      rw [List.lookup_eq_none_iff]
      intro entry hm
      simp only [List.any_eq_true, not_exists, not_and, decide_eq_true_iff] at h
      have := h entry hm
      simpa using Ne.symm this
    simp [hl]

/-- The other keys keep theirs. -/
@[simp] theorem template?_put_of_ne (b : Bundle) {key other : String} (h : other ≠ key)
    (template : String) : (b.put key template).template? other = b.template? other := by
  unfold put template?
  split
  · rw [lookup_map_replace, if_neg h]
  · rw [List.lookup_append]
    cases b.entries.lookup other with
    | some _ => rfl
    | none => simp [List.lookup_cons, beq_false_of_ne h]

/-- The wording that prefers the bundle's templates. -/
def wording (b : Bundle) : Wording := fun message args =>
  Template.fill ((b.template? message.key).getD message.template) args

/-- Reads a bundle from an object that maps keys to templates. -/
def reader : Json.Reader Bundle :=
  Json.Reader.members (fun key b => do return b.put key (← Json.Reader.string)) empty

/-- The bundle that a JSON text writes. -/
def parse (text : String) : Except Json.Flaw Bundle := Json.parse reader text

end Bundle

end ScriptCheck
