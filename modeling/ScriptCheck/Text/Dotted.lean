/-
  Dotted names.

  A dotted name is text cut into parts by dots. Parts may be empty; nothing is
  said about what they consist of.
-/

namespace ScriptCheck.Dotted

/-- The characters before and after the last dot, if there is a dot. -/
def splitLastChars : List Char → Option (List Char × List Char)
  | [] => none
  | c :: rest =>
    match splitLastChars rest with
    | some (front, last) => some (c :: front, last)
    | none => if c = '.' then some ([], rest) else none

/-- A text without dots cannot be cut. -/
theorem splitLastChars_eq_none {text : List Char} (h : '.' ∉ text) :
    splitLastChars text = none := by
  induction text with
  | nil => rfl
  | cons c rest ih =>
    rw [List.mem_cons, not_or] at h
    rw [splitLastChars, ih h.2]
    exact if_neg (Ne.symm h.1)

/-- The cut is made at the dot behind which no other one stands. -/
theorem splitLastChars_append (front : List Char) {last : List Char} (h : '.' ∉ last) :
    splitLastChars (front ++ '.' :: last) = some (front, last) := by
  induction front with
  | nil =>
    rw [List.nil_append, splitLastChars, splitLastChars_eq_none h]
    exact if_pos rfl
  | cons c front ih => rw [List.cons_append, splitLastChars, ih]

/-- Where nothing is cut there are no dots. -/
theorem not_mem_of_splitLastChars {text : List Char} (h : splitLastChars text = none) :
    '.' ∉ text := by
  induction text with
  | nil => exact List.not_mem_nil
  | cons c rest ih =>
    rw [splitLastChars] at h
    split at h
    · cases h
    · next hrest =>
      split at h
      · cases h
      · next hc => exact List.not_mem_cons_of_ne_of_not_mem (Ne.symm hc) (ih hrest)

/-- The two sides of the cut make up the text, and no dot stands behind it. -/
theorem eq_append_of_splitLastChars {text front last : List Char}
    (h : splitLastChars text = some (front, last)) :
    text = front ++ '.' :: last ∧ '.' ∉ last := by
  induction text generalizing front with
  | nil => cases h
  | cons c rest ih =>
    rw [splitLastChars] at h
    split at h
    · next front' last' hrest =>
      cases h
      obtain ⟨htext, hlast⟩ := ih hrest
      exact ⟨congrArg (c :: ·) htext, hlast⟩
    · next hrest =>
      split at h
      · next hc =>
        cases h
        exact ⟨congrArg (· :: last) hc, not_mem_of_splitLastChars hrest⟩
      · cases h

/-- What stands before and after the last dot of a name, if it has one. -/
def splitLast? (name : String) : Option (String × String) :=
  (splitLastChars name.toList).map fun (front, last) => (String.ofList front, String.ofList last)

/-- The part after the last dot; a name without dots is its own last part. -/
def last (name : String) : String := ((splitLast? name).map Prod.snd).getD name

/-- The last part comes from the same cut as the text before it. -/
theorem last_eq_snd_splitLast? (name : String) :
    last name = ((splitLast? name).getD ("", name)).2 := by
  unfold last
  cases splitLast? name <;> rfl

/-- A name without dots is its own last part. -/
theorem last_of_not_mem {name : String} (h : '.' ∉ name.toList) : last name = name := by
  unfold last splitLast?
  rw [splitLastChars_eq_none h]
  rfl

theorem toList_join (outer last : String) :
    (outer ++ "." ++ last).toList = outer.toList ++ '.' :: last.toList := by
  simp [String.toList_append]

/-- The cut at the last dot. -/
theorem splitLast?_join (outer : String) {last : String} (h : '.' ∉ last.toList) :
    splitLast? (outer ++ "." ++ last) = some (outer, last) := by
  unfold splitLast?
  rw [toList_join, splitLastChars_append outer.toList h]
  simp only [Option.map_some, String.ofList_toList]

/-- What is added behind a dot is the last part. -/
theorem last_join (outer : String) {name : String} (h : '.' ∉ name.toList) :
    last (outer ++ "." ++ name) = name := by
  unfold last
  rw [splitLast?_join outer h]
  rfl

/-- The texts that end right before one of the dots, the shortest first. -/
def prefixChars : List Char → List (List Char)
  | [] => []
  | c :: rest =>
    let longer := (prefixChars rest).map (c :: ·)
    if c = '.' then [] :: longer else longer

/-- A text without dots ends right before none. -/
theorem prefixChars_eq_nil {text : List Char} (h : '.' ∉ text) : prefixChars text = [] := by
  induction text with
  | nil => rfl
  | cons c rest ih =>
    rw [List.mem_cons, not_or] at h
    rw [prefixChars, ih h.2]
    exact if_neg (Ne.symm h.1)

/-- Those of the first part of a text come first. -/
theorem prefixChars_append (front rest : List Char) :
    prefixChars (front ++ rest) = prefixChars front ++ (prefixChars rest).map (front ++ ·) := by
  induction front with
  | nil => simp [prefixChars]
  | cons c front ih =>
    simp only [List.cons_append, prefixChars, ih, List.map_append, List.map_map]
    split <;> rfl

/-- The longest of them ends right before the last dot. -/
theorem prefixChars_append_dot (front : List Char) {last : List Char} (h : '.' ∉ last) :
    prefixChars (front ++ '.' :: last) = prefixChars front ++ [front] := by
  rw [prefixChars_append, prefixChars, prefixChars_eq_nil h]
  simp

/-- The names that enclose a name: `a` and `a.b` for `a.b.c`. -/
def enclosing (name : String) : List String := (prefixChars name.toList).map String.ofList

/-- A name without dots is inside no other. -/
theorem enclosing_eq_nil {name : String} (h : '.' ∉ name.toList) : enclosing name = [] := by
  unfold enclosing
  rw [prefixChars_eq_nil h]
  rfl

/-- The innermost name around `outer.last` is `outer`. -/
theorem enclosing_join (outer : String) {last : String} (h : '.' ∉ last.toList) :
    enclosing (outer ++ "." ++ last) = enclosing outer ++ [outer] := by
  unfold enclosing
  rw [toList_join, prefixChars_append_dot outer.toList h, List.map_append, List.map_singleton,
    String.ofList_toList]

/-- What stands in front of a dot encloses the name, and so does what encloses that. -/
theorem enclosing_subset (outer rest : String) :
    enclosing outer ++ [outer] ⊆ enclosing (outer ++ "." ++ rest) := by
  have hfront : ∃ more, prefixChars (outer.toList ++ '.' :: rest.toList) =
      prefixChars outer.toList ++ outer.toList :: more := by
    rw [prefixChars_append, prefixChars, if_pos rfl, List.map_cons, List.append_nil]
    exact ⟨_, rfl⟩
  obtain ⟨more, hmore⟩ := hfront
  unfold enclosing
  rw [toList_join, hmore, List.map_append, List.map_cons, String.ofList_toList]
  exact List.append_subset.mpr ⟨List.subset_append_left _ _,
    List.cons_subset.mpr ⟨List.mem_append_right _ List.mem_cons_self, List.nil_subset _⟩⟩

/-- A name is cut at its last dot in one way only. -/
theorem join_inj {outer last outer' last' : String} (h : '.' ∉ last.toList)
    (h' : '.' ∉ last'.toList) (heq : outer ++ "." ++ last = outer' ++ "." ++ last') :
    outer = outer' ∧ last = last' := by
  have htext : outer.toList ++ '.' :: last.toList = outer'.toList ++ '.' :: last'.toList := by
    rw [← toList_join, ← toList_join, heq]
  have hcut := congrArg splitLastChars htext
  rw [splitLastChars_append _ h, splitLastChars_append _ h'] at hcut
  obtain ⟨houter, hlast⟩ := Prod.mk.inj (Option.some.inj hcut)
  exact ⟨String.toList_inj.mp houter, String.toList_inj.mp hlast⟩

/-- A name without dots is plain; any other one is cut at its last dot. -/
theorem cases (name : String) : '.' ∉ name.toList ∨
    ∃ outer last : String, '.' ∉ last.toList ∧ name = outer ++ "." ++ last := by
  cases hcut : splitLastChars name.toList with
  | none => exact Or.inl (not_mem_of_splitLastChars hcut)
  | some cut =>
    obtain ⟨front, last⟩ := cut
    obtain ⟨htext, hlast⟩ := eq_append_of_splitLastChars hcut
    refine Or.inr ⟨String.ofList front, String.ofList last, String.toList_ofList ▸ hlast, ?_⟩
    rw [← String.toList_inj]
    simp [String.toList_append, htext]

/-- Dotted names are built from names without dots by adding one such name at a time. -/
theorem induction {P : String → Prop} (plain : ∀ name, '.' ∉ name.toList → P name)
    (join : ∀ outer last, '.' ∉ last.toList → P outer → P (outer ++ "." ++ last))
    (name : String) : P name := by
  induction hn : name.toList.length using Nat.strongRecOn generalizing name with
  | ind n ih =>
    rcases Dotted.cases name with hplain | ⟨outer, last, hlast, rfl⟩
    · exact plain name hplain
    · -- Cutting at the last dot leaves a shorter name.
      have hshort : outer.toList.length < n := by
        rw [← hn, String.toList_append, String.toList_append]
        simp
      exact join outer last hlast (ih _ hshort outer rfl)

/-- A name inside another; inside the empty name it stands alone. -/
def within (outer name : String) : String := if outer = "" then name else outer ++ "." ++ name

/-- A name is the last part of its name inside another. -/
theorem last_within (outer : String) {name : String} (h : '.' ∉ name.toList) :
    last (within outer name) = name := by
  unfold within
  split
  · exact last_of_not_mem h
  · exact last_join outer h

/-- A name is put together again from what stands before and after its last dot. With a dot in front
    the empty name before it would be taken for no name at all. -/
theorem eq_within_of_splitLast? {name front last : String} (h : name.toList.head? ≠ some '.')
    (hcut : (splitLast? name).getD ("", name) = (front, last)) : name = within front last := by
  rcases Dotted.cases name with hplain | ⟨outer, inner, hinner, rfl⟩
  · unfold splitLast? at hcut
    rw [splitLastChars_eq_none hplain] at hcut
    obtain ⟨rfl, rfl⟩ := Prod.mk.inj hcut
    rfl
  · rw [splitLast?_join outer hinner] at hcut
    obtain ⟨rfl, rfl⟩ := Prod.mk.inj hcut
    have houter : outer ≠ "" := by
      rintro rfl
      exact h (by rw [toList_join]; rfl)
    unfold within
    rw [if_neg houter]

/-- The text before a final `.*`, if the text ends like that. -/
def onDemand? (name : String) : Option String :=
  match name.toList.reverse with
  | '*' :: '.' :: front => some (String.ofList front.reverse)
  | _ => none

end ScriptCheck.Dotted
