/-
  Message templates.

  A template holds numbered placeholders, an argument's position between curly
  brackets. `fill` puts the arguments in one after the other, in order of
  position, each at every place where its placeholder stands in the text
  reached so far. Text that came in with an earlier argument is part of that
  text.
-/

namespace ScriptCheck.Template

/-- The text with every occurrence of `marker`, found from left to right, turned into `value`. -/
def replaceAll (marker value : List Char) : List Char → List Char
  | [] => []
  | c :: rest =>
    if marker.isPrefixOf (c :: rest) then
      value ++ replaceAll marker value (rest.drop (marker.length - 1))
    else
      c :: replaceAll marker value rest
termination_by text => text.length

@[simp] theorem replaceAll_nil (marker value : List Char) : replaceAll marker value [] = [] := by
  rw [replaceAll]

/-- A character at which the marker does not begin is copied. -/
theorem replaceAll_copy {marker : List Char} {c : Char} {rest : List Char}
    (h : marker.isPrefixOf (c :: rest) = false) (value : List Char) :
    replaceAll marker value (c :: rest) = c :: replaceAll marker value rest := by
  rw [replaceAll, if_neg]
  rw [h]
  exact Bool.false_ne_true

/-- Where the marker stands, its value takes its place, and the search goes on behind it. -/
theorem replaceAll_append (c : Char) (marker value rest : List Char) :
    replaceAll (c :: marker) value (c :: marker ++ rest) =
      value ++ replaceAll (c :: marker) value rest := by
  have h : (c :: marker).isPrefixOf (c :: (marker ++ rest)) = true := by
    rw [List.isPrefixOf_iff_prefix]
    exact List.prefix_append (c :: marker) rest
  rw [List.cons_append, replaceAll, if_pos h]
  simp

/-- The placeholder of the argument at position `i`. -/
def marker (i : Nat) : List Char := '{' :: Nat.toDigits 10 i ++ ['}']

/-- Placeholders tell positions apart. -/
theorem marker_inj {i j : Nat} : marker i = marker j ↔ i = j := by
  refine ⟨fun h => ?_, congrArg marker⟩
  unfold marker at h
  have hd : Nat.toDigits 10 i = Nat.toDigits 10 j :=
    List.append_cancel_right (List.cons.inj h).2
  calc
    i = Nat.ofDigitChars 10 (Nat.toDigits 10 i) 0 := Nat.ofDigitChars_ten_toDigits.symm
    _ = Nat.ofDigitChars 10 (Nat.toDigits 10 j) 0 := by rw [hd]
    _ = j := Nat.ofDigitChars_ten_toDigits

/-- The text after the arguments from position `i` on have been put in. -/
def fillFrom (i : Nat) (text : List Char) : List (List Char) → List Char
  | [] => text
  | arg :: args => fillFrom (i + 1) (replaceAll (marker i) arg text) args

/-- The template with its placeholders replaced by the arguments. -/
def fill (template : String) (args : List String) : String :=
  String.ofList (fillFrom 0 template.toList (args.map String.toList))

end ScriptCheck.Template
