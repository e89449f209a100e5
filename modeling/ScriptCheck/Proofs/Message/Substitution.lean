/-
  Filling templates in one pass.

  `fill` puts the arguments in one after the other, so that text which came in
  with one of them is searched for the placeholders of those that follow.
  `scan` reads the template once from left to right instead, and never looks
  into an argument. Both agree as long as no placeholder comes about on the way,
  be it inside an argument or around one (`Captures`). That is also the only
  thing that can come between them: a placeholder that came about makes a
  difference for some text of its argument (`fill_eq_scan_iff`).

  Placeholders are told apart by where they start, as none of them begins with
  another one, and an opening bracket stands nowhere in them but at the start.
  So a text is read as placeholders and other characters, and the proofs here go
  by induction on that (`marked_induction`).
-/
import Mathlib.Data.List.Basic
import Mathlib.Data.List.Infix
import ScriptCheck.Message.Bundle

namespace ScriptCheck.Template

/-- The position of the argument, out of so many, with whose placeholder a text begins. -/
def placeholderAt? (count : Nat) (text : List Char) : Option Nat :=
  (List.range count).find? fun i => (marker i).isPrefixOf text

/-- The text in which every placeholder that has an argument is replaced by it. -/
def scanChars (args : List (List Char)) : List Char → List Char
  | [] => []
  | c :: rest =>
    match placeholderAt? args.length (c :: rest) with
    | some i => args.getD i [] ++ scanChars args (rest.drop ((marker i).length - 1))
    | none => c :: scanChars args rest
termination_by text => text.length

/-- The template, read once from left to right, with the arguments at their placeholders and all
    else as it is. -/
def scan (template : String) (args : List String) : String :=
  String.ofList (scanChars (args.map String.toList) template.toList)

/-- At how many places of a text a marker begins. -/
def occurrences (marker text : List Char) : Nat := text.tails.countP (marker.isPrefixOf ·)

section

variable {args : List (List Char)} {text rest xs : List Char} {value : List Char} {c : Char}
  {i k n : Nat}

/-! ## Placeholders in a text -/

/-- Behind the bracket that opens a placeholder there is no other one. -/
theorem bracket_not_mem (i : Nat) : '{' ∉ Nat.toDigits 10 i ++ ['}'] := by
  intro h
  rcases List.mem_append.mp h with hdigit | hclose
  · exact absurd (Nat.isDigit_of_mem_toDigits (by decide) (by decide) hdigit) (by decide)
  · exact absurd (List.mem_singleton.mp hclose) (by decide)

/-- The digits of a placeholder end at the bracket that closes it. -/
theorem takeWhile_digits (i : Nat) (rest : List Char) :
    (Nat.toDigits 10 i ++ '}' :: rest).takeWhile (· ≠ '}') = Nat.toDigits 10 i := by
  have hdigits : ∀ c ∈ Nat.toDigits 10 i, decide (c ≠ '}') = true := by
    intro c hc
    refine decide_eq_true fun heq => ?_
    have hdigit := Nat.isDigit_of_mem_toDigits (by decide) (by decide) hc
    rw [heq] at hdigit
    exact absurd hdigit (by decide)
  rw [List.takeWhile_append_of_pos hdigits, List.takeWhile_cons_of_neg (by decide), List.append_nil]

theorem marker_append (i : Nat) (rest : List Char) :
    marker i ++ rest = '{' :: (Nat.toDigits 10 i ++ '}' :: rest) := by
  simp [marker]

/-- A text begins with one placeholder at most. -/
theorem marker_prefix_iff : marker k <+: marker i ++ rest ↔ k = i := by
  constructor
  · rintro ⟨more, hmore⟩
    rw [marker_append, marker_append] at hmore
    have hdigits := congrArg (List.takeWhile (· ≠ '}')) (List.cons.inj hmore).2
    rw [takeWhile_digits, takeWhile_digits] at hdigits
    refine marker_inj.mp ?_
    unfold marker
    rw [hdigits]
  · rintro rfl
    exact List.prefix_append _ _

/-- A placeholder begins with a bracket. -/
theorem head_eq_of_marker (h : marker k <+: c :: rest) : c = '{' := by
  obtain ⟨more, hmore⟩ := h
  rw [marker_append] at hmore
  exact (List.cons.inj hmore).1.symm

theorem placeholderAt?_marker (h : i < n) : placeholderAt? n (marker i ++ rest) = some i := by
  unfold placeholderAt?
  rw [List.find?_range_eq_some]
  refine ⟨List.isPrefixOf_iff_prefix.mpr (List.prefix_append _ _), List.mem_range.mpr h, ?_⟩
  intro j hj
  rw [Bool.not_eq_true', ← Bool.not_eq_true, List.isPrefixOf_iff_prefix, marker_prefix_iff]
  exact Nat.ne_of_lt hj

theorem placeholderAt?_eq_none (h : ∀ i < n, ¬marker i <+: text) :
    placeholderAt? n text = none := by
  unfold placeholderAt?
  rw [List.find?_eq_none]
  intro i hi hprefix
  exact h i (List.mem_range.mp hi) (List.isPrefixOf_iff_prefix.mp hprefix)

/-- A text is read as the first `n` placeholders and other characters. -/
theorem marked_induction {P : List Char → Prop} (n : Nat) (nil : P [])
    (marked : ∀ i rest, i < n → P rest → P (marker i ++ rest))
    (other : ∀ c rest, (∀ i < n, ¬marker i <+: c :: rest) → P rest → P (c :: rest))
    (text : List Char) : P text := by
  induction hl : text.length using Nat.strongRecOn generalizing text with
  | ind l ih =>
    cases text with
    | nil => exact nil
    | cons c rest =>
      by_cases hsome : ∃ i < n, marker i <+: c :: rest
      · -- A placeholder is taken off as a whole, as no other one begins inside it.
        obtain ⟨i, hi, more, hmore⟩ := hsome
        rw [← hmore]
        have hshort : more.length < l := by
          rw [← hl, ← hmore, marker_append]
          simp
          omega
        exact marked i more hi (ih _ hshort more rfl)
      · have hnone : ∀ i < n, ¬marker i <+: c :: rest := fun i hi h => hsome ⟨i, hi, h⟩
        exact other c rest hnone (ih _ (hl ▸ Nat.lt_succ_self _) rest rfl)

/-! ## Scanning -/

@[simp] theorem scanChars_nil (args : List (List Char)) : scanChars args [] = [] := by
  rw [scanChars]

/-- A placeholder with an argument is replaced by it. -/
theorem scanChars_marker (h : i < args.length) :
    scanChars args (marker i ++ rest) = args[i] ++ scanChars args rest := by
  have hat : placeholderAt? args.length (marker i ++ rest) = some i := placeholderAt?_marker h
  rw [marker_append] at hat ⊢
  rw [scanChars, hat]
  simp [marker, List.getElem?_eq_getElem h]

/-- Where no such placeholder stands, the text is copied. -/
theorem scanChars_copy (h : ∀ i < args.length, ¬marker i <+: c :: rest) :
    scanChars args (c :: rest) = c :: scanChars args rest := by
  rw [scanChars, placeholderAt?_eq_none h]

theorem scanChars_append (h : '{' ∉ xs) :
    scanChars args (xs ++ rest) = xs ++ scanChars args rest := by
  induction xs with
  | nil => rfl
  | cons c xs ih =>
    rw [List.mem_cons, not_or] at h
    rw [List.cons_append, scanChars_copy fun i _ hp => h.1 (head_eq_of_marker hp).symm, ih h.2,
      List.cons_append]

/-- So is a placeholder without an argument. -/
theorem scanChars_pass (h : args.length ≤ i) :
    scanChars args (marker i ++ rest) = marker i ++ scanChars args rest := by
  have hnone : ∀ j < args.length, ¬marker j <+: marker i ++ rest := fun j hj hp =>
    Nat.ne_of_lt (Nat.lt_of_lt_of_le hj h) (marker_prefix_iff.mp hp)
  have hsplit : ∀ more, marker i ++ more = '{' :: ((Nat.toDigits 10 i ++ ['}']) ++ more) :=
    fun more => rfl
  rw [hsplit] at hnone ⊢
  rw [scanChars_copy hnone, scanChars_append (bracket_not_mem i), hsplit]

/-- Without arguments nothing happens. -/
theorem scanChars_no_args (text : List Char) : scanChars [] text = text := by
  induction text with
  | nil => exact scanChars_nil []
  | cons c rest ih =>
    have hnone : ∀ i < ([] : List (List Char)).length, ¬marker i <+: c :: rest := fun i hi =>
      absurd hi (Nat.not_lt_zero i)
    rw [scanChars_copy hnone, ih]

/-! ## Counting -/

theorem occurrences_cons (m : List Char) (c : Char) (rest : List Char) :
    occurrences m (c :: rest) = occurrences m rest + if m <+: c :: rest then 1 else 0 := by
  unfold occurrences
  rw [List.tails_cons, List.countP_cons]
  simp only [List.isPrefixOf_iff_prefix]

theorem occurrences_cons_of_not {m : List Char} (h : ¬m <+: c :: rest) :
    occurrences m (c :: rest) = occurrences m rest := by
  rw [occurrences_cons, if_neg h, Nat.add_zero]

/-- What is found in a text is found with more text in front. -/
theorem occurrences_le_append (m xs ys : List Char) :
    occurrences m ys ≤ occurrences m (xs ++ ys) := by
  induction xs with
  | nil => exact Nat.le_refl _
  | cons c xs ih =>
    rw [List.cons_append, occurrences_cons]
    exact Nat.le_add_right_of_le ih

theorem occurrences_append (h : '{' ∉ xs) :
    occurrences (marker k) (xs ++ rest) = occurrences (marker k) rest := by
  induction xs with
  | nil => rfl
  | cons c xs ih =>
    rw [List.mem_cons, not_or] at h
    rw [List.cons_append,
      occurrences_cons_of_not fun hp => h.1 (head_eq_of_marker hp).symm, ih h.2]

/-- A placeholder counts once, for itself. -/
theorem occurrences_marker (k i : Nat) (rest : List Char) :
    occurrences (marker k) (marker i ++ rest) =
      occurrences (marker k) rest + if k = i then 1 else 0 := by
  have hsplit : marker i ++ rest = '{' :: ((Nat.toDigits 10 i ++ ['}']) ++ rest) := rfl
  have hiff : marker k <+: '{' :: ((Nat.toDigits 10 i ++ ['}']) ++ rest) ↔ k = i :=
    marker_prefix_iff
  rw [hsplit, occurrences_cons, occurrences_append (bracket_not_mem i)]
  simp only [hiff]

theorem occurrences_marker_of_ne (h : k ≠ i) :
    occurrences (marker k) (marker i ++ rest) = occurrences (marker k) rest := by
  rw [occurrences_marker, if_neg h, Nat.add_zero]

theorem replaceAll_cons_of_not {m : List Char} (h : ¬m <+: c :: rest) (value : List Char) :
    replaceAll m value (c :: rest) = c :: replaceAll m value rest :=
  replaceAll_copy (Bool.eq_false_iff.mpr fun hp => h (List.isPrefixOf_iff_prefix.mp hp)) value

/-- In front of what is left, where no marker is found, nothing is replaced. -/
theorem replaceAll_append_of_occurrences {m ys : List Char} (value : List Char)
    (h : occurrences m (xs ++ ys) ≤ occurrences m ys) :
    replaceAll m value (xs ++ ys) = xs ++ replaceAll m value ys := by
  induction xs with
  | nil => rfl
  | cons c xs ih =>
    rw [List.cons_append, occurrences_cons] at h
    have hle := occurrences_le_append m xs ys
    have hcopy : ¬m <+: c :: (xs ++ ys) := by
      intro hp
      rw [if_pos hp] at h
      omega
    rw [if_neg hcopy] at h
    rw [List.cons_append, replaceAll_cons_of_not hcopy, ih h, List.cons_append]

/-! ## One more argument -/

/-- With one more argument, the placeholders that had one still have it. -/
theorem scanChars_concat_of_lt (value : List Char) (h : i < args.length) :
    scanChars (args ++ [value]) (marker i ++ rest) =
      args[i] ++ scanChars (args ++ [value]) rest := by
  have hlength : i < (args ++ [value]).length := by
    rw [List.length_append]
    exact Nat.lt_succ_of_lt h
  rw [scanChars_marker hlength, List.getElem_append_left h]

/-- One more of them has one. -/
theorem scanChars_concat_self (args : List (List Char)) (value rest : List Char) :
    scanChars (args ++ [value]) (marker args.length ++ rest) =
      value ++ scanChars (args ++ [value]) rest := by
  have hlength : args.length < (args ++ [value]).length := by
    rw [List.length_append]
    exact Nat.lt_succ_self _
  rw [scanChars_marker hlength, List.getElem_concat_length rfl]

theorem scanChars_concat_copy (value : List Char)
    (h : ∀ i < args.length + 1, ¬marker i <+: c :: rest) :
    scanChars (args ++ [value]) (c :: rest) = c :: scanChars (args ++ [value]) rest := by
  refine scanChars_copy fun i hi => h i ?_
  rw [List.length_append] at hi
  exact hi

/-- Scanning takes away no placeholder of the next argument. -/
theorem occurrences_le_scanChars (args : List (List Char)) (text : List Char) :
    occurrences (marker args.length) text ≤
      occurrences (marker args.length) (scanChars args text) := by
  induction text using marked_induction (args.length + 1) with
  | nil => rw [scanChars_nil]
  | marked i rest hi ih =>
    rcases Nat.lt_succ_iff_lt_or_eq.mp hi with hlt | rfl
    · rw [occurrences_marker_of_ne (Nat.ne_of_gt hlt), scanChars_marker hlt]
      exact Nat.le_trans ih (occurrences_le_append _ _ _)
    · rw [scanChars_pass (Nat.le_refl _), occurrences_marker, occurrences_marker]
      exact Nat.add_le_add_right ih _
  | other c rest hnone ih =>
    rw [scanChars_copy fun i hi => hnone i (Nat.lt_succ_of_lt hi),
      occurrences_cons_of_not (hnone _ (Nat.lt_succ_self _))]
    exact Nat.le_trans ih (occurrences_le_append _ [c] _)

/-- If scanning brings about no placeholder of the next argument, this argument can be put in
    afterwards. -/
theorem replaceAll_scanChars (value : List Char)
    (h : occurrences (marker args.length) (scanChars args text) ≤
      occurrences (marker args.length) text) :
    replaceAll (marker args.length) value (scanChars args text) =
      scanChars (args ++ [value]) text := by
  induction text using marked_induction (args.length + 1) with
  | nil => rw [scanChars_nil, scanChars_nil, replaceAll_nil]
  | marked i rest hi ih =>
    have hkept := occurrences_le_scanChars args rest
    rcases Nat.lt_succ_iff_lt_or_eq.mp hi with hlt | rfl
    · -- The argument that goes in holds no such placeholder, and none begins in it and ends behind.
      rw [occurrences_marker_of_ne (Nat.ne_of_gt hlt), scanChars_marker hlt] at h
      have hle := occurrences_le_append (marker args.length) args[i] (scanChars args rest)
      rw [scanChars_marker hlt, replaceAll_append_of_occurrences value (Nat.le_trans h hkept),
        ih (Nat.le_trans hle h), scanChars_concat_of_lt value hlt]
    · rw [scanChars_pass (Nat.le_refl _), occurrences_marker, occurrences_marker] at h
      rw [scanChars_pass (Nat.le_refl _), scanChars_concat_self,
        ← ih (Nat.le_of_add_le_add_right h)]
      exact replaceAll_append _ _ _ _
  | other c rest hnone ih =>
    -- Nor does one begin at a character that is copied if none did in the template.
    have hkept := occurrences_le_scanChars args rest
    have hle := occurrences_le_append (marker args.length) [c] (scanChars args rest)
    rw [scanChars_copy fun i hi => hnone i (Nat.lt_succ_of_lt hi)] at h ⊢
    rw [occurrences_cons_of_not (hnone _ (Nat.lt_succ_self _))] at h
    have hfront : occurrences (marker args.length) ([c] ++ scanChars args rest) ≤
        occurrences (marker args.length) (scanChars args rest) := Nat.le_trans h hkept
    rw [scanChars_concat_copy value hnone, ← ih (Nat.le_trans hle h)]
    exact replaceAll_append_of_occurrences value hfront

theorem occurrences_nil (k : Nat) : occurrences (marker k) [] = 0 := by
  simp [occurrences, marker]

/-- Taking a placeholder out makes a text shorter by as many characters. -/
theorem length_replaceAll_nil (k : Nat) (text : List Char) :
    (replaceAll (marker k) [] text).length + occurrences (marker k) text * (marker k).length =
      text.length := by
  induction text using marked_induction (k + 1) with
  | nil => rw [replaceAll_nil, occurrences_nil, Nat.zero_mul, Nat.add_zero]
  | marked i rest hi ih =>
    rcases Nat.lt_succ_iff_lt_or_eq.mp hi with hlt | rfl
    · have hsame : occurrences (marker k) (marker i ++ rest) = occurrences (marker k) rest :=
        occurrences_marker_of_ne (Nat.ne_of_gt hlt)
      rw [replaceAll_append_of_occurrences [] (Nat.le_of_eq hsame), hsame, List.length_append,
        List.length_append, Nat.add_assoc, ih]
    · have htaken : replaceAll (marker i) [] (marker i ++ rest) = replaceAll (marker i) [] rest :=
        replaceAll_append _ _ _ _
      rw [htaken, occurrences_marker, if_pos rfl, Nat.succ_mul, ← Nat.add_assoc, ih,
        List.length_append, Nat.add_comm]
  | other c rest hnone ih =>
    have hcopy := hnone k (Nat.lt_succ_self k)
    rw [replaceAll_cons_of_not hcopy, occurrences_cons_of_not hcopy, List.length_cons,
      List.length_cons, Nat.add_right_comm, ih]

/-- So does an argument without text, compared with none. -/
theorem length_scanChars_nil (args : List (List Char)) (text : List Char) :
    (scanChars (args ++ [[]]) text).length +
        occurrences (marker args.length) text * (marker args.length).length =
      (scanChars args text).length := by
  induction text using marked_induction (args.length + 1) with
  | nil => rw [scanChars_nil, scanChars_nil, occurrences_nil, Nat.zero_mul, Nat.add_zero]
  | marked i rest hi ih =>
    rcases Nat.lt_succ_iff_lt_or_eq.mp hi with hlt | rfl
    · rw [scanChars_concat_of_lt [] hlt, scanChars_marker hlt,
        occurrences_marker_of_ne (Nat.ne_of_gt hlt), List.length_append, List.length_append,
        Nat.add_assoc, ih]
    · rw [scanChars_concat_self, scanChars_pass (Nat.le_refl _), occurrences_marker, if_pos rfl,
        List.nil_append, Nat.succ_mul, ← Nat.add_assoc, ih, List.length_append, Nat.add_comm]
  | other c rest hnone ih =>
    rw [scanChars_concat_copy [] hnone, scanChars_copy fun i hi => hnone i (Nat.lt_succ_of_lt hi),
      occurrences_cons_of_not (hnone _ (Nat.lt_succ_self _)), List.length_cons,
      List.length_cons, Nat.add_right_comm, ih]

/-- If this argument can be put in afterwards even without any text, scanning has brought about
    none of its placeholders. -/
theorem occurrences_of_replaceAll
    (h : replaceAll (marker args.length) [] (scanChars args text) = scanChars (args ++ [[]]) text) :
    occurrences (marker args.length) (scanChars args text) =
      occurrences (marker args.length) text := by
  have hreplaced := length_replaceAll_nil args.length (scanChars args text)
  have hscanned := length_scanChars_nil args text
  have hpos : 0 < (marker args.length).length := Nat.succ_pos _
  rw [h, ← hscanned] at hreplaced
  exact Nat.eq_of_mul_eq_mul_right hpos (Nat.add_left_cancel hreplaced)

/-! ## All arguments -/

/-- The arguments that are left are put in last. -/
theorem fillFrom_append (i : Nat) (text : List Char) (args more : List (List Char)) :
    fillFrom i text (args ++ more) = fillFrom (i + args.length) (fillFrom i text args) more := by
  induction args generalizing i text with
  | nil => rfl
  | cons arg args ih =>
    rw [List.cons_append, fillFrom, ih, fillFrom, List.length_cons, Nat.add_right_comm,
      Nat.add_assoc]

/-- The last argument is put in last. -/
theorem fillFrom_concat (text : List Char) (args : List (List Char)) (value : List Char) :
    fillFrom 0 text (args ++ [value]) =
      replaceAll (marker args.length) value (fillFrom 0 text args) := by
  rw [fillFrom_append, Nat.zero_add]
  rfl

/-- With the arguments at their placeholders, the text holds a placeholder of the next argument that
    it did not hold before. -/
def CapturesNext (text : List Char) (args : List (List Char)) : Prop :=
  occurrences (marker args.length) text <
    occurrences (marker args.length) (scanChars args text)

/-- As long as filling agrees with the scan, it goes on doing so whatever the next argument is
    exactly if no placeholder of it has come about. -/
theorem fillFrom_concat_iff (h : fillFrom 0 text args = scanChars args text) :
    (∀ value, fillFrom 0 text (args ++ [value]) = scanChars (args ++ [value]) text) ↔
      ¬CapturesNext text args := by
  unfold CapturesNext
  rw [Nat.not_lt]
  constructor
  · intro hall
    have hnone := hall []
    rw [fillFrom_concat, h] at hnone
    exact Nat.le_of_eq (occurrences_of_replaceAll hnone)
  · intro hle value
    rw [fillFrom_concat, h]
    exact replaceAll_scanChars value hle

/-- Filling agrees with the scan if no argument ever brings about a placeholder of the next one. -/
theorem fillFrom_eq_scanChars (h : ∀ i < args.length, ¬CapturesNext text (args.take i)) :
    fillFrom 0 text args = scanChars args text := by
  induction args using List.reverseRecOn with
  | nil => rw [scanChars_no_args, fillFrom]
  | append_singleton args value ih =>
    have htake : ∀ i ≤ args.length, (args ++ [value]).take i = args.take i := fun i hi =>
      List.take_append_of_le_length hi
    rw [List.length_append] at h
    have hfront : fillFrom 0 text args = scanChars args text := by
      refine ih fun i hi => ?_
      rw [← htake i (Nat.le_of_lt hi)]
      exact h i (Nat.lt_succ_of_lt hi)
    have hlast := h args.length (Nat.lt_succ_self _)
    rw [htake _ (Nat.le_refl _), List.take_length] at hlast
    exact (fillFrom_concat_iff hfront).mpr hlast value

/-- Filling agrees with the scan for all texts of each argument, given those before it, exactly if
    the arguments never bring about a placeholder of the next one. -/
theorem forall_fillFrom_eq_iff :
    (∀ i < args.length, ∀ value,
        fillFrom 0 text (args.take i ++ [value]) = scanChars (args.take i ++ [value]) text) ↔
      ∀ i < args.length, ¬CapturesNext text (args.take i) := by
  constructor
  · intro hall
    -- The arguments that are there are among those that can be there.
    have hfront : ∀ i ≤ args.length,
        fillFrom 0 text (args.take i) = scanChars (args.take i) text := by
      intro i hi
      cases i with
      | zero => rw [List.take_zero, scanChars_no_args, fillFrom]
      | succ i =>
        rw [← List.take_append_getElem hi]
        exact hall i hi _
    exact fun i hi => (fillFrom_concat_iff (hfront i (Nat.le_of_lt hi))).mp (hall i hi)
  · intro hnone i hi value
    have hfront : fillFrom 0 text (args.take i) = scanChars (args.take i) text := by
      refine fillFrom_eq_scanChars fun j hj => ?_
      rw [List.length_take] at hj
      rw [List.take_take, Nat.min_eq_left (by omega)]
      exact hnone j (by omega)
    exact (fillFrom_concat_iff hfront).mpr (hnone i hi) value

end

/-! ## Templates -/

/-- Putting in the arguments of a template brings about a placeholder of a later one: inside an
    argument, or from an argument and what stands around it. -/
def Captures (template : String) (args : List String) : Prop :=
  ∃ i < args.length, CapturesNext template.toList ((args.take i).map String.toList)

section

variable {template : String} {args : List String}

theorem fill_eq_scan_iff_chars :
    fill template args = scan template args ↔
      fillFrom 0 template.toList (args.map String.toList) =
        scanChars (args.map String.toList) template.toList :=
  String.ofList_inj

theorem not_captures_iff :
    ¬Captures template args ↔ ∀ i < (args.map String.toList).length,
      ¬CapturesNext template.toList ((args.map String.toList).take i) := by
  unfold Captures
  simp only [List.map_take, List.length_map, not_exists, not_and]

/-- Unless a placeholder comes about on the way, filling a template is the same as reading it once.
    This is sharp: if the two are to agree whatever the text of each argument is, given those before
    it, no placeholder may come about. -/
theorem fill_eq_scan_iff (template : String) (args : List String) :
    (¬Captures template args → fill template args = scan template args) ∧
      ((∀ i < args.length, ∀ value,
          fill template (args.take i ++ [value]) = scan template (args.take i ++ [value])) ↔
        ¬Captures template args) := by
  rw [not_captures_iff, fill_eq_scan_iff_chars]
  refine ⟨fillFrom_eq_scanChars, ?_⟩
  rw [← forall_fillFrom_eq_iff, List.length_map]
  simp only [fill_eq_scan_iff_chars, List.map_append, List.map_take, List.map_singleton]
  refine forall₂_congr fun i _ => ⟨fun h value => ?_, fun h value => h value.toList⟩
  have hvalue := h (String.ofList value)
  rwa [String.toList_ofList] at hvalue

theorem fill_types :
    ¬Captures (Message.template .cannotAssign) ["java.lang.String", "int"] ∧
      fill (Message.template .cannotAssign) ["java.lang.String", "int"] =
        "Cannot assign 'java.lang.String' to 'int'" := by
  have hnone : ¬Captures (Message.template .cannotAssign) ["java.lang.String", "int"] := by
    unfold Captures CapturesNext
    decide +kernel
  obtain ⟨hscan, -⟩ := fill_eq_scan_iff (Message.template .cannotAssign) ["java.lang.String", "int"]
  refine ⟨hnone, ?_⟩
  rw [hscan hnone]
  decide +kernel

/-- Two brackets around an argument make it a placeholder. -/
example : Captures "{{0}}" ["1", "int"] := by
  unfold Captures CapturesNext
  decide +kernel

/-- The text of an argument is taken for a placeholder: what cannot be assigned is the argument
    `{1}`, but the message says that it is `int`. -/
theorem fill_rescans_arguments :
    ¬∀ template args, fill template args = scan template args := by
  intro h
  have hsame := h (Message.template .cannotAssign) ["{1}", "int"]
  have hfill : fill (Message.template .cannotAssign) ["{1}", "int"] =
      "Cannot assign 'int' to 'int'" := by decide +kernel
  have hscan : scan (Message.template .cannotAssign) ["{1}", "int"] =
      "Cannot assign '{1}' to 'int'" := by decide +kernel
  rw [hfill, hscan] at hsame
  exact absurd hsame (by decide)

end

/-! ## Tidy templates -/

/-- Every opening bracket of a text begins one of the first `n` placeholders. -/
def Tidy (n : Nat) (text : List Char) : Prop :=
  ∀ rest ∈ text.tails, rest.head? = some '{' → ∃ i < n, (marker i).isPrefixOf rest = true

section

variable {args : List (List Char)} {text rest : List Char} {k n : Nat}

theorem Tidy.of_suffix (h : Tidy n text) (hs : rest <:+ text) : Tidy n rest := fun more hm =>
  h more ((List.mem_tails _ _).mpr (((List.mem_tails _ _).mp hm).trans hs))

/-- Arguments without opening brackets make no difference for the placeholders that have none. -/
theorem occurrences_scanChars (hplain : ∀ arg ∈ args, '{' ∉ arg) (htidy : Tidy n text)
    (hk : args.length ≤ k) :
    occurrences (marker k) (scanChars args text) = occurrences (marker k) text := by
  induction text using marked_induction (max n args.length) with
  | nil => rw [scanChars_nil]
  | marked i rest hi ih =>
    have hrest := ih (htidy.of_suffix (List.suffix_append _ _))
    by_cases hlt : i < args.length
    · rw [scanChars_marker hlt, occurrences_append (hplain _ (List.getElem_mem hlt)), hrest,
        occurrences_marker_of_ne (Nat.ne_of_gt (Nat.lt_of_lt_of_le hlt hk))]
    · rw [scanChars_pass (Nat.le_of_not_lt hlt), occurrences_marker, occurrences_marker, hrest]
  | other c rest hnone ih =>
    have hc : c ≠ '{' := by
      rintro rfl
      obtain ⟨i, hi, hp⟩ := htidy _ ((List.mem_tails _ _).mpr List.suffix_rfl) rfl
      exact hnone i (Nat.lt_of_lt_of_le hi (Nat.le_max_left _ _)) (List.isPrefixOf_iff_prefix.mp hp)
    rw [scanChars_copy fun i hi => hnone i (Nat.lt_of_lt_of_le hi (Nat.le_max_right _ _)),
      occurrences_cons_of_not fun hp => hc (head_eq_of_marker hp),
      occurrences_cons_of_not fun hp => hc (head_eq_of_marker hp),
      ih (htidy.of_suffix (List.suffix_cons _ _))]

theorem not_capturesNext_of_tidy (hplain : ∀ arg ∈ args, '{' ∉ arg) (htidy : Tidy n text) :
    ¬CapturesNext text args := by
  unfold CapturesNext
  rw [occurrences_scanChars hplain htidy (Nat.le_refl _)]
  exact Nat.lt_irrefl _

/-- The built-in templates are tidy, so the built-in wording is a scan as long as no argument has an
    opening bracket. -/
theorem builtIn_eq_scan (message : Message) {args : List String}
    (hplain : ∀ arg ∈ args, '{' ∉ arg.toList) :
    Wording.builtIn message args = scan message.template args := by
  have htidy : Tidy 2 message.template.toList := by
    unfold Tidy
    cases message <;> decide +kernel
  refine (fill_eq_scan_iff_chars).mpr (fillFrom_eq_scanChars fun i hi => ?_)
  refine not_capturesNext_of_tidy (fun arg ha => ?_) htidy
  obtain ⟨text, ht, rfl⟩ := List.mem_map.mp (List.mem_of_mem_take ha)
  exact hplain text ht

end

end ScriptCheck.Template
