/-
  When a call fits a signature.

  A parameter with a default may be left out of a call. Which ones are left out
  depends on the number of arguments alone: the parameters that need an argument
  are kept, and of the others the leftmost ones, as many as there are arguments
  for. `TakesFixed` says when arguments go into parameters none of which takes
  more than one, and `TakesOpen` when they go into fixed parameters and a last
  one that takes whatever is left.

  The checker comes to the same answer another way. It drops parameters from the
  right end, tries every split of the arguments, and compares what is left place
  by place, where nothing tells if one side is longer. `isApplicable_iff` says
  that it answers as declared. The numbers on the way are differences, and the
  split cuts a list: `isApplicable?` does the same with differences and cuts that
  may fail, and the theorem also says that none of them does.
-/
import Mathlib.Data.List.Forall2
import ScriptCheck.Proofs.Types.ArgumentCounts

namespace ScriptCheck

namespace Parameter

/-! ## What fits -/

/-- An argument may go into a parameter: one without a type takes anything. -/
def Takes (w : TypeWorld) (p : Parameter) (argument : TypeId) : Prop :=
  ∀ t, p.type = some t → w.isAssignable t argument = true

/-- There are as many arguments as parameters, and each goes into the one at its place. -/
def TakeEach (w : TypeWorld) (parameters : List Parameter) (arguments : List TypeId) : Prop :=
  List.Forall₂ (Takes w) parameters arguments

/-- How many parameters have defaults. -/
def optionalCount (parameters : List Parameter) : Nat := parameters.countP Parameter.optional

/-- The parameters that need an argument and the leftmost `count` of those that have defaults, in
    the order in which they stand. -/
def keepLeftmost : Nat → List Parameter → List Parameter
  | _, [] => []
  | count, p :: rest =>
    if p.optional = false then p :: keepLeftmost count rest
    else
      match count with
      | 0 => keepLeftmost 0 rest
      | count + 1 => p :: keepLeftmost count rest

/-- Arguments go into parameters none of which takes more than one. -/
def TakesFixed (w : TypeWorld) (parameters : List Parameter) (arguments : List TypeId) : Prop :=
  let required := requiredCount parameters
  required ≤ arguments.length ∧ arguments.length ≤ required + optionalCount parameters ∧
    TakeEach w (keepLeftmost (arguments.length - required) parameters) arguments

/-- The arguments that are left go into the last parameter: a single one as it is, or all of them as
    elements of its array. What is no array takes anything. -/
def TakesRest (w : TypeWorld) (last : Parameter) (rest : List TypeId) : Prop :=
  (∃ argument, rest = [argument] ∧ last.Takes w argument) ∨
    ∀ argument ∈ rest, ∀ t element, last.type = some t → w.types.element? t = some element →
      w.isAssignable element argument = true

/-- Arguments go into fixed parameters, of which `kept` with defaults are kept, and into a last
    one. -/
def TakesOpen (w : TypeWorld) (fixed : List Parameter) (last : Parameter)
    (arguments : List TypeId) : Prop :=
  ∃ kept ≤ optionalCount fixed,
    let split := requiredCount fixed + kept
    split ≤ arguments.length ∧ TakeEach w (keepLeftmost kept fixed) (arguments.take split) ∧
      TakesRest w last (arguments.drop split)

/-! ## Differences and cuts that may fail -/

/-- The difference of two counts, which must not be negative. -/
def minus? (a b : Nat) : Option Nat := if b ≤ a then some (a - b) else none

/-- What a list holds from a place on, which must not lie behind its end. -/
def cut? {α : Type} (xs : List α) (start : Nat) : Option (List α) :=
  if start ≤ xs.length then some (xs.drop start) else none

/-- The list without its first `count` parameters that have defaults. -/
def dropFirst? : Nat → List Parameter → Option (List Parameter)
  | _, [] => some []
  | count, p :: rest =>
    if p.optional && count > 0 then do dropFirst? (← minus? count 1) rest
    else do return p :: (← dropFirst? count rest)

/-- The list without its last `count` parameters that have defaults. -/
def dropLast? (count : Nat) (parameters : List Parameter) : Option (List Parameter) := do
  return (← dropFirst? count parameters.reverse).reverse

/-- Whether arguments fit parameters none of which takes more than one. -/
def fitFixed? (w : TypeWorld) (parameters : List Parameter) (arguments : List TypeId) :
    Option Bool := do
  if requiredCount parameters ≤ arguments.length ∧ arguments.length ≤ parameters.length then
    let kept ← dropLast? (← minus? parameters.length arguments.length) parameters
    return takeAll w kept arguments
  else return false

/-- Whether a single argument is left and goes into the last parameter as it is. -/
def fitSingle? (w : TypeWorld) (last : Parameter) (rest : List TypeId) : Option Bool :=
  if rest.length = 1 then (rest[0]?).map (last.takes w) else some false

/-- Whether the arguments that are left go into the last parameter. -/
def fitRest? (w : TypeWorld) (last : Parameter) (rest : List TypeId) : Option Bool := do
  let single ← fitSingle? w last rest
  return single ||
    (last.type.bind w.types.element?).all fun element => rest.all (w.isAssignable element)

/-- Whether arguments fit fixed parameters and a last one. -/
def fitOpen? (w : TypeWorld) (fixed : List Parameter) (last : Parameter)
    (arguments : List TypeId) : Option Bool :=
  let required := requiredCount fixed
  let widest := min fixed.length arguments.length
  (List.range' required (widest + 1 - required)).anyM fun kept => do
    let parameters ← dropLast? (← minus? fixed.length kept) fixed
    if takeAll w parameters arguments then fitRest? w last (← cut? arguments kept)
    else return false

end Parameter

/-- Whether a call may fit, where every difference and every cut may fail. -/
def Signature.isApplicable? (w : TypeWorld) (s : Signature) (arguments : List (Option TypeId)) :
    Option Bool :=
  if s.builder then some true
  else
    match arguments.mapM id with
    | none => some true
    | some known =>
      if s.varargs then
        match s.parameters.getLast? with
        | some last => Parameter.fitOpen? w s.parameters.dropLast last known
        | none => some known.isEmpty
      else Parameter.fitFixed? w s.parameters known

section

variable {w : TypeWorld} {s : Signature}

namespace Parameter

variable {parameters fixed : List Parameter} {last p : Parameter} {arguments rest : List TypeId}

/-! ## Which parameters are kept -/

/-- A parameter needs an argument or has a default. -/
theorem requiredCount_add_optionalCount (parameters : List Parameter) :
    requiredCount parameters + optionalCount parameters = parameters.length := by
  have hsplit := List.length_eq_countP_add_countP (l := parameters) Parameter.optional
  have hrequired : requiredCount parameters =
      parameters.countP fun p => decide ¬p.optional = true := by
    simp [requiredCount]
  simp only [optionalCount]
  omega

/-- Dropping goes on in the second list with what the first one could not give. -/
theorem dropFirst_append (count : Nat) (front back : List Parameter) :
    dropFirst count (front ++ back) =
      dropFirst count front ++ dropFirst (count - optionalCount front) back := by
  induction front generalizing count with
  | nil => rfl
  | cons p front ih =>
    have hcount : optionalCount (p :: front) =
        optionalCount front + if p.optional = true then 1 else 0 := List.countP_cons
    by_cases hp : p.optional = true
    · cases count with
      | zero => simp only [List.cons_append, dropFirst_zero, Nat.zero_sub]
      | succ count =>
        have hleft : count + 1 - optionalCount (p :: front) = count - optionalCount front := by
          rw [hcount, if_pos hp]
          omega
        rw [hleft]
        simp only [List.cons_append, dropFirst, hp, Nat.zero_lt_succ, decide_true, Bool.and_true,
          if_true, Nat.add_sub_cancel]
        exact ih count
    · have hleft : count - optionalCount (p :: front) = count - optionalCount front := by
        rw [hcount, if_neg hp]
        rfl
      rw [hleft]
      simp only [List.cons_append, dropFirst, hp, Bool.false_and, if_false, Bool.false_eq_true]
      rw [ih count]

/-- Whether the first parameter is dropped from the right end is decided last. -/
theorem dropLast_cons (count : Nat) (p : Parameter) (rest : List Parameter) :
    dropLast count (p :: rest) =
      if p.optional = true ∧ optionalCount rest < count then dropLast count rest
      else p :: dropLast count rest := by
  have hreverse : optionalCount rest.reverse = optionalCount rest := List.countP_reverse
  simp only [dropLast, List.reverse_cons, dropFirst_append, hreverse, List.reverse_append]
  by_cases hdrop : p.optional = true ∧ optionalCount rest < count
  · have hmore : 0 < count - optionalCount rest := by omega
    rw [if_pos hdrop]
    simp [dropFirst, hdrop.1, hmore]
  · rw [if_neg hdrop]
    by_cases hp : p.optional = true
    · have hnone : count - optionalCount rest = 0 := by
        have hle : ¬optionalCount rest < count := fun h => hdrop ⟨hp, h⟩
        omega
      simp [dropFirst, hnone]
    · simp [dropFirst, hp]

/-- To drop parameters from the right end is to keep the leftmost of those that may be dropped. -/
theorem dropLast_eq_keepLeftmost (count : Nat) (parameters : List Parameter) :
    dropLast count parameters = keepLeftmost (optionalCount parameters - count) parameters := by
  induction parameters with
  | nil => rfl
  | cons p rest ih =>
    have hcount : optionalCount (p :: rest) =
        optionalCount rest + if p.optional = true then 1 else 0 := List.countP_cons
    rw [dropLast_cons, ih]
    by_cases hp : p.optional = true
    · rw [if_pos hp] at hcount
      by_cases hlt : optionalCount rest < count
      · -- All parameters behind the first are dropped, and the first one after them.
        have hrest : optionalCount rest - count = 0 := by omega
        have hall : optionalCount (p :: rest) - count = 0 := by omega
        rw [if_pos ⟨hp, hlt⟩, hrest, hall]
        simp [keepLeftmost, hp]
      · have hall : optionalCount (p :: rest) - count = optionalCount rest - count + 1 := by omega
        rw [if_neg fun h => hlt h.2, hall]
        simp [keepLeftmost, hp]
    · rw [if_neg hp] at hcount
      rw [if_neg fun h => hp h.1, hcount]
      simp [keepLeftmost, hp]

/-- As many parameters are kept as asked, if there are so many. -/
theorem length_keepLeftmost (count : Nat) (parameters : List Parameter) :
    (keepLeftmost count parameters).length =
      requiredCount parameters + min count (optionalCount parameters) := by
  induction parameters generalizing count with
  | nil => simp [keepLeftmost, requiredCount, optionalCount]
  | cons p rest ih =>
    have hrequired : requiredCount (p :: rest) =
        requiredCount rest + if (!p.optional) = true then 1 else 0 := List.countP_cons
    have hoptional : optionalCount (p :: rest) =
        optionalCount rest + if p.optional = true then 1 else 0 := List.countP_cons
    rw [hrequired, hoptional]
    cases hp : p.optional with
    | true =>
      cases count with
      | zero => simp [keepLeftmost, hp, ih]
      | succ count =>
        simp only [keepLeftmost, hp, Bool.true_eq_false, if_false, if_true, List.length_cons, ih,
          Bool.not_true, Bool.false_eq_true]
        omega
    | false =>
      simp only [keepLeftmost, hp, if_true, List.length_cons, ih, Bool.not_false,
        Bool.false_eq_true, if_false]
      omega

/-! ## Arguments place by place -/

theorem takes_iff {argument : TypeId} : p.takes w argument = true ↔ p.Takes w argument := by
  simp only [takes, Takes, Option.all_eq_true]

/-- A comparison of lists of one length leaves nothing out. -/
theorem takeAll_iff (hlen : parameters.length = arguments.length) :
    takeAll w parameters arguments = true ↔ TakeEach w parameters arguments := by
  simp only [takeAll, List.all_eq_true, TakeEach, List.forall₂_iff_zip]
  constructor
  · intro h
    exact ⟨hlen, fun hm => takes_iff.mp (h _ hm)⟩
  · rintro ⟨-, h⟩ ⟨p, argument⟩ hm
    exact takes_iff.mpr (h hm)

/-- Arguments that no parameter is left for are left out of the comparison. -/
theorem takeAll_take (w : TypeWorld) (hlen : parameters.length ≤ arguments.length) :
    takeAll w parameters arguments =
      takeAll w parameters (arguments.take parameters.length) := by
  have hzip : parameters.zip arguments = parameters.zip (arguments.take parameters.length) := by
    have hfront : parameters.length = (arguments.take parameters.length).length := by
      rw [List.length_take]
      omega
    calc parameters.zip arguments
        = (parameters ++ []).zip
            (arguments.take parameters.length ++ arguments.drop parameters.length) := by
          rw [List.append_nil, List.take_append_drop]
      _ = parameters.zip (arguments.take parameters.length) ++
            [].zip (arguments.drop parameters.length) := List.zip_append hfront
      _ = parameters.zip (arguments.take parameters.length) := by
          rw [List.zip_nil_left, List.append_nil]
  simp only [takeAll, hzip]

/-- The checker's answer for parameters none of which takes more than one argument. -/
theorem fitFixed_iff : fitFixed w parameters arguments = true ↔
    TakesFixed w parameters arguments := by
  have htotal := requiredCount_add_optionalCount parameters
  simp only [fitFixed, TakesFixed, Bool.and_eq_true, decide_eq_true_iff, and_assoc]
  rw [htotal]
  refine and_congr_right fun hlow => and_congr_right fun hhigh => ?_
  -- What is not dropped is as long as the list of arguments.
  have hkeep : optionalCount parameters - (parameters.length - arguments.length) =
      arguments.length - requiredCount parameters := by omega
  rw [dropLast_eq_keepLeftmost, hkeep]
  refine takeAll_iff ?_
  rw [length_keepLeftmost]
  omega

/-- The checker's answer for the arguments that are left. -/
theorem fitRest_iff : fitRest w last rest = true ↔ TakesRest w last rest := by
  simp only [fitRest, TakesRest, Bool.or_eq_true]
  refine or_congr ?_ ?_
  · -- A single argument as it is.
    match rest with
    | [] => simp
    | [argument] => simp [takes_iff]
    | _ :: _ :: _ => simp
  · -- All arguments as elements.
    cases htype : last.type with
    | none => simp
    | some t =>
      -- There is one type and one element to speak of at most.
      have hone : ∀ argument, (∀ t' element, some t = some t' →
          w.types.element? t' = some element → w.isAssignable element argument = true) ↔
          ∀ element, w.types.element? t = some element →
            w.isAssignable element argument = true := by
        intro argument
        constructor
        · exact fun h element => h t element rfl
        · rintro h t' element ⟨⟩
          exact h element
      simp only [hone, Option.bind_some]
      cases w.types.element? t with
      | none => simp
      | some element => simp

/-- The checker's answer for fixed parameters and a last one. -/
theorem fitOpen_iff : fitOpen w fixed last arguments = true ↔
    TakesOpen w fixed last arguments := by
  have htotal := requiredCount_add_optionalCount fixed
  -- Trying a number of parameters to keep is the same as trying how many with defaults are kept.
  have hsplit : ∀ kept ≤ optionalCount fixed, requiredCount fixed + kept ≤ arguments.length →
      (takeAll w (dropLast (fixed.length - (requiredCount fixed + kept)) fixed) arguments = true ↔
        TakeEach w (keepLeftmost kept fixed) (arguments.take (requiredCount fixed + kept))) := by
    intro kept hkept hle
    have hkeep : optionalCount fixed - (fixed.length - (requiredCount fixed + kept)) = kept := by
      omega
    have hlength : (keepLeftmost kept fixed).length = requiredCount fixed + kept := by
      rw [length_keepLeftmost]
      omega
    rw [dropLast_eq_keepLeftmost, hkeep, takeAll_take w (by omega), hlength]
    refine takeAll_iff ?_
    rw [List.length_take, hlength]
    omega
  simp only [fitOpen, TakesOpen, List.any_eq_true, List.mem_range'_1, Bool.and_eq_true, fitRest_iff]
  constructor
  · rintro ⟨count, ⟨hlow, hhigh⟩, htake, hrest⟩
    obtain ⟨kept, rfl⟩ := Nat.exists_eq_add_of_le hlow
    have hkept : kept ≤ optionalCount fixed := by omega
    have hle : requiredCount fixed + kept ≤ arguments.length := by omega
    exact ⟨kept, hkept, hle, (hsplit kept hkept hle).mp htake, hrest⟩
  · rintro ⟨kept, hkept, hle, htake, hrest⟩
    refine ⟨requiredCount fixed + kept, ⟨by omega, by omega⟩, ?_, hrest⟩
    exact (hsplit kept hkept hle).mpr htake

/-! ## No difference and no cut fails -/

theorem dropFirst?_eq (count : Nat) (parameters : List Parameter) :
    dropFirst? count parameters = some (dropFirst count parameters) := by
  induction parameters generalizing count with
  | nil => rfl
  | cons p rest ih =>
    simp only [dropFirst?, dropFirst]
    split
    · next h =>
      have hone : 1 ≤ count := by
        simp only [Bool.and_eq_true, decide_eq_true_iff] at h
        omega
      simp [minus?, hone, ih]
    · simp [ih]

theorem dropLast?_eq (count : Nat) (parameters : List Parameter) :
    dropLast? count parameters = some (dropLast count parameters) := by
  simp [dropLast?, dropLast, dropFirst?_eq]

theorem fitFixed?_eq (w : TypeWorld) (parameters : List Parameter) (arguments : List TypeId) :
    fitFixed? w parameters arguments = some (fitFixed w parameters arguments) := by
  simp only [fitFixed?, fitFixed]
  split
  · next h => simp [minus?, h.1, h.2, dropLast?_eq]
  · next h =>
    have hnot : (decide (requiredCount parameters ≤ arguments.length) &&
        decide (arguments.length ≤ parameters.length)) = false := by
      simpa using h
    rw [hnot]
    rfl

theorem fitRest?_eq (w : TypeWorld) (last : Parameter) (rest : List TypeId) :
    fitRest? w last rest = some (fitRest w last rest) := by
  unfold fitRest? fitRest
  -- The first argument is looked up only where there is exactly one.
  rcases rest with _ | ⟨argument, _ | ⟨second, others⟩⟩
  · cases last.type.bind w.types.element? <;> rfl
  · cases last.type.bind w.types.element? <;> rfl
  · cases last.type.bind w.types.element? <;> rfl

/-- A test of a list has an outcome if the test of each entry has one. -/
theorem anyM_eq_some {α : Type} {f : α → Option Bool} {g : α → Bool} {xs : List α}
    (h : ∀ x ∈ xs, f x = some (g x)) : xs.anyM f = some (xs.any g) := by
  induction xs with
  | nil => rfl
  | cons x xs ih =>
    have hrest : xs.anyM f = some (xs.any g) := ih fun y hy => h y (List.mem_cons_of_mem x hy)
    simp only [List.anyM, List.any_cons, h x List.mem_cons_self]
    cases g x with
    | true => rfl
    | false => exact hrest

theorem fitOpen?_eq (w : TypeWorld) (fixed : List Parameter) (last : Parameter)
    (arguments : List TypeId) :
    fitOpen? w fixed last arguments = some (fitOpen w fixed last arguments) := by
  refine anyM_eq_some fun kept hkept => ?_
  -- The range ends where the fixed parameters end, and where the arguments end.
  obtain ⟨hlow, hhigh⟩ := List.mem_range'_1.mp hkept
  have hfixed : kept ≤ fixed.length := by omega
  have harguments : kept ≤ arguments.length := by omega
  cases htake : takeAll w (dropLast (fixed.length - kept) fixed) arguments with
  | true => simp [minus?, cut?, hfixed, harguments, dropLast?_eq, htake, fitRest?_eq]
  | false => simp [minus?, hfixed, dropLast?_eq, htake]

end Parameter

theorem Signature.isApplicable?_eq (w : TypeWorld) (s : Signature)
    (arguments : List (Option TypeId)) :
    s.isApplicable? w arguments = some (s.isApplicable w arguments) := by
  simp only [Signature.isApplicable?, Signature.isApplicable, Signature.fits]
  cases s.builder with
  | true => rfl
  | false =>
    cases arguments.mapM id with
    | none => rfl
    | some known =>
      cases s.varargs with
      | false => exact Parameter.fitFixed?_eq w s.parameters known
      | true =>
        cases s.parameters.getLast? with
        | none => rfl
        | some last => exact Parameter.fitOpen?_eq w s.parameters.dropLast last known

/-! ## The answer as declared -/

/-- A call of a method that is no builder's, with arguments of known types, is applicable exactly if
    the arguments go into the parameters that are kept: for fixed parameters those that the number
    of arguments asks for, for a last parameter that takes whatever is left those of some split.
    Nothing that is computed on the way fails. -/
theorem Signature.isApplicable_iff (hb : s.builder = false) (arguments : List TypeId) :
    (s.varargs = false →
        (s.isApplicable w (arguments.map some) = true ↔
          Parameter.TakesFixed w s.parameters arguments)) ∧
      (∀ fixed last, s.varargs = true → s.parameters = fixed ++ [last] →
        (s.isApplicable w (arguments.map some) = true ↔
          Parameter.TakesOpen w fixed last arguments)) ∧
      s.isApplicable? w (arguments.map some) = some (s.isApplicable w (arguments.map some)) := by
  rw [isApplicable_eq_fits hb]
  refine ⟨fun hv => ?_, fun fixed last hv hp => ?_, ?_⟩
  · simp only [Signature.fits, hv, Bool.false_eq_true, if_false]
    exact Parameter.fitFixed_iff
  · have hlast : s.parameters.getLast? = some last := by
      rw [hp, List.getLast?_concat]
    have hfront : s.parameters.dropLast = fixed := by
      rw [hp, List.dropLast_concat]
    simp only [Signature.fits, hv, if_true, hlast, hfront]
    exact Parameter.fitOpen_iff
  · rw [isApplicable?_eq, isApplicable_eq_fits hb]

end

/-! ## A method with defaults that takes any number of integers -/

/-- The standard classes, and arrays of integers. -/
def integersWorld : TypeWorld := ⟨(Interner.initial.array TypeId.int).2, .standard⟩

/-- The parameters of a method before its last one: a closure and a list may be left out. -/
def plotFixed : List Parameter :=
  [⟨some TypeId.int, false⟩, ⟨some TypeId.closure, true⟩, ⟨some TypeId.list, true⟩]

/-- Its last parameter takes integers. -/
def plotLast : Parameter := ⟨some (Interner.initial.array TypeId.int).1, false⟩

/-- The method takes all of them. -/
def plot : Signature := ⟨plotFixed ++ [plotLast], none, true, false⟩

/-- With a closure for its second argument a call fits, as the list is left out and the last two
    arguments are the integers. A call that starts with the closure does not fit. -/
theorem isApplicable_plot :
    let call := [TypeId.int, TypeId.closure, TypeId.int, TypeId.int]
    (plot.builder = false ∧ plot.varargs = true ∧ plot.parameters = plotFixed ++ [plotLast]) ∧
      (plot.isApplicable integersWorld (call.map some) = true ∧
        Parameter.TakesOpen integersWorld plotFixed plotLast call) ∧
      plot.isApplicable? integersWorld (call.map some) = some true ∧
      ¬Parameter.TakesOpen integersWorld plotFixed plotLast call.tail := by
  intro call
  have hyes : plot.isApplicable integersWorld (call.map some) = true := by decide +kernel
  have hno : plot.isApplicable integersWorld (call.tail.map some) = false := by decide +kernel
  obtain ⟨-, hopen, hchecked⟩ :=
    Signature.isApplicable_iff (w := integersWorld) (s := plot) rfl call
  obtain ⟨-, htail, -⟩ :=
    Signature.isApplicable_iff (w := integersWorld) (s := plot) rfl call.tail
  refine ⟨⟨rfl, rfl, rfl⟩, ⟨hyes, (hopen plotFixed plotLast rfl rfl).mp hyes⟩, ?_, fun h => ?_⟩
  · rw [hchecked, hyes]
  · rw [(htail plotFixed plotLast rfl rfl).mpr h] at hno
    cases hno

end ScriptCheck
