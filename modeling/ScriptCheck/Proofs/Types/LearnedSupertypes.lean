/-
  Supertypes that become known later.

  While a program is being read, a class may turn out to have more supertypes
  than were known at first. Assignability asks the hierarchy two things: whether
  a class is known, where no speaks for the assignment, and whether one class
  derives from another, where yes does. The first stays as it is when a known
  class gets more supertypes, and the second can only turn into yes. So what was
  possible stays possible (`isAssignable_addParents`), and no warning comes
  about.

  `Hierarchy.Affirms` says this much of two hierarchies, and each question of
  assignability has a lemma that carries its yes from one to the other. A class
  that becomes known in this way is another matter: what was assumed about it no
  longer counts.
-/
import ScriptCheck.Proofs.Types.Acyclicity
import ScriptCheck.Proofs.Types.ClassAssignability

namespace ScriptCheck

namespace Hierarchy

/-- A hierarchy knows the same classes as another one and says yes wherever that one does. -/
structure Affirms (g h : Hierarchy) : Prop where
  isKnown_eq : ∀ x, g.isKnown x = h.isKnown x
  isDerivedFrom : ∀ {x y}, h.isDerivedFrom x y = true → g.isDerivedFrom x y = true

section

variable {g h : Hierarchy} {cls : TypeId} {parents : List TypeId}

/-- A hierarchy that grew affirms what it grew from, if no class is new to it and its searches are
    not cut off. Those of the smaller one may be: what they find is there. -/
theorem Grows.affirms (hg : h.Grows g) (hknown : ∀ x, g.isKnown x = h.isKnown x)
    (hset : g.Settled) : g.Affirms h where
  isKnown_eq := hknown
  isDerivedFrom := by
    intro x y hd
    have hderives : g.Derives x y := hg.derives (derives_of_isDerivedFrom hd)
    exact (isDerivedFrom_iff (hset x y)).mpr hderives

/-- More supertypes of a known class make no class known. -/
theorem isKnown_addParents (known : h.isKnown cls = true) (parents : List TypeId) (x : TypeId) :
    (h.addParents cls parents).isKnown x = h.isKnown x := by
  unfold addParents
  rw [isKnown_set]
  by_cases hx : x = cls
  · rw [hx, known, Bool.or_true]
  · rw [decide_eq_false hx, Bool.false_or]

/-- Classes get more supertypes, one after the other. -/
def learn (h : Hierarchy) (additions : List (TypeId × List TypeId)) : Hierarchy :=
  additions.foldl (fun h addition => h.addParents addition.1 addition.2) h

/-- Whatever known classes get for supertypes, what is there stays, and no class becomes known. -/
theorem grows_learn {additions : List (TypeId × List TypeId)}
    (known : ∀ addition ∈ additions, h.isKnown addition.1 = true) :
    h.Grows (h.learn additions) ∧ ∀ x, (h.learn additions).isKnown x = h.isKnown x := by
  induction additions generalizing h with
  | nil => exact ⟨Grows.refl h, fun _ => rfl⟩
  | cons addition rest ih =>
    have hsame := isKnown_addParents (known addition List.mem_cons_self) addition.2
    obtain ⟨hgrows, hrest⟩ := ih (h := h.addParents addition.1 addition.2) fun other hm =>
      (hsame other.1).trans (known other (List.mem_cons_of_mem _ hm))
    exact ⟨(grows_addParents h addition.1 addition.2).trans hgrows,
      fun x => (hrest x).trans (hsame x)⟩

end

end Hierarchy

namespace TypeWorld

variable {i : Interner} {g h : Hierarchy} {target source cls : TypeId}

/-! ## What one hierarchy takes, the other takes too -/

section

variable (ha : g.Affirms h)

include ha

theorem areRelated_affirmed (hr : (TypeWorld.mk i h).areRelated target source = true) :
    (TypeWorld.mk i g).areRelated target source = true := by
  unfold areRelated at hr ⊢
  simp only [Bool.or_eq_true, ha.isKnown_eq] at hr ⊢
  rcases hr with (hunknown | hup) | hdown
  · exact .inl (.inl hunknown)
  · exact .inl (.inr (ha.isDerivedFrom hup))
  · exact .inr (ha.isDerivedFrom hdown)

theorem fitsNumber_affirmed (hf : (TypeWorld.mk i h).fitsNumber target source = true) :
    (TypeWorld.mk i g).fitsNumber target source = true := by
  unfold fitsNumber at hf ⊢
  simp only [Bool.or_eq_true, Bool.and_eq_true (i.isClass source), ha.isKnown_eq] at hf ⊢
  rcases hf with hplain | ⟨hclass, hunknown | habove⟩
  · exact .inl hplain
  · exact .inr ⟨hclass, .inl hunknown⟩
  · exact .inr ⟨hclass, .inr (ha.isDerivedFrom habove)⟩

theorem fitsArray_affirmed (hf : (TypeWorld.mk i h).fitsArray source = true) :
    (TypeWorld.mk i g).fitsArray source = true := by
  unfold fitsArray at hf ⊢
  simp only [Bool.and_eq_true, Bool.or_eq_true, ha.isKnown_eq] at hf ⊢
  obtain ⟨hclass, (((hunknown | hcollection) | hobject) | hcloneable) | hserializable⟩ := hf
  · exact ⟨hclass, .inl (.inl (.inl (.inl hunknown)))⟩
  · exact ⟨hclass, .inl (.inl (.inl (.inr (ha.isDerivedFrom hcollection))))⟩
  · exact ⟨hclass, .inl (.inl (.inr hobject))⟩
  · exact ⟨hclass, .inl (.inr hcloneable)⟩
  · exact ⟨hclass, .inr hserializable⟩

theorem takesArray_affirmed (ht : (TypeWorld.mk i h).takesArray target = true) :
    (TypeWorld.mk i g).takesArray target = true := by
  unfold takesArray at ht ⊢
  simp only [Bool.and_eq_true, Bool.or_eq_true, ha.isKnown_eq] at ht ⊢
  obtain ⟨hclass, (hfixed | hunknown) | habove⟩ := ht
  · exact ⟨hclass, .inl (.inl hfixed)⟩
  · exact ⟨hclass, .inl (.inr hunknown)⟩
  · exact ⟨hclass, .inr (ha.isDerivedFrom habove)⟩

theorem fitsClass_affirmed (hf : (TypeWorld.mk i h).fitsClass target source = true) :
    (TypeWorld.mk i g).fitsClass target source = true := by
  unfold fitsClass at hf ⊢
  simp only [Bool.or_eq_true] at hf ⊢
  rcases hf with ((hclosure | hlist) | hmap) | hrelated
  · exact .inl (.inl (.inl hclosure))
  · exact .inl (.inl (.inr (ha.isDerivedFrom hlist)))
  · exact .inl (.inr (ha.isDerivedFrom hmap))
  · exact .inr (areRelated_affirmed ha hrelated)

/-- However deep arrays are opened, only two classes at the bottom ask the hierarchy. -/
theorem fitsElement_affirmed {budget : Nat}
    (hf : (TypeWorld.mk i h).fitsElement budget target source = true) :
    (TypeWorld.mk i g).fitsElement budget target source = true := by
  induction budget generalizing target source with
  | zero => simpa only [fitsElement] using hf
  | succ budget ih =>
    rw [fitsElement] at hf ⊢
    split
    case isTrue => rfl
    case isFalse hne =>
      rw [if_neg hne] at hf
      dsimp only at hf ⊢
      split at hf
      case h_1 => exact ih hf
      case h_2 =>
        rw [Bool.or_eq_true] at hf ⊢
        exact hf.imp_right (areRelated_affirmed ha)
      all_goals exact hf

/-- Which question is asked does not depend on the hierarchy, so the answers to each of them are
    compared. -/
theorem isAssignable_affirmed (hf : (TypeWorld.mk i h).isAssignable target source = true) :
    (TypeWorld.mk i g).isAssignable target source = true := by
  unfold isAssignable at hf ⊢
  dsimp only at hf ⊢
  by_cases hself : target = source
  · rw [if_pos hself]
  rw [if_neg hself] at hf ⊢
  by_cases hvoid : target = TypeId.void
  · rw [if_pos hvoid] at hf
    cases hf
  rw [if_neg hvoid] at hf ⊢
  cases htarget : i.lookup? target with
  | none => simp only [ite_self]
  | some targetType =>
    cases hsource : i.lookup? source with
    | none => simp only [ite_self]
    | some sourceType =>
      rw [htarget, hsource] at hf
      dsimp only at hf ⊢
      split
      case isTrue => rfl
      case isFalse hplain =>
        rw [if_neg hplain] at hf
        split
        case isTrue hnumber =>
          rw [if_pos hnumber] at hf
          exact fitsNumber_affirmed ha hf
        case isFalse hnumber =>
          rw [if_neg hnumber] at hf
          split
          case isTrue => rfl
          case isFalse hany =>
            rw [if_neg hany] at hf
            cases targetType with
            | array t =>
              cases sourceType with
              | array s => exact fitsElement_affirmed ha hf
              | _ => exact fitsArray_affirmed ha hf
            | primitive p =>
              cases sourceType with
              | array s => exact takesArray_affirmed ha hf
              | _ => exact hf
            | null | named name =>
              cases sourceType with
              | array s => exact takesArray_affirmed ha hf
              | null => exact hf
              | primitive | named => exact fitsClass_affirmed ha hf

end

/-! ## More supertypes -/

/-- What is assignable stays assignable when a known class gets more supertypes, as long as no
    search through the larger hierarchy is cut off. -/
theorem isAssignable_addParents {parents : List TypeId} (known : h.isKnown cls = true)
    (hset : (h.addParents cls parents).Settled)
    (hf : (TypeWorld.mk i h).isAssignable target source = true) :
    (TypeWorld.mk i (h.addParents cls parents)).isAssignable target source = true := by
  have hgrows : h.Grows (h.addParents cls parents) := Hierarchy.grows_addParents h cls parents
  have ha : (h.addParents cls parents).Affirms h :=
    hgrows.affirms (Hierarchy.isKnown_addParents known parents) hset
  exact isAssignable_affirmed ha hf

/-- The numbers of `Money[]` and `Number[]` in a program with a class `Money`. -/
def moneys : TypeId := 36

@[inherit_doc moneys]
def numbers : TypeId := 37

/-- The types of that program. -/
def payTypes : Interner := ((moneyTypes.array money).2.array TypeId.number).2

/-- An array of `Money` still goes into one of `Number` when `Money` turns out to be comparable. -/
theorem isAssignable_numbers_moneys :
    (moneyHierarchy.isKnown money = true ∧
        (moneyHierarchy.addParents money [TypeId.comparable]).Settled ∧
        (TypeWorld.mk payTypes moneyHierarchy).isAssignable numbers moneys = true) ∧
      (TypeWorld.mk payTypes
        (moneyHierarchy.addParents money [TypeId.comparable])).isAssignable numbers moneys =
          true := by
  have known : moneyHierarchy.isKnown money = true := by decide
  have hset : (moneyHierarchy.addParents money [TypeId.comparable]).Settled :=
    Hierarchy.settled_of_parentEntries_lt (by decide)
  have hbefore : (TypeWorld.mk payTypes moneyHierarchy).isAssignable numbers moneys = true := by
    decide +kernel
  exact ⟨⟨known, hset, hbefore⟩, isAssignable_addParents known hset hbefore⟩

/-- It is the same with any number of additions. Only the last hierarchy has to be within the limit
    of searches, as the ones before it are smaller. -/
theorem isAssignable_learn {additions : List (TypeId × List TypeId)}
    (known : ∀ addition ∈ additions, h.isKnown addition.1 = true)
    (hset : (h.learn additions).Settled)
    (hf : (TypeWorld.mk i h).isAssignable target source = true) :
    (TypeWorld.mk i (h.learn additions)).isAssignable target source = true := by
  obtain ⟨hgrows, hsame⟩ := Hierarchy.grows_learn known
  exact isAssignable_affirmed (hgrows.affirms hsame hset) hf

/-- A class that becomes known can be refused what it was given before. -/
example :
    (TypeWorld.mk moneyTypes .standard).isAssignable money TypeId.boxedBoolean = true ∧
      (TypeWorld.mk moneyTypes moneyHierarchy).isAssignable money TypeId.boxedBoolean = false := by
  decide +kernel

end TypeWorld

end ScriptCheck
