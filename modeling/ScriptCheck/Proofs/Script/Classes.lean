/-
  The classes of a script.

  Classes are the symbols that are types. Their direct supertypes are classes
  again, and a class without any is the root class or lives in a script that
  has none. So if no class inherits from itself, all classes inherit from the
  root class, as soon as there is one.
-/
import Mathlib.Data.Fintype.EquivFin
import Mathlib.Logic.Relation
import ScriptCheck.Proofs.Symbol.Growth
import ScriptCheck.Script.Access

namespace ScriptCheck.Script

/-- The symbols of the classes. -/
def classes (s : Script) : List Symbol := s.symbols.symbols.toList.filter Symbol.isType

/-- One class is a direct supertype of another. -/
def IsSupertype (s : Script) (type parent : SymbolId) : Prop :=
  s.symbols.isType type = true ∧ parent ∈ s.supertypesOf type

section

variable {s : Script} {a b : SymbolId}

/-! ## Which symbols are classes -/

theorem mem_classes_iff {c : Symbol} :
    c ∈ s.classes ↔ ∃ i, s.symbols.get? i = some c ∧ c.kind = .type := by
  unfold classes
  rw [List.mem_filter, Array.mem_toList_iff, SymbolTable.mem_symbols_iff]
  unfold Symbol.isType
  rw [decide_eq_true_iff, exists_and_right]

/-- A class is found under its own number. -/
theorem get?_of_mem_classes (hs : s.symbols.Consistent) {c : Symbol} (hc : c ∈ s.classes) :
    s.symbols.get? c.id = some c := by
  obtain ⟨i, hi, _⟩ := mem_classes_iff.mp hc
  rw [hs.id_eq hi]
  exact hi

/-- A number of a class is the number of one of the symbols in `classes`. -/
theorem exists_class_of_isType (hs : s.symbols.Consistent) (h : s.symbols.isType a = true) :
    ∃ c ∈ s.classes, c.id = a := by
  obtain ⟨c, hc, hk⟩ := SymbolTable.isType_iff.mp h
  exact ⟨c, mem_classes_iff.mpr ⟨a, hc, hk⟩, hs.id_eq hc⟩

theorem isType_of_mem_classes (hs : s.symbols.Consistent) {c : Symbol} (hc : c ∈ s.classes) :
    s.symbols.isType c.id = true :=
  SymbolTable.isType_iff.mpr ⟨c, get?_of_mem_classes hs hc, (mem_classes_iff.mp hc).choose_spec.2⟩

/-- The classes stand under different numbers. -/
theorem nodup_map_id_classes (hs : s.symbols.Consistent) : (s.classes.map Symbol.id).Nodup := by
  have hids : s.symbols.symbols.toList.map Symbol.id = List.range s.symbols.size := by
    apply List.ext_getElem?
    intro i
    rw [List.getElem?_map, Array.getElem?_toList]
    by_cases hi : i < s.symbols.size
    · have hget : s.symbols.get? i = some s.symbols.symbols[i] := Array.getElem?_eq_getElem hi
      show (s.symbols.get? i).map Symbol.id = _
      rw [hget, List.getElem?_range hi]
      exact congrArg some (hs.id_eq hget)
    · have hle : s.symbols.symbols.size ≤ i := Nat.not_lt.mp hi
      rw [Array.getElem?_eq_none hle, List.getElem?_eq_none (by simpa using Nat.not_lt.mp hi)]
      rfl
  have hall : (s.symbols.symbols.toList.map Symbol.id).Nodup := hids ▸ List.nodup_range
  exact hall.sublist (List.filter_sublist.map Symbol.id)

/-! ## Direct supertypes -/

theorem isType_of_type? (hs : s.symbols.Consistent) {q : String}
    (h : s.symbols.type? q = some a) : s.symbols.isType a = true := by
  obtain ⟨c, hc, hk, _⟩ := hs.get?_of_type? h
  exact SymbolTable.isType_iff.mpr ⟨c, hc, hk⟩

/-- Direct supertypes are classes. -/
theorem isType_of_mem_directSupertypes (hs : s.symbols.Consistent)
    {lookup : NodeId → Option SymbolId} (h : b ∈ s.directSupertypes lookup a) :
    s.symbols.isType b = true := by
  unfold directSupertypes at h
  split at h
  · cases h
  · next symbol _ =>
    dsimp only at h
    split at h
    · rw [Option.mem_toList, Option.filter_eq_some_iff] at h
      exact isType_of_type? hs h.1
    · rcases List.mem_append.mp h with hn | hd
      · obtain ⟨q, _, hq⟩ := List.mem_filterMap.mp hn
        exact isType_of_type? hs hq
      · obtain ⟨clause, _, hc⟩ := List.mem_filterMap.mp hd
        have hp := (Option.filter_eq_some_iff.mp hc).2
        exact (Bool.and_eq_true_iff.mp hp).2

theorem isType_of_mem_supertypesOf (hs : s.symbols.Consistent) (h : b ∈ s.supertypesOf a) :
    s.symbols.isType b = true :=
  isType_of_mem_directSupertypes hs h

/-- Only the root class is without supertypes, if there is one. -/
theorem eq_of_directSupertypes_eq_nil {lookup : NodeId → Option SymbolId} {root : SymbolId}
    (ha : s.symbols.isType a = true) (hroot : s.symbols.type? "java.lang.Object" = some root)
    (h : s.directSupertypes lookup a = []) : a = root := by
  obtain ⟨c, hc, _⟩ := SymbolTable.isType_iff.mp ha
  unfold directSupertypes at h
  rw [hc] at h
  dsimp only at h
  split at h
  · rw [hroot] at h
    by_contra hne
    rw [Option.filter_some, if_pos (decide_eq_true (Ne.symm hne))] at h
    cases h
  · next hne => exact absurd h hne

/-! ## Above everything -/

/-- Where no class inherits from itself, all classes inherit from the root class. -/
theorem reflTransGen_root (hs : s.symbols.Consistent)
    (acyclic : ∀ a, ¬Relation.TransGen s.IsSupertype a a) {root : SymbolId}
    (hroot : s.symbols.type? "java.lang.Object" = some root) (ha : s.symbols.isType a = true) :
    Relation.ReflTransGen s.IsSupertype a root := by
  -- There are finitely many symbols, so the way up ends.
  have hwf : WellFounded fun x y : Fin s.symbols.size => Relation.TransGen s.IsSupertype y x := by
    have : Std.Irrefl fun x y : Fin s.symbols.size =>
        Relation.TransGen s.IsSupertype y x := ⟨fun x => acyclic x⟩
    have : IsTrans (Fin s.symbols.size) fun x y =>
        Relation.TransGen s.IsSupertype y x := ⟨fun _ _ _ hxy hyz => hyz.trans hxy⟩
    exact Finite.wellFounded_of_trans_of_irrefl _
  have hall : ∀ x : Fin s.symbols.size, s.symbols.isType x = true →
      Relation.ReflTransGen s.IsSupertype x root := by
    intro x
    induction x using hwf.induction with
    | _ x ih =>
      intro hx
      cases hsup : s.supertypesOf x with
      | nil =>
        have heq : (x : SymbolId) = root := eq_of_directSupertypes_eq_nil hx hroot hsup
        rw [heq]
      | cons parent rest =>
        have hmem : parent ∈ s.supertypesOf x := hsup ▸ List.mem_cons_self
        have hp := isType_of_mem_supertypesOf hs hmem
        obtain ⟨c, hc, _⟩ := SymbolTable.isType_iff.mp hp
        have hstep : s.IsSupertype x parent := ⟨hx, hmem⟩
        exact .head hstep (ih ⟨parent, SymbolTable.lt_size_of_get? hc⟩ (.single hstep) hp)
  obtain ⟨c, hc, _⟩ := SymbolTable.isType_iff.mp ha
  exact hall ⟨a, SymbolTable.lt_size_of_get? hc⟩ ha

end

end ScriptCheck.Script
