/-
  What twins say about types.

  The hierarchy is written in the numbers from before the twins parted. Asked
  about the same types, it therefore gives the same answers with either of them
  (`Twins.Same.isDerivedFrom`), and so do assignability and applicability, which
  ask the hierarchy and look at the structure of types.
-/
import Mathlib.Data.List.Forall2
import ScriptCheck.Proofs.Types.Twins
import ScriptCheck.Types.Environment

namespace ScriptCheck

/-- The hierarchy holds numbered types only. -/
def Hierarchy.Interned (h : Hierarchy) (types : Interner) : Prop :=
  ∀ entry ∈ h.entries, types.Interned entry.1 ∧ ∀ parent ∈ entry.2, types.Interned parent

/-- The signature holds numbered types only. -/
def Signature.Interned (s : Signature) (types : Interner) : Prop :=
  (∀ p ∈ s.parameters, ∀ t ∈ p.type, types.Interned t) ∧ ∀ t ∈ s.result, types.Interned t

/-- The environment holds numbered types only. -/
def Environment.Interned (e : Environment) (types : Interner) : Prop :=
  (∀ entry ∈ e.types, types.Interned entry.2) ∧
    ∀ entry ∈ e.signatures, entry.2.Interned types

/-- What holds of all entries of a table holds of what is looked up. -/
theorem forall_of_lookup {β : Type} {P : Nat × β → Prop} {entries : List (Nat × β)}
    (hall : ∀ entry ∈ entries, P entry) {key : Nat} {value : β}
    (h : entries.lookup key = some value) : P (key, value) := by
  obtain ⟨before, after, rfl, _⟩ := List.lookup_eq_some_iff.mp h
  exact hall _ (List.mem_append_right _ List.mem_cons_self)

namespace Twins

variable {base : Interner} {w w' : Twins base} {h : Hierarchy} {a b c d : TypeId}

/-! ## The hierarchy -/

theorem lookup_eq_of_same {entries : List (TypeId × List TypeId)}
    (he : ∀ entry ∈ entries, w.Same entry.1 entry.1) (hab : w.Same a b) :
    entries.lookup a = entries.lookup b := by
  induction entries with
  | nil => rfl
  | cons entry rest ih =>
    obtain ⟨key, parents⟩ := entry
    have hkey : (a == key) = (b == key) := hab.beq_eq (he _ List.mem_cons_self)
    have hrest := ih fun entry hm => he entry (List.mem_cons_of_mem _ hm)
    rw [List.lookup_cons, List.lookup_cons, hrest, hkey]

/-- The hierarchy knows the same about the same classes. -/
theorem Same.supertypes? (hh : h.Interned base) (hab : w.Same a b) :
    h.supertypes? a = h.supertypes? b :=
  lookup_eq_of_same (fun entry hm => w.same_of_interned (hh entry hm).1) hab

theorem Same.isKnown (hh : h.Interned base) (hab : w.Same a b) : h.isKnown a = h.isKnown b :=
  congrArg Option.isSome (hab.supertypes? hh)

theorem Same.parentsOf (hh : h.Interned base) (hab : w.Same a b) :
    h.parentsOf a = h.parentsOf b :=
  congrArg (Option.getD · []) (hab.supertypes? hh)

/-- The supertypes in the hierarchy were numbered before the twins parted. -/
theorem same_of_mem_parentsOf (w : Twins base) (hh : h.Interned base) {parent : TypeId}
    (hp : parent ∈ h.parentsOf a) : w.Same parent parent := by
  unfold Hierarchy.parentsOf Hierarchy.supertypes? at hp
  cases hl : h.entries.lookup a with
  | none =>
    rw [hl] at hp
    cases hp
  | some parents =>
    rw [hl] at hp
    exact w.same_of_interned ((forall_of_lookup hh hl).2 parent hp)

/-- Lists of the same types contain the same ones. -/
theorem contains_eq_of_forall₂ {xs ys : List TypeId} (hxy : List.Forall₂ w.Same xs ys)
    (hab : w.Same a b) : xs.contains a = ys.contains b := by
  induction hxy with
  | nil => rfl
  | cons hx _ ih => rw [List.contains_cons, List.contains_cons, ih, hab.beq_eq hx]

theorem forall₂_same_parentsOf (w : Twins base) (hh : h.Interned base) (a : TypeId) :
    List.Forall₂ w.Same (h.parentsOf a) (h.parentsOf a) :=
  List.forall₂_same.mpr fun _ hp => w.same_of_mem_parentsOf hh hp

/-- Searches through the hierarchy go the same way for the same classes. -/
theorem reaches_eq (hh : h.Interned base) (hab : w.Same a b) (budget : Nat)
    {stack stack' taken taken' : List TypeId} (hs : List.Forall₂ w.Same stack stack')
    (ht : List.Forall₂ w.Same taken taken') :
    h.reaches a budget stack taken = h.reaches b budget stack' taken' := by
  induction budget generalizing stack stack' taken taken' with
  | zero => rfl
  | succ budget ih =>
    cases hs with
    | nil => rfl
    | @cons x y stack stack' hxy hs =>
      have htaken : taken.contains x = taken'.contains y := contains_eq_of_forall₂ ht hxy
      have hparents : h.parentsOf x = h.parentsOf y := hxy.parentsOf hh
      have hself : List.Forall₂ w.Same (h.parentsOf y) (h.parentsOf y) :=
        w.forall₂_same_parentsOf hh y
      have hfound : (h.parentsOf y).contains a = (h.parentsOf y).contains b :=
        contains_eq_of_forall₂ hself hab
      -- What the step adds is the same list on both sides, of numbers that are left alone.
      have hopen : List.Forall₂ w.Same ((h.parentsOf y).reverse ++ stack)
          ((h.parentsOf y).reverse ++ stack') :=
        List.rel_append (List.rel_reverse hself) hs
      rw [Hierarchy.reaches, Hierarchy.reaches, htaken, hparents, hfound, ih hs ht,
        ih hopen (.cons hxy ht)]

theorem Same.isDerivedFrom (hh : h.Interned base) (hab : w.Same a b) (hcd : w.Same c d) :
    h.isDerivedFrom a c = h.isDerivedFrom b d := by
  have heq : a = c ↔ b = d := hab.eq_iff hcd
  have hroot : c = TypeId.object ↔ d = TypeId.object := hcd.eq_fixed_iff (by decide)
  have hsearch : h.reaches c hierarchyLimit [a] [] = h.reaches d hierarchyLimit [b] [] :=
    reaches_eq hh hcd hierarchyLimit (.cons hab .nil) .nil
  unfold Hierarchy.isDerivedFrom
  simp only [heq, hroot, hsearch, hab.isKnown hh]

/-! ## Assignability -/

/-- What the left twin knows about types. -/
def leftWorld (w : Twins base) (h : Hierarchy) : TypeWorld := ⟨w.left, h⟩

/-- What the right twin knows about types. -/
def rightWorld (w : Twins base) (h : Hierarchy) : TypeWorld := ⟨w.right, h⟩

@[simp] theorem types_leftWorld (w : Twins base) (h : Hierarchy) :
    (w.leftWorld h).types = w.left := rfl

@[simp] theorem types_rightWorld (w : Twins base) (h : Hierarchy) :
    (w.rightWorld h).types = w.right := rfl

theorem Same.areRelated (hh : h.Interned base) (hab : w.Same a b) (hcd : w.Same c d) :
    (w.leftWorld h).areRelated a c = (w.rightWorld h).areRelated b d := by
  unfold TypeWorld.areRelated leftWorld rightWorld
  simp only [hab.isKnown hh, hcd.isKnown hh, hab.isDerivedFrom hh hcd, hcd.isDerivedFrom hh hab]

theorem Same.fitsNumber (hh : h.Interned base) (hab : w.Same a b) (hcd : w.Same c d) :
    (w.leftWorld h).fitsNumber a c = (w.rightWorld h).fitsNumber b d := by
  have hchar : a = TypeId.char ↔ b = TypeId.char := hab.eq_fixed_iff (by decide)
  have hcharacter : a = TypeId.character ↔ b = TypeId.character := hab.eq_fixed_iff (by decide)
  have hstring : c = TypeId.string ↔ d = TypeId.string := hcd.eq_fixed_iff (by decide)
  have hgString : c = TypeId.gString ↔ d = TypeId.gString := hcd.eq_fixed_iff (by decide)
  unfold TypeWorld.fitsNumber leftWorld rightWorld
  simp only [hchar, hcharacter, hstring, hgString, hcd.isNumeric, hcd.isClass, hcd.isKnown hh,
    hab.boxed.isDerivedFrom hh hcd]

theorem Same.fitsElement (hh : h.Interned base) (budget : Nat) (hab : w.Same a b)
    (hcd : w.Same c d) :
    (w.leftWorld h).fitsElement budget a c = (w.rightWorld h).fitsElement budget b d := by
  induction budget generalizing a b c d with
  | zero =>
    have heq : a = c ↔ b = d := hab.eq_iff hcd
    unfold TypeWorld.fitsElement
    simp only [heq]
  | succ budget ih =>
    have heq : a = c ↔ b = d := hab.eq_iff hcd
    have hobject : a = TypeId.object ↔ b = TypeId.object := hab.eq_fixed_iff (by decide)
    have hcloneable : a = TypeId.cloneable ↔ b = TypeId.cloneable := hab.eq_fixed_iff (by decide)
    have hserializable : a = TypeId.serializable ↔ b = TypeId.serializable :=
      hab.eq_fixed_iff (by decide)
    unfold TypeWorld.fitsElement
    simp only [heq, hobject, hcloneable, hserializable, hab.areRelated hh hcd]
    -- What is left depends on the structure of the two types alone.
    obtain ⟨x, y, hx, hy, hxy⟩ := hab.exists_alike
    obtain ⟨x', y', hx', hy', hxy'⟩ := hcd.exists_alike
    rw [types_leftWorld, types_rightWorld, hx, hy, hx', hy']
    cases hxy with
    | array htarget =>
      cases hxy' with
      | array hsource => simp only [ih htarget hsource]
      | _ => rfl
    | _ => cases hxy' <;> rfl

theorem Same.fitsArray (hh : h.Interned base) (hab : w.Same a b) :
    (w.leftWorld h).fitsArray a = (w.rightWorld h).fitsArray b := by
  have hobject : a = TypeId.object ↔ b = TypeId.object := hab.eq_fixed_iff (by decide)
  have hcloneable : a = TypeId.cloneable ↔ b = TypeId.cloneable := hab.eq_fixed_iff (by decide)
  have hserializable : a = TypeId.serializable ↔ b = TypeId.serializable :=
    hab.eq_fixed_iff (by decide)
  have hcollection : w.Same TypeId.collection TypeId.collection := w.same_of_fixed (by decide)
  unfold TypeWorld.fitsArray leftWorld rightWorld
  simp only [hobject, hcloneable, hserializable, hab.isClass, hab.isKnown hh,
    hab.isDerivedFrom hh hcollection]

theorem Same.takesArray (hh : h.Interned base) (hab : w.Same a b) :
    (w.leftWorld h).takesArray a = (w.rightWorld h).takesArray b := by
  have hcloneable : a = TypeId.cloneable ↔ b = TypeId.cloneable := hab.eq_fixed_iff (by decide)
  have hserializable : a = TypeId.serializable ↔ b = TypeId.serializable :=
    hab.eq_fixed_iff (by decide)
  have harrayList : w.Same TypeId.arrayList TypeId.arrayList := w.same_of_fixed (by decide)
  unfold TypeWorld.takesArray leftWorld rightWorld
  simp only [hcloneable, hserializable, hab.isClass, hab.isKnown hh,
    harrayList.isDerivedFrom hh hab]

theorem Same.fitsClass (hh : h.Interned base) (hab : w.Same a b) (hcd : w.Same c d) :
    (w.leftWorld h).fitsClass a c = (w.rightWorld h).fitsClass b d := by
  have hboxed : w.Same (w.left.boxed c) (w.right.boxed d) := hcd.boxed
  have hclosure : w.left.boxed c = TypeId.closure ↔ w.right.boxed d = TypeId.closure :=
    hboxed.eq_fixed_iff (by decide)
  have hlist : w.Same TypeId.list TypeId.list := w.same_of_fixed (by decide)
  have hmap : w.Same TypeId.map TypeId.map := w.same_of_fixed (by decide)
  -- What is searched for, lists and maps, is fixed.
  have hsearch : ∀ {t}, w.Same t t →
      (w.leftWorld h).hierarchy.isDerivedFrom (w.left.boxed c) t =
        (w.rightWorld h).hierarchy.isDerivedFrom (w.right.boxed d) t :=
    fun ht => hboxed.isDerivedFrom hh ht
  unfold TypeWorld.fitsClass
  rw [types_leftWorld, types_rightWorld]
  simp only [hclosure, hsearch hlist, hsearch hmap, hab.areRelated hh hboxed]

/-- Assignments of the same types are judged the same. -/
theorem Same.isAssignable (hh : h.Interned base) (hab : w.Same a b) (hcd : w.Same c d) :
    (w.leftWorld h).isAssignable a c = (w.rightWorld h).isAssignable b d := by
  have heq : a = c ↔ b = d := hab.eq_iff hcd
  have hvoid : a = TypeId.void ↔ b = TypeId.void := hab.eq_fixed_iff (by decide)
  have hnull : c = TypeId.null ↔ d = TypeId.null := hcd.eq_fixed_iff (by decide)
  have hnothing : c = TypeId.void ↔ d = TypeId.void := hcd.eq_fixed_iff (by decide)
  have hobject : a = TypeId.object ↔ b = TypeId.object := hab.eq_fixed_iff (by decide)
  have hstring : a = TypeId.string ↔ b = TypeId.string := hab.eq_fixed_iff (by decide)
  have hboolean : a = TypeId.boolean ↔ b = TypeId.boolean := hab.eq_fixed_iff (by decide)
  have hboxedBoolean : a = TypeId.boxedBoolean ↔ b = TypeId.boxedBoolean :=
    hab.eq_fixed_iff (by decide)
  obtain ⟨x, y, hx, hy, hxy⟩ := hab.exists_alike
  obtain ⟨x', y', hx', hy', hxy'⟩ := hcd.exists_alike
  unfold TypeWorld.isAssignable
  rw [types_leftWorld, types_rightWorld, hx, hy, hx', hy']
  simp only [heq, hvoid, hnull, hnothing, hobject, hstring, hboolean, hboxedBoolean,
    hab.isNumeric, hab.fitsNumber hh hcd]
  -- The last branches go by the structure of the two types.
  cases hxy with
  | array htarget =>
    cases hxy' with
    | array hsource => simp only [htarget.fitsElement hh hierarchyLimit hsource]
    | _ => simp only [hcd.fitsArray hh]
  | _ => cases hxy' <;> simp only [hab.takesArray hh, hab.fitsClass hh hcd]

/-! ## Applicability -/

/-- Two parameters take the same type and may be left out alike. -/
structure SameParameter (w : Twins base) (p q : Parameter) : Prop where
  type : Option.Rel w.Same p.type q.type
  optional : p.optional = q.optional

theorem SameParameter.mono {p q : Parameter} (hp : w.SameParameter p q) (hw : w.Extends w') :
    w'.SameParameter p q :=
  ⟨rel_same_mono hp.type hw, hp.optional⟩

theorem SameParameter.takes (hh : h.Interned base) {p q : Parameter} (hp : w.SameParameter p q)
    (hab : w.Same a b) : p.takes (w.leftWorld h) a = q.takes (w.rightWorld h) b := by
  obtain ⟨_, _⟩ := p
  obtain ⟨_, _⟩ := q
  obtain ⟨ht, _⟩ := hp
  unfold Parameter.takes
  cases ht with
  | none => rfl
  | some ht => exact ht.isAssignable hh hab

section

variable {ps qs : List Parameter} {xs ys : List TypeId}

theorem requiredCount_eq (hp : List.Forall₂ w.SameParameter ps qs) :
    Parameter.requiredCount ps = Parameter.requiredCount qs := by
  induction hp with
  | nil => rfl
  | cons hp _ ih =>
    unfold Parameter.requiredCount at ih ⊢
    rw [List.countP_cons, List.countP_cons, ih, hp.optional]

theorem forall₂_dropFirst (hp : List.Forall₂ w.SameParameter ps qs) (count : Nat) :
    List.Forall₂ w.SameParameter (Parameter.dropFirst count ps)
      (Parameter.dropFirst count qs) := by
  induction hp generalizing count with
  | nil => exact .nil
  | cons hp hrest ih =>
    rw [Parameter.dropFirst, Parameter.dropFirst, hp.optional]
    split
    · exact ih _
    · exact .cons hp (ih _)

theorem forall₂_dropLast (hp : List.Forall₂ w.SameParameter ps qs) (count : Nat) :
    List.Forall₂ w.SameParameter (Parameter.dropLast count ps) (Parameter.dropLast count qs) :=
  List.rel_reverse (forall₂_dropFirst (List.rel_reverse hp) count)

theorem takeAll_eq (hh : h.Interned base) (hp : List.Forall₂ w.SameParameter ps qs)
    (ha : List.Forall₂ w.Same xs ys) :
    Parameter.takeAll (w.leftWorld h) ps xs = Parameter.takeAll (w.rightWorld h) qs ys := by
  unfold Parameter.takeAll
  induction hp generalizing xs ys with
  | nil => rfl
  | cons hp _ ih =>
    cases ha with
    | nil => rfl
    | cons hx hrest =>
      rw [List.zip_cons_cons, List.zip_cons_cons, List.all_cons, List.all_cons, ih hrest]
      exact congrArg (· && _) (hp.takes hh hx)

theorem fitFixed_eq (hh : h.Interned base) (hp : List.Forall₂ w.SameParameter ps qs)
    (ha : List.Forall₂ w.Same xs ys) :
    Parameter.fitFixed (w.leftWorld h) ps xs = Parameter.fitFixed (w.rightWorld h) qs ys := by
  unfold Parameter.fitFixed
  rw [requiredCount_eq hp, hp.length_eq, ha.length_eq,
    takeAll_eq hh (forall₂_dropLast hp _) ha]

theorem all_isAssignable_eq (hh : h.Interned base) (hab : w.Same a b)
    (hx : List.Forall₂ w.Same xs ys) :
    xs.all ((w.leftWorld h).isAssignable a) = ys.all ((w.rightWorld h).isAssignable b) := by
  induction hx with
  | nil => rfl
  | cons hx _ ih => rw [List.all_cons, List.all_cons, ih, hab.isAssignable hh hx]

/-- What the elements of a parameter's array are is the same. -/
theorem SameParameter.element? {p q : Parameter} (hp : w.SameParameter p q) :
    Option.Rel w.Same (p.type.bind w.left.element?) (q.type.bind w.right.element?) := by
  obtain ⟨_, _⟩ := p
  obtain ⟨_, _⟩ := q
  obtain ⟨ht, _⟩ := hp
  cases ht with
  | none => exact .none
  | some ht => exact ht.element?

theorem fitRest_eq (hh : h.Interned base) {p q : Parameter} (hp : w.SameParameter p q)
    (hx : List.Forall₂ w.Same xs ys) :
    Parameter.fitRest (w.leftWorld h) p xs = Parameter.fitRest (w.rightWorld h) q ys := by
  have helement := hp.element?
  unfold Parameter.fitRest
  rw [types_leftWorld, types_rightWorld]
  refine congrArg₂ (· || ·) ?_ ?_
  · cases hx with
    | nil => rfl
    | cons hx hrest =>
      cases hrest with
      | nil => exact hp.takes hh hx
      | cons => rfl
  · generalize p.type.bind w.left.element? = x at helement ⊢
    generalize q.type.bind w.right.element? = y at helement ⊢
    cases helement with
    | none => rfl
    | some he => exact all_isAssignable_eq hh he hx

theorem fitOpen_eq (hh : h.Interned base) {p q : Parameter}
    (hps : List.Forall₂ w.SameParameter ps qs) (hp : w.SameParameter p q)
    (hx : List.Forall₂ w.Same xs ys) :
    Parameter.fitOpen (w.leftWorld h) ps p xs = Parameter.fitOpen (w.rightWorld h) qs q ys := by
  have hkept : ∀ kept : Nat,
      (Parameter.takeAll (w.leftWorld h) (Parameter.dropLast (qs.length - kept) ps) xs &&
        Parameter.fitRest (w.leftWorld h) p (xs.drop kept)) =
      (Parameter.takeAll (w.rightWorld h) (Parameter.dropLast (qs.length - kept) qs) ys &&
        Parameter.fitRest (w.rightWorld h) q (ys.drop kept)) := by
    intro kept
    rw [takeAll_eq hh (forall₂_dropLast hps _) hx, fitRest_eq hh hp (List.forall₂_drop kept hx)]
  unfold Parameter.fitOpen
  simp only [requiredCount_eq hps, hx.length_eq, hps.length_eq, hkept]

end

/-- Two signatures take and return the same types. -/
structure SameSignature (w : Twins base) (s t : Signature) : Prop where
  parameters : List.Forall₂ w.SameParameter s.parameters t.parameters
  result : Option.Rel w.Same s.result t.result
  varargs : s.varargs = t.varargs
  builder : s.builder = t.builder

section

variable {s t : Signature}

/-- A signature from before the twins parted is left alone. -/
theorem sameSignature_of_interned (w : Twins base) (hs : s.Interned base) :
    w.SameSignature s s := by
  have hopt : ∀ o : Option TypeId, (∀ t ∈ o, base.Interned t) → Option.Rel w.Same o o := by
    intro o ho
    cases o with
    | none => exact .none
    | some t => exact .some (w.same_of_interned (ho t rfl))
  exact ⟨List.forall₂_same.mpr fun p hp => ⟨hopt p.type (hs.1 p hp), rfl⟩, hopt s.result hs.2,
    rfl, rfl⟩

theorem SameSignature.mono (hs : w.SameSignature s t) (hw : w.Extends w') :
    w'.SameSignature s t :=
  ⟨hs.parameters.imp fun _ _ hp => hp.mono hw, rel_same_mono hs.result hw, hs.varargs, hs.builder⟩

/-- The last parameters and those before them are the same. -/
theorem rel_getLast? {ps qs : List Parameter} (hp : List.Forall₂ w.SameParameter ps qs) :
    Option.Rel w.SameParameter ps.getLast? qs.getLast? ∧
      List.Forall₂ w.SameParameter ps.dropLast qs.dropLast := by
  induction hp with
  | nil => exact ⟨.none, .nil⟩
  | cons hp hrest ih =>
    cases hrest with
    | nil => exact ⟨.some hp, .nil⟩
    | cons hq hrest =>
      rw [List.getLast?_cons_cons, List.getLast?_cons_cons, List.dropLast_cons_cons,
        List.dropLast_cons_cons]
      exact ⟨ih.1, .cons hp ih.2⟩

theorem SameSignature.fits (hh : h.Interned base) (hs : w.SameSignature s t)
    {xs ys : List TypeId} (hx : List.Forall₂ w.Same xs ys) :
    s.fits (w.leftWorld h) xs = t.fits (w.rightWorld h) ys := by
  obtain ⟨hlast, hfixed⟩ := rel_getLast? hs.parameters
  unfold Signature.fits
  rw [hs.varargs, fitFixed_eq hh hs.parameters hx]
  generalize s.parameters.getLast? = last at hlast ⊢
  generalize t.parameters.getLast? = last' at hlast ⊢
  cases hlast with
  | none => cases hx <;> rfl
  | some hlast => simp only [fitOpen_eq hh hfixed hlast hx]

/-- The known arguments of both sides are the same, or on both sides not all are known. -/
theorem rel_mapM_id {xs ys : List (Option TypeId)} (hx : List.Forall₂ (Option.Rel w.Same) xs ys) :
    Option.Rel (List.Forall₂ w.Same) (xs.mapM id) (ys.mapM id) := by
  induction hx with
  | nil => exact .some .nil
  | @cons x y xs ys hx _ ih =>
    rw [List.mapM_cons, List.mapM_cons]
    cases hx with
    | none => exact .none
    | some hx =>
      generalize xs.mapM id = rest at ih ⊢
      generalize ys.mapM id = rest' at ih ⊢
      cases ih with
      | none => exact .none
      | some hrest => exact .some (.cons hx hrest)

/-- Calls with the same arguments are judged the same. -/
theorem SameSignature.isApplicable (hh : h.Interned base) (hs : w.SameSignature s t)
    {xs ys : List (Option TypeId)} (hx : List.Forall₂ (Option.Rel w.Same) xs ys) :
    s.isApplicable (w.leftWorld h) xs = t.isApplicable (w.rightWorld h) ys := by
  have hknown := rel_mapM_id hx
  unfold Signature.isApplicable
  rw [hs.builder]
  generalize xs.mapM id = known at hknown ⊢
  generalize ys.mapM id = known' at hknown ⊢
  cases hknown with
  | none => rfl
  | some hknown => exact congrArg (_ || ·) (hs.fits hh hknown)

end

end Twins

end ScriptCheck
