import IndexPlanner.Text.Order

/-!
# Sets of field names

A query claims some fields for equality and some for ranges, and only *which* fields
matters, not the order in which they were claimed.  A set of names is therefore kept as
the one list that has each name once in ascending order, so that equal sets are equal
lists and every listing of a set is already in the order in which it is shown.

* `Ascending` says of a list of names that each comes before all that follow it;
* `insertAscending` puts a name into such a list; `mem_insertAscending` and
  `ascending_insertAscending` say that it adds that name only and keeps the order;
* `FieldSet` is the type of ascending lists, and `FieldSet.ext` says that its members
  determine it.
-/

namespace IndexPlanner

/-- Whether each name in a list comes before all that follow it. -/
def Ascending (fs : List String) : Prop := fs.Pairwise Text.Before

instance (fs : List String) : Decidable (Ascending fs) :=
  inferInstanceAs (Decidable (fs.Pairwise Text.Before))

theorem ascending_nil : Ascending [] := .nil

theorem ascending_cons {f : String} {fs : List String} :
    Ascending (f :: fs) ↔ (∀ g ∈ fs, Text.Before f g) ∧ Ascending fs := List.pairwise_cons

/-- Puts a name into an ascending list of names, which is left alone if it has the name
already. -/
def insertAscending (f : String) : List String → List String
  | [] => [f]
  | g :: gs =>
    if Text.Before f g then f :: g :: gs
    else if f = g then g :: gs
    else g :: insertAscending f gs

@[simp] theorem insertAscending_nil (f : String) : insertAscending f [] = [f] := rfl

@[simp] theorem mem_insertAscending {f g : String} {gs : List String} :
    g ∈ insertAscending f gs ↔ g = f ∨ g ∈ gs := by
  induction gs with
  | nil => simp
  | cons h hs ih =>
    rw [insertAscending]
    split
    · simp
    · split
      · next heq => subst heq; simp
      · simp [ih, or_left_comm]

theorem ascending_insertAscending {f : String} {gs : List String} (h : Ascending gs) :
    Ascending (insertAscending f gs) := by
  induction gs with
  | nil => exact ascending_cons.2 ⟨by simp, h⟩
  | cons g gs ih =>
    obtain ⟨hg, hgs⟩ := ascending_cons.1 h
    rw [insertAscending]
    split
    · next hlt =>
      refine ascending_cons.2 ⟨fun x hx => ?_, h⟩
      rcases List.mem_cons.1 hx with rfl | hx
      · exact hlt
      · exact Text.before_trans hlt (hg x hx)
    · split
      · exact h
      · next hlt hne =>
        refine ascending_cons.2 ⟨fun x hx => ?_, ih hgs⟩
        rcases mem_insertAscending.1 hx with rfl | hx
        · rcases Text.before_trichotomy x g with hxg | hxg | hgx
          · exact absurd hxg hlt
          · exact absurd hxg hne
          · exact hgx
        · exact hg x hx

/-- An ascending list has no name twice. -/
theorem Ascending.nodup {fs : List String} (h : Ascending fs) : fs.Nodup :=
  List.Pairwise.imp Text.ne_of_before h

/-- Two ascending lists with the same members are the same list. -/
theorem Ascending.eq : {fs gs : List String} → Ascending fs → Ascending gs →
    (∀ x, x ∈ fs ↔ x ∈ gs) → fs = gs
  | [], [], _, _, _ => rfl
  | [], g :: _, _, _, h => absurd ((h g).2 (by simp)) (by simp)
  | f :: _, [], _, _, h => absurd ((h f).1 (by simp)) (by simp)
  | f :: fs, g :: gs, hf, hg, h => by
    obtain ⟨hffs, hfs⟩ := ascending_cons.1 hf
    obtain ⟨hggs, hgs⟩ := ascending_cons.1 hg
    have hfg : f = g := by
      rcases List.mem_cons.1 ((h f).1 (by simp)) with rfl | hfgs
      · rfl
      · rcases List.mem_cons.1 ((h g).2 (by simp)) with rfl | hgfs
        · rfl
        · exact absurd (hffs g hgfs) (Text.not_before_of_before (hggs f hfgs))
    subst hfg
    refine congrArg (f :: ·) (Ascending.eq hfs hgs fun x => ?_)
    have hx := h x
    simp only [List.mem_cons] at hx
    constructor
    · intro hm
      rcases hx.1 (.inr hm) with rfl | hm'
      · exact absurd (hffs x hm) (Text.not_before_self x)
      · exact hm'
    · intro hm
      rcases hx.2 (.inr hm) with rfl | hm'
      · exact absurd (hggs x hm) (Text.not_before_self x)
      · exact hm'

/-- A finite set of field names, listed once each in ascending order. -/
structure FieldSet where
  toList : List String
  ascending : Ascending toList
  deriving DecidableEq

namespace FieldSet

instance : Membership String FieldSet := ⟨fun s f => f ∈ s.toList⟩

instance (f : String) (s : FieldSet) : Decidable (f ∈ s) :=
  inferInstanceAs (Decidable (f ∈ s.toList))

/-- The set without members. -/
def empty : FieldSet := ⟨[], ascending_nil⟩

instance : Inhabited FieldSet := ⟨empty⟩

/-- The set with one more member. -/
def insert (s : FieldSet) (f : String) : FieldSet :=
  ⟨insertAscending f s.toList, ascending_insertAscending s.ascending⟩

/-- The number of members. -/
def size (s : FieldSet) : Nat := s.toList.length

@[simp] theorem mem_toList {f : String} {s : FieldSet} : f ∈ s.toList ↔ f ∈ s := .rfl

@[simp] theorem not_mem_empty (f : String) : f ∉ empty := List.not_mem_nil

@[simp] theorem mem_insert {f g : String} {s : FieldSet} :
    g ∈ s.insert f ↔ g = f ∨ g ∈ s := mem_insertAscending

/-- Sets with the same members are equal. -/
@[ext] theorem ext {s t : FieldSet} (h : ∀ f, f ∈ s ↔ f ∈ t) : s = t := by
  cases s with
  | mk fs hfs =>
    cases t with
    | mk gs hgs =>
      have : fs = gs := hfs.eq hgs h
      subst this; rfl

theorem nodup_toList (s : FieldSet) : s.toList.Nodup := s.ascending.nodup

end FieldSet

end IndexPlanner
