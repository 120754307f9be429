import IndexPlanner.Proofs.IndexMatch.Blocks
import IndexPlanner.Proofs.QueryShape.Normalize
import Mathlib.Data.List.Chain
import Mathlib.Order.Lattice

/-!
# A sort that an index serves is a sort of the documents

Whether an index serves a sort is decided by comparing keys with keys.  What a query wants
is an order of documents.  This file ties the two together.  A document gives every field a
value, keys order documents lexicographically, each key in its direction, and a scan of an
index meets the documents in the order of the keys of the index.

* `InOrder` is the order of documents by keys, and `Ordered` says of a list of documents
  that it is in this order; by `ordered_iff_isChain` it is enough to compare neighbours.
* `inOrder_append_of_agree`: keys on which two documents agree do not order them, so the
  block of equalities in front of an index can be skipped.
* `inOrder_filter_iff_of_agree`: for the same reason a sort can be asked for with keys that
  its shape has dropped.
* `inOrder_map_reversed`: documents are in the order of reversed keys if they are in the
  order of the keys the other way round.
* `ordered_of_sortServed`: an index that serves the sort of a query gives the documents in
  the order that the query has asked for.
-/

namespace IndexPlanner

universe u

/-- A document gives every field a value. -/
abbrev Document (V : Type u) : Type u := String → V

variable {V : Type u} [LinearOrder V] {x y z : Document V}

/-! ## Documents in the order of keys -/

/-- One document comes strictly before another one by a single key. -/
def Key.Precedes (k : Key) (x y : Document V) : Prop :=
  match k.direction with
  | .asc => x k.field < y k.field
  | .desc => y k.field < x k.field

/-- One document may stand before another one: at the first key on which they differ it
comes first, if they differ on any. -/
def InOrder : List Key → Document V → Document V → Prop
  | [], _, _ => True
  | k :: ks, x, y => k.Precedes x y ∨ x k.field = y k.field ∧ InOrder ks x y

/-- The documents of a list stand in the order of keys. -/
def Ordered (keys : List Key) (docs : List (Document V)) : Prop :=
  docs.Pairwise (InOrder keys)

instance Key.decidablePrecedes (k : Key) (x y : Document V) : Decidable (k.Precedes x y) :=
  match k with
  | ⟨f, .asc⟩ => inferInstanceAs (Decidable (x f < y f))
  | ⟨f, .desc⟩ => inferInstanceAs (Decidable (y f < x f))

instance decidableInOrder : (ks : List Key) → (x y : Document V) → Decidable (InOrder ks x y)
  | [], _, _ => isTrue trivial
  | k :: ks, x, y =>
    have := decidableInOrder ks x y
    inferInstanceAs (Decidable (k.Precedes x y ∨ x k.field = y k.field ∧ InOrder ks x y))

instance (keys : List Key) (docs : List (Document V)) : Decidable (Ordered keys docs) :=
  inferInstanceAs (Decidable (docs.Pairwise (InOrder keys)))

@[simp] theorem inOrder_nil (x y : Document V) : InOrder [] x y := trivial

theorem inOrder_cons {k : Key} {ks : List Key} :
    InOrder (k :: ks) x y ↔ k.Precedes x y ∨ x k.field = y k.field ∧ InOrder ks x y := .rfl

theorem Key.Precedes.trans {k : Key} (hxy : k.Precedes x y) (hyz : k.Precedes y z) :
    k.Precedes x z := by
  obtain ⟨f, direction⟩ := k
  cases direction with
  | asc => exact lt_trans (a := x f) hxy hyz
  | desc => exact lt_trans (a := z f) hyz hxy

theorem Key.precedes_congr {k : Key} {x' y' : Document V} (hx : x k.field = x' k.field)
    (hy : y k.field = y' k.field) : k.Precedes x y ↔ k.Precedes x' y' := by
  rw [Precedes, Precedes, hx, hy]

/-- A key does not order documents that agree on its field. -/
theorem Key.not_precedes_of_eq {k : Key} (h : x k.field = y k.field) : ¬ k.Precedes x y := by
  rw [precedes_congr h rfl]
  obtain ⟨f, direction⟩ := k
  cases direction with
  | asc => exact lt_irrefl (y f)
  | desc => exact lt_irrefl (y f)

@[simp] theorem Key.precedes_reversed {k : Key} :
    k.reversed.Precedes x y ↔ k.Precedes y x := by
  obtain ⟨f, direction⟩ := k
  cases direction <;> exact .rfl

theorem InOrder.trans {ks : List Key} (hxy : InOrder ks x y) (hyz : InOrder ks y z) :
    InOrder ks x z := by
  induction ks with
  | nil => trivial
  | cons k ks ih =>
    rcases hxy with hxy | ⟨hxy, hxy'⟩
    · rcases hyz with hyz | ⟨hyz, -⟩
      · exact .inl (hxy.trans hyz)
      · exact .inl ((Key.precedes_congr rfl hyz).1 hxy)
    · rcases hyz with hyz | ⟨hyz, hyz'⟩
      · exact .inl ((Key.precedes_congr hxy rfl).2 hyz)
      · exact .inr ⟨hxy.trans hyz, ih hxy' hyz'⟩

/-- A list of documents is in order if each may stand before the next one. -/
theorem ordered_iff_isChain {keys : List Key} {docs : List (Document V)} :
    Ordered keys docs ↔ docs.IsChain (InOrder keys) := by
  have : Trans (InOrder (V := V) keys) (InOrder keys) (InOrder keys) := ⟨InOrder.trans⟩
  exact List.isChain_iff_pairwise.symm

/-! ## Parts of keys -/

/-- Documents that are in the order of keys are in the order of the first of them. -/
theorem InOrder.of_append {ks ls : List Key} (h : InOrder (ks ++ ls) x y) : InOrder ks x y := by
  induction ks with
  | nil => trivial
  | cons k ks ih =>
    rcases h with h | ⟨heq, h⟩
    · exact .inl h
    · exact .inr ⟨heq, ih h⟩

/-- A key on a field on which two documents agree does not order them. -/
theorem inOrder_cons_of_eq {k : Key} {ks : List Key} (h : x k.field = y k.field) :
    InOrder (k :: ks) x y ↔ InOrder ks x y := by
  rw [inOrder_cons, or_iff_right (Key.not_precedes_of_eq h), and_iff_right h]

/-- Leading keys on which two documents agree can be skipped. -/
theorem inOrder_append_of_agree {lead ks : List Key}
    (h : ∀ k ∈ lead, x k.field = y k.field) : InOrder (lead ++ ks) x y ↔ InOrder ks x y := by
  induction lead with
  | nil => exact .rfl
  | cons k lead ih =>
    rw [List.cons_append, inOrder_cons_of_eq (h k List.mem_cons_self)]
    exact ih fun l hl => h l (List.mem_cons_of_mem k hl)

/-- Keys on which two documents agree can be dropped wherever they stand. -/
theorem inOrder_filter_iff_of_agree {p : Key → Bool} {ks : List Key}
    (h : ∀ k ∈ ks, p k = false → x k.field = y k.field) :
    InOrder (ks.filter p) x y ↔ InOrder ks x y := by
  induction ks with
  | nil => exact .rfl
  | cons k ks ih =>
    have ih := ih fun l hl => h l (List.mem_cons_of_mem k hl)
    cases hk : p k with
    | true => rw [List.filter_cons_of_pos hk, inOrder_cons, inOrder_cons, ih]
    | false =>
      rw [List.filter_cons_of_neg (by simp [hk]), ih,
        inOrder_cons_of_eq (h k List.mem_cons_self hk)]

/-- Turning every key round turns the order round. -/
theorem inOrder_map_reversed {ks : List Key} :
    InOrder (ks.map Key.reversed) x y ↔ InOrder ks y x := by
  induction ks with
  | nil => exact .rfl
  | cons k ks ih =>
    rw [List.map_cons, inOrder_cons, inOrder_cons, ih, Key.precedes_reversed,
      Key.field_reversed, eq_comm]

/-! ## Scans -/

/-- What a scan meets of a list: all of it, and in which order depends on the direction. -/
def ScanDirection.read {α : Type u} : ScanDirection → List α → List α
  | forward, l => l
  | backward, l => l.reverse

namespace IndexMatch

/-- The keys in front of an index are taken for equalities only. -/
theorem inOrder_rest_of_agree {shape : QueryShape} {d : IndexDefinition}
    (hagree : ∀ f ∈ shape.equality, x f = y f) :
    InOrder d.keys x y ↔
      InOrder (splitEquality shape.equality.toList d.keys).rest x y := by
  conv_lhs => rw [← leading_append_rest_splitEquality shape.equality.toList d.keys]
  exact inOrder_append_of_agree fun k hk => hagree k.field (field_mem_of_mem_leading hk)

/-- Of two documents that an index has in order, and that agree on all equalities, a scan
meets the one first that may stand first in the sort. -/
theorem inOrder_sort_of_sortServed {shape : QueryShape} {d : IndexDefinition}
    (hserved : (of shape d).sortServed = true) (hagree : ∀ f ∈ shape.equality, x f = y f)
    (h : InOrder d.keys x y) :
    match (of shape d).scan with
    | .forward => InOrder shape.sort x y
    | .backward => InOrder shape.sort y x := by
  -- the block of equalities orders nothing, and the sort is the front of what follows it
  rw [inOrder_rest_of_agree hagree] at h
  obtain ⟨direction, hscan⟩ := Option.isSome_iff_exists.1 hserved
  have hdirection : (of shape d).scan = direction := by
    show Option.getD _ _ = _
    rw [hscan, Option.getD_some]
  rw [hdirection]
  cases direction with
  | forward =>
    obtain ⟨ls, hls⟩ := prefix_of_scanFor?_eq_forward hscan
    rw [← hls] at h
    exact h.of_append
  | backward =>
    obtain ⟨ls, hls⟩ := prefix_of_scanFor?_eq_backward hscan
    rw [← hls] at h
    exact inOrder_map_reversed.1 h.of_append

/-- **A served sort is a sort.**  If a match says that an index serves the sort of a query,
then documents with the same values for the equalities, in the order of the index, are met
by the scan in the order that the query has asked for.  That is the order of the sort as it
was asked for, with the keys that its shape has dropped. -/
theorem ordered_of_sortServed {predicates : List Predicate} {sort : List Key}
    {shape : QueryShape} (hshape : normalize predicates sort = .ok shape)
    (d : IndexDefinition) (hserved : (of shape d).sortServed = true)
    (docs : List (Document V))
    (hagree : ∀ x ∈ docs, ∀ y ∈ docs, ∀ f ∈ shape.equality, x f = y f)
    (hdocs : Ordered d.keys docs) : Ordered sort ((of shape d).scan.read docs) := by
  -- the keys that the shape has dropped are on fields on which all documents agree
  have hsort : ∀ x ∈ docs, ∀ y ∈ docs, InOrder shape.sort x y → InOrder sort x y := by
    intro x hx y hy h
    rw [sort_eq_filter_of_normalize_eq_ok hshape] at h
    refine (inOrder_filter_iff_of_agree fun k _ hk => ?_).1 h
    exact hagree x hx y hy k.field (by simpa using hk)
  have hpairs : docs.Pairwise fun x y =>
      match (of shape d).scan with
      | .forward => InOrder sort x y
      | .backward => InOrder sort y x := by
    refine List.Pairwise.imp_of_mem (fun {x y} hx hy h => ?_) hdocs
    have hscan := inOrder_sort_of_sortServed hserved (hagree x hx y hy) h
    cases hdirection : (of shape d).scan with
    | forward => exact hsort x hx y hy (by simpa only [hdirection] using hscan)
    | backward => exact hsort y hy x hx (by simpa only [hdirection] using hscan)
  cases hdirection : (of shape d).scan with
  | forward =>
    rw [hdirection] at hpairs
    exact hpairs
  | backward =>
    rw [hdirection] at hpairs
    exact List.pairwise_reverse.2 hpairs

/-- Orders by state, day and number, with the later days and the lower numbers last. -/
def ordersByDay : IndexDefinition where
  name := "orders_by_day"
  keys := [⟨"state", .desc⟩, ⟨"day", .asc⟩, ⟨"number", .desc⟩]
  named := by decide
  nodup := by decide
  fieldsNamed := by decide

/-- The shape of a query for orders in one state, the latest days first. -/
def latestInState : QueryShape where
  equality := ⟨["state"], by decide⟩
  sort := [⟨"day", .desc⟩, ⟨"number", .asc⟩]
  range := .empty
  nodup := by decide
  named := by decide

/-- The document of an order that is in the state `3`. -/
def orderDocument (day number : Nat) : Document Nat := fun f =>
  if f = "state" then 3 else if f = "day" then day else if f = "number" then number else 0

/-- Orders of two days in the order of `ordersByDay`. -/
def threeOrders : List (Document Nat) :=
  [orderDocument 1 8, orderDocument 1 5, orderDocument 2 9]

/-- A backward scan turns the order of an index into that of a sort which also names the
field with the equality. -/
theorem ordered_of_sortServed_latestInState :
    (of latestInState ordersByDay).sortServed = true ∧
      (of latestInState ordersByDay).scan = .backward ∧
      Ordered ordersByDay.keys threeOrders ∧
      Ordered [⟨"day", .desc⟩, ⟨"state", .asc⟩, ⟨"number", .asc⟩]
        ((of latestInState ordersByDay).scan.read threeOrders) := by
  have hshape : normalize [⟨"state", .eq (.ofNat 3)⟩]
      [⟨"day", .desc⟩, ⟨"state", .asc⟩, ⟨"number", .asc⟩] = .ok latestInState := rfl
  have hstate : ∀ x ∈ threeOrders, x "state" = 3 := by simp [threeOrders, orderDocument]
  have hagree : ∀ x ∈ threeOrders, ∀ y ∈ threeOrders, ∀ f ∈ latestInState.equality,
      x f = y f := by
    intro x hx y hy f hf
    rw [List.mem_singleton.1 hf, hstate x hx, hstate y hy]
  have hserved : (of latestInState ordersByDay).sortServed = true := by decide
  have hdocs : Ordered ordersByDay.keys threeOrders := by decide
  exact ⟨hserved, by decide, hdocs,
    ordered_of_sortServed hshape ordersByDay hserved threeOrders hagree hdocs⟩

end IndexMatch

end IndexPlanner
