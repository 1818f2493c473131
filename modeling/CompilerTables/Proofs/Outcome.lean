import Mathlib.Data.List.Forall2
import Mathlib.Order.Bounds.Basic

/-!
# Computations that may fail

When a computation of several steps comes to a result, every step came to a result.  The lemmas of
this file take such a computation apart, step by step, so that what is proved of the steps can be
put together without running them again.
-/

namespace CompilerTables

variable {ε ε' α β : Type}

/-- Whether a computation comes to a result can be looked up. -/
theorem exists_ok_of_isSome {x : Except ε α} (h : x.toOption.isSome) : ∃ y, x = .ok y := by
  cases x with
  | error e => cases h
  | ok y => exact ⟨y, rfl⟩

theorem toOption_eq_some_iff {x : Except ε α} {y : α} : x.toOption = some y ↔ x = .ok y := by
  cases x with
  | error e => exact iff_of_false nofun nofun
  | ok z => exact Option.some_inj.trans (Except.ok.injEq z y).to_iff.symm

theorem bind_eq_ok_iff {x : Except ε α} {f : α → Except ε β} {z : β} :
    x >>= f = .ok z ↔ ∃ y, x = .ok y ∧ f y = .ok z := by
  cases x with
  | error e =>
    constructor
    · intro h
      cases h
    · rintro ⟨y, hy, -⟩
      cases hy
  | ok y =>
    constructor
    · exact fun h => ⟨y, rfl, h⟩
    · rintro ⟨_, hy, hz⟩
      cases hy
      exact hz

/-- Renaming the error does not change the result. -/
theorem mapError_eq_ok_iff {x : Except ε α} {f : ε → ε'} {y : α} :
    x.mapError f = .ok y ↔ x = .ok y := by
  cases x with
  | error e => exact iff_of_false (fun h => by cases h) fun h => by cases h
  | ok y' => exact ⟨fun h => congrArg Except.ok (Except.ok.inj h), fun h => by rw [h]; rfl⟩

/-- A computation on each element of a list comes to a list of results when each of them comes to
its own result. -/
theorem mapM_eq_ok_iff {f : α → Except ε β} {xs : List α} {ys : List β} :
    xs.mapM f = .ok ys ↔ List.Forall₂ (fun x y => f x = .ok y) xs ys := by
  induction xs generalizing ys with
  | nil =>
    rw [List.mapM_nil, List.forall₂_nil_left_iff]
    exact ⟨fun h => (Except.ok.inj h).symm, fun h => by rw [h]; rfl⟩
  | cons x xs ih =>
    rw [List.mapM_cons, bind_eq_ok_iff]
    constructor
    · rintro ⟨y, hy, hrest⟩
      obtain ⟨ys', hys', hresult⟩ := bind_eq_ok_iff.mp hrest
      cases hresult
      exact .cons hy (ih.mp hys')
    · intro h
      cases h with
      | cons hy hrest => exact ⟨_, hy, bind_eq_ok_iff.mpr ⟨_, ih.mpr hrest, rfl⟩⟩

/-- The same for a computation that gives a reason for no failure. -/
theorem mapM_eq_some_of_forall₂ {f : α → Option β} {xs : List α} {ys : List β}
    (h : List.Forall₂ (fun x y => f x = some y) xs ys) : xs.mapM f = some ys := by
  induction h with
  | nil => exact List.mapM_nil
  | cons hy _ ih =>
    rw [List.mapM_cons, hy, ih]
    rfl

/-! ## Whether there is a result

What a computation comes to is one thing, and whether it comes to anything is another: that can
often be said without the result. -/

theorem not_exists_error_eq_ok {e : ε} : ¬ ∃ y : α, Except.error e = .ok y := by
  rintro ⟨y, hy⟩
  cases hy

theorem exists_mapError_eq_ok_iff {x : Except ε α} {f : ε → ε'} :
    (∃ y, x.mapError f = .ok y) ↔ ∃ y, x = .ok y :=
  exists_congr fun _ => mapError_eq_ok_iff

/-- Two steps come to a result when both do, provided that it does not depend on the result of the
first whether the second does. -/
theorem exists_bind_eq_ok_iff {x : Except ε α} {f : α → Except ε β} {P : Prop}
    (hnext : ∀ y, x = .ok y → ((∃ z, f y = .ok z) ↔ P)) :
    (∃ z, x >>= f = .ok z) ↔ (∃ y, x = .ok y) ∧ P := by
  simp only [bind_eq_ok_iff]
  constructor
  · rintro ⟨z, y, hy, hz⟩
    exact ⟨⟨y, hy⟩, (hnext y hy).mp ⟨z, hz⟩⟩
  · rintro ⟨⟨y, hy⟩, hP⟩
    obtain ⟨z, hz⟩ := (hnext y hy).mpr hP
    exact ⟨z, y, hy, hz⟩

/-- A last step that only puts the result into shape does not fail. -/
theorem exists_bind_pure_eq_ok_iff {x : Except ε α} {f : α → β} :
    (∃ z, (x >>= fun y => pure (f y)) = .ok z) ↔ ∃ y, x = .ok y := by
  have hshape : ∀ y, (∃ z, (pure (f y) : Except ε β) = .ok z) ↔ True := fun y =>
    iff_true_intro ⟨f y, rfl⟩
  exact (exists_bind_eq_ok_iff fun y _ => hshape y).trans (and_iff_left trivial)

/-- A computation on each element of a list comes to a result when each of them does. -/
theorem exists_mapM_eq_ok_iff {f : α → Except ε β} {xs : List α} :
    (∃ ys, xs.mapM f = .ok ys) ↔ ∀ x ∈ xs, ∃ y, f x = .ok y := by
  induction xs with
  | nil => exact iff_of_true ⟨[], rfl⟩ nofun
  | cons x xs ih =>
    rw [List.mapM_cons, List.forall_mem_cons, ← ih]
    exact exists_bind_eq_ok_iff fun y _ => exists_bind_pure_eq_ok_iff

/-- A computation that goes through a list comes to a result when no element stops it, provided that
an element stops it wherever it stands. -/
theorem exists_foldlM_eq_ok_iff {f : β → α → Except ε β} {P : α → Prop}
    (hstep : ∀ y x, (∃ z, f y x = .ok z) ↔ P x) {xs : List α} {y : β} :
    (∃ z, xs.foldlM f y = .ok z) ↔ ∀ x ∈ xs, P x := by
  induction xs generalizing y with
  | nil => exact iff_of_true ⟨y, rfl⟩ nofun
  | cons x xs ih =>
    rw [List.forall_mem_cons, List.foldlM_cons, ← hstep y]
    exact exists_bind_eq_ok_iff fun _ _ => ih

/-! ## Where an error comes from -/

/-- The reason why a computation came to no result. -/
def fault? : Except ε α → Option ε
  | .error e => some e
  | .ok _ => none

theorem fault?_eq_some_iff {x : Except ε α} {e : ε} : fault? x = some e ↔ x = .error e := by
  cases x with
  | error e' => exact Option.some_inj.trans (Except.error.injEq e' e).to_iff.symm
  | ok y => exact iff_of_false nofun nofun

theorem fault?_eq_none_iff {x : Except ε α} : fault? x = none ↔ ∃ y, x = .ok y := by
  cases x with
  | error e => exact iff_of_false nofun not_exists_error_eq_ok
  | ok y => exact iff_of_true rfl ⟨y, rfl⟩

theorem bind_eq_error_iff {x : Except ε α} {f : α → Except ε β} {e : ε} :
    x >>= f = .error e ↔ x = .error e ∨ ∃ y, x = .ok y ∧ f y = .error e := by
  cases x with
  | error e' =>
    constructor
    · intro h
      cases h
      exact .inl rfl
    · rintro (h | ⟨y, hy, -⟩)
      · cases h
        rfl
      · cases hy
  | ok y =>
    constructor
    · exact fun h => .inr ⟨y, rfl, h⟩
    · rintro (h | ⟨_, hy, he⟩)
      · cases h
      · cases hy
        exact he

theorem mapError_eq_error_iff {x : Except ε α} {f : ε → ε'} {e' : ε'} :
    x.mapError f = .error e' ↔ ∃ e, x = .error e ∧ f e = e' := by
  cases x with
  | error e =>
    constructor
    · exact fun h => ⟨e, rfl, Except.error.inj h⟩
    · rintro ⟨_, he, rfl⟩
      cases he
      rfl
  | ok y => exact iff_of_false (fun h => by cases h) fun ⟨_, he, _⟩ => by cases he

/-- An error of a computation on each element is an error on one of them. -/
theorem exists_mem_of_mapM_eq_error {f : α → Except ε β} {xs : List α} {e : ε}
    (h : xs.mapM f = .error e) : ∃ x ∈ xs, f x = .error e := by
  induction xs with
  | nil => cases h
  | cons x xs ih =>
    rw [List.mapM_cons] at h
    rcases bind_eq_error_iff.mp h with hx | ⟨y, -, hrest⟩
    · exact ⟨x, List.mem_cons_self, hx⟩
    · rcases bind_eq_error_iff.mp hrest with hxs | ⟨ys, -, hresult⟩
      · obtain ⟨x', hx', hfault⟩ := ih hxs
        exact ⟨x', List.mem_cons_of_mem x hx', hfault⟩
      · cases hresult

/-- An error of a computation that goes through a list is an error at one of the elements. -/
theorem exists_mem_of_foldlM_eq_error {f : β → α → Except ε β} {xs : List α} {y : β} {e : ε}
    (h : xs.foldlM f y = .error e) : ∃ x ∈ xs, ∃ y', f y' x = .error e := by
  induction xs generalizing y with
  | nil => cases h
  | cons x xs ih =>
    rw [List.foldlM_cons] at h
    rcases bind_eq_error_iff.mp h with hx | ⟨y', -, hrest⟩
    · exact ⟨x, List.mem_cons_self, y, hx⟩
    · obtain ⟨x', hx', hfault⟩ := ih hrest
      exact ⟨x', List.mem_cons_of_mem x hx', hfault⟩

/-! ## Lists taken step by step

A machine that may get stuck takes a list if it gets through all the elements. -/

section Takes

variable {σ : Type} {step : σ → α → Option σ} {s s' s'' : σ} {x : α} {xs xs' : List α}

/-- Taking the elements of a list one after the other leads from one state to another. -/
def Takes (step : σ → α → Option σ) (s : σ) (xs : List α) (s' : σ) : Prop :=
  xs.foldlM step s = some s'

namespace Takes

theorem nil : Takes step s [] s := rfl

theorem cons (hstep : step s x = some s') (hrest : Takes step s' xs s'') :
    Takes step s (x :: xs) s'' := by
  rw [Takes, List.foldlM_cons, hstep]
  exact hrest

theorem append (hfirst : Takes step s xs s') (hrest : Takes step s' xs' s'') :
    Takes step s (xs ++ xs') s'' := by
  rw [Takes, List.foldlM_append, hfirst]
  exact hrest

theorem single (hstep : step s x = some s') : Takes step s [x] s' := cons hstep nil

theorem exists_of_cons (h : Takes step s (x :: xs) s'') :
    ∃ s', step s x = some s' ∧ Takes step s' xs s'' := by
  rw [Takes, List.foldlM_cons] at h
  exact Option.bind_eq_some_iff.mp h

end Takes

end Takes

/-! ## The first fault

A check that goes through a list in order stops at the first element that is at fault. -/

/-- A search finds what it finds at the first place where there is anything to find. -/
theorem findSome?_eq_some_iff_getElem? {f : α → Option β} {xs : List α} {y : β} :
    xs.findSome? f = some y ↔
      ∃ (k : Nat) (x : α), xs[k]? = some x ∧ f x = some y ∧
        ∀ j < k, ∀ x', xs[j]? = some x' → f x' = none := by
  rw [List.findSome?_eq_some_iff]
  constructor
  · rintro ⟨before, x, after, rfl, hfound, hnone⟩
    refine ⟨before.length, x, ?_, hfound, fun j hj x' hx' => hnone x' ?_⟩
    · rw [List.getElem?_append_right (Nat.le_refl _), Nat.sub_self, List.getElem?_cons_zero]
    · rw [List.getElem?_append_left hj] at hx'
      exact List.mem_of_getElem? hx'
  · rintro ⟨k, x, hx, hfound, hnone⟩
    obtain ⟨hlt, rfl⟩ := List.getElem?_eq_some_iff.mp hx
    refine ⟨xs.take k, xs[k], xs.drop (k + 1), ?_, hfound, fun x' hx' => ?_⟩
    · rw [← List.drop_eq_getElem_cons hlt, List.take_append_drop]
    · obtain ⟨j, hj, rfl⟩ := List.mem_take_iff_getElem.mp hx'
      exact hnone j (Nat.lt_of_lt_of_le hj (Nat.min_le_left _ _)) _ (List.getElem?_eq_getElem _)

section Least

variable {xs : List α} {y : β} {P : Nat → Prop}

/-- If `P` says of a place that there is anything to find, a search stops at the least such
place. -/
theorem findSome?_eq_some_iff_isLeast {f : α → Option β}
    (hP : ∀ k : Nat, P k ↔ ∃ x, xs[k]? = some x ∧ f x ≠ none) :
    xs.findSome? f = some y ↔
      ∃ (k : Nat) (x : α), xs[k]? = some x ∧ IsLeast {k | P k} k ∧ f x = some y := by
  rw [findSome?_eq_some_iff_getElem?]
  refine exists_congr fun k => exists_congr fun x => and_congr_right fun hx => ?_
  constructor
  · rintro ⟨hfound, hnone⟩
    have hk : P k := (hP k).mpr ⟨x, hx, by rw [hfound]; nofun⟩
    refine ⟨⟨hk, fun j hj => Nat.le_of_not_lt fun hlt => ?_⟩, hfound⟩
    obtain ⟨x', hx', hne⟩ := (hP j).mp hj
    exact hne (hnone j hlt x' hx')
  · rintro ⟨⟨-, hleast⟩, hfound⟩
    refine ⟨hfound, fun j hj x' hx' => ?_⟩
    by_contra hne
    exact Nat.not_le_of_lt hj (hleast ((hP j).mpr ⟨x', hx', hne⟩))

theorem findSome?_eq_none_iff_forall_not {f : α → Option β}
    (hP : ∀ k : Nat, P k ↔ ∃ x, xs[k]? = some x ∧ f x ≠ none) :
    xs.findSome? f = none ↔ ∀ k, ¬ P k := by
  rw [List.findSome?_eq_none_iff]
  simp only [hP, List.mem_iff_getElem?]
  grind

theorem getElem?_zipIdx_eq_some_iff {k : Nat} {p : α × Nat} :
    xs.zipIdx[k]? = some p ↔ ∃ x, xs[k]? = some x ∧ (x, k) = p := by
  rw [List.getElem?_zipIdx, Option.map_eq_some_iff, Nat.zero_add]

variable {f : α × Nat → Option β} (hP : ∀ k : Nat, P k ↔ ∃ x, xs[k]? = some x ∧ f (x, k) ≠ none)
include hP

/-- The same for a search that looks at each element together with its place. -/
theorem findSome?_zipIdx_eq_some_iff_isLeast :
    xs.zipIdx.findSome? f = some y ↔
      ∃ (k : Nat) (x : α), xs[k]? = some x ∧ IsLeast {k | P k} k ∧ f (x, k) = some y := by
  rw [findSome?_eq_some_iff_isLeast (P := P)]
  · simp only [getElem?_zipIdx_eq_some_iff]
    grind
  · simp only [getElem?_zipIdx_eq_some_iff, hP]
    grind

theorem findSome?_zipIdx_eq_none_iff_forall_not :
    xs.zipIdx.findSome? f = none ↔ ∀ k, ¬ P k := by
  refine findSome?_eq_none_iff_forall_not fun k => ?_
  simp only [getElem?_zipIdx_eq_some_iff, hP]
  grind

end Least

/-- A search through lists that follow each other searches one list after the other. -/
theorem findSome?_flatMap {γ : Type} (f : β → Option γ) (lists : α → List β) (xs : List α) :
    (xs.flatMap lists).findSome? f = xs.findSome? fun x => (lists x).findSome? f := by
  induction xs with
  | nil => rfl
  | cons x xs ih =>
    rw [List.flatMap_cons, List.findSome?_append, ih, List.findSome?_cons]
    cases (lists x).findSome? f <;> rfl

/-! ## Results in their places -/

section Rel

variable {r : α → β → Prop} {x : α} {y : β}

theorem exists_of_rel_some_left {y? : Option β} (h : Option.Rel r (some x) y?) :
    ∃ y, y? = some y ∧ r x y := by
  cases h with
  | some hr => exact ⟨_, rfl, hr⟩

theorem exists_of_rel_some_right {x? : Option α} (h : Option.Rel r x? (some y)) :
    ∃ x, x? = some x ∧ r x y := by
  cases h with
  | some hr => exact ⟨_, rfl, hr⟩

end Rel

/-- In two lists that correspond, every element of the second has one of the first. -/
theorem exists_mem_of_forall₂ {r : α → β → Prop} {xs : List α} {ys : List β}
    (h : List.Forall₂ r xs ys) {y : β} (hy : y ∈ ys) : ∃ x ∈ xs, r x y := by
  induction h with
  | nil => cases hy
  | cons hr _ ih =>
    rcases List.mem_cons.mp hy with rfl | hy
    · exact ⟨_, List.mem_cons_self, hr⟩
    · obtain ⟨x, hx, hrest⟩ := ih hy
      exact ⟨x, List.mem_cons_of_mem _ hx, hrest⟩

/-- Two lists that correspond have all their elements in corresponding sets, or neither has. -/
theorem forall_mem_iff_of_forall₂ {r : α → β → Prop} {P : α → Prop} {Q : β → Prop} {xs : List α}
    {ys : List β} (h : List.Forall₂ r xs ys) (hiff : ∀ x y, r x y → (P x ↔ Q y)) :
    (∀ x ∈ xs, P x) ↔ ∀ y ∈ ys, Q y := by
  induction h with
  | nil => exact iff_of_true nofun nofun
  | cons hr _ ih => rw [List.forall_mem_cons, List.forall_mem_cons, hiff _ _ hr, ih]

/-- A computation on each element and its place comes to results that stand in the same places. -/
theorem rel_getElem?_of_mapM_zipIdx {f : α × Nat → Except ε β} {xs : List α} {ys : List β}
    (h : xs.zipIdx.mapM f = .ok ys) (k : Nat) :
    Option.Rel (fun x y => f (x, k) = .ok y) xs[k]? ys[k]? := by
  have hpointwise := mapM_eq_ok_iff.mp h
  have hlength : xs.length = ys.length := by
    rw [← hpointwise.length_eq, List.length_zipIdx]
  by_cases hk : k < xs.length
  · have hfirst : k < xs.zipIdx.length := by rwa [List.length_zipIdx]
    have hget := hpointwise.get hfirst (hlength ▸ hk)
    rw [List.getElem?_eq_getElem hk, List.getElem?_eq_getElem (hlength ▸ hk)]
    simp only [List.get_eq_getElem, List.getElem_zipIdx, Nat.zero_add] at hget
    exact .some hget
  · rw [List.getElem?_eq_none (Nat.le_of_not_lt hk),
      List.getElem?_eq_none (hlength ▸ Nat.le_of_not_lt hk)]
    exact .none

end CompilerTables
