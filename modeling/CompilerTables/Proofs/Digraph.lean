import Mathlib.Data.List.Nodup
import Mathlib.Logic.Relation
import CompilerTables.Digraph

/-!
# Paths in a directed graph

A path follows edges, each of which begins where the one before it ended.  Two edges may join the
same nodes, so a path is given by its edges, and two paths may differ although they visit the same
nodes.

* `exists_path_iff`: some path leads from one node to another exactly when finitely many steps along
  edges do.
* `Path.eq_of_isRoot`: where no node has more than one edge leading to it, a node is reached from
  the roots in one way at most, because the last edge of a path is the only one that could be.
-/

namespace CompilerTables
namespace Digraph

variable {ε : Type} {g : Digraph ε} {start start' mid stop k : Nat} {path path' : List (Edge ε)}
  {e e' : Edge ε}

/-! ## Paths -/

/-- Some edge leads from one node to another. -/
def Joined (g : Digraph ε) (k l : Nat) : Prop :=
  ∃ label, ⟨k, l, label⟩ ∈ g.edges

/-- A directed path from one node to another along these edges; the empty path stays where it is. -/
inductive Path (g : Digraph ε) (start : Nat) : List (Edge ε) → Nat → Prop where
  | nil : Path g start [] start
  | concat {path : List (Edge ε)} {mid stop : Nat} {label : ε} (h : Path g start path mid)
      (he : ⟨mid, stop, label⟩ ∈ g.edges) : Path g start (path ++ [⟨mid, stop, label⟩]) stop

/-- Paths are steps along edges. -/
theorem exists_path_iff :
    (∃ path, g.Path start path stop) ↔ Relation.ReflTransGen g.Joined start stop := by
  constructor
  · rintro ⟨path, h⟩
    induction h with
    | nil => exact .refl
    | concat _ he ih => exact ih.tail ⟨_, he⟩
  · intro h
    induction h with
    | refl => exact ⟨[], .nil⟩
    | tail _ hstep ih =>
      obtain ⟨path, hpath⟩ := ih
      obtain ⟨label, he⟩ := hstep
      exact ⟨_, hpath.concat he⟩

/-! ## Roots -/

/-- The number of edges that lead to a node. -/
def inDegree (g : Digraph ε) (k : Nat) : Nat :=
  g.edges.countP fun e => e.target = k

/-- A node to which no edge leads. -/
def IsRoot (g : Digraph ε) (k : Nat) : Prop :=
  k < g.nodes.length ∧ g.inDegree k = 0

theorem inDegree_eq_zero_iff : g.inDegree k = 0 ↔ ∀ e ∈ g.edges, e.target ≠ k := by
  simp only [inDegree, List.countP_eq_zero, decide_eq_true_eq, ne_eq]

/-- Edges to different targets. -/
theorem inDegree_le_one (h : g.edges.Pairwise fun e e' => e.target ≠ e'.target) (k : Nat) :
    g.inDegree k ≤ 1 := by
  have hcount : g.inDegree k = (g.edges.map Edge.target).count k := by
    rw [inDegree, List.count_eq_countP, List.countP_map]
    rfl
  rw [hcount]
  exact List.nodup_iff_count_le_one.mp (List.pairwise_map.mpr h) k

/-- An edge that is the only one to its target. -/
theorem eq_of_inDegree_le_one (hdegree : g.inDegree k ≤ 1) (he : e ∈ g.edges)
    (he' : e' ∈ g.edges) (htarget : e.target = k) (htarget' : e'.target = k) : e = e' := by
  unfold inDegree at hdegree
  rw [List.countP_eq_length_filter] at hdegree
  have hmem : e ∈ g.edges.filter fun e => e.target = k :=
    List.mem_filter.mpr ⟨he, decide_eq_true htarget⟩
  have hmem' : e' ∈ g.edges.filter fun e => e.target = k :=
    List.mem_filter.mpr ⟨he', decide_eq_true htarget'⟩
  cases hfilter : g.edges.filter fun e => e.target = k with
  | nil =>
    rw [hfilter] at hmem
    exact absurd hmem List.not_mem_nil
  | cons first rest =>
    rw [hfilter, List.length_cons] at hdegree
    have hrest : rest = [] := List.length_eq_zero_iff.mp (by omega)
    rw [hfilter, hrest, List.mem_singleton] at hmem hmem'
    rw [hmem, hmem']

/-- No path ends in a root but the empty one. -/
theorem Path.eq_nil_of_isRoot (h : g.Path start path stop) (hroot : g.IsRoot stop) :
    start = stop ∧ path = [] := by
  cases h with
  | nil => exact ⟨rfl, rfl⟩
  | concat _ he => exact absurd rfl (inDegree_eq_zero_iff.mp hroot.2 _ he)

/-- **Paths from roots are unique** where no node has more than one edge leading to it. -/
theorem Path.eq_of_isRoot (hdegree : ∀ k, g.inDegree k ≤ 1) (h : g.Path start path stop)
    (h' : g.Path start' path' stop) (hroot : g.IsRoot start) (hroot' : g.IsRoot start') :
    start' = start ∧ path' = path := by
  induction h generalizing path' with
  | nil => exact h'.eq_nil_of_isRoot hroot
  | @concat path mid stop label _ he ih =>
    cases h' with
    | nil => exact absurd rfl (inDegree_eq_zero_iff.mp hroot'.2 _ he)
    | concat h' he' =>
      have hlast := eq_of_inDegree_le_one (hdegree stop) he he' rfl rfl
      cases hlast
      obtain ⟨rfl, rfl⟩ := ih h'
      exact ⟨rfl, rfl⟩

end Digraph
end CompilerTables
