import Mathlib.Data.List.Nodup
import CompilerTables.Parsing.Grammar

/-!
# The numbers of productions

A production is referred to by its position, but items hold copies of their productions, and the
position of a copy is searched for.  Since no production is listed twice, the search finds the
position that the copy was taken from (`Grammar.indexOf?_eq_some_iff`).
-/

namespace CompilerTables
namespace Parsing
namespace Grammar

variable {g : Grammar} {p q : Production} {k : Nat}

/-- Positions and productions determine each other. -/
theorem indexOf?_eq_some_iff : g.indexOf? p = some k ↔ g.production? k = some p := by
  rw [indexOf?, idxOf?_eq_some_iff, production?, Array.getElem?_eq_some_iff]
  constructor
  · rintro ⟨hlt, hp, -⟩
    exact ⟨hlt, hp⟩
  · rintro ⟨hlt, hp⟩
    refine ⟨hlt, hp, fun j hj hequal => ?_⟩
    have hne := List.nodup_iff_getElem?_ne_getElem?.mp g.nodup j k hj hlt
    rw [Array.getElem?_toList, Array.getElem?_toList, Array.getElem?_eq_getElem hlt, hp,
      Array.getElem?_eq_getElem (Nat.lt_trans hj hlt), hequal] at hne
    exact hne rfl

/-- A production that is not listed has no position. -/
theorem indexOf?_eq_none_iff : g.indexOf? p = none ↔ p ∉ g.productions :=
  Array.idxOf?_eq_none_iff

/-- Two productions are not told apart by their positions only if neither of them is listed. -/
theorem indexOf?_eq_indexOf?_iff :
    g.indexOf? p = g.indexOf? q ↔ p = q ∨ p ∉ g.productions ∧ q ∉ g.productions := by
  constructor
  · intro hequal
    cases hq : g.indexOf? q with
    | none => exact .inr ⟨indexOf?_eq_none_iff.mp (hequal.trans hq), indexOf?_eq_none_iff.mp hq⟩
    | some k =>
      have hfirst := indexOf?_eq_some_iff.mp (hequal.trans hq)
      have hsecond := indexOf?_eq_some_iff.mp hq
      exact .inl (Option.some_inj.mp (hfirst.symm.trans hsecond))
  · rintro (rfl | ⟨hp, hq⟩)
    · rfl
    · rw [indexOf?_eq_none_iff.mpr hp, indexOf?_eq_none_iff.mpr hq]

theorem production?_augmented (g : Grammar) :
    g.production? g.augmented = some g.augmentedProduction :=
  Array.getElem?_eq_getElem g.augmented_lt

theorem augmentedProduction_mem (g : Grammar) : g.augmentedProduction ∈ g.productions :=
  Array.mem_of_getElem? g.production?_augmented

/-- No other production has the position of the augmented one. -/
theorem indexOf?_eq_some_augmented_iff :
    g.indexOf? p = some g.augmented ↔ p = g.augmentedProduction := by
  rw [indexOf?_eq_some_iff, production?_augmented, Option.some_inj, eq_comm]

/-- The augmented production is recognised by its position. -/
theorem eq_augmentedProduction_iff (h : g.production? k = some p) :
    p = g.augmentedProduction ↔ k = g.augmented := by
  rw [← indexOf?_eq_some_augmented_iff, indexOf?_eq_some_iff.mpr h, Option.some_inj]

end Grammar
end Parsing
end CompilerTables
