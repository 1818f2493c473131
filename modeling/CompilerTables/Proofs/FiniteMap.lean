import Mathlib.Data.List.Nodup
import Std.Data.ExtTreeMap

/-!
# The entries of a finite map

A finite map lists its entries in the order of keys.  No key is listed twice, so to put in a new key
adds exactly one entry to the list, up to the place where it stands.
-/

namespace CompilerTables

variable {α β : Type} {cmp : α → α → Ordering} [Std.TransCmp cmp]

theorem nodup_map_fst_toList (map : Std.ExtTreeMap α β cmp) : (map.toList.map Prod.fst).Nodup := by
  rw [Std.ExtTreeMap.map_fst_toList_eq_keys]
  exact Std.ExtTreeMap.nodup_keys

theorem nodup_toList (map : Std.ExtTreeMap α β cmp) : map.toList.Nodup :=
  (nodup_map_fst_toList map).of_map _

/-- A new key adds its entry. -/
theorem toList_insert_perm [Std.LawfulEqCmp cmp] {map : Std.ExtTreeMap α β cmp} {key : α}
    (hnew : key ∉ map) (value : β) :
    (map.insert key value).toList.Perm ((key, value) :: map.toList) := by
  have hfresh : map[key]? = none := Std.ExtTreeMap.getElem?_eq_none hnew
  have hnodup : ((key, value) :: map.toList).Nodup := by
    rw [List.nodup_cons, Std.ExtTreeMap.mem_toList_iff_getElem?_eq_some, hfresh]
    exact ⟨Option.some_ne_none _ ∘ Eq.symm, nodup_toList map⟩
  rw [List.perm_ext_iff_of_nodup (nodup_toList _) hnodup]
  rintro ⟨key', value'⟩
  rw [List.mem_cons, Std.ExtTreeMap.mem_toList_iff_getElem?_eq_some,
    Std.ExtTreeMap.mem_toList_iff_getElem?_eq_some, Std.ExtTreeMap.getElem?_insert]
  by_cases hkey : key = key'
  · subst hkey
    rw [if_pos Std.ReflCmp.compare_self, hfresh]
    simp [eq_comm]
  · rw [if_neg (mt Std.LawfulEqCmp.eq_of_compare hkey)]
    simp [Ne.symm hkey]

/-- Entries with new keys that differ from each other are all added. -/
theorem toList_foldl_insert_perm [Std.LawfulEqCmp cmp] {map : Std.ExtTreeMap α β cmp}
    {entries : List (α × β)} (hnodup : ((map.toList ++ entries).map Prod.fst).Nodup) :
    (entries.foldl (fun map entry => map.insert entry.1 entry.2) map).toList.Perm
      (map.toList ++ entries) := by
  induction entries generalizing map with
  | nil =>
    rw [List.foldl_nil, List.append_nil]
  | cons entry rest ih =>
    obtain ⟨key, value⟩ := entry
    have hfirst : (((key, value) :: (map.toList ++ rest)).map Prod.fst).Nodup :=
      (List.perm_middle.map Prod.fst).nodup_iff.mp hnodup
    have hnew : key ∉ map := by
      intro hmem
      rw [List.map_cons, List.nodup_cons] at hfirst
      refine hfirst.1 (List.mem_map.mpr ⟨(key, map[key]), List.mem_append_left _ ?_, rfl⟩)
      exact Std.ExtTreeMap.mem_toList_iff_getElem?_eq_some.mpr
        (Std.ExtTreeMap.getElem?_eq_some_getElem hmem)
    have hadded : ((map.insert key value).toList ++ rest).Perm
        ((key, value) :: (map.toList ++ rest)) := (toList_insert_perm hnew value).append_right rest
    have hrest := ih ((hadded.map Prod.fst).nodup_iff.mpr hfirst)
    exact hrest.trans (hadded.trans List.perm_middle.symm)

/-- A map is what its entries say, whatever their order. -/
theorem eq_of_toList_perm [Std.LawfulEqCmp cmp] {map map' : Std.ExtTreeMap α β cmp}
    (h : map.toList.Perm map'.toList) : map = map' := by
  refine Std.ExtTreeMap.ext_getElem? fun key => Option.ext fun value => ?_
  rw [← Std.ExtTreeMap.mem_toList_iff_getElem?_eq_some,
    ← Std.ExtTreeMap.mem_toList_iff_getElem?_eq_some]
  exact h.mem_iff

/-- A map is built again from its entries in any order. -/
theorem foldl_insert_eq_of_perm [Std.LawfulEqCmp cmp] {map : Std.ExtTreeMap α β cmp}
    {entries : List (α × β)} (h : entries.Perm map.toList) :
    entries.foldl (fun map entry => map.insert entry.1 entry.2) ∅ = map := by
  have hempty : (∅ : Std.ExtTreeMap α β cmp).toList = [] := Std.ExtTreeMap.toList_eq_nil_iff.mpr rfl
  have hbuilt : (entries.foldl (fun map entry => map.insert entry.1 entry.2)
      (∅ : Std.ExtTreeMap α β cmp)).toList.Perm ((∅ : Std.ExtTreeMap α β cmp).toList ++ entries) :=
    toList_foldl_insert_perm (by
      rw [hempty, List.nil_append]
      exact (h.map Prod.fst).nodup_iff.mpr (nodup_map_fst_toList map))
  rw [hempty, List.nil_append] at hbuilt
  exact eq_of_toList_perm (hbuilt.trans h)

end CompilerTables
