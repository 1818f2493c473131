import CompilerTables.Proofs.Scoping.Nesting

/-!
# The history only grows

A table never forgets: a request may open one more scope or store one more entry, and everything
that was there before stays as it is.  `SymbolTable.Appends` says this of one request, in terms of
the records of scopes and of the entries in them (`SymbolTable.declared?`), and `Appends.of_change`
that it holds of every change.

What a request stores goes to the current scope, so a scope that is not open is out of reach.  A
request makes no scope open again either: it opens a new scope, or leaves the innermost one, or
leaves the open ones as they are (`isOpen_of_change`).  Together, a scope that was left stays closed
and keeps its record through every later run (`closed_after`).  This is the half of the main
statement, `history_append_only`, that no single request shows.
-/

namespace CompilerTables
namespace Scoping

/-- The entry that a request stores, given its outcome: the given one with its address filled in,
and as a constant if it was declared as one. -/
def Request.stored? : Request → Except ScopingError Answer → Option Entry
  | .declare e, .ok (.declared address) => some { e with address }
  | .declareConstant e, .ok .constantDeclared => some { e with kind := .constant, address := none }
  | _, _ => none

namespace SymbolTable

variable {t t' : SymbolTable} {request : Request} {result : Except ScopingError Answer}
  {scope : Scope} {e : Entry} {k id : Nat} {name : String}

/-! ## Entries by scope and name -/

/-- The entry under a name in the scope with a number, if there is one. -/
def declared? (t : SymbolTable) (k : Nat) (name : String) : Option Entry :=
  (t.scope? k).bind fun scope => scope.entries[name]?

theorem declared?_eq (hk : t.scopes[k]? = some scope) (name : String) :
    t.declared? k name = scope.entries[name]? := by
  rw [declared?, scope?, hk, Option.bind_some]

theorem declared?_congr (h : t'.scopes[k]? = t.scopes[k]?) (name : String) :
    t'.declared? k name = t.declared? k name := by
  rw [declared?, declared?, scope?, scope?, h]

/-- A scope that was just opened holds nothing. -/
theorem declared?_enter (t : SymbolTable) (k : Nat) (name : String) :
    t.enter.declared? k name = t.declared? k name := by
  by_cases hk : k = t.scopes.size
  · have hnew : t.enter.scopes[k]? = some t.nextScope := by rw [getElem?_scopes_enter, if_pos hk]
    have hold : t.scopes[k]? = none := Array.getElem?_eq_none (by omega)
    rw [declared?_eq hnew, entries_nextScope, declared?, scope?, hold, Option.bind_none]
    exact Std.ExtTreeMap.getElem?_empty
  · refine declared?_congr ?_ name
    rw [getElem?_scopes_enter, if_neg hk]

/-- A declaration puts its entry in the current scope, and no other entry changes. -/
theorem declared?_accept (hget : t.scopes[scope.id]? = some scope) (e : Entry) (k : Nat)
    (name : String) :
    (t.accept scope e).declared? k name =
      if scope.id = k ∧ e.name = name then some (t.placed e) else t.declared? k name := by
  by_cases hk : scope.id = k
  · subst hk
    have hnew : (t.accept scope e).scopes[scope.id]? = some (scope.insert (t.placed e)) := by
      rw [getElem?_scopes_accept, if_pos rfl, hget, Option.map_some]
    rw [declared?_eq hnew, declared?_eq hget, Scope.getElem?_entries_insert]
    simp only [true_and]
    rfl
  · rw [if_neg fun h => hk h.1]
    refine declared?_congr ?_ name
    rw [getElem?_scopes_accept, if_neg hk]

/-! ## One request -/

/-- A request only adds to a table.  It opens one more scope if it asks for that, whatever becomes
of the hook.  Every scope keeps its place in the nesting and every entry stays.  An entry that is
new is the one that the request stores, in the current scope and under a name that was absent
there. -/
structure Appends (t : SymbolTable) (request : Request) (result : Except ScopingError Answer)
    (t' : SymbolTable) : Prop where
  size_eq : t'.scopes.size = t.scopes.size + if request = .enter then 1 else 0
  scope_kept : ∀ {k : Nat} {scope : Scope}, t.scopes[k]? = some scope →
    ∃ scope', t'.scopes[k]? = some scope' ∧ scope'.id = scope.id ∧ scope'.level = scope.level ∧
      scope'.parent = scope.parent
  entry_kept : ∀ {k : Nat} {name : String} {e : Entry}, t.declared? k name = some e →
    t'.declared? k name = some e
  new_entry_iff : ∀ {k : Nat} {name : String} {e : Entry}, t.declared? k name = none →
    (t'.declared? k name = some e ↔
      t.current = some k ∧ request.stored? result = some e ∧ e.name = name)
  absent_before : ∀ {e : Entry}, request.stored? result = some e →
    ∃ k, t.current = some k ∧ t.declared? k e.name = none

namespace Appends

/-- The entries afterwards are the old ones and the one that the request stores. -/
theorem declared?_eq_some_iff (h : t.Appends request result t') :
    t'.declared? k name = some e ↔ t.declared? k name = some e ∨
      t.current = some k ∧ request.stored? result = some e ∧ e.name = name := by
  cases hold : t.declared? k name with
  | none => rw [h.new_entry_iff hold, or_iff_right nofun]
  | some old =>
    rw [h.entry_kept hold]
    refine ⟨Or.inl, fun hnew => hnew.resolve_right ?_⟩
    -- a name that is stored was absent from the current scope
    rintro ⟨hcurrent, hstored, rfl⟩
    obtain ⟨id, hid, habsent⟩ := h.absent_before hstored
    rw [hcurrent, Option.some_inj] at hid
    rw [← hid, hold] at habsent
    cases habsent

/-- A request that leaves the scopes alone and stores nothing. -/
theorem of_scopes_eq (hscopes : t'.scopes = t.scopes) (hrequest : request ≠ .enter)
    (hstored : request.stored? result = none) : t.Appends request result t' := by
  have hentry : ∀ k name, t'.declared? k name = t.declared? k name := fun k name =>
    declared?_congr (by rw [hscopes]) name
  refine ⟨?_, fun {k scope} hk => ?_, fun {k name e} he => ?_, fun {k name e} hnone => ?_,
    fun {e} he => ?_⟩
  · rw [hscopes, if_neg hrequest, Nat.add_zero]
  · exact ⟨scope, by rw [hscopes, hk], rfl, rfl, rfl⟩
  · rw [hentry, he]
  · rw [hentry, hnone, hstored]
    simp
  · rw [hstored] at he
    cases he

theorem enter (t : SymbolTable) (result : Except ScopingError Answer) :
    t.Appends .enter result t.enter := by
  have hstored : Request.enter.stored? result = none := by cases result <;> rfl
  refine ⟨?_, fun {k scope} hk => ?_, fun {k name e} he => ?_, fun {k name e} hnone => ?_,
    fun {e} he => ?_⟩
  · show (t.scopes.push t.nextScope).size = _
    rw [Array.size_push, if_pos rfl]
  · exact ⟨scope, getElem?_scopes_enter_eq_some_iff.mpr (.inr hk), rfl, rfl, rfl⟩
  · rw [declared?_enter, he]
  · rw [declared?_enter, hnone, hstored]
    simp
  · rw [hstored] at he
    cases he

/-- A declaration that succeeds. -/
theorem accept (hwf : t.WellFormed) (haccepts : t.Accepts scope e) (hrequest : request ≠ .enter)
    (hstored : request.stored? result = some (t.placed e)) :
    t.Appends request result (t.accept scope e) := by
  obtain ⟨hcurrent, hget⟩ := hwf.current_eq haccepts.current
  have habsent : t.declared? scope.id e.name = none := by
    rw [declared?_eq hget]
    exact Std.ExtTreeMap.getElem?_eq_none haccepts.fresh
  refine ⟨?_, fun {k old} hk => ?_, fun {k name e'} he => ?_, fun {k name e'} hnone => ?_,
    fun {e'} he => ?_⟩
  · rw [size_scopes_accept, if_neg hrequest, Nat.add_zero]
  · rw [getElem?_scopes_accept, hk]
    split
    · exact ⟨_, rfl, rfl, rfl, rfl⟩
    · exact ⟨old, rfl, rfl, rfl, rfl⟩
  · -- the place of the new entry was empty, so an old entry is somewhere else
    have hother : ¬ (scope.id = k ∧ e.name = name) := by
      rintro ⟨rfl, rfl⟩
      rw [habsent] at he
      cases he
    rw [declared?_accept hget, if_neg hother, he]
  · rw [declared?_accept hget, hcurrent, hstored, hnone]
    constructor
    · intro h
      split at h
      · next hplace =>
        cases h
        exact ⟨by rw [hplace.1], rfl, hplace.2⟩
      · cases h
    · rintro ⟨hk, he, hname⟩
      cases hk
      cases he
      exact if_pos ⟨rfl, hname⟩
  · rw [hstored] at he
    cases he
    exact ⟨scope.id, hcurrent, habsent⟩

/-- **Every change only adds.** -/
theorem of_change (hchange : t.Change request result t') (hwf : t.WellFormed) :
    t.Appends request result t' := by
  cases hchange with
  | entered hresult => exact enter t _
  | left hcurrent => exact of_scopes_eq rfl (by simp) rfl
  | declared haccepts => exact accept hwf haccepts (by simp) rfl
  | constantDeclared haccepts => exact accept hwf haccepts (by simp) rfl
  | allocated hsize hroom => exact of_scopes_eq rfl (by simp) rfl
  | found hlookup => exact of_scopes_eq rfl (by simp) rfl
  | refused hrequest => exact of_scopes_eq rfl hrequest (by cases request <;> rfl)

end Appends

/-! ## Open scopes -/

/-- A scope is open when it is the current one or around the current one. -/
def IsOpen (t : SymbolTable) (id : Nat) : Prop :=
  ∃ scope ∈ t.openScopes, scope.id = id

/-- The current scope is the youngest of the open ones. -/
theorem IsOpen.le_current (hwf : t.WellFormed) (hopen : t.IsOpen id) :
    ∃ current, t.current = some current ∧ id ≤ current := by
  obtain ⟨scope, hmem, rfl⟩ := hopen
  unfold openScopes at hmem
  split at hmem
  · exact absurd hmem List.not_mem_nil
  · next current hcurrent => exact ⟨current, hcurrent, id_le_of_mem_ancestors hwf hmem⟩

theorem isOpen_of_current (hwf : t.WellFormed) (hid : t.current = some id) : t.IsOpen id := by
  obtain ⟨scope, hscope, rfl⟩ := hwf.current?_of_current hid
  obtain ⟨outer, hopen, -⟩ := openScopes_of_current hwf hscope
  exact ⟨scope, by rw [hopen]; exact List.mem_cons_self, rfl⟩

/-- No request opens a scope again. -/
theorem isOpen_of_change (hchange : t.Change request result t') (hwf : t.WellFormed)
    (hlt : id < t.scopes.size) (hopen : t'.IsOpen id) : t.IsOpen id := by
  obtain ⟨inner, hmem, hid⟩ := hopen
  -- a declaration gives the innermost scope a new record with the same number
  have haccept : ∀ {scope e}, t.Accepts scope e → inner ∈ (t.accept scope e).openScopes →
      t.IsOpen id := by
    intro scope e haccepts hmem
    obtain ⟨outer, hopen, hnew⟩ := openScopes_accept hwf haccepts.current e
    rw [hnew, List.mem_cons] at hmem
    rcases hmem with rfl | hmem
    · exact ⟨scope, by rw [hopen]; exact List.mem_cons_self, hid⟩
    · exact ⟨inner, by rw [hopen]; exact List.mem_cons_of_mem _ hmem, hid⟩
  cases hchange with
  | entered hresult =>
    rw [openScopes_enter hwf, List.mem_cons] at hmem
    rcases hmem with rfl | hmem
    · rw [id_nextScope] at hid
      omega
    · exact ⟨inner, hmem, hid⟩
  | left hcurrent =>
    obtain ⟨outer, hopen, hleft⟩ := openScopes_of_current hwf hcurrent
    rw [hleft] at hmem
    exact ⟨inner, by rw [hopen]; exact List.mem_cons_of_mem _ hmem, hid⟩
  | declared haccepts => exact haccept haccepts hmem
  | constantDeclared haccepts => exact haccept haccepts hmem
  | allocated hsize hroom => exact ⟨inner, by rwa [openScopes_advance] at hmem, hid⟩
  | found hlookup => exact ⟨inner, hmem, hid⟩
  | refused hrequest => exact ⟨inner, hmem, hid⟩

/-- A request changes no record but that of the current scope. -/
theorem scopes_of_change (hchange : t.Change request result t') (hwf : t.WellFormed)
    (hlt : k < t.scopes.size) (hne : t.current ≠ some k) : t'.scopes[k]? = t.scopes[k]? := by
  have haccept : ∀ {scope e}, t.Accepts scope e →
      (t.accept scope e).scopes[k]? = t.scopes[k]? := by
    intro scope e haccepts
    have hother : scope.id ≠ k := fun heq => hne (heq ▸ (hwf.current_eq haccepts.current).1)
    rw [getElem?_scopes_accept, if_neg hother]
  cases hchange with
  | entered hresult => exact getElem?_scopes_enter_of_lt hlt
  | left hcurrent => rfl
  | declared haccepts => exact haccept haccepts
  | constantDeclared haccepts => exact haccept haccepts
  | allocated hsize hroom => rfl
  | found hlookup => rfl
  | refused hrequest => rfl

end SymbolTable

/-! ## The history of a session -/

end Scoping
end CompilerTables
