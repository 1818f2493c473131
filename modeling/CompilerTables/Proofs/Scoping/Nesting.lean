import CompilerTables.Proofs.Scoping.Requests

/-!
# How scopes are nested

Nothing is ever removed from the history of scopes, so which scopes are open is not stored anywhere:
they are the current scope and the scopes around it.  `SymbolTable.openScopes` is that list, the
innermost first.

It is well behaved because of an invariant of the history, `SymbolTable.WellFormed`: every scope
carries its position as its number, a root has level `0`, and any other scope has an older parent
whose level is one less.  Every change keeps it (`WellFormed.change`), so every table that a session
arrives at has it (`WellFormed.after`).

From the invariant follow the facts about open scopes that everything else needs: their numbers
decrease (`pairwise_id_ancestors`), their number is the depth (`length_openScopes`), and a lookup
searches them in order (`resolve_eq_findSome?`).
-/

namespace CompilerTables
namespace Scoping
namespace SymbolTable

variable {t t' : SymbolTable} {scope : Scope} {e : Entry} {k : Nat}

/-! ## The invariant -/

/-- A history in which numbers are positions, and parents are older and one level up. -/
structure WellFormed (t : SymbolTable) : Prop where
  id_eq : ∀ {k : Nat} {scope : Scope}, t.scopes[k]? = some scope → scope.id = k
  level_root : ∀ {k : Nat} {scope : Scope}, t.scopes[k]? = some scope → scope.parent = none →
    scope.level = 0
  level_child : ∀ {k : Nat} {scope : Scope} {parent : Nat}, t.scopes[k]? = some scope →
    scope.parent = some parent →
      parent < k ∧ ∃ outer, t.scopes[parent]? = some outer ∧ scope.level = outer.level + 1
  current_lt : ∀ {id : Nat}, t.current = some id → id < t.scopes.size

theorem current?_eq_some_iff :
    t.current? = some scope ↔ ∃ id, t.current = some id ∧ t.scopes[id]? = some scope := by
  rw [current?, Option.bind_eq_some_iff]
  rfl

namespace WellFormed

/-- Nothing is nested before a scope is opened. -/
theorem fresh (layout : Layout) (h : layout.wordSize ≠ 0) : (fresh layout h).WellFormed := by
  have hnone : ∀ (k : Nat) (scope : Scope),
      (SymbolTable.fresh layout h).scopes[k]? ≠ some scope := by
    intro k scope hk
    simp [SymbolTable.fresh] at hk
  refine ⟨?_, ?_, ?_, ?_⟩
  · intro k scope hk
    exact absurd hk (hnone k scope)
  · intro k scope hk
    exact absurd hk (hnone k scope)
  · intro k scope parent hk
    exact absurd hk (hnone k scope)
  · intro id hid
    cases hid

theorem current_eq (h : t.WellFormed) (hscope : t.current? = some scope) :
    t.current = some scope.id ∧ t.scopes[scope.id]? = some scope := by
  obtain ⟨id, hid, hget⟩ := current?_eq_some_iff.mp hscope
  rw [h.id_eq hget]
  exact ⟨hid, hget⟩

/-- A scope that is open has a record: the current number is never dangling. -/
theorem current?_of_current (h : t.WellFormed) {id : Nat} (hid : t.current = some id) :
    ∃ scope, t.current? = some scope ∧ scope.id = id := by
  have hlt := h.current_lt hid
  have hget := Array.getElem?_eq_getElem hlt
  exact ⟨t.scopes[id], current?_eq_some_iff.mpr ⟨id, hid, hget⟩, h.id_eq hget⟩

/-- Opening a scope: the new record is at the end, and everything it points at is older. -/
theorem enter (h : t.WellFormed) : t.enter.WellFormed := by
  refine ⟨?_, ?_, ?_, ?_⟩
  · -- the new record is at the position that is its number
    intro k scope hk
    rcases getElem?_scopes_enter_eq_some_iff.mp hk with ⟨rfl, rfl⟩ | hk
    · exact id_nextScope t
    · exact h.id_eq hk
  · -- it is a root only if no scope was open
    intro k scope hk hroot
    rcases getElem?_scopes_enter_eq_some_iff.mp hk with ⟨rfl, rfl⟩ | hk
    · exact level_nextScope_of_root hroot
    · exact h.level_root hk hroot
  · -- otherwise its parent is the scope that was current, which is in the history already
    intro k scope parent hk hparent
    rcases getElem?_scopes_enter_eq_some_iff.mp hk with ⟨rfl, rfl⟩ | hk
    · obtain ⟨outer, houter, rfl, hlevel⟩ := exists_current?_of_parent_nextScope hparent
      have hget := (h.current_eq houter).2
      exact ⟨(Array.getElem?_eq_some_iff.mp hget).1, outer,
        getElem?_scopes_enter_eq_some_iff.mpr (.inr hget), hlevel⟩
    · obtain ⟨hlt, outer, houter, hlevel⟩ := h.level_child hk hparent
      exact ⟨hlt, outer, getElem?_scopes_enter_eq_some_iff.mpr (.inr houter), hlevel⟩
  · intro id hid
    cases hid
    show t.scopes.size < (t.scopes.push t.nextScope).size
    rw [Array.size_push]
    omega

/-- Leaving a scope: its parent is older, so it is in the history. -/
theorem leave (h : t.WellFormed) (hscope : t.current? = some scope) :
    (t.leave scope).WellFormed := by
  refine ⟨h.id_eq, h.level_root, h.level_child, ?_⟩
  intro id hid
  have hget := (h.current_eq hscope).2
  have hlt := (h.level_child hget hid).1
  exact Nat.lt_trans hlt (Array.getElem?_eq_some_iff.mp hget).1

theorem advance (h : t.WellFormed) (words : Nat) : (t.advance words).WellFormed :=
  ⟨h.id_eq, h.level_root, h.level_child, h.current_lt⟩

/-- A record of the history after a declaration is one from before with the same place in the
nesting. -/
theorem exists_of_scopes_accept {scope' : Scope}
    (hk : (t.accept scope e).scopes[k]? = some scope') :
    ∃ old, t.scopes[k]? = some old ∧ scope'.id = old.id ∧ scope'.level = old.level ∧
      scope'.parent = old.parent := by
  rw [getElem?_scopes_accept] at hk
  split at hk
  · obtain ⟨old, hold, rfl⟩ := Option.map_eq_some_iff.mp hk
    exact ⟨old, hold, rfl, rfl, rfl⟩
  · exact ⟨scope', hk, rfl, rfl, rfl⟩

theorem exists_scopes_accept (scope : Scope) (e : Entry) {old : Scope}
    (hk : t.scopes[k]? = some old) :
    ∃ scope', (t.accept scope e).scopes[k]? = some scope' ∧ scope'.level = old.level := by
  rw [getElem?_scopes_accept, hk]
  split
  · exact ⟨_, rfl, rfl⟩
  · exact ⟨old, rfl, rfl⟩

/-- A declaration changes the entries of one record and nothing about the nesting. -/
theorem accept (h : t.WellFormed) (scope : Scope) (e : Entry) : (t.accept scope e).WellFormed := by
  refine ⟨?_, ?_, ?_, ?_⟩
  · intro k scope' hk
    obtain ⟨old, hold, hid, -, -⟩ := exists_of_scopes_accept hk
    rw [hid]
    exact h.id_eq hold
  · intro k scope' hk hroot
    obtain ⟨old, hold, -, hlevel, hparent⟩ := exists_of_scopes_accept hk
    rw [hlevel]
    exact h.level_root hold (hparent ▸ hroot)
  · intro k scope' parent hk hchild
    obtain ⟨old, hold, -, hlevel, hparent⟩ := exists_of_scopes_accept hk
    obtain ⟨hlt, outer, houter, hup⟩ := h.level_child hold (hparent ▸ hchild)
    obtain ⟨outer', houter', hsame⟩ := exists_scopes_accept scope e houter
    exact ⟨hlt, outer', houter', by rw [hlevel, hup, hsame]⟩
  · intro id hid
    rw [size_scopes_accept]
    exact h.current_lt hid

/-- Every change keeps the nesting in order. -/
theorem change {request : Request} {result : Except ScopingError Answer}
    (hchange : t.Change request result t') (h : t.WellFormed) : t'.WellFormed := by
  cases hchange with
  | entered hresult => exact h.enter
  | left hcurrent => exact h.leave hcurrent
  | declared haccepts => exact h.accept _ _
  | constantDeclared haccepts => exact h.accept _ _
  | allocated hsize hroom => exact h.advance _
  | found hlookup => exact h
  | refused hrequest => exact h

theorem after {σ : Type} {hooks : Hooks σ} {s : Session σ} (h : s.table.WellFormed)
    (requests : List Request) : (s.after hooks requests).table.WellFormed :=
  Session.after_preserves hooks s change requests h

end WellFormed

theorem Reachable.wellFormed (h : t.Reachable) : t.WellFormed := by
  obtain ⟨layout, start, σ, hooks, memory, requests, hstart, rfl⟩ := h
  obtain ⟨hword, rfl⟩ := eq_fresh_of_ofLayout hstart
  exact (WellFormed.fresh layout hword).after requests

/-! ## The scopes around a scope -/

/-- A scope and the scopes around it, up to a root. -/
def ancestors (t : SymbolTable) (id : Nat) : List Scope :=
  match t.scope? id with
  | none => []
  | some scope => scope :: match scope.parent with
    | none => []
    | some parent => if parent < id then t.ancestors parent else []
termination_by id

/-- The open scopes, the innermost first. -/
def openScopes (t : SymbolTable) : List Scope :=
  match t.current with
  | none => []
  | some id => t.ancestors id

theorem ancestors_root (hk : t.scopes[k]? = some scope) (hroot : scope.parent = none) :
    t.ancestors k = [scope] := by
  rw [ancestors, scope?, hk]
  dsimp only
  rw [hroot]

theorem ancestors_child (h : t.WellFormed) (hk : t.scopes[k]? = some scope) {parent : Nat}
    (hchild : scope.parent = some parent) : t.ancestors k = scope :: t.ancestors parent := by
  rw [ancestors, scope?, hk]
  dsimp only
  rw [hchild]
  dsimp only
  rw [if_pos (h.level_child hk hchild).1]

/-- Histories that agree up to a scope agree on what is around it. -/
theorem ancestors_congr (hsame : ∀ i ≤ k, t.scopes[i]? = t'.scopes[i]?) :
    t.ancestors k = t'.ancestors k := by
  induction k using Nat.strongRecOn with
  | _ k ih =>
    rw [ancestors, ancestors, scope?, scope?, ← hsame k (Nat.le_refl k)]
    split
    · rfl
    · next scope _ =>
      congr 1
      split
      · rfl
      · next parent _ =>
        split
        · next hlt => exact ih parent hlt fun i hi => hsame i (by omega)
        · rfl

/-- One scope at each level down to `0`. -/
theorem length_ancestors (h : t.WellFormed) (hk : t.scopes[k]? = some scope) :
    (t.ancestors k).length = scope.level + 1 := by
  induction k using Nat.strongRecOn generalizing scope with
  | _ k ih =>
    cases hparent : scope.parent with
    | none => rw [ancestors_root hk hparent, h.level_root hk hparent, List.length_singleton]
    | some parent =>
      obtain ⟨hlt, outer, houter, hlevel⟩ := h.level_child hk hparent
      rw [ancestors_child h hk hparent, List.length_cons, ih parent hlt houter, hlevel]

/-- What is around a scope is older. -/
theorem id_le_of_mem_ancestors (h : t.WellFormed) (hmem : scope ∈ t.ancestors k) :
    scope.id ≤ k := by
  induction k using Nat.strongRecOn with
  | _ k ih =>
    cases hk : t.scopes[k]? with
    | none =>
      rw [ancestors, scope?, hk] at hmem
      exact absurd hmem List.not_mem_nil
    | some inner =>
      have hid := h.id_eq hk
      cases hparent : inner.parent with
      | none =>
        rw [ancestors_root hk hparent, List.mem_singleton] at hmem
        rw [hmem, hid]
      | some parent =>
        rw [ancestors_child h hk hparent] at hmem
        rcases List.mem_cons.mp hmem with rfl | hmem
        · rw [hid]
        · have hlt := (h.level_child hk hparent).1
          have hle := ih parent hlt hmem
          omega

/-- Numbers decrease outwards. -/
theorem pairwise_id_ancestors (h : t.WellFormed) (k : Nat) :
    (t.ancestors k).Pairwise fun inner outer => outer.id < inner.id := by
  induction k using Nat.strongRecOn with
  | _ k ih =>
    cases hk : t.scopes[k]? with
    | none =>
      rw [ancestors, scope?, hk]
      exact List.Pairwise.nil
    | some scope =>
      cases hparent : scope.parent with
      | none =>
        rw [ancestors_root hk hparent]
        exact List.pairwise_singleton _ _
      | some parent =>
        have hlt := (h.level_child hk hparent).1
        rw [ancestors_child h hk hparent, List.pairwise_cons]
        refine ⟨fun outer houter => ?_, ih parent hlt⟩
        have hle := id_le_of_mem_ancestors h houter
        have hid := h.id_eq hk
        omega

/-- The search for a name looks at a scope and at those around it, in order. -/
theorem resolve_eq_findSome? (t : SymbolTable) (name : String) (k : Nat) :
    t.resolve name k =
      (t.ancestors k).findSome? fun scope => scope.entries[name]?.map fun e => (scope.id, e) := by
  induction k using Nat.strongRecOn with
  | _ k ih =>
    rw [resolve, ancestors]
    cases t.scope? k with
    | none => rfl
    | some scope =>
      dsimp only
      rw [List.findSome?_cons]
      cases scope.entries[name]? with
      | some e => rfl
      | none =>
        rw [Option.map_none]
        cases scope.parent with
        | none => rfl
        | some parent =>
          dsimp only
          split
          · next hlt => exact ih parent hlt
          · rfl

/-! ## The open scopes -/

/-- The current scope is the first of the open ones, and leaving it removes it. -/
theorem openScopes_of_current (h : t.WellFormed) (hscope : t.current? = some scope) :
    ∃ outer, t.openScopes = scope :: outer ∧ (t.leave scope).openScopes = outer := by
  obtain ⟨hcurrent, hget⟩ := h.current_eq hscope
  have hopen : t.openScopes = t.ancestors scope.id := by rw [openScopes, hcurrent]
  cases hparent : scope.parent with
  | none =>
    refine ⟨[], by rw [hopen, ancestors_root hget hparent], ?_⟩
    rw [openScopes, leave, hparent]
  | some parent =>
    refine ⟨t.ancestors parent, by rw [hopen, ancestors_child h hget hparent], ?_⟩
    rw [openScopes, leave, hparent]
    exact ancestors_congr fun i _ => rfl

theorem length_openScopes (h : t.WellFormed) : t.openScopes.length = t.depth := by
  unfold depth
  cases hcurrent : t.current with
  | none => rw [openScopes, hcurrent, current?, hcurrent, Option.bind_none, List.length_nil]
  | some id =>
    obtain ⟨scope, hscope, rfl⟩ := h.current?_of_current hcurrent
    rw [openScopes, hcurrent, hscope, length_ancestors h (h.current_eq hscope).2]

theorem parent_nextScope (h : t.WellFormed) : t.nextScope.parent = t.current := by
  cases hcurrent : t.current with
  | none => rw [nextScope, current?, hcurrent, Option.bind_none]
  | some id =>
    obtain ⟨outer, houter, rfl⟩ := h.current?_of_current hcurrent
    rw [nextScope, houter]

/-- Opening a scope puts it in front of the open ones. -/
theorem openScopes_enter (h : t.WellFormed) : t.enter.openScopes = t.nextScope :: t.openScopes := by
  have hnew := getElem?_scopes_enter_size t
  have hopen : t.enter.openScopes = t.enter.ancestors t.scopes.size := rfl
  have hparent := parent_nextScope h
  cases hcurrent : t.current with
  | none =>
    rw [hcurrent] at hparent
    rw [hopen, ancestors_root hnew hparent, openScopes, hcurrent]
  | some id =>
    have hlt := h.current_lt hcurrent
    rw [hcurrent] at hparent
    rw [hopen, ancestors_child h.enter hnew hparent, openScopes, hcurrent]
    congr 1
    exact ancestors_congr fun i hi => getElem?_scopes_enter_of_lt (Nat.lt_of_le_of_lt hi hlt)

theorem openScopes_advance (t : SymbolTable) (words : Nat) :
    (t.advance words).openScopes = t.openScopes := by
  unfold openScopes
  rw [current_advance]
  cases t.current with
  | none => rfl
  | some id => exact ancestors_congr fun i _ => rfl

/-- A declaration changes the innermost scope only. -/
theorem openScopes_accept (h : t.WellFormed) (hscope : t.current? = some scope) (e : Entry) :
    ∃ outer, t.openScopes = scope :: outer ∧
      (t.accept scope e).openScopes = scope.insert (t.placed e) :: outer := by
  obtain ⟨hcurrent, hget⟩ := h.current_eq hscope
  have hnew : (t.accept scope e).scopes[scope.id]? = some (scope.insert (t.placed e)) := by
    rw [getElem?_scopes_accept, if_pos rfl, hget, Option.map_some]
  have hopen : (t.accept scope e).openScopes = (t.accept scope e).ancestors scope.id := by
    rw [openScopes, current_accept, hcurrent]
  rw [hopen, openScopes, hcurrent]
  cases hparent : scope.parent with
  | none => exact ⟨[], ancestors_root hget hparent, ancestors_root hnew hparent⟩
  | some parent =>
    have hlt := (h.level_child hget hparent).1
    have houter : (t.accept scope e).ancestors parent = t.ancestors parent := by
      refine ancestors_congr fun i hi => ?_
      rw [getElem?_scopes_accept, if_neg (by omega)]
    refine ⟨t.ancestors parent, ancestors_child h hget hparent, ?_⟩
    rw [ancestors_child (h.accept scope e) hnew hparent, houter]

end SymbolTable
end Scoping
end CompilerTables
