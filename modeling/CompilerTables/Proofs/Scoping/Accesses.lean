import CompilerTables.Index
import CompilerTables.Proofs.Scoping.ScopeTree

/-!
# Every access stays inside the history

Records of scopes are found by numbers that the table itself has stored: the current scope, and the
parents in the records.  The definitions of the table are careful with these numbers.  Where there
is no record they go on as if no scope was open, and the search for a name goes from a scope to its
parent only if the parent is older.

Here every request is answered a second time without that care.  A number without a record is an
error, and the search goes on to whatever parent it finds, until it has come upon as many scopes as
it may.  `Checked` is the type of such computations, and `Session.stepChecked` answers requests in
this way.  In a table that a session arrives at it does what `Session.step` does as soon as a search
may come upon as many scopes as the depth says (`stepChecked_eq`), so no request looks outside the
history and every search ends.

The search comes upon the current scope and the scopes around it (`searchFrom_eq`).  Their numbers
decrease and their levels go down by one to `0`.
-/

namespace CompilerTables
namespace Scoping

/-- A computation whose accesses are checked: it may come upon an index that is out of bounds, and
it may give up before it has ended, which is `none`. -/
abbrev Checked := ExceptT OutOfBounds Option

namespace SymbolTable

/-! ## Checked accesses -/

/-- The record of a scope, which has to be in the history. -/
def record (t : SymbolTable) (id : Nat) : Checked Scope :=
  match t.scopes[id]? with
  | some scope => pure scope
  | none => throw ⟨t.scopes.size, id⟩

/-- The record of the current scope, if any scope is open. -/
def currentRecord (t : SymbolTable) : Checked (Option Scope) :=
  match t.current with
  | none => pure none
  | some id => some <$> t.record id

/-- Opens a scope inside another one, or a root. -/
def enterInside (t : SymbolTable) (outer : Option Scope) : SymbolTable :=
  let scope : Scope := {
    id := t.scopes.size
    level := match outer with
      | some outer => outer.level + 1
      | none => 0
    parent := outer.map Scope.id
    entries := ∅ }
  { t with scopes := t.scopes.push scope, current := some scope.id }

/-- Declares an entry in the current scope, whose record is read first and written at the end. -/
def declareChecked (t : SymbolTable) (e : Entry) :
    Checked (Except ScopingError (Entry × SymbolTable)) :=
  match t.current with
  | none => pure (.error .noOpenScope)
  | some id => do
    let scope ← t.record id
    if e.name ∈ scope.entries then return .error (.duplicateDeclaration e.name)
    else if e.HasValidSize then
      match t.place e with
      | .ok (address, placed) =>
        let _ ← placed.record id
        return .ok ({ e with address }, placed.store id { e with address })
      | .error error => return .error error
    else return .error (.invalidSize e.name)

/-- Searches a scope for a name and goes on to its parent, whatever that is, but gives up after so
many scopes.  Beside the entry that was found, if any, it gives the scopes that it came upon. -/
def searchFrom (t : SymbolTable) (name : String) :
    Nat → Nat → Checked (List Scope × Option (Nat × Entry))
  | 0, _ => ExceptT.mk none
  | limit + 1, id => do
    let scope ← t.record id
    match scope.entries[name]? with
    | some e => return ([scope], some (scope.id, e))
    | none => match scope.parent with
      | none => return ([scope], none)
      | some parent => do
        let rest ← t.searchFrom name limit parent
        return (scope :: rest.1, rest.2)

/-- The visible entry for a name, by a search from the current scope. -/
def lookupChecked (t : SymbolTable) (limit : Nat) (name : String) :
    Checked (Except ScopingError Found) :=
  match t.current with
  | none => pure (.error .noOpenScope)
  | some current => do
    let search ← t.searchFrom name limit current
    return match search.2 with
      | some (scope, entry) => .ok ⟨entry, scope, scope = current⟩
      | none => .error (.unresolvedName name)

end SymbolTable

namespace Session

variable {σ : Type}

/-- Enters a scope inside the current one and shows its record to the hook. -/
def enterChecked (hooks : Hooks σ) (s : Session σ) : Checked (Response σ) := do
  let outer ← s.table.currentRecord
  let table := s.table.enterInside outer
  let scope ← table.record s.table.scopes.size
  let (verdict, calls, memory) := tell hooks.onEnter .entered scope s.memory
  return {
    result := match verdict with
      | .ok () => .ok (.entered scope.id)
      | .error message => .error (.hookFailed message)
    calls
    events := [.entered scope.id scope.level]
    session := ⟨table, memory⟩ }

/-- Shows the record of the current scope to the hook and leaves it, unless the hook fails. -/
def leaveChecked (hooks : Hooks σ) (s : Session σ) : Checked (Response σ) :=
  match s.table.current with
  | none => pure ⟨.error .noOpenScope, [], [], s⟩
  | some id => do
    let scope ← s.table.record id
    match tell hooks.onLeave .leaving scope s.memory with
    | (.ok (), calls, memory) =>
        return ⟨.ok .left, calls, [.left id], ⟨s.table.leave scope, memory⟩⟩
    | (.error message, calls, memory) =>
        return ⟨.error (.hookFailed message), calls, [], ⟨s.table, memory⟩⟩

/-- Declares an entry, and answers as `answer` says. -/
def declareChecked (s : Session σ) (e : Entry) (answer : Option Address → Answer) :
    Checked (Response σ) := do
  let outcome ← s.table.declareChecked e
  return match outcome with
    | .ok (stored, table) =>
        { result := .ok (answer stored.address)
          calls := []
          events := s.table.current.toList.map fun scope => .declared stored scope
          session := { s with table } }
    | .error e => ⟨.error e, [], [], s⟩

/-- Answers a request with checked accesses, where a search gives up after so many scopes.  A
temporary needs no record. -/
def stepChecked (limit : Nat) (hooks : Hooks σ) (s : Session σ) : Request → Checked (Response σ)
  | .enter => s.enterChecked hooks
  | .leave => s.leaveChecked hooks
  | .declare e => s.declareChecked e .declared
  | .declareConstant e => s.declareChecked { e with kind := .constant } fun _ => .constantDeclared
  | .temporary size => pure (s.step hooks (.temporary size))
  | .lookup name => do
    let outcome ← s.table.lookupChecked limit name
    return ⟨outcome.map .found, [], [], s⟩

end Session

/-! ## Checked accesses change nothing -/

namespace SymbolTable

variable {t : SymbolTable} {scope : Scope} {k : Nat}

theorem record_eq (hk : t.scopes[k]? = some scope) : t.record k = pure scope := by
  rw [record, hk]

theorem currentRecord_eq (hwf : t.WellFormed) : t.currentRecord = pure t.current? := by
  unfold currentRecord
  cases hcurrent : t.current with
  | none => rw [current?, hcurrent, Option.bind_none]
  | some id =>
    obtain ⟨scope, hscope, rfl⟩ := hwf.current?_of_current hcurrent
    dsimp only
    rw [record_eq (hwf.current_eq hscope).2, hscope]
    rfl

theorem enterInside_eq (t : SymbolTable) : t.enterInside t.current? = t.enter := by
  unfold enterInside enter nextScope
  cases t.current? <;> rfl

theorem declareChecked_eq (hwf : t.WellFormed) (e : Entry) :
    t.declareChecked e = pure (t.declare e) := by
  unfold declareChecked declare
  cases hcurrent : t.current with
  | none => rw [current?, hcurrent, Option.bind_none]
  | some id =>
    obtain ⟨scope, hscope, rfl⟩ := hwf.current?_of_current hcurrent
    have hget := (hwf.current_eq hscope).2
    dsimp only
    rw [record_eq hget, hscope, pure_bind]
    dsimp only
    by_cases hheld : e.name ∈ scope.entries
    · rw [if_pos hheld, if_pos hheld]
    · rw [if_neg hheld, if_neg hheld]
      by_cases hvalid : e.HasValidSize
      · rw [if_pos hvalid, if_pos hvalid, place_eq]
        split_ifs with hroom
        · have hplaced : (t.advance (t.wordsOf e)).scopes[scope.id]? = some scope := hget
          dsimp only
          rw [record_eq hplaced, pure_bind]
        · rfl
      · rw [if_neg hvalid, if_neg hvalid]

/-- The search comes upon the scope and those around it, up to the one that holds the name.  It ends
as the careful one does if it may come upon a scope of each level. -/
theorem searchFrom_eq (hwf : t.WellFormed) (name : String) {limit : Nat}
    (hk : t.scopes[k]? = some scope) (hlimit : scope.level < limit) :
    ∃ visited, t.searchFrom name limit k = pure (visited, t.resolve name k) ∧
      visited.head? = some scope ∧ visited <+: t.ancestors k ∧
      (t.resolve name k = none → visited = t.ancestors k) := by
  induction limit generalizing k scope with
  | zero => exact absurd hlimit (Nat.not_lt_zero _)
  | succ limit ih =>
    rw [searchFrom, record_eq hk, pure_bind, resolve, scope?, hk]
    dsimp only
    cases hentry : scope.entries[name]? with
    | some e =>
      refine ⟨[scope], rfl, rfl, ?_, fun hnone => absurd hnone (Option.some_ne_none _)⟩
      rw [ancestors, scope?, hk]
      exact List.prefix_append [scope] _
    | none =>
      cases hparent : scope.parent with
      | none =>
        rw [ancestors_root hk hparent]
        exact ⟨[scope], rfl, rfl, List.prefix_rfl, fun _ => rfl⟩
      | some parent =>
        -- the parent is in the history, and one level less is left to climb
        obtain ⟨hlt, outer, houter, hlevel⟩ := hwf.level_child hk hparent
        obtain ⟨visited, hsearch, -, hprefix, hall⟩ := ih houter (by omega)
        rw [ancestors_child hwf hk hparent]
        dsimp only
        rw [hsearch, pure_bind, if_pos hlt]
        exact ⟨scope :: visited, rfl, rfl, List.cons_prefix_cons.mpr ⟨rfl, hprefix⟩,
          fun hnone => by rw [hall hnone]⟩

theorem level_lt_of_depth_le {limit : Nat} (hscope : t.current? = some scope)
    (hlimit : t.depth ≤ limit) : scope.level < limit := by
  rw [depth, hscope] at hlimit
  exact hlimit

theorem lookupChecked_eq (hwf : t.WellFormed) {limit : Nat} (hlimit : t.depth ≤ limit)
    (name : String) : t.lookupChecked limit name = pure (t.lookup name) := by
  unfold lookupChecked lookup
  cases hcurrent : t.current with
  | none => rfl
  | some id =>
    obtain ⟨scope, hscope, rfl⟩ := hwf.current?_of_current hcurrent
    obtain ⟨visited, hsearch, -⟩ := searchFrom_eq hwf name (hwf.current_eq hscope).2
      (level_lt_of_depth_le hscope hlimit)
    dsimp only
    rw [hsearch]
    exact pure_bind _ _

end SymbolTable

namespace Session

variable {σ : Type} (hooks : Hooks σ) {s : Session σ}

theorem enterChecked_eq (hwf : s.table.WellFormed) :
    s.enterChecked hooks = pure (s.enter hooks) := by
  have hnew := SymbolTable.getElem?_scopes_enter_size s.table
  unfold enterChecked
  rw [SymbolTable.currentRecord_eq hwf, pure_bind, SymbolTable.enterInside_eq]
  dsimp only
  rw [SymbolTable.record_eq hnew, pure_bind]
  rfl

theorem leaveChecked_eq (hwf : s.table.WellFormed) :
    s.leaveChecked hooks = pure (s.leave hooks) := by
  unfold leaveChecked leave
  cases hcurrent : s.table.current with
  | none => rw [SymbolTable.current?, hcurrent, Option.bind_none]
  | some id =>
    obtain ⟨scope, hscope, rfl⟩ := hwf.current?_of_current hcurrent
    dsimp only
    rw [SymbolTable.record_eq (hwf.current_eq hscope).2, pure_bind, hscope]
    dsimp only
    rcases tell hooks.onLeave .leaving scope s.memory with ⟨message | ⟨⟩, calls, memory⟩
    · rfl
    · rfl

theorem declareChecked_eq (hwf : s.table.WellFormed) (e : Entry)
    (answer : Option Address → Answer) :
    s.declareChecked e answer = pure (s.declare e answer) := by
  unfold declareChecked declare
  rw [SymbolTable.declareChecked_eq hwf]
  exact pure_bind _ _

/-- With checked accesses every request does what it does without. -/
theorem stepChecked_eq (hwf : s.table.WellFormed) {limit : Nat} (hlimit : s.table.depth ≤ limit)
    (request : Request) : s.stepChecked limit hooks request = pure (s.step hooks request) := by
  cases request with
  | enter => exact enterChecked_eq hooks hwf
  | leave => exact leaveChecked_eq hooks hwf
  | declare e => exact declareChecked_eq hwf e .declared
  | declareConstant e =>
    exact declareChecked_eq hwf { e with kind := .constant } fun _ => .constantDeclared
  | temporary size => rfl
  | lookup name =>
    unfold stepChecked
    dsimp only
    rw [SymbolTable.lookupChecked_eq hwf hlimit]
    exact pure_bind _ _

end Session

/-! ## The way of a search -/

namespace SymbolTable

variable {t : SymbolTable} {scope : Scope} {k : Nat}

/-- Around a scope there is one scope on each level below its own. -/
theorem map_level_ancestors (hwf : t.WellFormed) (hk : t.scopes[k]? = some scope) :
    (t.ancestors k).map Scope.level = (List.range (scope.level + 1)).reverse := by
  induction k using Nat.strongRecOn generalizing scope with
  | _ k ih =>
    rw [List.range_succ, List.reverse_append, List.reverse_singleton, List.singleton_append]
    cases hparent : scope.parent with
    | none =>
      rw [ancestors_root hk hparent, List.map_singleton, hwf.level_root hk hparent,
        List.range_zero, List.reverse_nil]
    | some parent =>
      obtain ⟨hlt, outer, houter, hlevel⟩ := hwf.level_child hk hparent
      rw [ancestors_child hwf hk hparent, List.map_cons, ih parent hlt houter, hlevel]

/-- What a search comes upon, from the current scope outwards: scopes with decreasing numbers, one
on each level from the innermost one down, and on all levels down to `0` if nothing was found. -/
structure Climbs (t : SymbolTable) (visited : List Scope) (found : Option (Nat × Entry)) :
    Prop where
  first : visited.head? = t.current?
  decreasing : visited.Pairwise fun inner outer => outer.id < inner.id
  levels : visited.map Scope.level <+: (List.range t.depth).reverse
  length_le : visited.length ≤ t.depth
  length_eq : found = none → visited.length = t.depth

/-- A search from the current scope ends. -/
theorem exists_searchFrom_eq (hwf : t.WellFormed) (hid : t.current = some k) {limit : Nat}
    (hlimit : t.depth ≤ limit) (name : String) :
    ∃ visited, t.searchFrom name limit k = pure (visited, t.resolve name k) ∧
      t.Climbs visited (t.resolve name k) := by
  obtain ⟨scope, hscope, rfl⟩ := hwf.current?_of_current hid
  have hget := (hwf.current_eq hscope).2
  have hdepth : t.depth = scope.level + 1 := by rw [depth, hscope]
  have hlength := length_ancestors hwf hget
  obtain ⟨visited, hsearch, hfirst, hprefix, hall⟩ := searchFrom_eq hwf name hget
    (level_lt_of_depth_le hscope hlimit)
  refine ⟨visited, hsearch, by rw [hfirst, hscope],
    (pairwise_id_ancestors hwf scope.id).sublist hprefix.sublist, ?_, ?_, fun hnone => ?_⟩
  · rw [hdepth, ← map_level_ancestors hwf hget]
    exact hprefix.map Scope.level
  · rw [hdepth, ← hlength]
    exact hprefix.length_le
  · rw [hall hnone, hlength, hdepth]

end SymbolTable

/-- **No request looks outside the history, and every search ends.**  In a table that a session
arrives at, numbers are positions, and parents are older and one level up.  So every request finds
all the records that it asks for, whatever the hooks do, and so does the drawing of the table.  A
search from the current scope climbs one level at a time, so it comes upon no more scopes than the
depth says. -/
theorem accesses_in_history {t : SymbolTable} (h : t.Reachable) :
    t.WellFormed ∧ t.currentRecord = pure t.current? ∧
      (∀ e ∈ t.graph.edges, e.source < t.scopes.size ∧ e.target < t.scopes.size) ∧
      ∀ limit, t.depth ≤ limit →
        (∀ (σ : Type) (hooks : Hooks σ) (memory : σ) (request : Request),
          Session.stepChecked limit hooks ⟨t, memory⟩ request =
            pure (Session.step hooks ⟨t, memory⟩ request)) ∧
        ∀ (name : String) (id : Nat), t.current = some id →
          ∃ visited, t.searchFrom name limit id = pure (visited, t.resolve name id) ∧
            t.Climbs visited (t.resolve name id) := by
  have hwf := h.wellFormed
  refine ⟨hwf, SymbolTable.currentRecord_eq hwf, fun e he => ?_, fun limit hlimit =>
    ⟨fun σ hooks memory => Session.stepChecked_eq hooks hwf hlimit,
      fun name id hid => SymbolTable.exists_searchFrom_eq hwf hid hlimit name⟩⟩
  obtain ⟨holder, hlt⟩ := SymbolTable.source_lt_target hwf he
  exact ⟨holder.trans hlt, hlt⟩

/-- A search in vain from scope `1`, which is inside scope `0`, comes upon both. -/
theorem accesses_in_history_nested :
    (nestedTable 4).Reachable ∧ (nestedTable 4).current = some 1 ∧
      ∃ visited, (nestedTable 4).searchFrom "c" 2 1 = pure (visited, none) ∧
        visited.map Scope.level = [1, 0] ∧ visited.length = (nestedTable 4).depth := by
  have hreachable := reachable_nestedTable 4
  have hcurrent : (nestedTable 4).current = some 1 := by decide +kernel
  have hnone : (nestedTable 4).resolve "c" 1 = none := by decide +kernel
  have hlevels : (List.range (nestedTable 4).depth).reverse = [1, 0] := by decide +kernel
  obtain ⟨-, -, -, hends⟩ := accesses_in_history hreachable
  obtain ⟨-, hsearches⟩ := hends 2 (by decide +kernel)
  obtain ⟨visited, hsearch, hclimbs⟩ := hsearches "c" 1 hcurrent
  have hlength := hclimbs.length_eq hnone
  refine ⟨hreachable, hcurrent, visited, by rw [hsearch, hnone], ?_, hlength⟩
  rw [← hlevels]
  refine hclimbs.levels.eq_of_length ?_
  rw [List.length_map, hlength, List.length_reverse, List.length_range]

end Scoping
end CompilerTables
