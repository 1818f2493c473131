import CompilerTables.Proofs.Outcome
import CompilerTables.Proofs.Parsing.Conflicts

/-!
# What the construction leaves in the action table

The action table and the conflicts of a finished construction are determined by the demands of the
items and by their order, with no reference to the steps in between.

`ParseTables.Answers` is the invariant that carries this.  It says of tables and of the demands met
so far that every cell holds the first action asked for there, and that the conflicts are the
recorded ones.  One demand keeps it (`Answers.act`), a demand for a goto does not touch it
(`Answers.goto`), and a run of the construction therefore ends with it (`answers_run`), as it does
with whatever every met demand keeps (`run_preserves`).

What is known of tables that were built is the invariant at the end of a run (`answers_of_build`),
and that no item was passed over on the way (`actionDemand?_of_build`).  Whether there are tables at
all depends on the items alone, not on the tables (`exists_tables_iff`), because a run ends for the
first demand that cannot be stated, whatever it has built so far (`Construction.snd_run`).
-/

namespace CompilerTables
namespace Parsing

/-! ## Asking the action table -/

namespace ActionTable

variable {table : ActionTable} {s : StateIdx} {t : Terminal} {kept action : Action}

theorem get?_insert (table : ActionTable) (s s' : StateIdx) (t t' : Terminal) (action : Action) :
    get? (Std.ExtTreeMap.insert table ⟨s, t⟩ action) s' t' =
      if s = s' ∧ t = t' then some action else table.get? s' t' := by
  unfold get?
  rw [Std.ExtTreeMap.getElem?_insert]
  simp only [Std.LawfulEqCmp.compare_eq_iff_eq, Cell.mk.injEq]

theorem register_of_none (h : table.get? s t = none) (action : Action) :
    table.register s t action = .ok (Std.ExtTreeMap.insert table ⟨s, t⟩ action) := by
  rw [register, h]

theorem register_of_same (h : table.get? s t = some action) :
    table.register s t action = .ok table := by
  rw [register, h]
  exact if_pos rfl

theorem register_of_other (h : table.get? s t = some kept) (hne : kept ≠ action) :
    table.register s t action = .error ⟨s, t, kept, action⟩ := by
  rw [register, h]
  exact if_neg hne

end ActionTable

/-! ## The invariant -/

/-- Tables in which every cell holds the action that was asked for first, and whose conflicts are
the recorded ones. -/
structure ParseTables.Answers (tables : ParseTables) (demands : List ActionDemand) : Prop where
  get?_eq : ∀ s t, tables.action.get? s t = firstAction demands s t
  conflicts_eq : tables.conflicts.toList = recordedConflicts demands

namespace ParseTables.Answers

variable {c : Construction} {demands : List ActionDemand}

theorem blank : ParseTables.blank.Answers [] where
  get?_eq _ _ := rfl
  conflicts_eq := rfl

/-- A demand for an empty cell fills it. -/
theorem act_of_empty {s : StateIdx} {t : Terminal} (h : c.tables.Answers demands)
    (hempty : firstAction demands s t = none) (action : Action) :
    (c.act s t action).tables.Answers (demands ++ [⟨s, t, action⟩]) := by
  have hcell : c.tables.action.get? s t = none := by rw [h.get?_eq, hempty]
  rw [Construction.act, ActionTable.register_of_none hcell]
  refine ⟨fun s' t' => ?_, ?_⟩
  · rw [firstAction_append_of_empty hempty, ← h.get?_eq]
    exact ActionTable.get?_insert c.tables.action s s' t t' action
  · rw [recordedConflicts_append_of_agrees]
    · exact h.conflicts_eq
    · intro kept hkept
      rw [hempty] at hkept
      cases hkept

/-- A demand that repeats the action of its cell changes nothing. -/
theorem act_of_same {s : StateIdx} {t : Terminal} {action : Action}
    (h : c.tables.Answers demands) (hfilled : firstAction demands s t = some action) :
    (c.act s t action).tables.Answers (demands ++ [⟨s, t, action⟩]) := by
  have hcell : c.tables.action.get? s t = some action := by rw [h.get?_eq, hfilled]
  rw [Construction.act, ActionTable.register_of_same hcell]
  refine ⟨fun s' t' => ?_, ?_⟩
  · rw [firstAction_append_of_filled hfilled]
    exact h.get?_eq s' t'
  · rw [recordedConflicts_append_of_agrees]
    · exact h.conflicts_eq
    · intro kept hkept
      rw [hfilled] at hkept
      exact (Option.some_inj.mp hkept).symm

/-- A demand that differs from the action of its cell leaves the cell alone, and its conflict is
recorded unless it is recorded already. -/
theorem act_of_other {s : StateIdx} {t : Terminal} {kept action : Action}
    (h : c.tables.Answers demands) (hfilled : firstAction demands s t = some kept)
    (hne : kept ≠ action) :
    (c.act s t action).tables.Answers (demands ++ [⟨s, t, action⟩]) := by
  have hcell : c.tables.action.get? s t = some kept := by rw [h.get?_eq, hfilled]
  have hcells : ∀ s' t', c.tables.action.get? s' t' =
      firstAction (demands ++ [⟨s, t, action⟩]) s' t' := fun s' t' => by
    rw [firstAction_append_of_filled hfilled, h.get?_eq]
  have hconflicts := recordedConflicts_append_of_differs (d := ⟨s, t, action⟩) hfilled hne
  rw [← h.conflicts_eq] at hconflicts
  simp only [Array.mem_toList_iff] at hconflicts
  rw [Construction.act, ActionTable.register_of_other hcell hne]
  dsimp only
  -- the construction asks the list of conflicts itself whether this one is there
  split
  · next hmem =>
    rw [if_pos hmem] at hconflicts
    exact ⟨hcells, hconflicts.symm⟩
  · next hmem =>
    rw [if_neg hmem] at hconflicts
    refine ⟨hcells, ?_⟩
    rw [hconflicts, Array.toList_push]

/-- One more demand for an action. -/
theorem act (h : c.tables.Answers demands) (s : StateIdx) (t : Terminal) (action : Action) :
    (c.act s t action).tables.Answers (demands ++ [⟨s, t, action⟩]) := by
  cases hfirst : firstAction demands s t with
  | none => exact h.act_of_empty hfirst action
  | some kept =>
    by_cases hsame : kept = action
    · exact h.act_of_same (hsame ▸ hfirst)
    · exact h.act_of_other hfirst hsame

/-- A demand for a goto changes neither the action table nor the conflicts. -/
theorem goto (h : c.tables.Answers demands) (s : StateIdx) (n : Nat) (target : StateIdx) :
    (c.goto s n target).tables.Answers demands :=
  ⟨h.get?_eq, h.conflicts_eq⟩

end ParseTables.Answers

/-! ## Runs of the construction -/

namespace Construction

variable {g : Grammar} {items : List (State × Item)} {c c' : Construction}

/-- A run ends for the first demand that cannot be stated, whatever was built before. -/
theorem snd_run (g : Grammar) (items : List (State × Item)) (c : Construction) :
    (run g items c).2 = items.findSome? fun p => fault? (p.1.demand g p.2) := by
  induction items generalizing c with
  | nil => rfl
  | cons p rest ih =>
    obtain ⟨s, item⟩ := p
    rw [run, List.findSome?_cons]
    cases s.demand g item with
    | ok d => exact ih (c.meet s.index d)
    | error e => rfl

/-- A run that ends without an error has stated the demand of every item. -/
theorem demand_of_run (hrun : run g items c = (c', none)) :
    ∀ p ∈ items, ∃ d, p.1.demand g p.2 = .ok d := by
  have hnone := snd_run g items c
  rw [hrun] at hnone
  exact fun p hp => fault?_eq_none_iff.mp (List.findSome?_eq_none_iff.mp hnone.symm p hp)

/-- A run meets with no error when the demand of every item can be stated. -/
theorem exists_run (h : ∀ p ∈ items, ∃ d, p.1.demand g p.2 = .ok d) (c : Construction) :
    ∃ c', run g items c = (c', none) := by
  have hnone : (run g items c).2 = none := by
    rw [snd_run, List.findSome?_eq_none_iff]
    exact fun p hp => fault?_eq_none_iff.mpr (h p hp)
  exact ⟨(run g items c).1, Prod.ext rfl hnone⟩

/-- What each met demand keeps, a run that ends without an error keeps.  Here `asked` is what an
item asks for, if anything, and `Holds` speaks of what was asked for so far, in order. -/
theorem run_preserves {β : Type} (asked : State × Item → Option β)
    (Holds : Construction → List β → Prop)
    (hmeet : ∀ c demands s item d, Holds c demands → s.demand g item = .ok d →
      Holds (c.meet s.index d) (demands ++ (asked (s, item)).toList))
    {demands : List β} (h : Holds c demands) (hrun : run g items c = (c', none)) :
    Holds c' (demands ++ items.filterMap asked) := by
  induction items generalizing c demands with
  | nil =>
    cases hrun
    rw [List.filterMap_nil, List.append_nil]
    exact h
  | cons p rest ih =>
    obtain ⟨s, item⟩ := p
    rw [run] at hrun
    split at hrun
    · next d hd =>
      rw [List.filterMap_eq_flatMap_toList, List.flatMap_cons, ← List.append_assoc,
        ← List.filterMap_eq_flatMap_toList]
      exact ih (hmeet c demands s item d h hd) hrun
    · cases hrun

/-- To meet the demand of an item adds the action that the item asks for, if there is one. -/
theorem answers_meet {demands : List ActionDemand} {s : State} {item : Item} {d : Demand}
    (h : c.tables.Answers demands) (hd : s.demand g item = .ok d) :
    (c.meet s.index d).tables.Answers (demands ++ (s.actionDemand? g item).toList) := by
  have hagrees := State.agrees_of_demand hd
  cases d with
  | act t action =>
    rw [hagrees.1, Option.toList_some]
    exact h.act s.index t action
  | goto n target =>
    rw [hagrees.1, Option.toList_none, List.append_nil]
    exact h.goto s.index n target

/-- A run that ends without an error adds the demands of its items, in order. -/
theorem answers_run {demands : List ActionDemand} (h : c.tables.Answers demands)
    (hrun : run g items c = (c', none)) :
    c'.tables.Answers
      (demands ++ items.filterMap fun p => p.1.actionDemand? g p.2) :=
  run_preserves (fun p => p.1.actionDemand? g p.2) (fun c demands => c.tables.Answers demands)
    (fun _ _ _ _ _ h hd => answers_meet h hd) h hrun

end Construction

section Build

variable {a : Automaton} {g : Grammar} {tables : ParseTables}

/-- Tables are what a run over all items ends with. -/
theorem run_of_build (h : (ParseTables.build a g).tables = .ok tables) :
    ∃ c, Construction.run g a.items ⟨ParseTables.blank, #[]⟩ = (c, none) ∧ c.tables = tables := by
  unfold ParseTables.build at h
  split at h
  · cases h
  · next c hrun =>
    cases h
    exact ⟨c, hrun, rfl⟩

/-- Tables are built exactly when the demand of every item can be stated. -/
theorem exists_tables_iff :
    (∃ tables, (ParseTables.build a g).tables = .ok tables) ↔
      ∀ p ∈ a.items, ∃ d, p.1.demand g p.2 = .ok d := by
  constructor
  · rintro ⟨tables, htables⟩
    obtain ⟨c, hrun, -⟩ := run_of_build htables
    exact Construction.demand_of_run hrun
  · intro h
    obtain ⟨c, hrun⟩ := Construction.exists_run h ⟨ParseTables.blank, #[]⟩
    refine ⟨c.tables, ?_⟩
    unfold ParseTables.build
    rw [hrun]

/-- The reason why there are no tables is the first demand that cannot be stated. -/
theorem tables_eq_error_iff {e : TableError} :
    (ParseTables.build a g).tables = .error e ↔
      (a.items.findSome? fun p => fault? (p.1.demand g p.2)) = some e := by
  rw [← Construction.snd_run g a.items ⟨ParseTables.blank, #[]⟩]
  unfold ParseTables.build
  split
  · next c e' hrun => rw [hrun, Except.error.injEq, Option.some_inj]
  · next c hrun =>
    rw [hrun]
    exact iff_of_false nofun nofun

/-- If there are no tables, the demand of some item cannot be stated. -/
theorem exists_fault_of_build {e : TableError} (h : (ParseTables.build a g).tables = .error e) :
    ∃ s ∈ a.states, ∃ item ∈ s.items, s.demand g item = .error e := by
  obtain ⟨⟨s, item⟩, hmem, hfault⟩ := List.exists_of_findSome?_eq_some (tables_eq_error_iff.mp h)
  obtain ⟨hs, hitem⟩ := Automaton.mem_items_iff.mp hmem
  exact ⟨s, hs, item, hitem, fault?_eq_some_iff.mp hfault⟩

theorem answers_of_build (h : (ParseTables.build a g).tables = .ok tables) :
    tables.Answers (a.actionDemands g) := by
  obtain ⟨c, hrun, rfl⟩ := run_of_build h
  rw [Automaton.actionDemands_eq_filterMap_items]
  exact Construction.answers_run ParseTables.Answers.blank hrun

/-- The conflicts of finished tables: both sides were demanded, and the first one of the cell is
kept. -/
theorem mem_conflicts_iff (h : (ParseTables.build a g).tables = .ok tables) {c : Conflict} :
    c ∈ tables.conflicts ↔
      firstAction (a.actionDemands g) c.state c.terminal = some c.kept ∧ c.kept ≠ c.rejected ∧
        c.demand ∈ a.actionDemands g := by
  rw [← Array.mem_toList_iff, (answers_of_build h).conflicts_eq, mem_recordedConflicts_iff]

/-- Once tables are built, an item that does not read a nonterminal has asked for an action. -/
theorem actionDemand?_of_build (h : (ParseTables.build a g).tables = .ok tables) {s : State}
    (hs : s ∈ a.states) {item : Item} (hitem : item ∈ s.items) :
    (∃ d, s.actionDemand? g item = some d) ↔ ∀ n, item.next? ≠ some (.nonterminal n) := by
  obtain ⟨c, hrun, -⟩ := run_of_build h
  have hmem : (s, item) ∈ a.items :=
    List.mem_flatMap.mpr ⟨s, Array.mem_toList_iff.mpr hs, List.mem_map_of_mem hitem⟩
  obtain ⟨d, hd⟩ := Construction.demand_of_run hrun _ hmem
  have hagrees := State.agrees_of_demand hd
  cases d with
  | act t action => exact ⟨fun _ => hagrees.2, fun _ => ⟨_, hagrees.1⟩⟩
  | goto n target =>
    constructor
    · rintro ⟨d, hd⟩
      rw [hagrees.1] at hd
      cases hd
    · exact fun hreads => absurd hagrees.2.1 (hreads n)

end Build

end Parsing
end CompilerTables
