import CompilerTables.Proofs.Parsing.Filling

/-!
# What the construction leaves in the goto table

The goto table follows the opposite policy of the action table: what is asked for last in a cell
stays.  An item asks for a goto when it reads a nonterminal, and then for the transition of its
state on that nonterminal, so all items that ask for one cell ask for one target, and it makes no
difference which of them comes last.

* `State.gotoDemand?` and `Automaton.gotoDemands` list what is asked for; `mem_gotoDemands_iff`
  reads a demand off the automaton.
* `lastTarget` is the target that a list of demands asks for last, and the target that is found in
  the table after a run of the construction (`Construction.goto_run`).
* `goto_eq_some_iff` says what stands in the cells of a finished table without mentioning an order.
-/

namespace CompilerTables
namespace Parsing

/-! ## The demands for a goto -/

/-- A target asked for at a nonterminal in a state. -/
structure GotoDemand where
  state : StateIdx
  nonterminal : Nat
  target : StateIdx
  deriving DecidableEq

/-- The goto that an item asks for: the transition on the nonterminal that it reads. -/
def State.gotoDemand? (s : State) (item : Item) : Option GotoDemand :=
  match item.next? with
  | some (.nonterminal n) => s.transitions[Symbol.nonterminal n]?.map fun j => ⟨s.index, n, j⟩
  | _ => none

theorem State.gotoDemand?_eq_some_iff {s : State} {item : Item} {d : GotoDemand} :
    s.gotoDemand? item = some d ↔
      d.state = s.index ∧ item.next? = some (.nonterminal d.nonterminal) ∧
        s.transitions[Symbol.nonterminal d.nonterminal]? = some d.target := by
  obtain ⟨index, n, target⟩ := d
  unfold State.gotoDemand?
  constructor
  · intro h
    split at h
    · next m hnext =>
      obtain ⟨j, hj, heq⟩ := Option.map_eq_some_iff.mp h
      cases heq
      exact ⟨rfl, hnext, hj⟩
    · cases h
  · rintro ⟨rfl, hnext, htarget⟩
    rw [hnext]
    exact Option.map_eq_some_iff.mpr ⟨target, htarget, rfl⟩

/-- What the construction enters for an item is what the item asks for. -/
theorem State.gotoDemand?_of_demand {s : State} {g : Grammar} {item : Item} {n : Nat}
    {target : StateIdx} (h : s.demand g item = .ok (.goto n target)) :
    s.gotoDemand? item = some ⟨s.index, n, target⟩ :=
  State.gotoDemand?_eq_some_iff.mpr ⟨rfl, (State.agrees_of_demand h).2⟩

namespace Automaton

variable {a : Automaton}

/-- What all items ask of the goto table, in the order of states and of items. -/
def gotoDemands (a : Automaton) : List GotoDemand :=
  a.items.filterMap fun p => p.1.gotoDemand? p.2

/-- A goto is asked for where some item of the state reads the nonterminal and the state has a
transition on it. -/
theorem mem_gotoDemands_iff {d : GotoDemand} :
    d ∈ a.gotoDemands ↔
      ∃ s, a.state? d.state = some s ∧
        (∃ item ∈ s.items, item.next? = some (.nonterminal d.nonterminal)) ∧
        s.transitions[Symbol.nonterminal d.nonterminal]? = some d.target := by
  rw [gotoDemands, List.mem_filterMap]
  constructor
  · rintro ⟨⟨s, item⟩, hmem, hdemand⟩
    obtain ⟨hs, hitem⟩ := mem_items_iff.mp hmem
    obtain ⟨hstate, hnext, htarget⟩ := State.gotoDemand?_eq_some_iff.mp hdemand
    have hfound : a.state? d.state = some s := by
      rw [hstate]
      exact a.state?_index hs
    exact ⟨s, hfound, ⟨item, hitem, hnext⟩, htarget⟩
  · rintro ⟨s, hfound, ⟨item, hitem, hnext⟩, htarget⟩
    obtain ⟨hs, hindex⟩ := a.mem_of_state? hfound
    exact ⟨(s, item), mem_items_iff.mpr ⟨hs, hitem⟩,
      State.gotoDemand?_eq_some_iff.mpr ⟨hindex.symm, hnext, htarget⟩⟩

/-- All demands for one cell of the goto table ask for one target. -/
theorem target_eq_of_mem_gotoDemands {d e : GotoDemand} (hd : d ∈ a.gotoDemands)
    (he : e ∈ a.gotoDemands) (hstate : d.state = e.state)
    (hnonterminal : d.nonterminal = e.nonterminal) : d.target = e.target := by
  obtain ⟨s, hs, -, htarget⟩ := mem_gotoDemands_iff.mp hd
  obtain ⟨s', hs', -, htarget'⟩ := mem_gotoDemands_iff.mp he
  rw [hstate, hs'] at hs
  cases hs
  rw [hnonterminal, htarget'] at htarget
  exact (Option.some_inj.mp htarget).symm

end Automaton

/-! ## The last target of a cell -/

/-- The target that is asked for last at a nonterminal in a state. -/
def lastTarget (demands : List GotoDemand) (s : StateIdx) (n : Nat) : Option StateIdx :=
  (demands.reverse.find? fun d => d.state = s ∧ d.nonterminal = n).map GotoDemand.target

theorem lastTarget_append_singleton (demands : List GotoDemand) (d : GotoDemand) (s : StateIdx)
    (n : Nat) :
    lastTarget (demands ++ [d]) s n =
      if d.state = s ∧ d.nonterminal = n then some d.target else lastTarget demands s n := by
  by_cases h : d.state = s ∧ d.nonterminal = n <;> simp [lastTarget, h]

theorem mem_of_lastTarget {demands : List GotoDemand} {s : StateIdx} {n : Nat} {target : StateIdx}
    (h : lastTarget demands s n = some target) : ⟨s, n, target⟩ ∈ demands := by
  obtain ⟨d, hd, rfl⟩ := Option.map_eq_some_iff.mp h
  have hcell := List.find?_some hd
  obtain ⟨rfl, rfl⟩ := of_decide_eq_true hcell
  exact List.mem_reverse.mp (List.mem_of_find?_eq_some hd)

/-- Where all demands for one cell agree, the last one is any of them. -/
theorem lastTarget_eq_some_iff {demands : List GotoDemand} {s : StateIdx} {n : Nat}
    {target : StateIdx}
    (hagree : ∀ d ∈ demands, ∀ e ∈ demands, d.state = e.state → d.nonterminal = e.nonterminal →
      d.target = e.target) :
    lastTarget demands s n = some target ↔ ⟨s, n, target⟩ ∈ demands := by
  refine ⟨mem_of_lastTarget, fun hmem => ?_⟩
  cases hfind : demands.reverse.find? fun d => d.state = s ∧ d.nonterminal = n with
  | none =>
    have hnone := List.find?_eq_none.mp hfind _ (List.mem_reverse.mpr hmem)
    simp at hnone
  | some d =>
    have hd : d ∈ demands := List.mem_reverse.mp (List.mem_of_find?_eq_some hfind)
    have hcell := List.find?_some hfind
    obtain ⟨hstate, hnonterminal⟩ := of_decide_eq_true hcell
    have htarget : d.target = target := hagree d hd _ hmem hstate hnonterminal
    rw [lastTarget, hfind, Option.map_some, htarget]

/-! ## Runs of the construction -/

theorem GotoTable.get?_register (table : GotoTable) (s s' : StateIdx) (n n' : Nat)
    (target : StateIdx) :
    GotoTable.get? (table.register s n target) s' n' =
      if s = s' ∧ n = n' then some target else table.get? s' n' := by
  unfold GotoTable.get? GotoTable.register
  rw [Std.ExtTreeMap.getElem?_insert]
  simp only [Std.LawfulEqCmp.compare_eq_iff_eq, Cell.mk.injEq]

namespace Construction

variable {g : Grammar} {items : List (State × Item)} {c c' : Construction}

/-- A demand for an action leaves the goto table alone. -/
theorem goto_act (c : Construction) (s : StateIdx) (t : Terminal) (action : Action) :
    (c.act s t action).tables.goto = c.tables.goto := by
  unfold act
  split
  · rfl
  · split <;> rfl

/-- To meet the demand of an item enters the target that the item asks for, if there is one. -/
theorem goto_meet {demands : List GotoDemand} {state : State} {item : Item} {d : Demand}
    (h : ∀ s n, c.tables.goto.get? s n = lastTarget demands s n)
    (hd : state.demand g item = .ok d) (s : StateIdx) (n : Nat) :
    (c.meet state.index d).tables.goto.get? s n =
      lastTarget (demands ++ (state.gotoDemand? item).toList) s n := by
  cases d with
  | act t action =>
    -- an item that asks for an action reads no nonterminal
    have hnone : state.gotoDemand? item = none := by
      rw [Option.eq_none_iff_forall_ne_some]
      intro e he
      exact (State.agrees_of_demand hd).2 _ (State.gotoDemand?_eq_some_iff.mp he).2.1
    rw [hnone, Option.toList_none, List.append_nil, ← h]
    exact congrArg (fun table => GotoTable.get? table s n) (c.goto_act _ _ _)
  | goto m target =>
    rw [State.gotoDemand?_of_demand hd, Option.toList_some, lastTarget_append_singleton, ← h]
    exact GotoTable.get?_register c.tables.goto state.index s m n target

/-- A run that ends without an error enters the targets that its items ask for, in order. -/
theorem goto_run {demands : List GotoDemand}
    (h : ∀ s n, c.tables.goto.get? s n = lastTarget demands s n)
    (hrun : run g items c = (c', none)) (s : StateIdx) (n : Nat) :
    c'.tables.goto.get? s n =
      lastTarget (demands ++ items.filterMap fun p => p.1.gotoDemand? p.2) s n := by
  have hcells := run_preserves (fun p => p.1.gotoDemand? p.2)
    (fun c demands => ∀ s n, c.tables.goto.get? s n = lastTarget demands s n)
    (fun _ _ _ _ _ h hd => goto_meet h hd) h hrun
  exact hcells s n

end Construction

/-- **What stands in the cells of the goto table**: the transition on the nonterminal, if some item
of the state reads that nonterminal, and nothing otherwise. -/
theorem goto_eq_some_iff {a : Automaton} {g : Grammar} {tables : ParseTables}
    (h : (ParseTables.build a g).tables = .ok tables) (index : StateIdx) (n : Nat)
    (target : StateIdx) :
    tables.goto.get? index n = some target ↔
      ∃ s, a.state? index = some s ∧ (∃ item ∈ s.items, item.next? = some (.nonterminal n)) ∧
        s.transitions[Symbol.nonterminal n]? = some target := by
  obtain ⟨c, hrun, rfl⟩ := run_of_build h
  have hblank : ∀ s m, ParseTables.blank.goto.get? s m = lastTarget [] s m := fun _ _ => rfl
  have hlast : c.tables.goto.get? index n = lastTarget a.gotoDemands index n :=
    Construction.goto_run hblank hrun index n
  have hagree : ∀ d ∈ a.gotoDemands, ∀ e ∈ a.gotoDemands, d.state = e.state →
      d.nonterminal = e.nonterminal → d.target = e.target :=
    fun _ hd _ he => Automaton.target_eq_of_mem_gotoDemands hd he
  rw [hlast, lastTarget_eq_some_iff hagree]
  exact Automaton.mem_gotoDemands_iff

end Parsing
end CompilerTables
