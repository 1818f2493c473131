import Mathlib.Data.List.Chain
import CompilerTables.Proofs.Parsing.ActionCells
import CompilerTables.Proofs.Parsing.Gotos
import CompilerTables.Proofs.Parsing.Reachability

/-!
# Tables are closed

A parser indexes its automaton and its grammar by what it finds in the tables, without checking.
The main statement says that it may (`tables_closed`): a shift or a goto is a transition of the
state it stands in, a reduction names a production of the grammar, and a parser that starts in state
`0` only ever comes to states that the search for reachable states finds.

All of it is read off one fact about the demands (`allows_of_mem_actionDemands`), because whatever
stands in the action table or in a conflict was demanded by some item.
-/

namespace CompilerTables
namespace Parsing

variable {a : Automaton} {g : Grammar} {tables : ParseTables}

/-! ## What an action may refer to -/

/-- An action that a parser can carry out in a state at a terminal: it shifts along a transition of
the state to a state of the automaton, or it reduces by a production of the grammar, or it accepts
at the end of the input. -/
def Automaton.Allows (a : Automaton) (g : Grammar) (index : StateIdx) (t : Terminal) :
    Action → Prop
  | .shift target => a.HasTransition index (.terminal t) target ∧ target.toNat < a.size
  | .reduce k => k < g.productions.size
  | .accept => t = Terminal.endMarker

theorem Grammar.lt_of_indexOf? {p : Production} {k : Nat} (h : g.indexOf? p = some k) :
    k < g.productions.size := by
  obtain ⟨hlt, -, -⟩ := Grammar.idxOf?_eq_some_iff.mp h
  exact hlt

/-- Items ask for nothing that a parser could not carry out. -/
theorem allows_of_mem_actionDemands {d : ActionDemand} (h : d ∈ a.actionDemands g) :
    a.Allows g d.state d.terminal d.action := by
  obtain ⟨s, hs, item, -, hdemand⟩ := (a.mem_actionDemands_iff g d).mp h
  rcases State.actionDemand?_eq_some_iff.mp hdemand with
    ⟨-, -, rfl⟩ | ⟨-, -, k, hk, rfl⟩ | ⟨t, j, -, hj, rfl⟩
  · rfl
  · exact Grammar.lt_of_indexOf? hk
  · have htransition : a.HasTransition s.index (.terminal t) j := ⟨s, hs, hj⟩
    exact ⟨htransition, htransition.lt_size⟩

theorem allows_of_action (h : (ParseTables.build a g).tables = .ok tables) {index : StateIdx}
    {t : Terminal} {action : Action} (haction : tables.action.get? index t = some action) :
    a.Allows g index t action := by
  rw [(answers_of_build h).get?_eq] at haction
  exact allows_of_mem_actionDemands (mem_of_firstAction haction)

/-- Both sides of a conflict were demanded. -/
theorem allows_of_mem_conflicts (h : (ParseTables.build a g).tables = .ok tables) {c : Conflict}
    (hc : c ∈ tables.conflicts) :
    a.Allows g c.state c.terminal c.kept ∧ a.Allows g c.state c.terminal c.rejected := by
  obtain ⟨hfirst, -, hmem⟩ := (mem_conflicts_iff h).mp hc
  exact ⟨allows_of_mem_actionDemands (mem_of_firstAction hfirst),
    allows_of_mem_actionDemands hmem⟩

theorem hasTransition_of_goto (h : (ParseTables.build a g).tables = .ok tables)
    {index target : StateIdx} {n : Nat} (hgoto : tables.goto.get? index n = some target) :
    a.HasTransition index (.nonterminal n) target := by
  obtain ⟨s, hs, -, htarget⟩ := (goto_eq_some_iff h index n target).mp hgoto
  exact ⟨s, hs, htarget⟩

/-! ## The moves of a parser -/

/-- A parser moves from one state to another along a shift or along a goto. -/
inductive ParseTables.Move (tables : ParseTables) (index target : StateIdx) : Prop where
  | shift (t : Terminal) (h : tables.action.get? index t = some (.shift target))
  | goto (n : Nat) (h : tables.goto.get? index n = some target)

/-- The state that a parser starts in. -/
def initialState : StateIdx := ⟨0, Nat.zero_lt_succ _⟩

/-- A move follows a transition. -/
theorem mem_targets_of_move (h : (ParseTables.build a g).tables = .ok tables)
    {index target : StateIdx} (hmove : tables.Move index target) :
    target.toNat ∈ a.targets index.toNat := by
  cases hmove with
  | shift t hshift =>
    have hallows : a.Allows g index t (.shift target) := allows_of_action h hshift
    exact hallows.1.mem_targets
  | goto n hgoto => exact (hasTransition_of_goto h hgoto).mem_targets

/-- Whatever a parser comes to on its way from state `0` can be reached from there. -/
theorem reaches_of_moves (h : (ParseTables.build a g).tables = .ok tables) {visited : List StateIdx}
    (hmoves : (initialState :: visited).IsChain tables.Move) :
    ∀ index ∈ initialState :: visited, a.Reaches 0 index.toNat := by
  have hstart : a.Reaches 0 initialState.toNat := Relation.ReflTransGen.refl
  have hstep : ∀ ⦃index target : StateIdx⦄, tables.Move index target →
      a.Reaches 0 index.toNat → a.Reaches 0 target.toNat := fun _ _ hmove hreaches =>
    Relation.ReflTransGen.tail hreaches (mem_targets_of_move h hmove)
  intro index hindex
  rcases List.mem_cons.mp hindex with rfl | hvisited
  · exact hstart
  · exact hmoves.cons_induction _ visited hstep hstart index hvisited

/-- **Tables are closed over their automaton and their grammar.**  An entry of the action table, and
either side of a conflict, is an action that can be carried out in its state: a shift is a
transition of that state on that terminal, and a reduction names a production.  An entry of the goto
table is a transition on its nonterminal.  Along shifts and gotos, a parser never comes from state
`0` to a state that counts as unreachable. -/
theorem tables_closed (h : (ParseTables.build a g).tables = .ok tables) :
    (∀ index t action, tables.action.get? index t = some action → a.Allows g index t action) ∧
      (∀ index n target, tables.goto.get? index n = some target →
        a.HasTransition index (.nonterminal n) target ∧ target.toNat < a.size) ∧
      (∀ c ∈ tables.conflicts,
        a.Allows g c.state c.terminal c.kept ∧ a.Allows g c.state c.terminal c.rejected) ∧
      ∀ visited, (initialState :: visited).IsChain tables.Move →
        ∀ index ∈ initialState :: visited, index.toNat ∉ a.unreachableStates := by
  refine ⟨fun index t action => allows_of_action h, fun index n target hgoto => ?_,
    fun c => allows_of_mem_conflicts h, fun visited hmoves index hindex hunreachable => ?_⟩
  · have htransition := hasTransition_of_goto h hgoto
    exact ⟨htransition, htransition.lt_size⟩
  · exact (mem_unreachableStates_iff.mp hunreachable).2 (reaches_of_moves h hmoves index hindex)

theorem tables_closed_clashing :
    ∃ tables, (ParseTables.build clashing optionalLetter).tables = .ok tables ∧
      tables.action.get? initialState letterA = some (.shift ⟨1, by decide⟩) ∧
      clashing.HasTransition initialState (.terminal letterA) ⟨1, by decide⟩ ∧
      ⟨initialState, letterA, .shift ⟨1, by decide⟩, .reduce 3⟩ ∈ tables.conflicts ∧
      3 < optionalLetter.productions.size ∧
      [initialState, ⟨1, by decide⟩].IsChain tables.Move ∧
      1 ∉ clashing.unreachableStates := by
  obtain ⟨tables, htables⟩ := exists_tables_clashing
  have hanswers := answers_of_build htables
  have hshift : tables.action.get? initialState letterA = some (.shift ⟨1, by decide⟩) := by
    rw [hanswers.get?_eq]
    decide +kernel
  have hconflict :
      ⟨initialState, letterA, .shift ⟨1, by decide⟩, .reduce 3⟩ ∈ tables.conflicts := by
    rw [← Array.mem_toList_iff, hanswers.conflicts_eq]
    decide +kernel
  have hmoves : [initialState, ⟨1, by decide⟩].IsChain tables.Move :=
    List.isChain_pair.mpr (.shift letterA hshift)
  obtain ⟨haction, -, hconflicts, hvisited⟩ := tables_closed htables
  exact ⟨tables, htables, hshift, (haction _ _ _ hshift).1, hconflict, (hconflicts _ hconflict).2,
    hmoves, hvisited _ hmoves ⟨1, by decide⟩ (by decide)⟩

end Parsing
end CompilerTables
