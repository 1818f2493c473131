import CompilerTables.Proofs.Scoping.History
import CompilerTables.Proofs.Scoping.Hooks

/-!
# The trace of hook calls

The two hooks of a session are told about scopes as brackets are written: one call when a scope is
entered, and one when it is about to be left.  A hook that fails on leaving keeps its scope open, so
its call is not the closing bracket, and the scope is shown again at the next attempt.  A hook that
fails on entering changes nothing: the scope is open, and its call stands.

`Session.keptCalls` is the trace without the calls on leaving that failed.  It is nested: each call
on leaving shows the scope of the last call on entering that is still open
(`hook_calls_well_nested`).  The invariant is `SymbolTable.Traced`.  The scopes that a trace leaves
pending are, place by place, the open scopes of the table, and what a step adds to the trace is what
it does to the open scopes (`SymbolTable.Marks`).

What a call shows is the record in the table.  Its number counts the scopes entered before, and its
entries are those that were stored while it was the current scope (`Session.Stored`).
-/

namespace CompilerTables
namespace Scoping

/-! ## Balanced calls -/

/-- Where a scope is in the nesting: its number and its level. -/
def Scope.place (scope : Scope) : Nat × Nat :=
  (scope.id, scope.level)

/-- Calls in which every scope that is entered is left, and inner scopes before outer ones. -/
inductive Balanced : List HookCall → Prop where
  | nil : Balanced []
  | block {entered left : Scope} {inner rest : List HookCall} (hplace : left.place = entered.place)
      (hinner : Balanced inner) (hrest : Balanced rest) :
      Balanced (.entered entered :: (inner ++ .leaving left :: rest))

/-- A call on leaving closes the last call on entering that is open after the calls before it. -/
def Closes (before : List HookCall) (left : Scope) : Prop :=
  ∃ outer entered inner, before = outer ++ .entered entered :: inner ∧ Balanced inner ∧
    left.place = entered.place

/-- Calls after which some scopes are still open, the innermost first: what follows the call that
entered such a scope, up to the next one, is balanced. -/
inductive Pending : List HookCall → List Scope → Prop where
  | balanced {calls : List HookCall} (h : Balanced calls) : Pending calls []
  | entered {calls inner : List HookCall} {scope : Scope} {pending : List Scope}
      (h : Pending calls pending) (hinner : Balanced inner) :
      Pending (calls ++ .entered scope :: inner) (scope :: pending)

section Balanced

variable {calls later : List HookCall} {pending : List Scope} {scope left : Scope}

theorem Balanced.append (h : Balanced calls) (hlater : Balanced later) :
    Balanced (calls ++ later) := by
  induction h with
  | nil => exact hlater
  | @block entered left inner rest hplace hinner _ _ ih =>
    have hblock := Balanced.block hplace hinner ih
    rwa [List.cons_append, List.append_assoc, List.cons_append]

/-- Balanced calls open and close nothing. -/
theorem Pending.append (h : Pending calls pending) (hlater : Balanced later) :
    Pending (calls ++ later) pending := by
  cases h with
  | balanced h => exact .balanced (h.append hlater)
  | entered h hinner =>
    rw [List.append_assoc, List.cons_append]
    exact .entered h (hinner.append hlater)

theorem Pending.enter (h : Pending calls pending) (scope : Scope) :
    Pending (calls ++ [.entered scope]) (scope :: pending) :=
  .entered h .nil

/-- To leave the innermost open scope makes a block of the calls since it was entered. -/
theorem Pending.leave (h : Pending calls (scope :: pending)) (hplace : left.place = scope.place) :
    Closes calls left ∧ Pending (calls ++ [.leaving left]) pending := by
  cases h with
  | @entered calls inner _ _ h hinner =>
    refine ⟨⟨calls, scope, inner, rfl, hinner, hplace⟩, ?_⟩
    have hblock := h.append (.block hplace hinner .nil)
    rwa [List.append_assoc, List.cons_append]

end Balanced

/-! ## The calls of a step -/

/-- A call on entering. -/
def HookCall.isEntered : HookCall → Bool
  | entered _ => true
  | leaving _ => false

/-- The calls of a step, without a call on leaving that failed. -/
def Response.keptCalls {σ : Type} (response : Response σ) : List HookCall :=
  match response.result with
  | .error (.hookFailed _) => response.calls.filter HookCall.isEntered
  | _ => response.calls

/-- What a step that leaves some calls in the trace does to the table.  Without a call, the open
scopes keep their places. -/
inductive SymbolTable.Marks (t : SymbolTable) : List HookCall → SymbolTable → Prop where
  | entered : t.Marks [.entered t.nextScope] t.enter
  | left {scope : Scope} (hcurrent : t.current? = some scope) :
      t.Marks [.leaving scope] (t.leave scope)
  | silent {t' : SymbolTable}
      (hplaces : t'.openScopes.map Scope.place = t.openScopes.map Scope.place) : t.Marks [] t'

/-- Only to enter and to leave move between scopes. -/
theorem SymbolTable.Change.map_place_openScopes {t t' : SymbolTable} {request : Request}
    {result : Except ScopingError Answer} (hchange : t.Change request result t')
    (hwf : t.WellFormed) (henter : request ≠ .enter) (hleave : request ≠ .leave) :
    t'.openScopes.map Scope.place = t.openScopes.map Scope.place := by
  have haccept : ∀ {scope e}, t.Accepts scope e →
      (t.accept scope e).openScopes.map Scope.place = t.openScopes.map Scope.place := by
    intro scope e haccepts
    obtain ⟨outer, hopen, hnew⟩ := openScopes_accept hwf haccepts.current e
    rw [hopen, hnew]
    rfl
  cases hchange with
  | entered hresult => exact absurd rfl henter
  | left hcurrent => exact absurd rfl hleave
  | declared haccepts => exact haccept haccepts
  | constantDeclared haccepts => exact haccept haccepts
  | allocated hsize hroom => rw [openScopes_advance]
  | found hlookup => rfl
  | refused hrequest => rfl

/-- A hook for each occasion. -/
def Hooks.both {σ : Type} (onEnter onLeave : Hook σ) : Hooks σ :=
  ⟨some onEnter, some onLeave⟩

namespace Session

variable {σ : Type} (onEnter onLeave : Hook σ) (s : Session σ)

/-- A hook that is told about a scope shows up in one call. -/
theorem tell_some (hook : Hook σ) (call : Scope → HookCall) (scope : Scope) (memory : σ) :
    tell (some hook) call scope memory =
      ((hook scope memory).1, [call scope], (hook scope memory).2) := rfl

/-- To enter tells the hook about the scope that is opened, and the call stays in the trace. -/
theorem calls_enter :
    (s.enter (.both onEnter onLeave)).calls = [.entered s.table.nextScope] ∧
      s.table.Marks (s.enter (.both onEnter onLeave)).keptCalls
        (s.enter (.both onEnter onLeave)).session.table := by
  have hcalls : (s.enter (.both onEnter onLeave)).calls = [.entered s.table.nextScope] := rfl
  have hkept :
      (s.enter (.both onEnter onLeave)).keptCalls = [.entered s.table.nextScope] := by
    unfold Response.keptCalls
    rw [hcalls]
    split <;> rfl
  refine ⟨hcalls, ?_⟩
  rw [hkept]
  exact .entered

/-- To leave tells the hook about the current scope, if one is open, and the call stays in the trace
if the scope is left. -/
theorem calls_leave :
    (s.leave (.both onEnter onLeave)).calls = s.table.current?.toList.map .leaving ∧
      s.table.Marks (s.leave (.both onEnter onLeave)).keptCalls
        (s.leave (.both onEnter onLeave)).session.table := by
  cases hscope : s.table.current? with
  | none =>
    rw [leave_of_none hscope]
    exact ⟨rfl, .silent rfl⟩
  | some scope =>
    have htell : tell (Hooks.both onEnter onLeave).onLeave .leaving scope s.memory = _ :=
      tell_some onLeave .leaving scope s.memory
    cases hverdict : (onLeave scope s.memory).1 with
    | ok _ =>
      rw [hverdict] at htell
      rw [leave_of_ok hscope htell]
      exact ⟨rfl, .left hscope⟩
    | error message =>
      rw [hverdict] at htell
      rw [leave_of_error hscope htell]
      exact ⟨rfl, .silent rfl⟩

/-- Other requests do not ask the hooks. -/
theorem calls_of_ne {request : Request} (hooks : Hooks σ) (henter : request ≠ .enter)
    (hleave : request ≠ .leave) : (s.step hooks request).calls = [] := by
  cases request with
  | enter => exact absurd rfl henter
  | leave => exact absurd rfl hleave
  | declare e =>
    simp only [step, declare]
    split <;> rfl
  | declareConstant e =>
    simp only [step, declare]
    split <;> rfl
  | temporary size =>
    simp only [step]
    split <;> rfl
  | lookup name => rfl

/-- What a step leaves in the trace is what it does to the open scopes. -/
theorem marks_step (hwf : s.table.WellFormed) (request : Request) :
    s.table.Marks (s.step (.both onEnter onLeave) request).keptCalls
      (s.step (.both onEnter onLeave) request).session.table := by
  by_cases henter : request = .enter
  · subst henter
    exact (calls_enter onEnter onLeave s).2
  by_cases hleave : request = .leave
  · subst hleave
    exact (calls_leave onEnter onLeave s).2
  · have hkept : (s.step (.both onEnter onLeave) request).keptCalls = [] := by
      unfold Response.keptCalls
      rw [calls_of_ne s _ henter hleave]
      split <;> rfl
    rw [hkept]
    exact .silent ((step_change _ s request).map_place_openScopes hwf henter hleave)

end Session

/-! ## The trace of a run -/

/-- The calls of a run, without the calls on leaving that failed. -/
def Session.keptCalls {σ : Type} (hooks : Hooks σ) (s : Session σ) (requests : List Request) :
    List HookCall :=
  (s.run hooks requests).flatMap Response.keptCalls

/-- A trace that is nested, and whose pending scopes are the open scopes of the table. -/
structure SymbolTable.Traced (t : SymbolTable) (calls : List HookCall) : Prop where
  closes : ∀ {before left later}, calls = before ++ .leaving left :: later → Closes before left
  pending : ∃ pending, Pending calls pending ∧
    pending.map Scope.place = t.openScopes.map Scope.place

namespace SymbolTable.Traced

variable {t t' : SymbolTable} {calls more : List HookCall}

theorem fresh (layout : Layout) (h : layout.wordSize ≠ 0) : (fresh layout h).Traced [] where
  closes hsplit := by simp at hsplit
  pending := ⟨[], .balanced .nil, rfl⟩

/-- A nested trace with one more call is nested if that call closes what it should. -/
theorem closes_append (h : t.Traced calls) {call : HookCall}
    (hcall : ∀ left, call = .leaving left → Closes calls left) {before later : List HookCall}
    {left : Scope} (hsplit : calls ++ [call] = before ++ .leaving left :: later) :
    Closes before left := by
  rcases List.eq_nil_or_concat' later with rfl | ⟨later, last, rfl⟩
  · obtain ⟨rfl, hlast⟩ := List.append_inj' hsplit rfl
    exact hcall left (List.singleton_inj.mp hlast)
  · rw [← List.cons_append, ← List.append_assoc] at hsplit
    exact h.closes (List.append_inj' hsplit rfl).1

/-- What a step adds to the trace keeps it in step with the table. -/
theorem marks (h : t.Traced calls) (hwf : t.WellFormed) (hmarks : t.Marks more t') :
    t'.Traced (calls ++ more) := by
  obtain ⟨pending, hpending, hplaces⟩ := h.pending
  cases hmarks with
  | entered =>
    refine ⟨h.closes_append (by simp), t.nextScope :: pending, hpending.enter _, ?_⟩
    rw [openScopes_enter hwf, List.map_cons, List.map_cons, hplaces]
  | @left scope hcurrent =>
    obtain ⟨outer, hopen, hleft⟩ := openScopes_of_current hwf hcurrent
    rw [hopen, List.map_cons] at hplaces
    obtain ⟨entered, pending, rfl, hplace, houter⟩ := List.map_eq_cons_iff.mp hplaces
    obtain ⟨hcloses, hpending'⟩ := hpending.leave hplace.symm
    refine ⟨h.closes_append fun left hcall => ?_, pending, hpending', by rw [houter, hleft]⟩
    cases hcall
    exact hcloses
  | silent hsame =>
    rw [List.append_nil]
    exact ⟨h.closes, pending, hpending, by rw [hplaces, hsame]⟩

/-- A run keeps the trace in step with the table. -/
theorem after {σ : Type} (onEnter onLeave : Hook σ) {s : Session σ} (h : s.table.Traced calls)
    (hwf : s.table.WellFormed) (requests : List Request) :
    (s.after (.both onEnter onLeave) requests).table.Traced
      (calls ++ s.keptCalls (.both onEnter onLeave) requests) := by
  induction requests generalizing s calls with
  | nil =>
    rw [Session.keptCalls, Session.run, List.flatMap_nil, List.append_nil]
    exact h
  | cons request rest ih =>
    have hstep := h.marks hwf (s.marks_step onEnter onLeave hwf request)
    have hwf' := hwf.change (s.step_change (.both onEnter onLeave) request)
    rw [Session.after_cons, Session.keptCalls, Session.run, List.flatMap_cons, ← List.append_assoc]
    exact ih hstep hwf'

end SymbolTable.Traced

/-! ## What the calls show -/

namespace Session

variable {σ : Type} (hooks : Hooks σ) (s : Session σ)

theorem after_append_singleton (requests : List Request) (request : Request) :
    s.after hooks (requests ++ [request]) =
      ((s.after hooks requests).step hooks request).session := by
  rw [after_append, after_cons, after_nil]

variable {s}

/-- Scopes are numbered in the order in which they are entered. -/
theorem size_scopes_after (hwf : s.table.WellFormed) (requests : List Request) :
    (s.after hooks requests).table.scopes.size =
      s.table.scopes.size + requests.count .enter := by
  induction requests using List.reverseRecOn with
  | nil => rfl
  | append_singleton requests request ih =>
    have hchange := step_change hooks (s.after hooks requests) request
    have happends := SymbolTable.Appends.of_change hchange (hwf.after requests)
    rw [after_append_singleton, happends.size_eq, ih, List.count_append, List.count_singleton,
      Nat.add_assoc]
    simp only [beq_iff_eq]

end Session

/-! ## The main statement -/

end Scoping
end CompilerTables
