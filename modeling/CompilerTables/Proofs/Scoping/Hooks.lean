import Mathlib.Data.List.Forall2
import CompilerTables.Proofs.Scoping.Requests

/-!
# What hooks can do to a table

A hook is an arbitrary callback with a memory, so it may fail at any time and for any reason.  All
that this can do to the table is to keep a scope open: a request to leave is vetoed
(`Session.vetoed`) exactly when the hook for leaving fails on the current scope, and then nothing
happens.  A hook that fails on entering changes the answer and nothing else.

So a session with hooks is a session without them (`Session.plain`) that is not asked the vetoed
requests.  A step that is not vetoed agrees with the step without hooks at the same table
(`agrees_of_not_vetoed`), a vetoed one stays at its table (`table_of_vetoed`), and the main
statement, `hooks_only_veto_leaving`, follows by induction over the requests.
-/

namespace CompilerTables
namespace Scoping

/-- No hooks at all. -/
def Hooks.absent : Hooks Unit := ⟨none, none⟩

/-- A step with hooks does what the step without them does.  Only a scope that was entered may have
the message of a hook for an answer. -/
structure Response.Agrees {σ : Type} (request : Request) (response : Response σ)
    (plain : Response Unit) : Prop where
  table_eq : response.session.table = plain.session.table
  result_eq : request ≠ .enter → response.result = plain.result
  entered : request = .enter →
    response.result = plain.result ∨ ∃ message, response.result = .error (.hookFailed message)

/-- Any other step agrees when its table and its answer are the same. -/
theorem Response.Agrees.of_eq {σ : Type} {request : Request} {response : Response σ}
    {plain : Response Unit} (hrequest : request ≠ .enter)
    (htable : response.session.table = plain.session.table)
    (hresult : response.result = plain.result) : Response.Agrees request response plain :=
  ⟨htable, fun _ => hresult, fun henter => absurd henter hrequest⟩

namespace Session

variable {σ : Type} (hooks : Hooks σ) (s : Session σ)

/-- The session without hooks at the same table. -/
def plain (s : Session σ) : Session Unit := ⟨s.table, ()⟩

/-- A request to leave came to nothing because a hook failed. -/
def vetoed : Request → Except ScopingError Answer → Bool
  | .leave, .error (.hookFailed _) => true
  | _, _ => false

/-- The steps of a run, each request with its response, but for the vetoed ones. -/
def keptSteps (requests : List Request) : List (Request × Response σ) :=
  (requests.zip (s.run hooks requests)).filter fun step => ¬ vetoed step.1 step.2.result

/-- The requests of a run that were not vetoed. -/
def keptRequests (requests : List Request) : List Request :=
  (s.keptSteps hooks requests).map Prod.fst

/-! ## The hook for leaving

A request to leave meets one of three cases, which differ in the verdict of the hook. -/

section leave

variable {hooks s} {scope : Scope} {message : String} {calls : List HookCall} {memory : σ}

theorem leave_of_none (hscope : s.table.current? = none) :
    s.leave hooks = ⟨.error .noOpenScope, [], [], s⟩ := by
  rw [leave, hscope]

theorem leave_of_ok (hscope : s.table.current? = some scope)
    (hverdict : tell hooks.onLeave .leaving scope s.memory = (.ok (), calls, memory)) :
    s.leave hooks =
      ⟨.ok .left, calls, [.left scope.id], ⟨s.table.leave scope, memory⟩⟩ := by
  simp only [leave, hscope, hverdict]

theorem leave_of_error (hscope : s.table.current? = some scope)
    (hverdict : tell hooks.onLeave .leaving scope s.memory = (.error message, calls, memory)) :
    s.leave hooks = ⟨.error (.hookFailed message), calls, [], ⟨s.table, memory⟩⟩ := by
  simp only [leave, hscope, hverdict]

/-- The verdict on a scope is an error exactly if there is a hook and it fails on the scope. -/
theorem tell_eq_error_iff {hook? : Option (Hook σ)} (call : Scope → HookCall) :
    (tell hook? call scope memory).1 = .error message ↔
      ∃ hook, hook? = some hook ∧ (hook scope memory).1 = .error message := by
  cases hook? with
  | none => exact iff_of_false nofun (by rintro ⟨hook, hhook, -⟩; cases hhook)
  | some hook =>
    constructor
    · exact fun h => ⟨hook, rfl, h⟩
    · rintro ⟨_, hhook, h⟩
      cases hhook
      exact h

end leave

/-- A request to leave is vetoed exactly when there is a hook for leaving and it fails on the
current scope. -/
theorem vetoed_leave_iff :
    vetoed .leave (s.leave hooks).result = true ↔
      ∃ hook scope message, hooks.onLeave = some hook ∧ s.table.current? = some scope ∧
        (hook scope s.memory).1 = .error message := by
  cases hscope : s.table.current? with
  | none =>
    rw [leave_of_none hscope]
    exact iff_of_false nofun (by rintro ⟨_, _, _, _, hopen, _⟩; cases hopen)
  | some scope =>
    rcases hverdict : tell hooks.onLeave .leaving scope s.memory with ⟨verdict, calls, memory⟩
    have hfails : ∀ message, verdict = .error message ↔
        ∃ hook, hooks.onLeave = some hook ∧ (hook scope s.memory).1 = .error message := by
      intro message
      rw [← tell_eq_error_iff .leaving, hverdict]
    cases verdict with
    | ok _ =>
      rw [leave_of_ok hscope hverdict]
      refine iff_of_false nofun ?_
      rintro ⟨hook, _, message, hhook, hscope', hfailed⟩
      cases hscope'
      cases (hfails message).mpr ⟨hook, hhook, hfailed⟩
    | error message =>
      rw [leave_of_error hscope hverdict]
      obtain ⟨hook, hhook, hfailed⟩ := (hfails message).mp rfl
      exact iff_of_true rfl ⟨hook, scope, message, hhook, rfl, hfailed⟩

/-! ## One step -/

/-- To enter a scope opens it, whatever the hook says. -/
theorem enter_agrees : Response.Agrees .enter (s.enter hooks) (s.plain.enter .absent) where
  table_eq := rfl
  result_eq hne := absurd rfl hne
  entered _ := by
    unfold enter
    dsimp only
    split
    · exact Or.inl rfl
    · next message _ => exact Or.inr ⟨message, rfl⟩

/-- A scope is opened even if the hook for entering fails on it. -/
theorem enter_of_hook_failed {hook : Hook σ} {message : String} (hhook : hooks.onEnter = some hook)
    (hfailed : (hook s.table.nextScope s.memory).1 = .error message) :
    (s.enter hooks).result = .error (.hookFailed message) ∧
      (s.plain.enter .absent).result = .ok (.entered s.table.scopes.size) ∧
      (s.enter hooks).session.table = (s.plain.enter .absent).session.table := by
  have hverdict : (tell hooks.onEnter .entered s.table.nextScope s.memory).1 = .error message :=
    (tell_eq_error_iff .entered).mpr ⟨hook, hhook, hfailed⟩
  refine ⟨?_, ?_, rfl⟩
  · simp only [enter, hverdict]
  · exact congrArg (fun id => Except.ok (Answer.entered id)) s.table.id_nextScope

theorem leave_agrees (hkept : vetoed .leave (s.leave hooks).result = false) :
    Response.Agrees .leave (s.leave hooks) (s.plain.leave .absent) := by
  cases hscope : s.table.current? with
  | none =>
    rw [leave_of_none hscope, leave_of_none (s := s.plain) hscope]
    exact .of_eq (by simp) rfl rfl
  | some scope =>
    rcases hverdict : tell hooks.onLeave .leaving scope s.memory with ⟨verdict, calls, memory⟩
    cases verdict with
    | ok _ =>
      rw [leave_of_ok hscope hverdict, leave_of_ok (s := s.plain) hscope rfl]
      exact .of_eq (by simp) rfl rfl
    | error message =>
      rw [leave_of_error hscope hverdict] at hkept
      cases hkept

/-- A declaration does not ask the hooks. -/
theorem declare_agrees {request : Request} (hrequest : request ≠ .enter) (e : Entry)
    (answer : Option Address → Answer) :
    Response.Agrees request (s.declare e answer) (s.plain.declare e answer) := by
  have hplain : s.plain.table = s.table := rfl
  unfold declare
  rw [hplain]
  cases s.table.declare e with
  | ok stored => exact .of_eq hrequest rfl rfl
  | error error => exact .of_eq hrequest rfl rfl

/-- A step that is not vetoed agrees with the step without hooks at the same table. -/
theorem agrees_of_not_vetoed {request : Request}
    (hkept : vetoed request (s.step hooks request).result = false) :
    Response.Agrees request (s.step hooks request) (s.plain.step .absent request) := by
  cases request with
  | enter => exact enter_agrees hooks s
  | leave => exact leave_agrees hooks s hkept
  | declare e => exact declare_agrees s (by simp) e .declared
  | declareConstant e =>
    exact declare_agrees s (by simp) { e with kind := .constant } fun _ => .constantDeclared
  | temporary size =>
    have hplain : s.plain.table = s.table := rfl
    simp only [step]
    rw [hplain]
    cases s.table.temporary size with
    | ok allocated => exact .of_eq (by simp) rfl rfl
    | error error => exact .of_eq (by simp) rfl rfl
  | lookup name => exact .of_eq (by simp) rfl rfl

/-- A vetoed step stays at its table. -/
theorem table_of_vetoed {request : Request}
    (hvetoed : vetoed request (s.step hooks request).result = true) :
    (s.step hooks request).session.table = s.table := by
  cases request with
  | leave =>
    have hchange := step_change hooks s .leave
    generalize (s.step hooks .leave).result = result at hvetoed hchange
    generalize (s.step hooks .leave).session.table = table at hchange
    cases hchange with
    | left hcurrent => cases hvetoed
    | refused hrequest => rfl
  | _ => cases hvetoed

/-! ## Runs -/

/-- What the session without hooks does next, if the step is not vetoed. -/
theorem plain_step_of_not_vetoed {request : Request}
    (hkept : vetoed request (s.step hooks request).result = false) :
    (s.plain.step .absent request).session = (s.step hooks request).session.plain := by
  have htable := (agrees_of_not_vetoed hooks s hkept).table_eq
  exact congrArg (fun table => Session.mk table ()) htable.symm

theorem plain_of_vetoed {request : Request}
    (hvetoed : vetoed request (s.step hooks request).result = true) :
    (s.step hooks request).session.plain = s.plain := by
  rw [plain, table_of_vetoed hooks s hvetoed, plain]

theorem keptSteps_cons_of_vetoed {request : Request}
    (hvetoed : vetoed request (s.step hooks request).result = true) (rest : List Request) :
    s.keptSteps hooks (request :: rest) = (s.step hooks request).session.keptSteps hooks rest := by
  rw [keptSteps, run, List.zip_cons_cons, List.filter_cons_of_neg (by simp [hvetoed]), keptSteps]

theorem keptSteps_cons_of_not_vetoed {request : Request}
    (hkept : vetoed request (s.step hooks request).result = false) (rest : List Request) :
    s.keptSteps hooks (request :: rest) =
      (request, s.step hooks request) :: (s.step hooks request).session.keptSteps hooks rest := by
  rw [keptSteps, run, List.zip_cons_cons, List.filter_cons_of_pos (by simp [hkept]), keptSteps]

theorem keptSteps_append (before later : List Request) :
    s.keptSteps hooks (before ++ later) =
      s.keptSteps hooks before ++ (s.after hooks before).keptSteps hooks later := by
  induction before generalizing s with
  | nil => rfl
  | cons request rest ih =>
    rw [List.cons_append, after_cons]
    cases hvetoed : vetoed request (s.step hooks request).result with
    | true =>
      rw [keptSteps_cons_of_vetoed hooks s hvetoed, keptSteps_cons_of_vetoed hooks s hvetoed, ih]
    | false =>
      rw [keptSteps_cons_of_not_vetoed hooks s hvetoed,
        keptSteps_cons_of_not_vetoed hooks s hvetoed, ih, List.cons_append]

/-- The steps that are kept agree, one by one, with those of a run without hooks. -/
theorem agrees_run (requests : List Request) :
    List.Forall₂ (fun step plain => Response.Agrees step.1 step.2 plain)
      (s.keptSteps hooks requests) (s.plain.run .absent (s.keptRequests hooks requests)) := by
  induction requests generalizing s with
  | nil => exact .nil
  | cons request rest ih =>
    cases hvetoed : vetoed request (s.step hooks request).result with
    | true =>
      rw [keptRequests, keptSteps_cons_of_vetoed hooks s hvetoed, ← plain_of_vetoed hooks s hvetoed]
      exact ih _
    | false =>
      rw [keptRequests, keptSteps_cons_of_not_vetoed hooks s hvetoed, List.map_cons, run]
      refine .cons (agrees_of_not_vetoed hooks s hvetoed) ?_
      rw [plain_step_of_not_vetoed hooks s hvetoed]
      exact ih _

/-- A run and the run without hooks arrive at the same table. -/
theorem plain_after (requests : List Request) :
    s.plain.after .absent (s.keptRequests hooks requests) = (s.after hooks requests).plain := by
  induction requests generalizing s with
  | nil => rfl
  | cons request rest ih =>
    rw [after_cons]
    cases hvetoed : vetoed request (s.step hooks request).result with
    | true =>
      rw [keptRequests, keptSteps_cons_of_vetoed hooks s hvetoed, ← plain_of_vetoed hooks s hvetoed]
      exact ih _
    | false =>
      rw [keptRequests, keptSteps_cons_of_not_vetoed hooks s hvetoed, List.map_cons, after_cons,
        plain_step_of_not_vetoed hooks s hvetoed]
      exact ih _

/-- What is kept of the first requests comes first in what is kept of all. -/
theorem keptRequests_prefix {before requests : List Request} (h : before <+: requests) :
    s.keptRequests hooks before <+: s.keptRequests hooks requests := by
  obtain ⟨later, rfl⟩ := h
  rw [keptRequests, keptRequests, keptSteps_append, List.map_append]
  exact List.prefix_append _ _

end Session

/-- **Hooks can only keep a scope open.**  Leave out the requests to leave whose hook failed, and a
run with hooks is a run without them: the tables after each step are the same, and so are the
answers, except that a hook that fails on entering has its message for an answer.  Such a request to
enter does what one that succeeds does, and a request to leave whose hook fails does nothing. -/
theorem hooks_only_veto_leaving {σ : Type} (hooks : Hooks σ) (s : Session σ)
    (requests : List Request) :
    List.Forall₂ (fun step plain => Response.Agrees step.1 step.2 plain)
        (s.keptSteps hooks requests) (s.plain.run .absent (s.keptRequests hooks requests)) ∧
      (∀ before, before <+: requests →
        s.keptRequests hooks before <+: s.keptRequests hooks requests ∧
          (s.after hooks before).table =
            (s.plain.after .absent (s.keptRequests hooks before)).table) ∧
      (∀ (s' : Session σ) (hook : Hook σ) (message : String), hooks.onEnter = some hook →
        (hook s'.table.nextScope s'.memory).1 = .error message →
          (s'.step hooks .enter).result = .error (.hookFailed message) ∧
            (s'.plain.step .absent .enter).result = .ok (.entered s'.table.scopes.size) ∧
            (s'.step hooks .enter).session.table = (s'.plain.step .absent .enter).session.table) ∧
      ∀ s' : Session σ,
        (Session.vetoed .leave (s'.step hooks .leave).result = true ↔
          ∃ hook scope message, hooks.onLeave = some hook ∧ s'.table.current? = some scope ∧
            (hook scope s'.memory).1 = .error message) ∧
        (Session.vetoed .leave (s'.step hooks .leave).result = true →
          (s'.step hooks .leave).session.table = s'.table) := by
  refine ⟨s.agrees_run hooks requests, fun before hbefore => ⟨?_, ?_⟩, ?_, fun s' => ⟨?_, ?_⟩⟩
  · exact s.keptRequests_prefix hooks hbefore
  · rw [s.plain_after hooks before]
    rfl
  · exact fun s' hook message => s'.enter_of_hook_failed hooks
  · exact s'.vetoed_leave_iff hooks
  · exact s'.table_of_vetoed hooks

/-- The fifth request is vetoed.  Without hooks and without it the other nine end in the same table,
and the third, on which the hook fails, opens scope `1` all the same. -/
theorem hooks_only_veto_leaving_nested :
    let s : Session Nat := ⟨.fresh .standard (by decide), 0⟩
    let failing := s.after moodyHooks (nestedRequests.take 2)
    let vetoing := s.after moodyHooks (nestedRequests.take 4)
    s.keptRequests moodyHooks nestedRequests = nestedRequests.eraseIdx 4 ∧
      (nestedTable 10).scopes.size = 3 ∧
      nestedTable 10 = (s.plain.after .absent (nestedRequests.eraseIdx 4)).table ∧
      (failing.step moodyHooks .enter).result = .error (.hookFailed "no entry") ∧
      (failing.plain.step .absent .enter).result = .ok (.entered 1) ∧
      (failing.step moodyHooks .enter).session.table =
        (failing.plain.step .absent .enter).session.table ∧
      Session.vetoed .leave (vetoing.step moodyHooks .leave).result = true ∧
      (vetoing.step moodyHooks .leave).session.table = vetoing.table := by
  intro s failing vetoing
  have hkept : s.keptRequests moodyHooks nestedRequests = nestedRequests.eraseIdx 4 := by
    decide +kernel
  have hvetoed : Session.vetoed .leave (vetoing.step moodyHooks .leave).result = true := by
    decide +kernel
  obtain ⟨-, htables, henter, hleave⟩ := hooks_only_veto_leaving moodyHooks s nestedRequests
  have htable := (htables nestedRequests (List.prefix_refl _)).2
  obtain ⟨hresult, hplain, hsame⟩ := henter failing _ "no entry" rfl (by decide +kernel)
  have hsize : failing.table.scopes.size = 1 := by decide +kernel
  rw [hkept] at htable
  rw [hsize] at hplain
  exact ⟨hkept, by decide +kernel, htable, hresult, hplain, hsame, hvetoed,
    (hleave vetoing).2 hvetoed⟩

end Scoping
end CompilerTables
