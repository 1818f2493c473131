import CompilerTables.Log
import CompilerTables.Scoping.SymbolTable

/-!
# Sessions with a symbol table

A session is a symbol table in use: it answers one request after another, logs what it does, and
tells its hooks about every scope that is entered or left.  A hook is an arbitrary callback with a
memory of its own, which both hooks of a session may share, and it may fail.

A scope that was entered stays open and current even if the hook for entering fails.  The hook for
leaving is told before the scope is closed, and if it fails the scope stays open.  Nothing else that
a hook does reaches the table.
-/

namespace CompilerTables
namespace Scoping

/-- A callback that is shown a scope: it fails with a message or not, and updates its memory. -/
abbrev Hook (σ : Type) := Scope → σ → Except String Unit × σ

/-- The callbacks of a session, each of which may be absent. -/
structure Hooks (σ : Type) where
  onEnter : Option (Hook σ)
  onLeave : Option (Hook σ)

/-- A hook was shown a scope. -/
inductive HookCall where
  | entered (scope : Scope)
  | leaving (scope : Scope)
  deriving DecidableEq

/-- What a session reports as it goes. -/
inductive ScopeEvent where
  | entered (id level : Nat)
  | left (id : Nat)
  | declared (entry : Entry) (scope : Nat)
  deriving DecidableEq

/-- An address in a log line, which says so when there is none. -/
def addressText : Option Address → String
  | some address => s!"Some({address.toNat})"
  | none => "None"

/-- The part of the program that speaks when a symbol table is used. -/
def scopeLogSource : String := "lrkit::semantics::symtab"

/-- The log line of an event. -/
def ScopeEvent.line : ScopeEvent → LogLine
  | entered id level => ⟨.trace, scopeLogSource, s!"enter scope {id} at level {level}"⟩
  | left id => ⟨.trace, scopeLogSource, s!"exit scope {id}"⟩
  | declared e scope =>
      ⟨.trace, scopeLogSource,
        s!"register `{e.name}` ({e.kind.name}) in scope {scope} at {addressText e.address}"⟩

/-- What can be asked of a session. -/
inductive Request where
  | enter
  | leave
  | declare (entry : Entry)
  | declareConstant (entry : Entry)
  | temporary (size : UInt32)
  | lookup (name : String)
  deriving DecidableEq

/-- What a request that succeeds gives. -/
inductive Answer where
  | entered (scope : Nat)
  | left
  | declared (address : Option Address)
  | constantDeclared
  | allocated (address : Address)
  | found (result : Found)
  deriving DecidableEq

/-- A symbol table in use and the memory of its hooks. -/
structure Session (σ : Type) where
  table : SymbolTable
  memory : σ

/-- The outcome of a request: an answer or a refusal, the calls of hooks and the events on the way,
and the session afterwards. -/
structure Response (σ : Type) where
  result : Except ScopingError Answer
  calls : List HookCall
  events : List ScopeEvent
  session : Session σ

namespace Session

variable {σ : Type}

/-- Shows a scope to a hook, if there is one. -/
def tell (hook : Option (Hook σ)) (call : Scope → HookCall) (scope : Scope) (memory : σ) :
    Except String Unit × List HookCall × σ :=
  match hook with
  | none => (.ok (), [], memory)
  | some hook =>
      let (verdict, memory) := hook scope memory
      (verdict, [call scope], memory)

/-- Enters a scope and then tells the hook. -/
def enter (hooks : Hooks σ) (s : Session σ) : Response σ :=
  let scope := s.table.nextScope
  let (verdict, calls, memory) := tell hooks.onEnter .entered scope s.memory
  { result := match verdict with
      | .ok () => .ok (.entered scope.id)
      | .error message => .error (.hookFailed message)
    calls
    events := [.entered scope.id scope.level]
    session := ⟨s.table.enter, memory⟩ }

/-- Tells the hook about the current scope and then leaves it, unless the hook fails. -/
def leave (hooks : Hooks σ) (s : Session σ) : Response σ :=
  match s.table.current? with
  | none => ⟨.error .noOpenScope, [], [], s⟩
  | some scope =>
    match tell hooks.onLeave .leaving scope s.memory with
    | (.ok (), calls, memory) => ⟨.ok .left, calls, [.left scope.id], ⟨s.table.leave scope, memory⟩⟩
    | (.error message, calls, memory) =>
        ⟨.error (.hookFailed message), calls, [], ⟨s.table, memory⟩⟩

/-- Declares an entry, and answers as `answer` says. -/
def declare (s : Session σ) (e : Entry) (answer : Option Address → Answer) : Response σ :=
  match s.table.declare e with
  | .ok (stored, table) =>
      { result := .ok (answer stored.address)
        calls := []
        events := s.table.current.toList.map fun scope => .declared stored scope
        session := { s with table } }
  | .error e => ⟨.error e, [], [], s⟩

/-- Answers a request. -/
def step (hooks : Hooks σ) (s : Session σ) : Request → Response σ
  | .enter => s.enter hooks
  | .leave => s.leave hooks
  | .declare e => s.declare e .declared
  | .declareConstant e => s.declare { e with kind := .constant } fun _ => .constantDeclared
  | .temporary size => match s.table.temporary size with
    | .ok (address, table) => ⟨.ok (.allocated address), [], [], { s with table }⟩
    | .error e => ⟨.error e, [], [], s⟩
  | .lookup name => ⟨(s.table.lookup name).map .found, [], [], s⟩

/-- Answers requests one after another. -/
def run (hooks : Hooks σ) : Session σ → List Request → List (Response σ)
  | _, [] => []
  | s, request :: rest =>
      let response := s.step hooks request
      response :: run hooks response.session rest

end Session
end Scoping
end CompilerTables
