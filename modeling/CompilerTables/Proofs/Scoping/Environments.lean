import CompilerTables.Proofs.Scoping.Nesting

/-!
# A symbol table is a stack of environments

The table never forgets a scope, and what is visible is decided by one number and by the parents
that the records point to.  Seen from outside it is a plain stack of frames: a frame is a scope's
number with a finite map from names to entries, entering a scope pushes an empty frame, leaving one
pops it, and a declaration adds to the frame on top.

`FrameStack.follow` is the step of that stack.  It looks at a request and at its outcome and at
nothing else, so a stack can be run beside any session (`FrameStack.replay`).  The frames are the
open scopes of the table (`SymbolTable.Simulates`), which every step keeps (`Simulates.change`).

The main statement, `table_refines_frame_stack`, says what the stack tells about the table after any
run: its depth, and the answer to every lookup.  Since the answer is computed from the frames,
scopes that were left, and siblings of those that are open, have no part in it.
-/

namespace CompilerTables
namespace Scoping

/-! ## Stacks of frames -/

/-- The number of a scope, and what it declares. -/
structure Frame where
  id : Nat
  entries : Std.ExtTreeMap String Entry

/-- The frames of the open scopes, the innermost first, and the number of frames pushed so far. -/
structure FrameStack where
  frames : List Frame
  opened : Nat

namespace FrameStack

/-- No frame was pushed yet. -/
def empty : FrameStack := ⟨[], 0⟩

/-- Adds an entry to the frame on top. -/
def bind (stack : FrameStack) (e : Entry) : FrameStack :=
  match stack.frames with
  | [] => stack
  | top :: outer =>
      { stack with frames := { top with entries := top.entries.insert e.name e } :: outer }

/-- What a request does to the stack, given its outcome.  A scope is entered even if its hook fails;
any other request that fails does nothing. -/
def follow (stack : FrameStack) : Request → Except ScopingError Answer → FrameStack
  | .enter, _ => ⟨⟨stack.opened, ∅⟩ :: stack.frames, stack.opened + 1⟩
  | .leave, .ok _ => { stack with frames := stack.frames.tail }
  | .declare e, .ok (.declared address) => stack.bind { e with address }
  | .declareConstant e, .ok _ => stack.bind { e with kind := .constant, address := none }
  | _, _ => stack

/-- The stack after a list of requests with their outcomes. -/
def replay (stack : FrameStack) (outcomes : List (Request × Except ScopingError Answer)) :
    FrameStack :=
  outcomes.foldl (fun stack p => stack.follow p.1 p.2) stack

/-- The entry for a name in the innermost frame that declares it. -/
def lookup (stack : FrameStack) (name : String) : Except ScopingError Found :=
  match stack.frames with
  | [] => .error .noOpenScope
  | top :: _ =>
    match stack.frames.findSome? fun f => f.entries[name]?.map fun e => (f.id, e) with
    | some (id, e) => .ok ⟨e, id, id = top.id⟩
    | none => .error (.unresolvedName name)

/-! ### What a lookup answers -/

variable {stack : FrameStack} {name : String}

theorem findSome?_eq_none_iff (frames : List Frame) (name : String) :
    frames.findSome? (fun f => f.entries[name]?.map fun e => (f.id, e)) = none ↔
      ∀ f ∈ frames, name ∉ f.entries := by
  rw [List.findSome?_eq_none_iff]
  simp only [Option.map_eq_none_iff, getElem?_eq_none_iff]

theorem lookup_eq_noOpenScope_iff :
    stack.lookup name = .error .noOpenScope ↔ stack.frames = [] := by
  unfold lookup
  split
  · next hnil => simp only [hnil]
  · next top outer hframes =>
    rw [hframes]
    split <;> simp

theorem lookup_eq_unresolvedName_iff :
    stack.lookup name = .error (.unresolvedName name) ↔
      stack.frames ≠ [] ∧ ∀ f ∈ stack.frames, name ∉ f.entries := by
  rw [← findSome?_eq_none_iff]
  unfold lookup
  split
  · next hnil => simp [hnil]
  · next top outer hframes =>
    rw [hframes]
    split
    · next hfound => simp [hfound]
    · next hnone => simp [hnone]

/-- The innermost frame that declares a name answers for it. -/
theorem lookup_eq_ok {inner outer : List Frame} {f : Frame} {e : Entry}
    (hids : stack.frames.Pairwise fun f f' => f'.id < f.id)
    (hframes : stack.frames = inner ++ f :: outer) (hinner : ∀ f' ∈ inner, name ∉ f'.entries)
    (hf : f.entries[name]? = some e) :
    stack.lookup name = .ok ⟨e, f.id, inner = []⟩ := by
  have hfound : stack.frames.findSome? (fun f => f.entries[name]?.map fun e => (f.id, e)) =
      some (f.id, e) := by
    rw [hframes, List.findSome?_append, (findSome?_eq_none_iff inner name).mpr hinner,
      List.findSome?_cons, hf]
    rfl
  unfold lookup
  rw [hfound]
  split
  · next hnil =>
    rw [hnil] at hframes
    cases inner <;> cases hframes
  · next top rest htop =>
    dsimp only
    have htopid : f.id = top.id ↔ inner = [] := by
      rw [htop] at hframes hids
      cases inner with
      | nil =>
        cases hframes
        simp
      | cons top' inner =>
        cases hframes
        have hlt := (List.pairwise_cons.mp hids).1 f (by simp)
        simp
        omega
    simp only [htopid]

end FrameStack

/-! ## The simulation -/

/-- The frame of a scope. -/
def Scope.frame (scope : Scope) : Frame :=
  ⟨scope.id, scope.entries⟩

namespace SymbolTable

variable {t t' : SymbolTable} {stack : FrameStack}

/-- The frames of a stack are those of the open scopes. -/
structure Simulates (t : SymbolTable) (stack : FrameStack) : Prop where
  frames_eq : stack.frames = t.openScopes.map Scope.frame
  opened_eq : stack.opened = t.scopes.size

namespace Simulates

theorem fresh (layout : Layout) (h : layout.wordSize ≠ 0) :
    (fresh layout h).Simulates FrameStack.empty where
  frames_eq := rfl
  opened_eq := rfl

theorem enter (hwf : t.WellFormed) (h : t.Simulates stack) :
    t.enter.Simulates ⟨⟨stack.opened, ∅⟩ :: stack.frames, stack.opened + 1⟩ := by
  refine ⟨?_, ?_⟩
  · rw [openScopes_enter hwf, List.map_cons, Scope.frame, id_nextScope, entries_nextScope,
      h.frames_eq, h.opened_eq]
  · show stack.opened + 1 = (t.scopes.push t.nextScope).size
    rw [Array.size_push, h.opened_eq]

theorem leave {scope : Scope} (hwf : t.WellFormed) (hscope : t.current? = some scope)
    (h : t.Simulates stack) :
    (t.leave scope).Simulates { stack with frames := stack.frames.tail } := by
  obtain ⟨outer, hopen, hleft⟩ := openScopes_of_current hwf hscope
  refine ⟨?_, h.opened_eq⟩
  show stack.frames.tail = _
  rw [h.frames_eq, hopen, hleft, List.map_cons, List.tail_cons]

theorem accept {scope : Scope} {e : Entry} (hwf : t.WellFormed) (haccepts : t.Accepts scope e)
    (h : t.Simulates stack) : (t.accept scope e).Simulates (stack.bind (t.placed e)) := by
  obtain ⟨outer, hopen, hnew⟩ := openScopes_accept hwf haccepts.current e
  have hframes := h.frames_eq
  rw [hopen, List.map_cons] at hframes
  unfold FrameStack.bind
  rw [hframes]
  refine ⟨?_, ?_⟩
  · rw [hnew, List.map_cons]
    rfl
  · rw [size_scopes_accept]
    exact h.opened_eq

/-- Every change of the table is the step of the stack. -/
theorem change {request : Request} {result : Except ScopingError Answer}
    (hchange : t.Change request result t') (hwf : t.WellFormed) (h : t.Simulates stack) :
    t'.Simulates (stack.follow request result) := by
  cases hchange with
  | entered hresult => exact h.enter hwf
  | left hcurrent => exact h.leave hwf hcurrent
  | declared haccepts => exact h.accept hwf haccepts
  | constantDeclared haccepts => exact h.accept hwf haccepts
  | allocated hsize hroom => exact ⟨by rw [openScopes_advance]; exact h.frames_eq, h.opened_eq⟩
  | found hlookup => exact h
  | refused hrequest =>
    cases request with
    | enter => exact absurd rfl hrequest
    | _ => exact h

/-- A session and the stack that replays it stay together. -/
theorem after {σ : Type} {hooks : Hooks σ} {s : Session σ} (hwf : s.table.WellFormed)
    (h : s.table.Simulates stack) (requests : List Request) :
    (s.after hooks requests).table.Simulates
      (stack.replay (requests.zip ((s.run hooks requests).map Response.result))) := by
  induction requests generalizing s stack with
  | nil => exact h
  | cons request rest ih =>
    have hchange := Session.step_change hooks s request
    rw [Session.after_cons]
    exact ih (hwf.change hchange) (h.change hchange hwf)

theorem lookup_eq (hwf : t.WellFormed) (h : t.Simulates stack) (name : String) :
    t.lookup name = stack.lookup name := by
  unfold lookup FrameStack.lookup
  rw [h.frames_eq, openScopes]
  cases hcurrent : t.current with
  | none => rfl
  | some id =>
    obtain ⟨scope, hscope, rfl⟩ := hwf.current?_of_current hcurrent
    obtain ⟨outer, hopen, -⟩ := openScopes_of_current hwf hscope
    rw [openScopes, hcurrent] at hopen
    dsimp only at hopen ⊢
    rw [resolve_eq_findSome?, hopen, List.map_cons, List.findSome?_cons, List.findSome?_cons,
      List.findSome?_map]
    rfl

theorem pairwise_id (hwf : t.WellFormed) (h : t.Simulates stack) :
    stack.frames.Pairwise fun f f' => f'.id < f.id := by
  rw [h.frames_eq, List.pairwise_map, openScopes]
  cases t.current with
  | none => exact List.Pairwise.nil
  | some id => exact pairwise_id_ancestors hwf id

end Simulates

/-! ## Observations -/

/-- What can be seen of a table is what the stack says: its depth, and the answer to every lookup.
The entry comes from the innermost frame that declares the name, and it is in the current scope if
that frame is the one on top. -/
structure Observes (t : SymbolTable) (stack : FrameStack) : Prop where
  depth_eq : t.depth = stack.frames.length
  size_eq : t.scopes.size = stack.opened
  lookup_eq : ∀ name, t.lookup name = stack.lookup name
  noOpenScope_iff : ∀ name, t.lookup name = .error .noOpenScope ↔ stack.frames = []
  unresolvedName_iff : ∀ name, t.lookup name = .error (.unresolvedName name) ↔
    stack.frames ≠ [] ∧ ∀ f ∈ stack.frames, name ∉ f.entries
  lookup_innermost : ∀ (name : String) (inner outer : List Frame) (f : Frame) (e : Entry),
    stack.frames = inner ++ f :: outer → (∀ f' ∈ inner, name ∉ f'.entries) →
      f.entries[name]? = some e → t.lookup name = .ok ⟨e, f.id, inner = []⟩

theorem Simulates.observes (hwf : t.WellFormed) (h : t.Simulates stack) : t.Observes stack where
  depth_eq := by rw [← length_openScopes hwf, h.frames_eq, List.length_map]
  size_eq := h.opened_eq.symm
  lookup_eq := h.lookup_eq hwf
  noOpenScope_iff name := by rw [h.lookup_eq hwf, FrameStack.lookup_eq_noOpenScope_iff]
  unresolvedName_iff name := by rw [h.lookup_eq hwf, FrameStack.lookup_eq_unresolvedName_iff]
  lookup_innermost name inner outer f e hframes hinner hf := by
    rw [h.lookup_eq hwf]
    exact FrameStack.lookup_eq_ok (h.pairwise_id hwf) hframes hinner hf

end SymbolTable

/-- **A table is a stack of environments.**  From a fresh table, after any requests and whatever the
hooks do, the table shows what the stack shows that was run beside it. -/
theorem table_refines_frame_stack {layout : Layout} (h : layout.wordSize ≠ 0) {σ : Type}
    (hooks : Hooks σ) (memory : σ) (requests : List Request) :
    ∃ t, SymbolTable.ofLayout layout = .ok t ∧
      (Session.after hooks ⟨t, memory⟩ requests).table.Observes
        (FrameStack.empty.replay
          (requests.zip ((Session.run hooks ⟨t, memory⟩ requests).map Response.result))) := by
  have hwf := SymbolTable.WellFormed.fresh layout h
  refine ⟨_, SymbolTable.ofLayout_eq_ok h,
    SymbolTable.Simulates.observes (hwf.after requests) ?_⟩
  exact SymbolTable.Simulates.after hwf (.fresh layout h) requests

theorem table_refines_frame_stack_nested :
    Layout.standard.wordSize ≠ 0 ∧ ∃ t, SymbolTable.ofLayout Layout.standard = .ok t ∧
      (Session.after moodyHooks ⟨t, 0⟩ nestedRequests).table.depth = 2 ∧
      ((Session.after moodyHooks ⟨t, 0⟩ nestedRequests).table.lookup "x").map Found.scope = .ok 0 ∧
      (Session.after moodyHooks ⟨t, 0⟩ nestedRequests).table.lookup "c" =
        .error (.unresolvedName "c") := by
  refine ⟨by decide, ?_⟩
  obtain ⟨t, ht, hobserves⟩ :=
    table_refines_frame_stack (by decide : Layout.standard.wordSize ≠ 0) moodyHooks 0 nestedRequests
  refine ⟨t, ht, ?_⟩
  rw [SymbolTable.ofLayout_eq_ok (by decide)] at ht
  cases ht
  rw [hobserves.depth_eq, hobserves.lookup_eq, hobserves.lookup_eq]
  decide +kernel

end Scoping
end CompilerTables
