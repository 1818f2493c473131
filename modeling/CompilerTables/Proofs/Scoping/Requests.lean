import CompilerTables.Scoping.Session
import CompilerTables.Proofs.Scoping.Allocation

/-!
# What a request does to a symbol table

Every property of a session rests on the few ways in which a request can change the table.  They are
listed once, in `SymbolTable.Change`: a table, a request, its outcome, and the table afterwards.
`Session.step_change` says that every step of a session is one of them, whatever its hooks do, so a
proof about all runs is a case analysis of `Change` and an induction over the requests.

A declaration that succeeds is described by `SymbolTable.Accepts`, which says when it does, and by
`SymbolTable.accept`, which is the table afterwards; `declare_eq_ok_iff` ties both to the program.
The entry that is stored, `SymbolTable.placed`, is the given one with its address filled in.
-/

namespace CompilerTables
namespace Scoping

/-- A scope with one more entry. -/
def Scope.insert (scope : Scope) (e : Entry) : Scope :=
  { scope with entries := scope.entries.insert e.name e }

theorem Scope.getElem?_entries_insert (scope : Scope) (e : Entry) (name : String) :
    (scope.insert e).entries[name]? = if e.name = name then some e else scope.entries[name]? := by
  show (scope.entries.insert e.name e)[name]? = _
  rw [Std.ExtTreeMap.getElem?_insert]
  simp only [Std.LawfulEqCmp.compare_eq_iff_eq]

theorem Scope.mem_entries_insert (scope : Scope) (e : Entry) (name : String) :
    name ∈ (scope.insert e).entries ↔ e.name = name ∨ name ∈ scope.entries := by
  show name ∈ scope.entries.insert e.name e ↔ _
  rw [Std.ExtTreeMap.mem_insert, Std.LawfulEqCmp.compare_eq_iff_eq]

namespace SymbolTable

variable {t t' : SymbolTable} {scope : Scope} {e stored : Entry}

/-- The table before any scope is opened. -/
def fresh (layout : Layout) (h : layout.wordSize ≠ 0) : SymbolTable where
  scopes := #[]
  current := none
  wordSize := layout.wordSize
  dataAddress := layout.dataBase
  constantAddress := layout.constantBase
  wordSize_ne_zero := h

/-- A layout whose words have a size has a table. -/
theorem ofLayout_eq_ok {layout : Layout} (h : layout.wordSize ≠ 0) :
    ofLayout layout = .ok (fresh layout h) :=
  dif_neg h

/-- There is no other table to begin with. -/
theorem eq_fresh_of_ofLayout {layout : Layout} {start : SymbolTable}
    (h : ofLayout layout = .ok start) : ∃ hword, start = fresh layout hword := by
  unfold ofLayout at h
  split at h
  · cases h
  · next hword =>
    cases h
    exact ⟨hword, rfl⟩

/-! ## Declarations -/

/-- The words of data space that an entry needs; none for a kind that does not lie there. -/
def wordsOf (t : SymbolTable) (e : Entry) : Nat :=
  e.bytes?.getD 0 ⌈/⌉ t.wordSize.toNat

/-- The entry as it is stored: with the address of the next free word, or without any. -/
def placed (t : SymbolTable) (e : Entry) : Entry :=
  { e with address := e.bytes?.map fun _ => t.dataAddress }

@[simp] theorem bytes?_placed (t : SymbolTable) (e : Entry) : (t.placed e).bytes? = e.bytes? := rfl

theorem address_placed (t : SymbolTable) (e : Entry) :
    (t.placed e).address = e.bytes?.map fun _ => t.dataAddress := rfl

theorem advance_zero (t : SymbolTable) : t.advance 0 = t := by
  rw [advance, Nat.add_zero, UInt32.ofNat_toNat]

theorem place_eq (t : SymbolTable) (e : Entry) :
    t.place e =
      if t.dataAddress.toNat + t.wordsOf e ≤ 0xffffffff then
        .ok ((t.placed e).address, t.advance (t.wordsOf e))
      else .error (.addressOverflow (UInt64.ofNat (e.bytes?.getD 0))) := by
  have hbytes := e.map_toNat_footprint?
  have haddress := t.dataAddress.toNat_lt
  unfold place
  cases hfootprint : e.footprint? with
  | none =>
    rw [hfootprint, Option.map_none] at hbytes
    have hwords : t.wordsOf e = 0 := by rw [wordsOf, ← hbytes, Option.getD_none, zero_ceilDiv]
    rw [hwords, advance_zero, if_pos (by omega), placed, ← hbytes]
    rfl
  | some bytes =>
    rw [hfootprint, Option.map_some] at hbytes
    have hwords : t.wordsOf e = bytes.toNat ⌈/⌉ t.wordSize.toNat := by
      rw [wordsOf, ← hbytes, Option.getD_some]
    rw [hwords, placed, ← hbytes, Option.getD_some, UInt64.ofNat_toNat]
    dsimp only
    rw [t.allocate_eq (Entry.bytes?_le hbytes.symm)]
    by_cases hroom : t.dataAddress.toNat + bytes.toNat ⌈/⌉ t.wordSize.toNat ≤ 0xffffffff
    · rw [if_pos hroom, if_pos hroom]
      rfl
    · rw [if_neg hroom, if_neg hroom]

/-- A declaration succeeds: some scope is open and does not hold the name, the size is valid, and
there is room in data space. -/
structure Accepts (t : SymbolTable) (scope : Scope) (e : Entry) : Prop where
  current : t.current? = some scope
  fresh : e.name ∉ scope.entries
  validSize : e.HasValidSize
  room : t.dataAddress.toNat + t.wordsOf e ≤ 0xffffffff

/-- The table after a declaration that succeeds. -/
def accept (t : SymbolTable) (scope : Scope) (e : Entry) : SymbolTable :=
  (t.advance (t.wordsOf e)).store scope.id (t.placed e)

theorem declare_eq_of_none (hscope : t.current? = none) : t.declare e = .error .noOpenScope := by
  rw [declare, hscope]

/-- The checks that a declaration goes through while a scope is open. -/
theorem declare_eq_of_current (hscope : t.current? = some scope) :
    t.declare e =
      if e.name ∈ scope.entries then .error (.duplicateDeclaration e.name)
      else if e.HasValidSize then
        if t.dataAddress.toNat + t.wordsOf e ≤ 0xffffffff then
          .ok (t.placed e, t.accept scope e)
        else .error (.addressOverflow (UInt64.ofNat (e.bytes?.getD 0)))
      else .error (.invalidSize e.name) := by
  rw [declare, hscope]
  dsimp only
  rw [place_eq]
  split_ifs <;> rfl

theorem declare_eq_ok_iff :
    t.declare e = .ok (stored, t') ↔
      ∃ scope, t.Accepts scope e ∧ stored = t.placed e ∧ t' = t.accept scope e := by
  constructor
  · intro h
    cases hscope : t.current? with
    | none =>
      rw [declare_eq_of_none hscope] at h
      cases h
    | some scope =>
      rw [declare_eq_of_current hscope] at h
      split_ifs at h with hheld hvalid hroom
      cases h
      exact ⟨scope, ⟨hscope, hheld, hvalid, hroom⟩, rfl, rfl⟩
  · rintro ⟨scope, haccepts, rfl, rfl⟩
    rw [declare_eq_of_current haccepts.current, if_neg haccepts.fresh, if_pos haccepts.validSize,
      if_pos haccepts.room]

theorem temporary_eq_ok_iff {size : UInt32} {address : Address} :
    t.temporary size = .ok (address, t') ↔
      size ≠ 0 ∧ t.dataAddress.toNat + size.toNat ⌈/⌉ t.wordSize.toNat ≤ 0xffffffff ∧
        address = t.dataAddress ∧ t' = t.advance (size.toNat ⌈/⌉ t.wordSize.toNat) := by
  have hsize := size.toNat_lt
  have hbytes : size.toUInt64.toNat ≤ 0xffffffff * 0xffffffff := by
    rw [UInt32.toNat_toUInt64]
    omega
  unfold temporary
  by_cases hzero : size = 0
  · simp [hzero]
  · rw [if_neg hzero, t.allocate_eq hbytes, UInt32.toNat_toUInt64]
    by_cases hroom : t.dataAddress.toNat + size.toNat ⌈/⌉ t.wordSize.toNat ≤ 0xffffffff
    · rw [if_pos hroom]
      simp only [Except.ok.injEq, Prod.mk.injEq, ne_eq, hzero, not_false_eq_true, hroom, true_and]
      exact and_congr eq_comm eq_comm
    · simp [hroom]

/-! ## The parts of a table after a change -/

@[simp] theorem current_advance (t : SymbolTable) (words : Nat) :
    (t.advance words).current = t.current := rfl

@[simp] theorem current_accept (t : SymbolTable) (scope : Scope) (e : Entry) :
    (t.accept scope e).current = t.current := rfl

@[simp] theorem dataAddress_accept (t : SymbolTable) (scope : Scope) (e : Entry) :
    (t.accept scope e).dataAddress = (t.advance (t.wordsOf e)).dataAddress := rfl

@[simp] theorem size_scopes_accept (t : SymbolTable) (scope : Scope) (e : Entry) :
    (t.accept scope e).scopes.size = t.scopes.size :=
  Array.size_modify

theorem getElem?_scopes_accept (t : SymbolTable) (scope : Scope) (e : Entry) (k : Nat) :
    (t.accept scope e).scopes[k]? =
      if scope.id = k then t.scopes[k]?.map fun s => s.insert (t.placed e)
      else t.scopes[k]? :=
  Array.getElem?_modify

theorem getElem?_scopes_enter (t : SymbolTable) (k : Nat) :
    t.enter.scopes[k]? = if k = t.scopes.size then some t.nextScope else t.scopes[k]? :=
  Array.getElem?_push

theorem getElem?_scopes_enter_size (t : SymbolTable) :
    t.enter.scopes[t.scopes.size]? = some t.nextScope := by
  rw [getElem?_scopes_enter, if_pos rfl]

theorem getElem?_scopes_enter_of_lt {k : Nat} (hlt : k < t.scopes.size) :
    t.enter.scopes[k]? = t.scopes[k]? := by
  rw [getElem?_scopes_enter, if_neg (Nat.ne_of_lt hlt)]

/-- When a scope is opened, its record is added behind those that there are. -/
theorem getElem?_scopes_enter_eq_some_iff {k : Nat} {scope : Scope} :
    t.enter.scopes[k]? = some scope ↔
      (k = t.scopes.size ∧ scope = t.nextScope) ∨ t.scopes[k]? = some scope := by
  by_cases hk : k = t.scopes.size
  · subst hk
    have hnone : t.scopes[t.scopes.size]? = none := Array.getElem?_eq_none (Nat.le_refl _)
    rw [getElem?_scopes_enter_size, hnone, Option.some_inj, or_iff_left nofun, and_iff_right rfl,
      eq_comm]
  · rw [getElem?_scopes_enter, if_neg hk, or_iff_right fun h => hk h.1]

@[simp] theorem id_nextScope (t : SymbolTable) : t.nextScope.id = t.scopes.size := by
  unfold nextScope
  split <;> rfl

@[simp] theorem entries_nextScope (t : SymbolTable) : t.nextScope.entries = ∅ := by
  unfold nextScope
  split <;> rfl

/-- A scope that is opened inside no other is at the outermost level. -/
theorem level_nextScope_of_root (hroot : t.nextScope.parent = none) : t.nextScope.level = 0 := by
  unfold nextScope at hroot ⊢
  split at hroot
  · cases hroot
  · rfl

/-- Otherwise it is one level deeper than the current scope. -/
theorem exists_current?_of_parent_nextScope {parent : Nat}
    (hparent : t.nextScope.parent = some parent) :
    ∃ outer, t.current? = some outer ∧ outer.id = parent ∧
      t.nextScope.level = outer.level + 1 := by
  unfold nextScope at hparent ⊢
  split at hparent
  · next outer houter =>
    cases hparent
    exact ⟨outer, houter, rfl, rfl⟩
  · cases hparent

end SymbolTable

/-! ## Changes -/

/-- What a request may do to a table, together with its outcome. -/
inductive SymbolTable.Change (t : SymbolTable) :
    Request → Except ScopingError Answer → SymbolTable → Prop where
  | entered {result : Except ScopingError Answer}
      (hresult : result = .ok (.entered t.scopes.size) ∨
        ∃ message, result = .error (.hookFailed message)) :
      t.Change .enter result t.enter
  | left {scope : Scope} (hcurrent : t.current? = some scope) :
      t.Change .leave (.ok .left) (t.leave scope)
  | declared {scope : Scope} {e : Entry} (haccepts : t.Accepts scope e) :
      t.Change (.declare e) (.ok (.declared (t.placed e).address)) (t.accept scope e)
  | constantDeclared {scope : Scope} {e : Entry}
      (haccepts : t.Accepts scope { e with kind := .constant }) :
      t.Change (.declareConstant e) (.ok .constantDeclared)
        (t.accept scope { e with kind := .constant })
  | allocated {size : UInt32} (hsize : size ≠ 0)
      (hroom : t.dataAddress.toNat + size.toNat ⌈/⌉ t.wordSize.toNat ≤ 0xffffffff) :
      t.Change (.temporary size) (.ok (.allocated t.dataAddress))
        (t.advance (size.toNat ⌈/⌉ t.wordSize.toNat))
  | found {name : String} {found : Found} (hlookup : t.lookup name = .ok found) :
      t.Change (.lookup name) (.ok (.found found)) t
  | refused {request : Request} {error : ScopingError} (hrequest : request ≠ .enter) :
      t.Change request (.error error) t

/-- A request to leave that succeeds leaves the current scope. -/
theorem SymbolTable.Change.eq_leave {t t' : SymbolTable} {scope : Scope}
    (hchange : t.Change .leave (.ok .left) t') (hscope : t.current? = some scope) :
    t' = t.leave scope := by
  cases hchange with
  | left hcurrent =>
    rw [hcurrent] at hscope
    cases hscope
    rfl

namespace Session

variable {σ : Type} (hooks : Hooks σ) (s : Session σ)

theorem enter_change :
    s.table.Change .enter (s.enter hooks).result (s.enter hooks).session.table := by
  refine .entered ?_
  unfold enter
  dsimp only
  split
  · exact Or.inl (by rw [SymbolTable.id_nextScope])
  · next message _ => exact Or.inr ⟨message, rfl⟩

theorem leave_change :
    s.table.Change .leave (s.leave hooks).result (s.leave hooks).session.table := by
  unfold leave
  split
  · exact .refused (by simp)
  · next scope hscope =>
    split
    · exact .left hscope
    · exact .refused (by simp)

theorem declare_change (e : Entry) :
    s.table.Change (.declare e) (s.declare e .declared).result
      (s.declare e .declared).session.table := by
  unfold declare
  split
  · next stored table hdeclare =>
    obtain ⟨scope, haccepts, rfl, rfl⟩ := SymbolTable.declare_eq_ok_iff.mp hdeclare
    exact .declared haccepts
  · exact .refused (by simp)

theorem declareConstant_change (e : Entry) :
    s.table.Change (.declareConstant e)
      (s.declare { e with kind := .constant } fun _ => .constantDeclared).result
      (s.declare { e with kind := .constant } fun _ => .constantDeclared).session.table := by
  unfold declare
  split
  · next stored table hdeclare =>
    obtain ⟨scope, haccepts, -, rfl⟩ := SymbolTable.declare_eq_ok_iff.mp hdeclare
    exact .constantDeclared haccepts
  · exact .refused (by simp)

/-- **Every step is a change**, whatever the hooks are and do. -/
theorem step_change (request : Request) :
    s.table.Change request (s.step hooks request).result
      (s.step hooks request).session.table := by
  cases request with
  | enter => exact enter_change hooks s
  | leave => exact leave_change hooks s
  | declare e => exact declare_change s e
  | declareConstant e => exact declareConstant_change s e
  | temporary size =>
    cases htemporary : s.table.temporary size with
    | ok p =>
      obtain ⟨address, table⟩ := p
      obtain ⟨hsize, hroom, rfl, rfl⟩ := SymbolTable.temporary_eq_ok_iff.mp htemporary
      simp only [step, htemporary]
      exact .allocated hsize hroom
    | error e =>
      simp only [step, htemporary]
      exact .refused (by simp)
  | lookup name =>
    unfold step
    dsimp only
    cases hlookup : s.table.lookup name with
    | ok found => exact .found hlookup
    | error e => exact .refused (by simp)

/-! ## Runs -/

/-- The session after a list of requests: the one that the last response of the run holds. -/
def after (requests : List Request) : Session σ :=
  ((s.run hooks requests).getLast?.map Response.session).getD s

@[simp] theorem after_nil : s.after hooks [] = s := rfl

@[simp] theorem after_cons (request : Request) (rest : List Request) :
    s.after hooks (request :: rest) = (s.step hooks request).session.after hooks rest := by
  rw [after, after, run]
  rw [List.getLast?_cons]
  cases (run hooks (s.step hooks request).session rest).getLast? <;> rfl

theorem after_append (first later : List Request) :
    s.after hooks (first ++ later) = (s.after hooks first).after hooks later := by
  induction first generalizing s with
  | nil => rfl
  | cons request rest ih => rw [List.cons_append, after_cons, after_cons, ih]

/-- What every change preserves holds after every run. -/
theorem after_preserves {P : SymbolTable → Prop}
    (hchange : ∀ {t request result t'}, SymbolTable.Change t request result t' → P t → P t')
    (requests : List Request) (h : P s.table) : P (s.after hooks requests).table := by
  induction requests generalizing s with
  | nil => exact h
  | cons request rest ih =>
    rw [after_cons]
    exact ih _ (hchange (step_change hooks s request) h)

end Session

/-- A table that some session arrives at. -/
def SymbolTable.Reachable (t : SymbolTable) : Prop :=
  ∃ (layout : Layout) (start : SymbolTable) (σ : Type) (hooks : Hooks σ) (memory : σ)
    (requests : List Request), SymbolTable.ofLayout layout = .ok start ∧
      (Session.after hooks ⟨start, memory⟩ requests).table = t

/-! ## A session whose hooks fail

The examples of the modules on scoping share one run.  Its hooks count their calls together, and the
second and the third call fail: the second scope is opened all the same, and the first attempt to
leave it does nothing. -/

/-- Hooks that count their calls, of which the second and the third fail. -/
def moodyHooks : Hooks Nat where
  onEnter := some fun _ calls => (if calls = 1 then .error "no entry" else .ok (), calls + 1)
  onLeave := some fun _ calls => (if calls = 2 then .error "no exit" else .ok (), calls + 1)

/-- Two nested scopes that both declare `x`, and a sibling of the inner one that declares `y`.  The
callers have filled in addresses of their own. -/
def nestedRequests : List Request := [
  .enter,
  .declare { Entry.array "x" 3 5 with address := some 7 },
  .enter,
  .declare { Entry.scalar "x" 4 with address := some 7, length := 9 },
  .leave,
  .temporary 6,
  .declareConstant { Entry.scalar "c" 2 with address := some 7 },
  .leave,
  .enter,
  .declare (Entry.scalar "y" 1)]

/-- The table after so many of these requests. -/
def nestedTable (count : Nat) : SymbolTable :=
  (Session.after moodyHooks ⟨.fresh .standard (by decide), 0⟩ (nestedRequests.take count)).table

theorem reachable_nestedTable (count : Nat) : (nestedTable count).Reachable :=
  ⟨.standard, _, Nat, moodyHooks, 0, _, SymbolTable.ofLayout_eq_ok (by decide), rfl⟩

end Scoping
end CompilerTables
