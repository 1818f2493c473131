import CompilerTables.Proofs.Scoping.History

/-!
# Blocks leave no trace but addresses

A block is what a session does from entering a scope until it leaves that scope again
(`Session.IsBlock`).  In between it may ask for anything: other blocks, declarations that shadow
outer ones, requests that are refused.  A hook that fails on entering opens its scope all the same,
and one that fails on leaving keeps its scope open, so blocks cannot be told by counting requests.
What ends a block is that its own scope is current and is left.

Inside a block everything is written to the current scope, and as long as the scope of the block is
open, the current one is not older than it.  `SymbolTable.Inside` is this invariant, which relates a
table to the one at which the block began; every change keeps it (`Inside.change`).  A scope that
was left is never open again, so at the end of a block its scope was open all along, and to leave it
resumes the table from before (`block_leaves_no_trace`).
-/

namespace CompilerTables
namespace Scoping

/-- Requests between entering a scope and leaving it: after them the scope that was entered is the
current one, and the request to leave it succeeds.  It was not left earlier, since a scope that was
left is never current again. -/
structure Session.IsBlock {σ : Type} (hooks : Hooks σ) (s : Session σ) (inner : List Request) :
    Prop where
  current_eq : (s.after hooks (.enter :: inner)).table.current = some s.table.scopes.size
  left : ((s.after hooks (.enter :: inner)).step hooks .leave).result = .ok .left

namespace SymbolTable

variable {t t' t'' : SymbolTable} {request : Request} {result : Except ScopingError Answer}

/-! ## What no request changes -/

/-- The size of words and the base of constants are fixed, and data space is never given back. -/
theorem Change.counters (hchange : t.Change request result t') :
    t'.wordSize = t.wordSize ∧ t'.constantAddress = t.constantAddress ∧
      t.dataAddress.toNat ≤ t'.dataAddress.toNat := by
  have hadvance : ∀ {words : Nat}, t.dataAddress.toNat + words ≤ 0xffffffff →
      t.dataAddress.toNat ≤ (t.advance words).dataAddress.toNat := by
    intro words hroom
    rw [toNat_dataAddress_advance hroom]
    exact Nat.le_add_right _ _
  cases hchange with
  | entered hresult => exact ⟨rfl, rfl, Nat.le_refl _⟩
  | left hcurrent => exact ⟨rfl, rfl, Nat.le_refl _⟩
  | declared haccepts => exact ⟨rfl, rfl, hadvance haccepts.room⟩
  | constantDeclared haccepts => exact ⟨rfl, rfl, hadvance haccepts.room⟩
  | allocated hsize hroom => exact ⟨rfl, rfl, hadvance hroom⟩
  | found hlookup => exact ⟨rfl, rfl, Nat.le_refl _⟩
  | refused hrequest => exact ⟨rfl, rfl, Nat.le_refl _⟩

/-! ## What is visible -/

/-- The depth is that of the current record. -/
theorem depth_congr (hcurrent : t'.current = t.current)
    (hsame : ∀ id, t.current = some id → t'.scopes[id]? = t.scopes[id]?) : t'.depth = t.depth := by
  have hscope : t'.current? = t.current? := by
    rw [current?, current?, hcurrent]
    cases hid : t.current with
    | none => rfl
    | some id => exact hsame id hid
  rw [depth, depth, hscope]

/-- A lookup depends on the current scope and on older ones. -/
theorem lookup_congr (hcurrent : t'.current = t.current)
    (hsame : ∀ id, t.current = some id → ∀ k ≤ id, t'.scopes[k]? = t.scopes[k]?) (name : String) :
    t'.lookup name = t.lookup name := by
  unfold lookup
  rw [hcurrent]
  cases hid : t.current with
  | none => rfl
  | some id =>
    dsimp only
    rw [resolve_eq_findSome?, resolve_eq_findSome?, ancestors_congr (hsame id hid)]

/-! ## Inside a block -/

/-- A block was begun at the first table and goes on at the second.  Its scope is around the scope
that was current, and as long as it is open, all older records are as they were. -/
structure Inside (t t' : SymbolTable) : Prop where
  wellFormed : t'.WellFormed
  opened : ∃ scope, t'.scopes[t.scopes.size]? = some scope ∧ scope.parent = t.current
  older : t'.IsOpen t.scopes.size → ∀ k < t.scopes.size, t'.scopes[k]? = t.scopes[k]?
  counters : t'.wordSize = t.wordSize ∧ t'.constantAddress = t.constantAddress ∧
    t.dataAddress.toNat ≤ t'.dataAddress.toNat

namespace Inside

theorem enter (hwf : t.WellFormed) : t.Inside t.enter where
  wellFormed := hwf.enter
  opened := ⟨t.nextScope, getElem?_scopes_enter_size t, parent_nextScope hwf⟩
  older _ _ hk := getElem?_scopes_enter_of_lt hk
  counters := ⟨rfl, rfl, Nat.le_refl _⟩

/-- A change writes to the current scope, which is not older than the block. -/
theorem change (hchange : t'.Change request result t'') (h : t.Inside t') : t.Inside t'' := by
  have hwf := h.wellFormed
  obtain ⟨scope, hget, hparent⟩ := h.opened
  have hlt := (Array.getElem?_eq_some_iff.mp hget).1
  obtain ⟨scope', hget', -, -, hparent'⟩ := (Appends.of_change hchange hwf).scope_kept hget
  obtain ⟨hword, hconstant, hdata⟩ := hchange.counters
  refine ⟨hwf.change hchange, ⟨scope', hget', by rw [hparent', hparent]⟩, fun hopen k hk => ?_, ?_⟩
  · have hopen' := isOpen_of_change hchange hwf hlt hopen
    obtain ⟨current, hcurrent, hle⟩ := hopen'.le_current hwf
    have hne : t'.current ≠ some k := by
      rw [hcurrent, ne_eq, Option.some_inj]
      omega
    rw [scopes_of_change hchange hwf (by omega) hne, h.older hopen' k hk]
  · exact ⟨hword.trans h.counters.1, hconstant.trans h.counters.2.1,
      Nat.le_trans h.counters.2.2 hdata⟩

end Inside

/-! ## After a block -/

/-- The second table takes up where the first one was: what is current and what is visible is the
same, and so is every record.  Only data space may have been used up, and scopes may have been added
to the history. -/
structure Resumes (t t' : SymbolTable) : Prop where
  current_eq : t'.current = t.current
  depth_eq : t'.depth = t.depth
  scope_kept : ∀ {k : Nat} {scope : Scope}, t.scopes[k]? = some scope →
    t'.scopes[k]? = some scope
  lookup_eq : ∀ name, t'.lookup name = t.lookup name
  wordSize_eq : t'.wordSize = t.wordSize
  constantAddress_eq : t'.constantAddress = t.constantAddress
  dataAddress_le : t.dataAddress ≤ t'.dataAddress
  id_of_new : ∀ {k : Nat} {scope : Scope}, t'.scopes[k]? = some scope → t.scopes.size ≤ k →
    scope.id = k ∧ t.scopes.size ≤ scope.id

/-- To leave the scope of a block resumes the table at which it began. -/
theorem Inside.resumes {scope : Scope} (hwf : t.WellFormed) (h : t.Inside t')
    (hscope : t'.current? = some scope) (hid : scope.id = t.scopes.size) :
    t.Resumes (t'.leave scope) := by
  obtain ⟨hcurrent, hget⟩ := h.wellFormed.current_eq hscope
  obtain ⟨opened, hopened, hparent⟩ := h.opened
  rw [← hid, hget, Option.some_inj] at hopened
  subst hopened
  rw [hid] at hcurrent
  have holder := h.older (isOpen_of_current h.wellFormed hcurrent)
  have hsame : ∀ id, t.current = some id → ∀ k ≤ id, (t'.leave scope).scopes[k]? = t.scopes[k]? :=
    fun id hid k hk => holder k (Nat.lt_of_le_of_lt hk (hwf.current_lt hid))
  refine ⟨hparent, ?_, fun {k s} hk => ?_, ?_, h.counters.1, h.counters.2.1, ?_, ?_⟩
  · exact depth_congr hparent fun id hid => hsame id hid id (Nat.le_refl id)
  · exact (holder k (Array.getElem?_eq_some_iff.mp hk).1).trans hk
  · exact lookup_congr hparent hsame
  · exact UInt32.le_iff_toNat_le.mpr h.counters.2.2
  · intro k s hk hle
    have hs := h.wellFormed.id_eq hk
    exact ⟨hs, by omega⟩

end SymbolTable

/-- **A block leaves no trace but addresses.**  In any table that a session arrives at, whatever is
asked between entering a scope and leaving it, and whatever the hooks do, the table is as before but
for the data space that was handed out and the scopes that were added to the history. -/
theorem block_leaves_no_trace {t : SymbolTable} (h : t.Reachable) {σ : Type} (hooks : Hooks σ)
    (memory : σ) {inner : List Request} (hblock : Session.IsBlock hooks ⟨t, memory⟩ inner) :
    t.Resumes (Session.after hooks ⟨t, memory⟩ (.enter :: inner ++ [.leave])).table := by
  have hwf := h.wellFormed
  have hinside : t.Inside (Session.after hooks ⟨t, memory⟩ (.enter :: inner)).table := by
    rw [Session.after_cons]
    exact Session.after_preserves hooks _ SymbolTable.Inside.change inner (.enter hwf)
  obtain ⟨scope, hscope, hid⟩ := hinside.wellFormed.current?_of_current hblock.current_eq
  have hchange :=
    Session.step_change hooks (Session.after hooks ⟨t, memory⟩ (.enter :: inner)) .leave
  rw [hblock.left] at hchange
  rw [Session.after_append, Session.after_cons, Session.after_nil, hchange.eq_leave hscope]
  exact hinside.resumes hwf hscope hid

/-- The inside of a block that declares an `x`, is refused to leave, holds a block with an `x` of
its own, and is refused a second `x`. -/
def moodyBlock : List Request := [
  .declare (Entry.scalar "x" 4),
  .leave,
  .enter,
  .declare (Entry.scalar "x" 1),
  .leave,
  .declare (Entry.scalar "x" 2),
  .temporary 6]

theorem block_leaves_no_trace_nested :
    (nestedTable 2).Reachable ∧ Session.IsBlock moodyHooks ⟨nestedTable 2, 1⟩ moodyBlock ∧
      let requests := .enter :: moodyBlock ++ [.leave]
      let final := (Session.after moodyHooks ⟨nestedTable 2, 1⟩ requests).table
      (nestedTable 2).Resumes final ∧ final.scopes.size = 3 ∧ final.dataAddress = 0x10000008 ∧
        (final.lookup "x").map Found.scope = .ok 0 := by
  have hreachable := reachable_nestedTable 2
  have hblock : Session.IsBlock moodyHooks ⟨nestedTable 2, 1⟩ moodyBlock :=
    ⟨by decide +kernel, by decide +kernel⟩
  have hresumes := block_leaves_no_trace hreachable moodyHooks 1 hblock
  refine ⟨hreachable, hblock, hresumes, by decide +kernel, by decide +kernel, ?_⟩
  rw [hresumes.lookup_eq]
  decide +kernel

end Scoping
end CompilerTables
