import Mathlib.Data.List.Chain
import Mathlib.Data.List.Nodup
import Mathlib.Order.Interval.Set.Defs
import CompilerTables.Proofs.Scoping.Nesting

/-!
# Data space is handed out without gaps and without overlaps

Declared names and temporaries share one counter.  `Session.allocations` lists what a session hands
out, in order: an `Allocation` knows whom it is for, where it starts, and for how many bytes.  The
main statement, `data_space_tiled`, is that these intervals tile data space from its base up to the
counter, and that every entry that is stored in any scope, open or not, carries the address of its
own interval.

The invariant behind it is `SymbolTable.Accounts`, which relates a table to the allocations made so
far.  A tiling (`Tiled`) is followed from one end to the other, so a new allocation at the counter
extends it (`Tiled.append_singleton`); that intervals are disjoint and leave no gap is read off the
tiling afterwards.
-/

namespace CompilerTables
namespace Scoping

/-! ## Allocations -/

/-- A stretch of data space that was handed out: the scope and name of the entry that it belongs to,
if it is not a temporary, where it starts, and the bytes asked for. -/
structure Allocation where
  owner : Option (Nat × String)
  address : Address
  bytes : Nat
  deriving DecidableEq

namespace Allocation

/-- The words of an allocation, the last of which may be a partial one. -/
def words (wordSize : Nat) (x : Allocation) : Nat :=
  x.bytes ⌈/⌉ wordSize

/-- The words from the address of an allocation to its end. -/
def interval (wordSize : Nat) (x : Allocation) : Set Nat :=
  Set.Ico x.address.toNat (x.address.toNat + x.words wordSize)

end Allocation

/-- What a request hands out, if it succeeds: data space for a scalar or an array under its name in
the current scope, or for a temporary. -/
def SymbolTable.allocation? (t : SymbolTable) :
    Request → Except ScopingError Answer → Option Allocation
  | .declare e, .ok (.declared (some address)) =>
      e.bytes?.map fun bytes => ⟨t.current.map fun id => (id, e.name), address, bytes⟩
  | .temporary size, .ok (.allocated address) => some ⟨none, address, size.toNat⟩
  | _, _ => none

/-- Everything that a session hands out, in order. -/
def Session.allocations {σ : Type} (hooks : Hooks σ) : Session σ → List Request → List Allocation
  | _, [] => []
  | s, request :: rest =>
      let response := s.step hooks request
      (s.table.allocation? request response.result).toList ++
        Session.allocations hooks response.session rest

/-! ## Tilings -/

/-- Each allocation starts where the one before it ended, from `start` up to `stop`. -/
def Tiled (wordSize : Nat) : Nat → List Allocation → Nat → Prop
  | start, [], stop => start = stop
  | start, x :: rest, stop =>
      x.address.toNat = start ∧ Tiled wordSize (start + x.words wordSize) rest stop

namespace Tiled

variable {wordSize start stop : Nat} {xs : List Allocation} {x : Allocation}

theorem append_singleton (h : Tiled wordSize start xs stop) (hx : x.address.toNat = stop) :
    Tiled wordSize start (xs ++ [x]) (stop + x.words wordSize) := by
  induction xs generalizing start with
  | nil =>
    cases h
    exact ⟨hx, rfl⟩
  | cons y rest ih => exact ⟨h.1, ih h.2⟩

theorem stop_eq (h : Tiled wordSize start xs stop) :
    stop = start + (xs.map (Allocation.words wordSize)).sum := by
  induction xs generalizing start with
  | nil =>
    cases h
    simp
  | cons y rest ih =>
    rw [ih h.2, List.map_cons, List.sum_cons, Nat.add_assoc]

theorem address_head? (h : Tiled wordSize start xs stop) :
    ∀ y ∈ xs.head?, y.address.toNat = start := by
  cases xs with
  | nil => intro y hy; cases hy
  | cons z rest =>
    intro y hy
    cases hy
    exact h.1

/-- Each allocation but the first starts exactly where the one before it ended. -/
theorem isChain (h : Tiled wordSize start xs stop) :
    xs.IsChain fun y z => z.address.toNat = y.address.toNat + y.words wordSize := by
  induction xs generalizing start with
  | nil => exact List.IsChain.nil
  | cons y rest ih =>
    refine List.isChain_cons.mpr ⟨fun z hz => ?_, ih h.2⟩
    rw [h.1]
    exact address_head? h.2 z hz

theorem start_le_of_mem (h : Tiled wordSize start xs stop) (hx : x ∈ xs) :
    start ≤ x.address.toNat := by
  induction xs generalizing start with
  | nil => exact absurd hx List.not_mem_nil
  | cons y rest ih =>
    rcases List.mem_cons.mp hx with rfl | hx
    · exact Nat.le_of_eq h.1.symm
    · exact Nat.le_trans (Nat.le_add_right _ _) (ih h.2 hx)

/-- No two allocations overlap. -/
theorem pairwise_disjoint (h : Tiled wordSize start xs stop) :
    xs.Pairwise fun y z => ∀ n ∈ y.interval wordSize, n ∉ z.interval wordSize := by
  induction xs generalizing start with
  | nil => exact List.Pairwise.nil
  | cons y rest ih =>
    refine List.pairwise_cons.mpr ⟨fun z hz => ?_, ih h.2⟩
    have hle := start_le_of_mem h.2 hz
    have hy := h.1
    rintro n ⟨-, hend⟩ ⟨hbegin, -⟩
    omega

/-- Every word between the ends belongs to an allocation. -/
theorem exists_mem_interval (h : Tiled wordSize start xs stop) {n : Nat} (hstart : start ≤ n)
    (hstop : n < stop) : ∃ y ∈ xs, n ∈ y.interval wordSize := by
  induction xs generalizing start with
  | nil =>
    cases h
    omega
  | cons y rest ih =>
    by_cases hn : n < start + y.words wordSize
    · have hy := h.1
      refine ⟨y, List.mem_cons_self, ?_, ?_⟩ <;> omega
    · obtain ⟨z, hz, hmem⟩ := ih h.2 (Nat.le_of_not_lt hn)
      exact ⟨z, List.mem_cons_of_mem y hz, hmem⟩

end Tiled

/-! ## The invariant -/

/-- The entry under a name in a scope carries the address of its own allocation, or none if it does
not lie in data space. -/
def Entry.LiesIn (e : Entry) (xs : List Allocation) (id : Nat) (name : String) : Prop :=
  match e.bytes? with
  | some bytes =>
      ∃ x ∈ xs, x.owner = some (id, name) ∧ e.address = some x.address ∧ x.bytes = bytes
  | none => e.address = none

theorem Entry.LiesIn.append {e : Entry} {xs : List Allocation} {id : Nat} {name : String}
    (h : e.LiesIn xs id name) (ys : List Allocation) : e.LiesIn (xs ++ ys) id name := by
  unfold LiesIn at h ⊢
  split
  · next bytes hbytes =>
    rw [hbytes] at h
    obtain ⟨x, hx, hown⟩ := h
    exact ⟨x, List.mem_append_left ys hx, hown⟩
  · next hbytes =>
    rw [hbytes] at h
    exact h

namespace SymbolTable

variable {layout : Layout} {t t' : SymbolTable} {xs : List Allocation}

/-- The allocations made so far account for a table: they tile data space up to the counter, and
those with an owner are the intervals of the stored entries, one for each. -/
structure Accounts (layout : Layout) (xs : List Allocation) (t : SymbolTable) : Prop where
  wordSize_eq : t.wordSize = layout.wordSize
  constantAddress_eq : t.constantAddress = layout.constantBase
  bytes_pos : ∀ x ∈ xs, 0 < x.bytes
  tiled : Tiled layout.wordSize.toNat layout.dataBase.toNat xs t.dataAddress.toNat
  liesIn : ∀ {k : Nat} {scope : Scope} {name : String} {e : Entry}, t.scopes[k]? = some scope →
    scope.entries[name]? = some e → e.LiesIn xs k name
  owned : ∀ x ∈ xs, ∀ {k : Nat} {name : String}, x.owner = some (k, name) →
    ∃ scope, t.scopes[k]? = some scope ∧ name ∈ scope.entries
  nodup_owner : (xs.filterMap Allocation.owner).Nodup

namespace Accounts

theorem fresh (layout : Layout) (h : layout.wordSize ≠ 0) :
    Accounts layout [] (fresh layout h) where
  wordSize_eq := rfl
  constantAddress_eq := rfl
  bytes_pos x hx := absurd hx List.not_mem_nil
  tiled := rfl
  liesIn hk _ := by simp [SymbolTable.fresh] at hk
  owned x hx := absurd hx List.not_mem_nil
  nodup_owner := List.nodup_nil

/-- Opening a scope stores nothing. -/
theorem enter (h : Accounts layout xs t) : Accounts layout xs t.enter where
  wordSize_eq := h.wordSize_eq
  constantAddress_eq := h.constantAddress_eq
  bytes_pos := h.bytes_pos
  tiled := h.tiled
  liesIn {k scope name e} hk he := by
    rcases getElem?_scopes_enter_eq_some_iff.mp hk with ⟨-, rfl⟩ | hk
    · rw [entries_nextScope] at he
      simp at he
    · exact h.liesIn hk he
  owned x hx {k name} howner := by
    obtain ⟨scope, hscope, hname⟩ := h.owned x hx howner
    exact ⟨scope, getElem?_scopes_enter_eq_some_iff.mpr (.inr hscope), hname⟩
  nodup_owner := h.nodup_owner

/-- Leaving a scope forgets nothing. -/
theorem leave (h : Accounts layout xs t) (scope : Scope) : Accounts layout xs (t.leave scope) :=
  ⟨h.wordSize_eq, h.constantAddress_eq, h.bytes_pos, h.tiled, h.liesIn, h.owned, h.nodup_owner⟩

/-- Space for a temporary goes to the end of the tiling. -/
theorem temporary {size : UInt32} (h : Accounts layout xs t) (hsize : size ≠ 0)
    (hroom : t.dataAddress.toNat + size.toNat ⌈/⌉ t.wordSize.toNat ≤ 0xffffffff) :
    Accounts layout (xs ++ [⟨none, t.dataAddress, size.toNat⟩])
      (t.advance (size.toNat ⌈/⌉ t.wordSize.toNat)) where
  wordSize_eq := h.wordSize_eq
  constantAddress_eq := h.constantAddress_eq
  bytes_pos x hx := by
    rcases List.mem_append.mp hx with hx | hx
    · exact h.bytes_pos x hx
    · rw [List.mem_singleton.mp hx]
      exact toNat_pos_of_ne_zero hsize
  tiled := by
    rw [toNat_dataAddress_advance hroom, h.wordSize_eq]
    exact h.tiled.append_singleton rfl
  liesIn hk he := (h.liesIn hk he).append _
  owned x hx {k name} howner := by
    rcases List.mem_append.mp hx with hx | hx
    · exact h.owned x hx howner
    · rw [List.mem_singleton.mp hx] at howner
      cases howner
  nodup_owner := by
    rw [List.filterMap_append]
    simpa using h.nodup_owner

/-- Where the entries of a table lie after a declaration: the new one where it was placed, the old
ones where they were. -/
theorem liesIn_accept {scope scope' : Scope} {e e' : Entry} {ys : List Allocation} {k : Nat}
    {name : String} (h : Accounts layout xs t) (hget : t.scopes[scope.id]? = some scope)
    (hnew : (t.placed e).LiesIn (xs ++ ys) scope.id e.name)
    (hk : (t.accept scope e).scopes[k]? = some scope') (he : scope'.entries[name]? = some e') :
    e'.LiesIn (xs ++ ys) k name := by
  rw [getElem?_scopes_accept] at hk
  split at hk
  · next hid =>
    rw [← hid, hget] at hk
    cases hk
    rw [Scope.getElem?_entries_insert] at he
    split at he
    · next hname =>
      cases he
      rw [← hid, ← hname]
      exact hnew
    · rw [← hid]
      exact (h.liesIn hget he).append ys
  · exact (h.liesIn hk he).append ys

/-- The owners of allocations are stored, also after a declaration. -/
theorem owned_accept {scope old : Scope} {e : Entry} {k : Nat} {name : String}
    (hold : t.scopes[k]? = some old) (hname : name ∈ old.entries) :
    ∃ scope', (t.accept scope e).scopes[k]? = some scope' ∧ name ∈ scope'.entries := by
  rw [getElem?_scopes_accept, hold]
  split
  · exact ⟨_, rfl, (Scope.mem_entries_insert old (t.placed e) name).mpr (Or.inr hname)⟩
  · exact ⟨old, rfl, hname⟩

/-- A name that is new in its scope owns nothing yet, since every owner is stored. -/
theorem nodup_owner_append {scope : Scope} {name : String} {y : Allocation}
    (h : Accounts layout xs t) (hget : t.scopes[scope.id]? = some scope)
    (hfresh : name ∉ scope.entries) (hy : y.owner = some (scope.id, name)) :
    ((xs ++ [y]).filterMap Allocation.owner).Nodup := by
  have hnew : (scope.id, name) ∉ xs.filterMap Allocation.owner := by
    intro hmem
    obtain ⟨x, hx, howner⟩ := List.mem_filterMap.mp hmem
    obtain ⟨scope', hscope', hname⟩ := h.owned x hx howner
    rw [hget] at hscope'
    cases hscope'
    exact hfresh hname
  rw [List.filterMap_append, List.filterMap_cons, hy, List.filterMap_nil,
    ← List.concat_eq_append]
  exact h.nodup_owner.concat hnew

/-- A declaration that needs no data space leaves the allocations as they are. -/
theorem accept_of_none {scope : Scope} {e : Entry} (h : Accounts layout xs t)
    (hwf : t.WellFormed) (haccepts : t.Accepts scope e) (hbytes : e.bytes? = none) :
    Accounts layout xs (t.accept scope e) := by
  have hget := (hwf.current_eq haccepts.current).2
  have hwords : t.wordsOf e = 0 := by rw [wordsOf, hbytes, Option.getD_none, zero_ceilDiv]
  have hnew : (t.placed e).LiesIn (xs ++ []) scope.id e.name := by
    rw [Entry.LiesIn, bytes?_placed, hbytes]
    dsimp only
    rw [address_placed, hbytes, Option.map_none]
  refine ⟨h.wordSize_eq, h.constantAddress_eq, h.bytes_pos, ?_, fun hk he => ?_,
    fun x hx k name howner => ?_, h.nodup_owner⟩
  · rw [dataAddress_accept, hwords, advance_zero]
    exact h.tiled
  · have hlies := h.liesIn_accept hget hnew hk he
    rw [List.append_nil] at hlies
    exact hlies
  · obtain ⟨old, hold, hname⟩ := h.owned x hx howner
    exact owned_accept hold hname

/-- A declaration that needs data space adds its own allocation at the end of the tiling. -/
theorem accept_of_some {scope : Scope} {e : Entry} {bytes : Nat} (h : Accounts layout xs t)
    (hwf : t.WellFormed) (haccepts : t.Accepts scope e) (hbytes : e.bytes? = some bytes) :
    Accounts layout (xs ++ [⟨some (scope.id, e.name), t.dataAddress, bytes⟩])
      (t.accept scope e) := by
  have hget := (hwf.current_eq haccepts.current).2
  have hwords : t.wordsOf e = bytes ⌈/⌉ layout.wordSize.toNat := by
    rw [wordsOf, hbytes, Option.getD_some, h.wordSize_eq]
  have hnew : (t.placed e).LiesIn (xs ++ [⟨some (scope.id, e.name), t.dataAddress, bytes⟩])
      scope.id e.name := by
    rw [Entry.LiesIn, bytes?_placed, hbytes]
    refine ⟨_, List.mem_append_right xs List.mem_cons_self, rfl, ?_, rfl⟩
    rw [address_placed, hbytes, Option.map_some]
  refine ⟨h.wordSize_eq, h.constantAddress_eq, fun x hx => ?_, ?_, fun hk he => ?_,
    fun x hx k name howner => ?_, ?_⟩
  · rcases List.mem_append.mp hx with hx | hx
    · exact h.bytes_pos x hx
    · rw [List.mem_singleton.mp hx]
      exact Entry.bytes?_pos haccepts.validSize hbytes
  · rw [dataAddress_accept, toNat_dataAddress_advance haccepts.room, hwords]
    exact h.tiled.append_singleton rfl
  · exact h.liesIn_accept hget hnew hk he
  · -- earlier owners stay, and the new one was just stored
    rcases List.mem_append.mp hx with hx | hx
    · obtain ⟨old, hold, hname⟩ := h.owned x hx howner
      exact owned_accept hold hname
    · rw [List.mem_singleton.mp hx] at howner
      cases howner
      refine ⟨scope.insert (t.placed e), ?_, ?_⟩
      · rw [getElem?_scopes_accept, if_pos rfl, hget, Option.map_some]
      · exact (Scope.mem_entries_insert scope (t.placed e) e.name).mpr (Or.inl rfl)
  · exact h.nodup_owner_append hget haccepts.fresh rfl

/-- Every change adds to the allocations what it hands out. -/
theorem change {request : Request} {result : Except ScopingError Answer}
    (hchange : t.Change request result t') (hwf : t.WellFormed) (h : Accounts layout xs t) :
    Accounts layout (xs ++ (t.allocation? request result).toList) t' := by
  -- all but declarations of data and temporaries hand out nothing
  have hnothing : t.allocation? request result = none → Accounts layout xs t' →
      Accounts layout (xs ++ (t.allocation? request result).toList) t' := by
    intro hnone hxs
    rw [hnone, Option.toList_none, List.append_nil]
    exact hxs
  cases hchange with
  | entered hresult => exact hnothing (by cases result <;> rfl) h.enter
  | @left scope hcurrent => exact hnothing rfl (h.leave scope)
  | @declared scope e haccepts =>
    have hcurrent := (hwf.current_eq haccepts.current).1
    cases hbytes : e.bytes? with
    | none =>
      refine hnothing ?_ (h.accept_of_none hwf haccepts hbytes)
      rw [address_placed, hbytes, Option.map_none]
      rfl
    | some bytes =>
      have hnew := h.accept_of_some hwf haccepts hbytes
      rw [address_placed, hbytes, Option.map_some]
      simpa only [allocation?, hbytes, hcurrent, Option.map_some, Option.toList_some] using hnew
  | constantDeclared haccepts => exact hnothing rfl (h.accept_of_none hwf haccepts rfl)
  | allocated hsize hroom => exact h.temporary hsize hroom
  | found hlookup => exact hnothing rfl h
  | refused hrequest => exact hnothing (by cases request <;> rfl) h

/-- The allocations of a session account for the table after it. -/
theorem after {σ : Type} {hooks : Hooks σ} {s : Session σ} (hwf : s.table.WellFormed)
    (h : Accounts layout xs s.table) (requests : List Request) :
    Accounts layout (xs ++ Session.allocations hooks s requests)
      (s.after hooks requests).table := by
  induction requests generalizing s xs with
  | nil =>
    rw [Session.allocations, List.append_nil]
    exact h
  | cons request rest ih =>
    have hchange := Session.step_change hooks s request
    rw [Session.allocations, ← List.append_assoc, Session.after_cons]
    exact ih (hwf.change hchange) (h.change hchange hwf)

end Accounts

/-! ## The tiling of data space -/

/-- Data space is tiled by allocations, in the order in which they were made, and every stored entry
of a kind that lies there has its own. -/
structure DataSpace (layout : Layout) (xs : List Allocation) (t : SymbolTable) : Prop where
  words_least : ∀ x ∈ xs, 1 ≤ x.words layout.wordSize.toNat ∧
    IsLeast {words | x.bytes ≤ words * layout.wordSize.toNat} (x.words layout.wordSize.toNat)
  first_address : ∀ x ∈ xs.head?, x.address = layout.dataBase
  next_address : xs.IsChain fun x y =>
    y.address.toNat = x.address.toNat + x.words layout.wordSize.toNat
  counter_eq : t.dataAddress.toNat =
    layout.dataBase.toNat + (xs.map (Allocation.words layout.wordSize.toNat)).sum
  counter_le : t.dataAddress.toNat ≤ 2 ^ 32 - 1
  disjoint : xs.Pairwise fun x y =>
    ∀ n ∈ x.interval layout.wordSize.toNat, n ∉ y.interval layout.wordSize.toNat
  no_gap : ∀ n, layout.dataBase.toNat ≤ n → n < t.dataAddress.toNat →
    ∃ x ∈ xs, n ∈ x.interval layout.wordSize.toNat
  address_of_data : ∀ (k : Nat) (scope : Scope) (name : String) (e : Entry),
    t.scopes[k]? = some scope → scope.entries[name]? = some e →
      e.kind = .scalar ∨ e.kind = .array →
        ∃ x ∈ xs, x.owner = some (k, name) ∧ e.address = some x.address ∧ e.bytes? = some x.bytes
  address_of_other : ∀ (k : Nat) (scope : Scope) (name : String) (e : Entry),
    t.scopes[k]? = some scope → scope.entries[name]? = some e →
      e.kind = .constant ∨ e.kind = .unknown → e.address = none
  owner_unique : (xs.filterMap Allocation.owner).Nodup
  constantAddress_eq : t.constantAddress = layout.constantBase

theorem Accounts.dataSpace (h : Accounts layout xs t) : DataSpace layout xs t where
  words_least x hx := by
    have hpos : 0 < layout.wordSize.toNat := h.wordSize_eq ▸ t.wordSize_pos
    exact ⟨ceilDiv_pos (h.bytes_pos x hx) hpos, isLeast_ceilDiv hpos x.bytes⟩
  first_address x hx := UInt32.toNat_inj.mp (h.tiled.address_head? x hx)
  next_address := h.tiled.isChain
  counter_eq := h.tiled.stop_eq
  counter_le := by
    have hlt := t.dataAddress.toNat_lt
    omega
  disjoint := h.tiled.pairwise_disjoint
  no_gap n hstart hstop := h.tiled.exists_mem_interval hstart hstop
  address_of_data k scope name e hk he hkind := by
    have hlies := h.liesIn hk he
    unfold Entry.LiesIn at hlies
    split at hlies
    · next bytes hbytes =>
      obtain ⟨x, hx, howner, haddress, rfl⟩ := hlies
      exact ⟨x, hx, howner, haddress, hbytes⟩
    · next hbytes =>
      rcases hkind with hkind | hkind <;> simp [Entry.bytes?, hkind] at hbytes
  address_of_other k scope name e hk he hkind := by
    have hbytes : e.bytes? = none := by
      rcases hkind with hkind | hkind <;> simp [Entry.bytes?, hkind]
    have hlies := h.liesIn hk he
    rw [Entry.LiesIn, hbytes] at hlies
    exact hlies
  owner_unique := h.nodup_owner
  constantAddress_eq := h.constantAddress_eq

end SymbolTable

/-- **Data space is tiled.**  From a fresh table, after any requests and whatever the hooks do, the
allocations made so far fill data space from its base up to the counter. -/
theorem data_space_tiled {layout : Layout} (h : layout.wordSize ≠ 0) {σ : Type} (hooks : Hooks σ)
    (memory : σ) (requests : List Request) :
    ∃ t, SymbolTable.ofLayout layout = .ok t ∧
      SymbolTable.DataSpace layout (Session.allocations hooks ⟨t, memory⟩ requests)
        (Session.after hooks ⟨t, memory⟩ requests).table := by
  have hwf := SymbolTable.WellFormed.fresh layout h
  refine ⟨_, SymbolTable.ofLayout_eq_ok h, SymbolTable.Accounts.dataSpace ?_⟩
  rw [← List.nil_append (Session.allocations hooks _ requests)]
  exact SymbolTable.Accounts.after hwf (.fresh layout h) requests

theorem data_space_tiled_nested :
    Layout.standard.wordSize ≠ 0 ∧ ∃ t, SymbolTable.ofLayout Layout.standard = .ok t ∧
      SymbolTable.DataSpace Layout.standard (Session.allocations moodyHooks ⟨t, 0⟩ nestedRequests)
        (Session.after moodyHooks ⟨t, 0⟩ nestedRequests).table ∧
      Session.allocations moodyHooks ⟨t, 0⟩ nestedRequests = [
        ⟨some (0, "x"), 0x10000000, 15⟩,
        ⟨some (1, "x"), 0x10000004, 4⟩,
        ⟨none, 0x10000005, 6⟩,
        ⟨some (2, "y"), 0x10000007, 1⟩] := by
  refine ⟨by decide, ?_⟩
  obtain ⟨t, ht, hspace⟩ :=
    data_space_tiled (by decide : Layout.standard.wordSize ≠ 0) moodyHooks 0 nestedRequests
  refine ⟨t, ht, hspace, ?_⟩
  rw [SymbolTable.ofLayout_eq_ok (by decide)] at ht
  cases ht
  decide +kernel

end Scoping
end CompilerTables
