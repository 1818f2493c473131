import CompilerTables.Proofs.Scoping.History
import CompilerTables.Proofs.Scoping.Refusals

/-!
# Declarations in any order

Declarations and temporaries share one counter, so the order of the requests decides which address
each of them gets, and which of them is the first that finds no room.  It decides nothing else.

* `Request.words` is the space that a request takes up, rounded up on its own.  A request that a
  table awaits, which is to say that nothing but the lack of room can refuse it, succeeds exactly if
  its words fit (`exists_result_step_iff`).
* `SymbolTable.Grants` describes the table after requests that all succeeded, through the sum of
  their words and the entries that they declare, both of which are the same in every order.

All requests of a list succeed exactly if the sum of their words fits (`succeeds_iff`): a run goes
on awaiting requests as long as they succeed, and one that finds no room is more than the sum could
spare.  If the sum does not fit, some request is refused in every order, though not always the same
one.
-/

namespace CompilerTables
namespace Scoping

/-! ## Requests that take up space -/

/-- An entry without the address that a table gives to it. -/
def Entry.unplaced (e : Entry) : Entry :=
  { e with address := none }

namespace Request

/-- A declaration or a temporary with a valid size. -/
inductive IsSound : Request → Prop where
  | declare {e : Entry} (h : e.HasValidSize) : IsSound (.declare e)
  | declareConstant {e : Entry} (h : e.size ≠ 0) : IsSound (.declareConstant e)
  | temporary {size : UInt32} (h : size ≠ 0) : IsSound (.temporary size)

/-- The entry that a request declares, without an address. -/
def entry? : Request → Option Entry
  | .declare e => some e.unplaced
  | .declareConstant e => some { e with kind := .constant }.unplaced
  | _ => none

/-- The words of data space that a request takes up: its bytes, rounded up.  A constant takes up
none. -/
def words (wordSize : Nat) : Request → Nat
  | .declare e => e.bytes?.getD 0 ⌈/⌉ wordSize
  | .temporary size => size.toNat ⌈/⌉ wordSize
  | _ => 0

end Request

namespace SymbolTable

variable {t t' t'' : SymbolTable} {request : Request} {requests requests' : List Request}
  {answer : Answer} {id : Nat}

/-! ## What is granted -/

/-- A scope holds an entry under a name, at whatever address. -/
def Declares (t : SymbolTable) (k : Nat) (name : String) (e : Entry) : Prop :=
  (t.declared? k name).map Entry.unplaced = some e

/-- The table after requests that take up space, if they all succeed.  The counter has advanced by
the sum of their words, and the current scope holds the entries that they declare. -/
structure Grants (t : SymbolTable) (requests : List Request) (t' : SymbolTable) : Prop where
  current_eq : t'.current = t.current
  wordSize_eq : t'.wordSize = t.wordSize
  dataAddress_eq : t'.dataAddress.toNat =
    t.dataAddress.toNat + (requests.map (Request.words t.wordSize.toNat)).sum
  declares_iff : ∀ {k : Nat} {name : String} {e : Entry}, t'.Declares k name e ↔
    t.Declares k name e ∨ t.current = some k ∧ e ∈ requests.filterMap Request.entry? ∧ e.name = name

namespace Grants

theorem nil (t : SymbolTable) : t.Grants [] t where
  current_eq := rfl
  wordSize_eq := rfl
  dataAddress_eq := rfl
  declares_iff := by simp

theorem append (h : t.Grants requests t') (h' : t'.Grants requests' t'') :
    t.Grants (requests ++ requests') t'' where
  current_eq := h'.current_eq.trans h.current_eq
  wordSize_eq := h'.wordSize_eq.trans h.wordSize_eq
  dataAddress_eq := by
    rw [h'.dataAddress_eq, h.dataAddress_eq, h.wordSize_eq, List.map_append, List.sum_append,
      Nat.add_assoc]
  declares_iff {k name e} := by
    rw [h'.declares_iff, h.declares_iff, h.current_eq, List.filterMap_append, List.mem_append]
    tauto

/-- What is granted does not depend on the order. -/
theorem perm (h : t.Grants requests t') (hperm : requests.Perm requests') :
    t.Grants requests' t' where
  current_eq := h.current_eq
  wordSize_eq := h.wordSize_eq
  dataAddress_eq := by
    rw [h.dataAddress_eq, (hperm.map _).sum_nat]
  declares_iff {k name e} := by
    rw [h.declares_iff, (hperm.filterMap _).mem_iff]

/-- The same requests leave the same entries, at whatever addresses. -/
theorem map_declared?_eq (h : t.Grants requests t') (h' : t.Grants requests t'') (k : Nat)
    (name : String) :
    (t''.declared? k name).map Entry.unplaced = (t'.declared? k name).map Entry.unplaced :=
  Option.ext fun _ => h'.declares_iff.trans h.declares_iff.symm

/-- What a request that succeeds stores is the entry that it declares. -/
theorem declares_of_appends {result : Except ScopingError Answer} {k : Nat} {name : String}
    {e : Entry} (h : t.Appends request result t')
    (hstored : (request.stored? result).map Entry.unplaced = request.entry?) :
    t'.Declares k name e ↔
      t.Declares k name e ∨ t.current = some k ∧ e ∈ [request].filterMap Request.entry? ∧
        e.name = name := by
  have hentry : e ∈ [request].filterMap Request.entry? ↔ request.entry? = some e := by
    simp [List.mem_filterMap]
  rw [hentry, ← hstored, Declares, Declares, Option.map_eq_some_iff, Option.map_eq_some_iff,
    Option.map_eq_some_iff]
  constructor
  · rintro ⟨stored, hafter, rfl⟩
    refine (h.declared?_eq_some_iff.mp hafter).imp (fun hbefore => ⟨stored, hbefore, rfl⟩) ?_
    rintro ⟨hcurrent, hrequest, hname⟩
    exact ⟨hcurrent, ⟨stored, hrequest, rfl⟩, hname⟩
  · rintro (⟨stored, hbefore, rfl⟩ | ⟨hcurrent, ⟨stored, hrequest, rfl⟩, hname⟩)
    · exact ⟨stored, h.declared?_eq_some_iff.mpr (.inl hbefore), rfl⟩
    · exact ⟨stored, h.declared?_eq_some_iff.mpr (.inr ⟨hcurrent, hrequest, hname⟩), rfl⟩

/-- A step that succeeds. -/
theorem of_change (hchange : t.Change request (.ok answer) t') (hwf : t.WellFormed)
    (hsound : request.IsSound) : t.Grants [request] t' := by
  have happends := Appends.of_change hchange hwf
  cases hsound with
  | declare hvalid =>
    cases hchange with
    | declared haccepts =>
      refine ⟨rfl, rfl, ?_, declares_of_appends happends rfl⟩
      rw [dataAddress_accept, toNat_dataAddress_advance haccepts.room]
      rfl
  | @declareConstant e hsize =>
    cases hchange with
    | constantDeclared haccepts =>
      have hwords : t.wordsOf { e with kind := .constant } = 0 := zero_ceilDiv _
      refine ⟨rfl, rfl, ?_, declares_of_appends happends rfl⟩
      rw [dataAddress_accept, hwords, advance_zero]
      rfl
  | temporary hsize =>
    cases hchange with
    | allocated _ hroom =>
      refine ⟨rfl, rfl, ?_, declares_of_appends happends rfl⟩
      rw [toNat_dataAddress_advance hroom]
      rfl

end Grants

/-! ## Requests that only lack of room can refuse -/

/-- Requests that a table can answer with its current scope open: declarations and temporaries with
valid sizes, where no name occurs twice or is declared in that scope already. -/
structure Awaits (t : SymbolTable) (id : Nat) (requests : List Request) : Prop where
  current_eq : t.current = some id
  sound : ∀ request ∈ requests, request.IsSound
  nodup : ((requests.filterMap Request.entry?).map Entry.name).Nodup
  absent : ∀ e ∈ requests.filterMap Request.entry?, t.declared? id e.name = none

namespace Awaits

theorem perm (h : t.Awaits id requests) (hperm : requests.Perm requests') :
    t.Awaits id requests' where
  current_eq := h.current_eq
  sound request hmem := h.sound request (hperm.mem_iff.mpr hmem)
  nodup := ((hperm.filterMap _).map _).nodup_iff.mp h.nodup
  absent e hmem := h.absent e ((hperm.filterMap _).mem_iff.mpr hmem)

/-- When the first request has succeeded the table awaits the others. -/
theorem tail (h : t.Awaits id (request :: requests)) (hgrants : t.Grants [request] t') :
    t'.Awaits id requests := by
  have happend : (request :: requests).filterMap Request.entry? =
      [request].filterMap Request.entry? ++ requests.filterMap Request.entry? :=
    List.filterMap_append (l := [request])
  have hnodup := h.nodup
  rw [happend, List.map_append, List.nodup_append] at hnodup
  refine ⟨hgrants.current_eq.trans h.current_eq, fun r hr => h.sound r (List.mem_cons_of_mem _ hr),
    hnodup.2.1, fun e hmem => ?_⟩
  -- an entry under that name was there before, or it is the one that the first request declared
  refine Option.eq_none_iff_forall_ne_some.mpr fun stored hstored => ?_
  have hdeclares : t'.Declares id e.name stored.unplaced := by rw [Declares, hstored]; rfl
  rcases hgrants.declares_iff.mp hdeclares with hold | ⟨-, hfirst, hname⟩
  · have habsent := h.absent e (by rw [happend]; exact List.mem_append_right _ hmem)
    rw [Declares, habsent] at hold
    cases hold
  · exact hnodup.2.2 _ (List.mem_map_of_mem hfirst) _ (List.mem_map_of_mem hmem) hname

end Awaits
end SymbolTable

namespace Session

variable {σ : Type} (hooks : Hooks σ) {s : Session σ} {request : Request}
  {requests requests' : List Request} {id : Nat}

/-- A declaration or a temporary that nothing else is wrong with succeeds if it fits. -/
theorem exists_result_step_iff (hwf : s.table.WellFormed)
    (hawaits : s.table.Awaits id (request :: requests)) :
    (∃ answer, (s.step hooks request).result = .ok answer) ↔
      s.table.dataAddress.toNat + request.words s.table.wordSize.toNat ≤ 0xffffffff := by
  obtain ⟨scope, hscope, rfl⟩ := hwf.current?_of_current hawaits.current_eq
  have hfresh : ∀ e, request.entry? = some e → e.name ∉ scope.entries := by
    intro e hentry
    have habsent := hawaits.absent e
      (List.mem_filterMap.mpr ⟨request, List.mem_cons_self, hentry⟩)
    rw [SymbolTable.declared?_eq (hwf.current_eq hscope).2] at habsent
    exact (getElem?_eq_none_iff _ _).mp habsent
  cases hawaits.sound request List.mem_cons_self with
  | @declare e hvalid =>
    have hheld : e.name ∉ scope.entries := hfresh e.unplaced rfl
    show (∃ answer, (s.declare e .declared).result = .ok answer) ↔
      s.table.dataAddress.toNat + s.table.wordsOf e ≤ 0xffffffff
    rw [result_declare, SymbolTable.declare_eq_of_current hscope, if_neg hheld, if_pos hvalid]
    split_ifs with hroom
    · exact iff_of_true ⟨_, rfl⟩ hroom
    · exact iff_of_false nofun hroom
  | @declareConstant e hsize =>
    have hheld : e.name ∉ scope.entries :=
      hfresh ({ e with kind := .constant } : Entry).unplaced rfl
    have haddress := s.table.dataAddress.toNat_lt
    rw [result_declareConstant hooks hscope, if_neg hheld, if_neg hsize]
    refine iff_of_true ⟨_, rfl⟩ ?_
    show s.table.dataAddress.toNat + 0 ≤ 0xffffffff
    omega
  | @temporary size hsize =>
    constructor
    · rintro ⟨answer, hresult⟩
      have hchange := step_change hooks s (.temporary size)
      rw [hresult] at hchange
      generalize (s.step hooks (.temporary size)).session.table = table at hchange
      cases hchange with
      | allocated _ hroom => exact hroom
    · intro hroom
      have htemporary := SymbolTable.temporary_eq_ok_iff.mpr ⟨hsize, hroom, rfl, rfl⟩
      exact ⟨.allocated s.table.dataAddress, by simp only [step, htemporary]⟩

/-! ## Runs -/

/-- All requests of a run succeed. -/
def Succeeds (hooks : Hooks σ) (s : Session σ) (requests : List Request) : Prop :=
  ∀ response ∈ s.run hooks requests, ∃ answer, response.result = .ok answer

theorem succeeds_cons_iff : s.Succeeds hooks (request :: requests) ↔
    (∃ answer, (s.step hooks request).result = .ok answer) ∧
      (s.step hooks request).session.Succeeds hooks requests := by
  rw [Succeeds, run, List.forall_mem_cons]
  rfl

theorem grants_step (hwf : s.table.WellFormed)
    (hawaits : s.table.Awaits id (request :: requests)) {answer : Answer}
    (hresult : (s.step hooks request).result = .ok answer) :
    s.table.Grants [request] (s.step hooks request).session.table := by
  have hchange := step_change hooks s request
  rw [hresult] at hchange
  exact .of_change hchange hwf (hawaits.sound request List.mem_cons_self)

/-- If all requests succeed then all of them are granted. -/
theorem grants_after (hwf : s.table.WellFormed) (hawaits : s.table.Awaits id requests)
    (hsucceeds : s.Succeeds hooks requests) :
    s.table.Grants requests (s.after hooks requests).table := by
  induction requests generalizing s with
  | nil => exact .nil s.table
  | cons request rest ih =>
    obtain ⟨⟨answer, hresult⟩, hrest⟩ := (succeeds_cons_iff hooks).mp hsucceeds
    have hfirst := grants_step hooks hwf hawaits hresult
    have hwf' := hwf.change (step_change hooks s request)
    rw [after_cons]
    exact hfirst.append (ih hwf' (hawaits.tail hfirst) hrest)

/-- **All requests succeed exactly if the sum of their words fits.** -/
theorem succeeds_iff (hwf : s.table.WellFormed) (hawaits : s.table.Awaits id requests) :
    s.Succeeds hooks requests ↔
      s.table.dataAddress.toNat + (requests.map (Request.words s.table.wordSize.toNat)).sum ≤
        0xffffffff := by
  induction requests generalizing s with
  | nil =>
    have haddress := s.table.dataAddress.toNat_lt
    refine iff_of_true (fun response hmem => absurd hmem List.not_mem_nil) ?_
    rw [List.map_nil, List.sum_nil]
    omega
  | cons request rest ih =>
    rw [succeeds_cons_iff, List.map_cons, List.sum_cons]
    have hfirst := exists_result_step_iff hooks hwf hawaits
    by_cases hresult : ∃ answer, (s.step hooks request).result = .ok answer
    · obtain ⟨answer, hanswer⟩ := hresult
      have hgrants := grants_step hooks hwf hawaits hanswer
      have hwf' := hwf.change (step_change hooks s request)
      rw [and_iff_right ⟨answer, hanswer⟩, ih hwf' (hawaits.tail hgrants),
        hgrants.dataAddress_eq, hgrants.wordSize_eq, List.map_singleton, List.sum_singleton,
        Nat.add_assoc]
    · -- the first request alone needs more than there is
      refine iff_of_false (fun h => hresult h.1) fun hroom => hresult (hfirst.mpr ?_)
      omega

end Session

/-- **Whether declarations fit does not depend on their order.**  Declarations and temporaries that
only the lack of room can refuse all succeed in one order exactly if they do in any other, which is
to say if the sum of their words fits.  Then the counter ends at the same place, and the current
scope holds the same entries, though at other addresses. -/
theorem declarations_in_any_order {t : SymbolTable} (h : t.Reachable) {id : Nat}
    {requests requests' : List Request} (hawaits : t.Awaits id requests)
    (hperm : requests'.Perm requests) {σ : Type} (hooks : Hooks σ) (memory : σ) :
    let total := (requests.map (Request.words t.wordSize.toNat)).sum
    let s : Session σ := ⟨t, memory⟩
    (s.Succeeds hooks requests ↔ t.dataAddress.toNat + total ≤ 0xffffffff) ∧
      (s.Succeeds hooks requests' ↔ s.Succeeds hooks requests) ∧
      (s.Succeeds hooks requests →
        let final := (s.after hooks requests).table
        let final' := (s.after hooks requests').table
        t.Grants requests final ∧ final'.dataAddress = final.dataAddress ∧
          final'.current = final.current ∧
          ∀ k name, (final'.declared? k name).map Entry.unplaced =
            (final.declared? k name).map Entry.unplaced) := by
  intro total s
  have hwf : s.table.WellFormed := h.wellFormed
  have hawaits' : s.table.Awaits id requests' := hawaits.perm hperm.symm
  have htotal : (requests'.map (Request.words t.wordSize.toNat)).sum = total :=
    (hperm.map _).sum_nat
  have hfits := Session.succeeds_iff hooks hwf hawaits
  have hfits' := Session.succeeds_iff hooks hwf hawaits'
  rw [htotal] at hfits'
  refine ⟨hfits, hfits'.trans hfits.symm, ?_⟩
  intro hsucceeds final final'
  have hgrants : t.Grants requests final := Session.grants_after hooks hwf hawaits hsucceeds
  have hgrants' : t.Grants requests final' :=
    (Session.grants_after hooks hwf hawaits' (hfits'.mpr (hfits.mp hsucceeds))).perm hperm
  refine ⟨hgrants, ?_, hgrants'.current_eq.trans hgrants.current_eq.symm,
    hgrants.map_declared?_eq hgrants'⟩
  rw [← UInt32.toNat_inj, hgrants'.dataAddress_eq, hgrants.dataAddress_eq]

/-- Declarations of all kinds, and a temporary between them. -/
def mixedRequests : List Request := [
  .declare (Entry.scalar "a" 5),
  .declareConstant (Entry.scalar "k" 9),
  .temporary 3,
  .declare (Entry.array "b" 2 7)]

/-- From the last to the first, the same requests take up the same seven words. -/
theorem declarations_in_any_order_mixed :
    (nestedTable 4).Reachable ∧ (nestedTable 4).Awaits 1 mixedRequests ∧
      mixedRequests.reverse.Perm mixedRequests ∧
      let s : Session Nat := ⟨nestedTable 4, 0⟩
      let final := (s.after moodyHooks mixedRequests).table
      let final' := (s.after moodyHooks mixedRequests.reverse).table
      s.Succeeds moodyHooks mixedRequests ∧ s.Succeeds moodyHooks mixedRequests.reverse ∧
        final'.dataAddress = final.dataAddress ∧
        final.dataAddress = (nestedTable 4).dataAddress + 7 ∧
        (final.declared? 1 "b").map Entry.address = some (some 0x10000008) ∧
        (final'.declared? 1 "b").map Entry.address = some (some 0x10000005) := by
  have hreachable := reachable_nestedTable 4
  have hawaits : (nestedTable 4).Awaits 1 mixedRequests :=
    { current_eq := by decide +kernel
      sound := by
        unfold mixedRequests
        simp only [List.forall_mem_cons]
        exact ⟨.declare (by decide), .declareConstant (by decide), .temporary (by decide),
          .declare (by decide), nofun⟩
      nodup := by decide
      absent := by decide +kernel }
  have hperm := mixedRequests.reverse_perm
  obtain ⟨hfits, horder, hfinal⟩ := declarations_in_any_order hreachable hawaits hperm moodyHooks 0
  have hsucceeds := hfits.mpr (by decide +kernel)
  obtain ⟨-, haddress, -, -⟩ := hfinal hsucceeds
  exact ⟨hreachable, hawaits, hperm, hsucceeds, horder.mpr hsucceeds, haddress,
    by decide +kernel, by decide +kernel, by decide +kernel⟩

end Scoping
end CompilerTables
