import CompilerTables.Proofs.Scoping.Nesting

/-!
# What a refusal says and what it leaves behind

A declaration is checked in a fixed order: some scope must be open, the current scope must not hold
the name, the size must be valid, and there must be room in data space.  The first check that fails
decides the answer (`SymbolTable.Judges`), so a name that is declared twice is reported as such even
if its size is invalid too.  Constants go the same way and need no room.

A refusal changes nothing.  All checks come before the counter moves, and the entry is stored last,
so a request that is refused leaves the table as it was (`Session.table_of_error`).  Only to enter a
scope is different, because the scope is open before its hook is asked.  The one thing that a
refusal may change is the memory of a hook, and only if it was the hook that failed
(`Session.session_of_error`).  Requests that were refused for any other reason can therefore be left
out of a run, all at once (`Session.run_heeded`).
-/

namespace CompilerTables
namespace Scoping

namespace SymbolTable

variable {t : SymbolTable} {scope : Scope} {e : Entry}

/-! ## The answer to a declaration -/

/-- The answer to a declaration while a scope is open.  Each condition counts only if none of those
before it decides. -/
structure Judges (t : SymbolTable) (scope : Scope) (e : Entry)
    (result : Except ScopingError Answer) : Prop where
  duplicate_iff : result = .error (.duplicateDeclaration e.name) ↔ e.name ∈ scope.entries
  invalid_iff : e.name ∉ scope.entries →
    (result = .error (.invalidSize e.name) ↔ e.size = 0 ∨ e.kind = .array ∧ e.length = 0)
  overflow_iff : e.name ∉ scope.entries → e.HasValidSize → ∀ bytes : UInt64,
    (result = .error (.addressOverflow bytes) ↔ e.bytes? = some bytes.toNat ∧
      0xffffffff < t.dataAddress.toNat + bytes.toNat ⌈/⌉ t.wordSize.toNat)
  declared : e.name ∉ scope.entries → e.HasValidSize →
    (∀ bytes, e.bytes? = some bytes →
      t.dataAddress.toNat + bytes ⌈/⌉ t.wordSize.toNat ≤ 0xffffffff) →
    result = .ok (.declared (e.bytes?.map fun _ => t.dataAddress))

theorem not_hasValidSize_iff :
    ¬ e.HasValidSize ↔ e.size = 0 ∨ e.kind = .array ∧ e.length = 0 := by
  unfold Entry.HasValidSize
  grind

/-- There is room for an entry when there is room for its bytes, if it has any. -/
theorem room_iff :
    t.dataAddress.toNat + t.wordsOf e ≤ 0xffffffff ↔
      ∀ bytes, e.bytes? = some bytes →
        t.dataAddress.toNat + bytes ⌈/⌉ t.wordSize.toNat ≤ 0xffffffff := by
  have haddress := t.dataAddress.toNat_lt
  unfold wordsOf
  cases hbytes : e.bytes? with
  | none =>
    rw [Option.getD_none, zero_ceilDiv]
    exact iff_of_true (by omega) nofun
  | some bytes => simp

/-- Without room, the bytes that are too many are the bytes of the entry. -/
theorem exists_bytes_of_not_room (hfull : ¬ t.dataAddress.toNat + t.wordsOf e ≤ 0xffffffff) :
    ∃ bytes : UInt64, e.bytes? = some bytes.toNat ∧
      0xffffffff < t.dataAddress.toNat + bytes.toNat ⌈/⌉ t.wordSize.toNat := by
  obtain ⟨bytes, hbytes, hover⟩ : ∃ bytes, e.bytes? = some bytes ∧
      0xffffffff < t.dataAddress.toNat + bytes ⌈/⌉ t.wordSize.toNat := by
    simpa [room_iff] using hfull
  have hword : (UInt64.ofNat bytes).toNat = bytes := by
    have hle := Entry.bytes?_le hbytes
    rw [UInt64.toNat_ofNat']
    exact Nat.mod_eq_of_lt (by omega)
  refine ⟨UInt64.ofNat bytes, ?_, ?_⟩
  · rw [hword, hbytes]
  · rw [hword]
    exact hover

theorem depth_eq_zero_iff : t.depth = 0 ↔ t.current? = none := by
  unfold depth
  cases t.current? <;> simp

end SymbolTable

namespace Session

variable {σ : Type} {hooks : Hooks σ} {s : Session σ} {scope : Scope} {e : Entry}

theorem result_declare (s : Session σ) (e : Entry) (answer : Option Address → Answer) :
    (s.declare e answer).result =
      (s.table.declare e).map fun declared => answer declared.1.address := by
  unfold declare
  cases s.table.declare e <;> rfl

theorem result_declare_eq_noOpenScope_iff {answer : Option Address → Answer} :
    (s.declare e answer).result = .error .noOpenScope ↔ s.table.depth = 0 := by
  rw [result_declare, SymbolTable.depth_eq_zero_iff]
  cases hscope : s.table.current? with
  | none =>
    rw [SymbolTable.declare_eq_of_none hscope]
    exact iff_of_true rfl rfl
  | some scope =>
    rw [SymbolTable.declare_eq_of_current hscope]
    refine iff_of_false ?_ nofun
    split_ifs <;> exact nofun

theorem judges_declare (hscope : s.table.current? = some scope) (e : Entry) :
    s.table.Judges scope e (s.declare e .declared).result := by
  have hroom := @SymbolTable.room_iff s.table e
  rw [result_declare, SymbolTable.declare_eq_of_current hscope]
  by_cases hheld : e.name ∈ scope.entries
  · rw [if_pos hheld]
    exact ⟨iff_of_true rfl hheld, absurd hheld, absurd hheld, absurd hheld⟩
  · rw [if_neg hheld]
    by_cases hvalid : e.HasValidSize
    · rw [if_pos hvalid]
      have hsize : ¬ (e.size = 0 ∨ e.kind = .array ∧ e.length = 0) := fun h =>
        SymbolTable.not_hasValidSize_iff.mpr h hvalid
      by_cases hfits : s.table.dataAddress.toNat + s.table.wordsOf e ≤ 0xffffffff
      · rw [if_pos hfits]
        refine ⟨iff_of_false nofun hheld, fun _ => iff_of_false nofun hsize,
          fun _ _ bytes => iff_of_false nofun ?_, fun _ _ _ => rfl⟩
        rintro ⟨hbytes, hfull⟩
        exact Nat.not_le_of_lt hfull (hroom.mp hfits _ hbytes)
      · rw [if_neg hfits]
        obtain ⟨bytes, hbytes, hfull⟩ := SymbolTable.exists_bytes_of_not_room hfits
        rw [hbytes, Option.getD_some, UInt64.ofNat_toNat]
        refine ⟨iff_of_false nofun hheld, fun _ => iff_of_false nofun hsize, fun _ _ bytes' => ?_,
          fun _ _ hall => absurd (hall _ hbytes) (Nat.not_le_of_lt hfull)⟩
        constructor
        · intro h
          cases h
          exact ⟨hbytes, hfull⟩
        · rintro ⟨hsame, -⟩
          rw [hbytes, Option.some_inj] at hsame
          rw [UInt64.toNat_inj.mp hsame]
          rfl
    · rw [if_neg hvalid]
      refine ⟨iff_of_false nofun hheld, fun _ => iff_of_true rfl ?_, ?_, ?_⟩
      · exact SymbolTable.not_hasValidSize_iff.mp hvalid
      · exact fun _ h => absurd h hvalid
      · exact fun _ h => absurd h hvalid

/-! ## Constants -/

/-- To declare a constant is to declare the same entry with that kind, but for the answer. -/
theorem step_declareConstant (hooks : Hooks σ) (s : Session σ) (e : Entry) :
    (s.step hooks (.declareConstant e)).session =
        (s.step hooks (.declare { e with kind := .constant })).session ∧
      (s.step hooks (.declareConstant e)).result =
        (s.step hooks (.declare { e with kind := .constant })).result.map fun _ =>
          .constantDeclared := by
  simp only [step, result_declare]
  unfold declare
  cases s.table.declare { e with kind := .constant } <;> exact ⟨rfl, rfl⟩

/-- A constant has no bytes and no length, so only its name and its size can be wrong. -/
theorem result_declareConstant (hooks : Hooks σ) (hscope : s.table.current? = some scope) :
    (s.step hooks (.declareConstant e)).result =
      if e.name ∈ scope.entries then .error (.duplicateDeclaration e.name)
      else if e.size = 0 then .error (.invalidSize e.name)
      else .ok .constantDeclared := by
  have hvalid : ({ e with kind := .constant } : Entry).HasValidSize ↔ e.size ≠ 0 :=
    and_iff_left nofun
  have hroom := (@SymbolTable.room_iff s.table { e with kind := .constant }).mpr nofun
  simp only [step, result_declare, SymbolTable.declare_eq_of_current hscope, hvalid, if_pos hroom]
  split_ifs <;> trivial

theorem result_declareConstant_ne_addressOverflow (hooks : Hooks σ) (s : Session σ) (e : Entry)
    (bytes : UInt64) :
    (s.step hooks (.declareConstant e)).result ≠ .error (.addressOverflow bytes) := by
  cases hscope : s.table.current? with
  | none =>
    have hresult : (s.step hooks (.declareConstant e)).result = .error .noOpenScope :=
      result_declare_eq_noOpenScope_iff.mpr (SymbolTable.depth_eq_zero_iff.mpr hscope)
    rw [hresult]
    exact nofun
  | some scope =>
    rw [result_declareConstant hooks hscope]
    split_ifs <;> exact nofun

/-! ## After a refusal -/

/-- A request other than to enter a scope leaves the table as it was when it is refused. -/
theorem table_of_error {request : Request} {error : ScopingError} (hrequest : request ≠ .enter)
    (herror : (s.step hooks request).result = .error error) :
    (s.step hooks request).session.table = s.table := by
  have hchange := step_change hooks s request
  rw [herror] at hchange
  generalize (s.step hooks request).session.table = table at hchange ⊢
  cases hchange with
  | entered => exact absurd rfl hrequest
  | refused => rfl

theorem session_declare_of_error {answer : Option Address → Answer} {error : ScopingError}
    (herror : (s.declare e answer).result = .error error) : (s.declare e answer).session = s := by
  unfold declare at herror ⊢
  split at herror
  · cases herror
  · rfl

/-- If it was not a hook that failed, nothing at all has changed. -/
theorem session_of_error {request : Request} {error : ScopingError}
    (herror : (s.step hooks request).result = .error error)
    (hreason : ∀ message, error ≠ .hookFailed message) : (s.step hooks request).session = s := by
  cases request with
  | enter =>
    unfold step enter at herror
    dsimp only at herror
    split at herror
    · cases herror
    · next message _ =>
      cases herror
      exact absurd rfl (hreason message)
  | leave =>
    unfold step leave at herror ⊢
    dsimp only at herror ⊢
    split at herror
    · rfl
    · split at herror
      · cases herror
      · next message _ _ _ =>
        cases herror
        exact absurd rfl (hreason message)
  | declare e => exact session_declare_of_error herror
  | declareConstant e => exact session_declare_of_error herror
  | temporary size =>
    unfold step at herror ⊢
    dsimp only at herror ⊢
    split at herror
    · cases herror
    · rfl
  | lookup name => rfl

/-- A request was refused, and not by a hook. -/
def isRefusal : Except ScopingError Answer → Bool
  | .error (.hookFailed _) => false
  | .error _ => true
  | .ok _ => false

/-- The requests of a run that were not refused, except by a hook. -/
def heeded (hooks : Hooks σ) (s : Session σ) (requests : List Request) : List Request :=
  ((requests.zip (s.run hooks requests)).filter fun step => ¬ isRefusal step.2.result).map
    Prod.fst

theorem session_of_isRefusal {request : Request}
    (hrefusal : isRefusal (s.step hooks request).result = true) :
    (s.step hooks request).session = s := by
  cases hresult : (s.step hooks request).result with
  | ok answer =>
    rw [hresult] at hrefusal
    cases hrefusal
  | error error =>
    refine session_of_error hresult fun message hfailed => ?_
    rw [hresult, hfailed] at hrefusal
    cases hrefusal

/-- Without the requests that were refused, a run is the same but for the refusals. -/
theorem run_heeded (hooks : Hooks σ) (s : Session σ) (requests : List Request) :
    s.run hooks (s.heeded hooks requests) =
      (s.run hooks requests).filter fun response => ¬ isRefusal response.result := by
  induction requests generalizing s with
  | nil => rfl
  | cons request rest ih =>
    rw [heeded, run, List.zip_cons_cons, List.filter_cons, List.filter_cons]
    dsimp only
    cases hrefusal : isRefusal (s.step hooks request).result with
    | true =>
      have hsession := session_of_isRefusal hrefusal
      rw [if_neg (by simp), if_neg (by simp), hsession]
      exact ih s
    | false =>
      rw [if_pos (by simp), if_pos (by simp), List.map_cons, run]
      exact congrArg _ (ih _)

end Session

/-- **A refusal says what was wrong and leaves nothing behind.**  A declaration is refused by the
first check that fails, whatever else is wrong with it, and a constant is checked like any other
entry of its kind.  A request other than to enter a scope that is refused leaves the whole table as
it was, so a run goes on from the same table, and from the same session unless it was a hook that
failed.  All other refusals can be left out of a run. -/
theorem refusals_leave_no_trace {σ : Type} (hooks : Hooks σ) (s : Session σ) :
    (∀ e, ((s.step hooks (.declare e)).result = .error .noOpenScope ↔ s.table.depth = 0) ∧
      ∀ scope, s.table.current? = some scope →
        s.table.Judges scope e (s.step hooks (.declare e)).result) ∧
      (∀ e,
        let plain := s.step hooks (.declare { e with kind := .constant })
        let response := s.step hooks (.declareConstant e)
        response.session = plain.session ∧
          response.result = plain.result.map (fun _ => .constantDeclared) ∧
          (∀ bytes, response.result ≠ .error (.addressOverflow bytes)) ∧
          ∀ scope, s.table.current? = some scope →
            response.result =
              if e.name ∈ scope.entries then .error (.duplicateDeclaration e.name)
              else if e.size = 0 then .error (.invalidSize e.name)
              else .ok .constantDeclared) ∧
      (∀ request error, request ≠ .enter → (s.step hooks request).result = .error error →
        (s.step hooks request).session.table = s.table ∧
          ((∀ message, error ≠ .hookFailed message) → (s.step hooks request).session = s) ∧
          ∀ later, s.run hooks (request :: later) =
            s.step hooks request ::
              Session.run hooks ⟨s.table, (s.step hooks request).session.memory⟩ later) ∧
      ∀ requests, s.run hooks (s.heeded hooks requests) =
        (s.run hooks requests).filter fun response => ¬ Session.isRefusal response.result := by
  refine ⟨fun e => ⟨?_, fun scope hscope => ?_⟩, fun e => ⟨?_, ?_, fun bytes => ?_, ?_⟩,
    fun request error hrequest herror => ⟨?_, ?_, fun later => ?_⟩, s.run_heeded hooks⟩
  · exact Session.result_declare_eq_noOpenScope_iff
  · exact Session.judges_declare hscope e
  · exact (s.step_declareConstant hooks e).1
  · exact (s.step_declareConstant hooks e).2
  · exact s.result_declareConstant_ne_addressOverflow hooks e bytes
  · exact fun scope hscope => Session.result_declareConstant hooks hscope
  · exact Session.table_of_error hrequest herror
  · exact Session.session_of_error herror
  · rw [Session.run, ← Session.table_of_error hrequest herror]

/-- Scope `1` holds an `x`.  A second one is reported as such although its size is invalid, an array
of the largest size has no room, and a request to leave that the hook vetoes leaves the table as it
was. -/
theorem refusals_leave_no_trace_nested :
    let s : Session Nat := ⟨nestedTable 4, 2⟩
    (s.step moodyHooks (.declare (Entry.scalar "x" 0))).result =
        .error (.duplicateDeclaration "x") ∧
      (s.step moodyHooks (.declare (Entry.array "y" 0xffffffff 0xffffffff))).result =
        .error (.addressOverflow 0xfffffffe00000001) ∧
      (s.step moodyHooks .leave).result = .error (.hookFailed "no exit") ∧
      (s.step moodyHooks .leave).session.table = nestedTable 4 := by
  intro s
  obtain ⟨scope, hscope⟩ := Option.isSome_iff_exists.mp
    (by decide +kernel : (nestedTable 4).current?.isSome = true)
  obtain ⟨hdeclare, -, herror, -⟩ := refusals_leave_no_trace moodyHooks s
  have hentries := (by decide +kernel : ∀ scope ∈ (nestedTable 4).current?,
    "x" ∈ scope.entries ∧ "y" ∉ scope.entries) scope hscope
  have hleave : (s.step moodyHooks .leave).result = .error (.hookFailed "no exit") := by
    decide +kernel
  exact ⟨((hdeclare _).2 scope hscope).duplicate_iff.mpr hentries.1,
    (((hdeclare _).2 scope hscope).overflow_iff hentries.2 (by decide) _).mpr
      (by decide +kernel), hleave, (herror .leave _ (by decide) hleave).1⟩

end Scoping
end CompilerTables
