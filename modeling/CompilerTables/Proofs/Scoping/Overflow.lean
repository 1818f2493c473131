import CompilerTables.Proofs.Scoping.Requests

/-!
# Nothing wraps around

A footprint is a product, the words for it are a rounded quotient, and the next address is a sum.
All three are computed in 64 bits, where a result that does not fit would wrap around to a small
one, and a huge array would be given hardly any space.

Here the same steps are taken by operations that fail where the true result does not fit.  `Guarded`
is the type of such computations.  None of them ever fails (`allocation_never_wraps`), because a
product of two sizes leaves room in 64 bits for exactly one more counter:
`(2 ^ 32 - 1) ^ 2 + (2 ^ 32 - 1) = 2 ^ 64 - 2 ^ 32`.  That the word size is not `0` is a part of the
table; it is what keeps the words from being more than the bytes.

So what the machine computes is what the whole numbers say, and `SymbolTable.Allots` says it.
-/

namespace CompilerTables
namespace Scoping

/-- A whole number that does not fit into 64 bits. -/
structure TooWide where
  value : Nat

/-- A computation on words of 64 bits that fails where a true result does not fit. -/
abbrev Guarded := Except TooWide

namespace Guarded

/-! ## Guarded steps -/

/-- A whole number as a word, if it fits. -/
def fit (n : Nat) : Guarded UInt64 :=
  if n < 2 ^ 64 then .ok (UInt64.ofNat n) else .error ⟨n⟩

/-- The true product of two words. -/
def mul (a b : UInt64) : Guarded UInt64 := fit (a.toNat * b.toNat)

/-- The true sum of two words. -/
def add (a b : UInt64) : Guarded UInt64 := fit (a.toNat + b.toNat)

/-- The bytes that an entry takes up in data space, if it lies there at all. -/
def footprint? (e : Entry) : Guarded (Option UInt64) :=
  match e.kind with
  | .scalar => pure (some e.size.toUInt64)
  | .array => some <$> mul e.size.toUInt64 e.length.toUInt64
  | .constant => pure none
  | .unknown => pure none

/-- The number of words that hold so many bytes. -/
def wordsFor (bytes : UInt64) (wordSize : UInt32) : Guarded UInt64 :=
  let whole := bytes / wordSize.toUInt64
  if bytes % wordSize.toUInt64 = 0 then pure whole else add whole 1

/-- Takes so many bytes of data space, if the true next address is an address. -/
def allocate (t : SymbolTable) (bytes : UInt64) :
    Guarded (Except ScopingError (Address × SymbolTable)) := do
  let words ← wordsFor bytes t.wordSize
  let next ← add t.dataAddress.toUInt64 words
  return if next ≤ 0xffffffff then .ok (t.dataAddress, { t with dataAddress := next.toUInt32 })
    else .error (.addressOverflow bytes)

/-- Takes data space for an unnamed value. -/
def temporary (t : SymbolTable) (size : UInt32) :
    Guarded (Except ScopingError (Address × SymbolTable)) :=
  if size = 0 then pure (.error (.invalidSize "<temporary>")) else allocate t size.toUInt64

/-- Takes the data space of an entry, if it needs any. -/
def place (t : SymbolTable) (e : Entry) :
    Guarded (Except ScopingError (Option Address × SymbolTable)) := do
  match ← footprint? e with
  | none => return .ok (none, t)
  | some bytes => match ← allocate t bytes with
    | .ok (address, t) => return .ok (some address, t)
    | .error e => return .error e

/-- Declares an entry in the current scope. -/
def declare (t : SymbolTable) (e : Entry) :
    Guarded (Except ScopingError (Entry × SymbolTable)) :=
  match t.current? with
  | none => pure (.error .noOpenScope)
  | some scope =>
    if e.name ∈ scope.entries then pure (.error (.duplicateDeclaration e.name))
    else if e.HasValidSize then do
      match ← place t e with
      | .ok (address, t) => return .ok ({ e with address }, t.store scope.id { e with address })
      | .error e => return .error e
    else pure (.error (.invalidSize e.name))

/-! ## Guarded steps succeed -/

variable {a b : UInt64}

theorem mul_eq (h : a.toNat * b.toNat < 2 ^ 64) : mul a b = pure (a * b) := by
  rw [mul, fit, if_pos h, UInt64.ofNat_mul, UInt64.ofNat_toNat, UInt64.ofNat_toNat]
  rfl

theorem add_eq (h : a.toNat + b.toNat < 2 ^ 64) : add a b = pure (a + b) := by
  rw [add, fit, if_pos h, UInt64.ofNat_add, UInt64.ofNat_toNat, UInt64.ofNat_toNat]
  rfl

theorem footprint?_eq (e : Entry) : footprint? e = pure e.footprint? := by
  have hproduct : e.size.toUInt64.toNat * e.length.toUInt64.toNat ≤ 0xffffffff * 0xffffffff := by
    rw [UInt32.toNat_toUInt64, UInt32.toNat_toUInt64]
    exact Entry.mul_lt_of_words e.size e.length
  unfold footprint? Entry.footprint?
  cases e.kind with
  | scalar => rfl
  | array =>
    dsimp only
    rw [mul_eq (by omega), map_pure]
  | constant => rfl
  | unknown => rfl

/-- A quotient with a remainder is smaller than the bytes, so it can be rounded up. -/
theorem wordsFor_eq (bytes : UInt64) (wordSize : UInt32) :
    wordsFor bytes wordSize = pure (Scoping.wordsFor bytes wordSize) := by
  unfold wordsFor Scoping.wordsFor
  dsimp only
  split
  · rfl
  · next hrest =>
    have hbytes := bytes.toNat_lt
    have hdiv := Nat.div_add_mod bytes.toNat wordSize.toNat
    have hmod : bytes.toNat % wordSize.toNat ≠ 0 := by
      rw [← UInt64.toNat_inj, UInt64.toNat_mod, UInt32.toNat_toUInt64, UInt64.toNat_zero] at hrest
      exact hrest
    have hle : bytes.toNat / wordSize.toNat ≤ wordSize.toNat * (bytes.toNat / wordSize.toNat) := by
      rcases Nat.eq_zero_or_pos wordSize.toNat with hzero | hpos
      · rw [hzero, Nat.div_zero, Nat.mul_zero]
      · exact Nat.le_mul_of_pos_left _ hpos
    refine add_eq ?_
    rw [UInt64.toNat_div, UInt32.toNat_toUInt64, UInt64.toNat_one]
    omega

/-- The words for a product of two sizes leave room for a counter. -/
theorem allocate_eq (t : SymbolTable) {bytes : UInt64}
    (hbytes : bytes.toNat ≤ 0xffffffff * 0xffffffff) :
    allocate t bytes = pure (t.allocate bytes) := by
  have hwords := ceilDiv_le_self t.wordSize_pos bytes.toNat
  have haddress := t.dataAddress.toNat_lt
  have hroom :
      t.dataAddress.toUInt64.toNat + (Scoping.wordsFor bytes t.wordSize).toNat < 2 ^ 64 := by
    rw [UInt32.toNat_toUInt64, toNat_wordsFor t.wordSize_ne_zero]
    omega
  unfold allocate
  rw [wordsFor_eq, pure_bind, add_eq hroom, pure_bind]
  rfl

theorem temporary_eq (t : SymbolTable) (size : UInt32) :
    temporary t size = pure (t.temporary size) := by
  have hsize := size.toNat_lt
  have hbytes : size.toUInt64.toNat ≤ 0xffffffff * 0xffffffff := by
    rw [UInt32.toNat_toUInt64]
    omega
  unfold temporary SymbolTable.temporary
  rw [allocate_eq t hbytes]
  split <;> rfl

end Guarded

theorem Entry.bytes?_eq_of_footprint? {e : Entry} {bytes : UInt64} (h : e.footprint? = some bytes) :
    e.bytes? = some bytes.toNat := by
  rw [← e.map_toNat_footprint?, h, Option.map_some]

namespace Guarded

theorem place_eq (t : SymbolTable) (e : Entry) : place t e = pure (t.place e) := by
  unfold place SymbolTable.place
  rw [footprint?_eq, pure_bind]
  cases hfootprint : e.footprint? with
  | none => rfl
  | some bytes =>
    dsimp only
    rw [allocate_eq t (Entry.bytes?_le (Entry.bytes?_eq_of_footprint? hfootprint)), pure_bind]
    cases t.allocate bytes with
    | ok granted => rfl
    | error e => rfl

theorem declare_eq (t : SymbolTable) (e : Entry) : declare t e = pure (t.declare e) := by
  unfold declare SymbolTable.declare
  cases t.current? with
  | none => rfl
  | some scope =>
    dsimp only
    rw [place_eq, pure_bind]
    split_ifs with hheld hvalid
    · rfl
    · cases t.place e with
      | ok placed => rfl
      | error e => rfl
    · rfl

end Guarded

/-! ## What a request for data space comes to -/

/-- What comes of a request for so many bytes, in whole numbers: it is granted exactly if the
counter and the words together are an address, and then the old counter is given and that sum is the
new one; otherwise it is refused with the bytes that were asked for. -/
structure SymbolTable.Allots (t : SymbolTable) (bytes : Nat)
    (outcome : Except ScopingError (Address × SymbolTable)) : Prop where
  ok_iff : (∃ granted, outcome = .ok granted) ↔
    t.dataAddress.toNat + bytes ⌈/⌉ t.wordSize.toNat ≤ 2 ^ 32 - 1
  of_ok : ∀ address t', outcome = .ok (address, t') → address = t.dataAddress ∧
    t'.dataAddress.toNat = t.dataAddress.toNat + bytes ⌈/⌉ t.wordSize.toNat ∧
    t' = { t with dataAddress := t'.dataAddress }
  of_error : ∀ error, outcome = .error error →
    ∃ asked : UInt64, error = .addressOverflow asked ∧ asked.toNat = bytes

namespace SymbolTable

variable {t t' : SymbolTable}

theorem allots_allocate (t : SymbolTable) {bytes : UInt64}
    (hbytes : bytes.toNat ≤ 0xffffffff * 0xffffffff) : t.Allots bytes.toNat (t.allocate bytes) := by
  rw [t.allocate_eq hbytes]
  by_cases hroom : t.dataAddress.toNat + bytes.toNat ⌈/⌉ t.wordSize.toNat ≤ 0xffffffff
  · rw [if_pos hroom]
    refine ⟨iff_of_true ⟨_, rfl⟩ hroom, ?_, nofun⟩
    rintro address t' h
    cases h
    exact ⟨rfl, toNat_dataAddress_advance hroom, rfl⟩
  · rw [if_neg hroom]
    refine ⟨iff_of_false nofun hroom, nofun, ?_⟩
    rintro error h
    cases h
    exact ⟨bytes, rfl, rfl⟩

/-- What a declaration that succeeds is stored with, and how far it moves the counter. -/
theorem counter_of_declare {e stored : Entry} (h : t.declare e = .ok (stored, t')) :
    stored.address = e.bytes?.map (fun _ => t.dataAddress) ∧
      t'.dataAddress.toNat = t.dataAddress.toNat + e.bytes?.getD 0 ⌈/⌉ t.wordSize.toNat := by
  obtain ⟨scope, haccepts, rfl, rfl⟩ := declare_eq_ok_iff.mp h
  exact ⟨rfl, toNat_dataAddress_advance haccepts.room⟩

end SymbolTable

/-- **Nothing wraps around.**  Whatever the sizes, the lengths, the counter and the word size, every
product, rounded quotient and sum on the way to an address fits into 64 bits, for declarations and
for temporaries.  So space is taken exactly if the true sum of the counter and of the words for the
true number of bytes is an address, and a declaration that succeeds has been given all the words
that its bytes need. -/
theorem allocation_never_wraps (t : SymbolTable) (e : Entry) :
    Guarded.footprint? e = pure e.footprint? ∧
      Guarded.declare t e = pure (t.declare e) ∧
      (∀ size, Guarded.temporary t size = pure (t.temporary size)) ∧
      (∀ bytes, e.footprint? = some bytes →
        e.bytes? = some bytes.toNat ∧
          Guarded.wordsFor bytes t.wordSize = pure (wordsFor bytes t.wordSize) ∧
          (wordsFor bytes t.wordSize).toNat = bytes.toNat ⌈/⌉ t.wordSize.toNat ∧
          Guarded.allocate t bytes = pure (t.allocate bytes) ∧
          t.Allots bytes.toNat (t.allocate bytes)) ∧
      ∀ stored t', t.declare e = .ok (stored, t') →
        stored.address = e.bytes?.map (fun _ => t.dataAddress) ∧
          t'.dataAddress.toNat =
            t.dataAddress.toNat + e.bytes?.getD 0 ⌈/⌉ t.wordSize.toNat := by
  refine ⟨Guarded.footprint?_eq e, Guarded.declare_eq t e, Guarded.temporary_eq t,
    fun bytes hfootprint => ?_, fun stored t' => SymbolTable.counter_of_declare⟩
  have hbytes := Entry.bytes?_eq_of_footprint? hfootprint
  have hle := Entry.bytes?_le hbytes
  exact ⟨hbytes, Guarded.wordsFor_eq bytes t.wordSize, toNat_wordsFor t.wordSize_ne_zero bytes,
    Guarded.allocate_eq t hle, t.allots_allocate hle⟩

/-! ### The largest array

An array with the largest size and the largest length fits exactly into a data space that begins at
`0` and has the largest words.  Where words are single bytes and the counter stands at the last
address, the sum is as large as it can ever be, and the array is refused. -/

/-- The array with the most bytes. -/
def largestArray : Entry := .array "a" 0xffffffff 0xffffffff

/-- The table with the most room. -/
def roomiestTable : SymbolTable := .fresh ⟨0, 0, 0xffffffff⟩ (by decide)

/-- The table with the least room. -/
def fullestTable : SymbolTable := .fresh ⟨0xffffffff, 0, 1⟩ (by decide)

theorem allocation_never_wraps_largest :
    largestArray.footprint? = some 0xfffffffe00000001 ∧
      (∃ t', roomiestTable.allocate 0xfffffffe00000001 = .ok (0, t') ∧
        t'.dataAddress.toNat = 2 ^ 32 - 1) ∧
      fullestTable.allocate 0xfffffffe00000001 = .error (.addressOverflow 0xfffffffe00000001) := by
  have hfootprint : largestArray.footprint? = some 0xfffffffe00000001 := by decide
  obtain ⟨-, -, -, hroomiest, -⟩ := allocation_never_wraps roomiestTable largestArray
  obtain ⟨-, -, -, hfullest, -⟩ := allocation_never_wraps fullestTable largestArray
  obtain ⟨-, -, -, -, hgranted⟩ := hroomiest _ hfootprint
  obtain ⟨-, -, -, -, hrefused⟩ := hfullest _ hfootprint
  refine ⟨hfootprint, ?_, ?_⟩
  · obtain ⟨⟨address, t'⟩, hok⟩ := hgranted.ok_iff.mpr (by decide)
    obtain ⟨rfl, hcounter, -⟩ := hgranted.of_ok address t' hok
    exact ⟨t', hok, hcounter⟩
  · cases houtcome : fullestTable.allocate 0xfffffffe00000001 with
    | ok granted => exact absurd (hrefused.ok_iff.mp ⟨granted, houtcome⟩) (by decide)
    | error error =>
      obtain ⟨asked, rfl, hasked⟩ := hrefused.of_error error houtcome
      rw [UInt64.toNat_inj.mp hasked]

end Scoping
end CompilerTables
