import Mathlib.Algebra.Order.Floor.Div
import Mathlib.Order.Bounds.Basic
import CompilerTables.Scoping.SymbolTable

/-!
# Data space in whole numbers

All arithmetic of the symbol table is machine arithmetic.  This file says what it computes in terms
of natural numbers, so that nothing later has to mention a machine word.

* `toNat_wordsFor`: the words for so many bytes are the rounded quotient, and `isLeast_ceilDiv` says
  that this is the least number of words with room for them.
* `Entry.bytes?` is the number of bytes that an entry takes up, and `map_toNat_footprint?` that the
  machine product computes it.
* `SymbolTable.allocate_eq`: a request that is no larger than the largest array succeeds exactly if
  the counter stays below `2 ^ 32`, and then the counter advances by the words of the request.

None of the intermediate results leaves 64 bits: the largest array has `(2 ^ 32 - 1) ^ 2` bytes,
which leaves room for one more counter.
-/

namespace CompilerTables
namespace Scoping

/-! ## Words -/

/-- The rounded quotient is the least number of words with room for so many bytes. -/
theorem isLeast_ceilDiv {wordSize : Nat} (h : 0 < wordSize) (bytes : Nat) :
    IsLeast {words | bytes ≤ words * wordSize} (bytes ⌈/⌉ wordSize) := by
  constructor
  · show bytes ≤ bytes ⌈/⌉ wordSize * wordSize
    rw [Nat.mul_comm]
    exact le_smul_ceilDiv h
  · intro words hwords
    rw [ceilDiv_le_iff_le_mul h, Nat.mul_comm]
    exact hwords

theorem ceilDiv_pos {bytes wordSize : Nat} (hbytes : 0 < bytes) (h : 0 < wordSize) :
    0 < bytes ⌈/⌉ wordSize := by
  refine Nat.pos_of_ne_zero fun hzero => ?_
  have hroom : bytes ≤ bytes ⌈/⌉ wordSize * wordSize := (isLeast_ceilDiv h bytes).1
  rw [hzero, Nat.zero_mul] at hroom
  omega

theorem ceilDiv_le_self {wordSize : Nat} (h : 0 < wordSize) (bytes : Nat) :
    bytes ⌈/⌉ wordSize ≤ bytes :=
  (isLeast_ceilDiv h bytes).2 (Nat.le_mul_of_pos_right bytes h)

theorem toNat_pos_of_ne_zero {wordSize : UInt32} (h : wordSize ≠ 0) : 0 < wordSize.toNat :=
  Nat.pos_of_ne_zero fun hzero => h (UInt32.toNat_inj.mp hzero)

/-- Rounding up in machine words is rounding up. -/
theorem toNat_wordsFor {wordSize : UInt32} (h : wordSize ≠ 0) (bytes : UInt64) :
    (wordsFor bytes wordSize).toNat = bytes.toNat ⌈/⌉ wordSize.toNat := by
  have hpos := toNat_pos_of_ne_zero h
  have hdiv := Nat.div_add_mod bytes.toNat wordSize.toNat
  have hmod := Nat.mod_lt bytes.toNat hpos
  have hbytes := bytes.toNat_lt
  have hzero : bytes % wordSize.toUInt64 = 0 ↔ bytes.toNat % wordSize.toNat = 0 := by
    rw [← UInt64.toNat_inj, UInt64.toNat_mod, UInt32.toNat_toUInt64, UInt64.toNat_zero]
  have hwhole : (bytes / wordSize.toUInt64).toNat = bytes.toNat / wordSize.toNat := by
    rw [UInt64.toNat_div, UInt32.toNat_toUInt64]
  rw [Nat.ceilDiv_eq_add_pred_div]
  generalize bytes.toNat / wordSize.toNat = whole at hdiv hwhole
  unfold wordsFor
  dsimp only
  split
  · next hexact =>
    rw [hzero] at hexact
    rw [hwhole]
    refine (Nat.div_eq_of_lt_le ?_ ?_).symm
    · rw [Nat.mul_comm]
      omega
    · rw [Nat.add_mul, Nat.mul_comm]
      omega
  · next hrest =>
    rw [hzero] at hrest
    -- a remainder needs words of two bytes or more, so the quotient is far from the limit
    have hlarge : 2 * whole ≤ wordSize.toNat * whole := by
      refine Nat.mul_le_mul_right whole ?_
      omega
    have hroom : whole + 1 < 2 ^ 64 := by omega
    rw [UInt64.toNat_add, hwhole, UInt64.toNat_one, Nat.mod_eq_of_lt hroom]
    refine (Nat.div_eq_of_lt_le ?_ ?_).symm
    · rw [Nat.add_mul, Nat.mul_comm]
      omega
    · rw [Nat.add_mul, Nat.add_mul, Nat.mul_comm whole]
      omega

/-! ## Bytes -/

namespace Entry

/-- The number of bytes an entry takes up in data space: those of a scalar, whatever its length, and
those of all elements of an array; none for the other kinds. -/
def bytes? (e : Entry) : Option Nat :=
  match e.kind with
  | .scalar => some e.size.toNat
  | .array => some (e.size.toNat * e.length.toNat)
  | .constant => none
  | .unknown => none

theorem mul_lt_of_words (size length : UInt32) :
    size.toNat * length.toNat ≤ 0xffffffff * 0xffffffff := by
  have hsize := size.toNat_lt
  have hlength := length.toNat_lt
  exact Nat.mul_le_mul (by omega) (by omega)

theorem bytes?_le {e : Entry} {bytes : Nat} (h : e.bytes? = some bytes) :
    bytes ≤ 0xffffffff * 0xffffffff := by
  have hsize := e.size.toNat_lt
  unfold bytes? at h
  split at h
  · cases h
    omega
  · cases h
    exact mul_lt_of_words e.size e.length
  · cases h
  · cases h

theorem bytes?_pos {e : Entry} {bytes : Nat} (hvalid : e.HasValidSize) (h : e.bytes? = some bytes) :
    0 < bytes := by
  have hsize := toNat_pos_of_ne_zero hvalid.1
  unfold bytes? at h
  split at h
  · cases h
    exact hsize
  · next hkind =>
    cases h
    exact Nat.mul_pos hsize (toNat_pos_of_ne_zero (hvalid.2 hkind))
  · cases h
  · cases h

/-- The machine product of size and length is the true one. -/
theorem map_toNat_footprint? (e : Entry) : e.footprint?.map UInt64.toNat = e.bytes? := by
  have hproduct := mul_lt_of_words e.size e.length
  have hroom : e.size.toNat * e.length.toNat < 2 ^ 64 := by omega
  unfold footprint? bytes?
  cases e.kind with
  | scalar => rfl
  | array =>
    simp only [Option.map_some, UInt64.toNat_mul, UInt32.toNat_toUInt64, Nat.mod_eq_of_lt hroom]
  | constant => rfl
  | unknown => rfl

end Entry

/-! ## The counter -/

namespace SymbolTable

/-- The table after so many words of data space have been handed out. -/
def advance (t : SymbolTable) (words : Nat) : SymbolTable :=
  { t with dataAddress := UInt32.ofNat (t.dataAddress.toNat + words) }

theorem toNat_dataAddress_advance {t : SymbolTable} {words : Nat}
    (h : t.dataAddress.toNat + words ≤ 0xffffffff) :
    (t.advance words).dataAddress.toNat = t.dataAddress.toNat + words := by
  rw [advance, UInt32.toNat_ofNat']
  exact Nat.mod_eq_of_lt (by omega)

theorem wordSize_pos (t : SymbolTable) : 0 < t.wordSize.toNat :=
  toNat_pos_of_ne_zero t.wordSize_ne_zero

/-- A request for data space succeeds exactly if the counter has room for it. -/
theorem allocate_eq (t : SymbolTable) {bytes : UInt64}
    (hbytes : bytes.toNat ≤ 0xffffffff * 0xffffffff) :
    t.allocate bytes =
      if t.dataAddress.toNat + bytes.toNat ⌈/⌉ t.wordSize.toNat ≤ 0xffffffff then
        .ok (t.dataAddress, t.advance (bytes.toNat ⌈/⌉ t.wordSize.toNat))
      else .error (.addressOverflow bytes) := by
  have hwords := ceilDiv_le_self t.wordSize_pos bytes.toNat
  have haddress := t.dataAddress.toNat_lt
  have hnext : (t.dataAddress.toUInt64 + wordsFor bytes t.wordSize).toNat =
      t.dataAddress.toNat + bytes.toNat ⌈/⌉ t.wordSize.toNat := by
    rw [UInt64.toNat_add, UInt32.toNat_toUInt64, toNat_wordsFor t.wordSize_ne_zero]
    exact Nat.mod_eq_of_lt (by omega)
  have hle : t.dataAddress.toUInt64 + wordsFor bytes t.wordSize ≤ 0xffffffff ↔
      t.dataAddress.toNat + bytes.toNat ⌈/⌉ t.wordSize.toNat ≤ 0xffffffff := by
    rw [UInt64.le_iff_toNat_le, hnext]
    rfl
  have hnarrow : (t.dataAddress.toUInt64 + wordsFor bytes t.wordSize).toUInt32 =
      UInt32.ofNat (t.dataAddress.toNat + bytes.toNat ⌈/⌉ t.wordSize.toNat) := by
    rw [← hnext, ← UInt32.toNat_inj, UInt64.toNat_toUInt32, UInt32.toNat_ofNat']
  unfold allocate advance
  simp only [hle, hnarrow]

end SymbolTable
end Scoping
end CompilerTables
