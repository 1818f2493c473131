import Std.Data.ExtTreeMap

/-!
# Indices of a kind

Arrays that are built once and only ever appended to are referred to by position.  An
`Index kind` is such a position, kept below `2 ^ 32`; the kind is a label that keeps the positions
of different arrays apart, and it names the index in messages.

A number that is too large for an index is refused by `Index.ofNat`, and an index past the end of
an array by `Index.get` and `Index.set`.
-/

namespace CompilerTables

/-- A position below `2 ^ 32` in an array of the labelled kind. -/
structure Index (kind : String) where
  toNat : Nat
  toNat_lt : toNat < 0x100000000
  deriving DecidableEq

/-- A number was too large to be an index of the labelled kind. -/
structure OutOfRange where
  kind : String
  value : Nat
  deriving DecidableEq

/-- An index pointed past the end of an array. -/
structure OutOfBounds where
  size : Nat
  position : Nat
  deriving DecidableEq

/-- The words for a number that is no index. -/
def OutOfRange.message (e : OutOfRange) : String :=
  s!"{e.kind} {e.value} out of range"

/-- The words for an index past the end. -/
def OutOfBounds.message (e : OutOfBounds) : String :=
  s!"index out of bounds: the len is {e.size} but the index is {e.position}"

namespace Index

variable {kind : String} {α : Type}

@[ext] theorem ext {i j : Index kind} (h : i.toNat = j.toNat) : i = j := by
  cases i
  cases j
  cases h
  rfl

/-- The index with this number, if the number is small enough. -/
def ofNat? (n : Nat) : Option (Index kind) :=
  if h : n < 0x100000000 then some ⟨n, h⟩ else none

/-- The index with this number; a number that is too large is an error. -/
def ofNat (n : Nat) : Except OutOfRange (Index kind) :=
  match ofNat? n with
  | some i => .ok i
  | none => .error ⟨kind, n⟩

@[simp] theorem ofNat?_toNat (i : Index kind) : ofNat? i.toNat = some i :=
  dif_pos i.toNat_lt

theorem toNat_of_ofNat? {n : Nat} {i : Index kind} (h : ofNat? n = some i) : i.toNat = n := by
  unfold ofNat? at h
  split at h
  · cases h
    rfl
  · cases h

theorem ofNat_eq_ok_iff {n : Nat} {i : Index kind} : ofNat n = .ok i ↔ i.toNat = n := by
  unfold ofNat
  constructor
  · intro h
    split at h
    · next hfound =>
      cases h
      exact toNat_of_ofNat? hfound
    · cases h
  · rintro rfl
    rw [ofNat?_toNat]

/-- An index has every number that is small enough. -/
theorem exists_ofNat_iff {n : Nat} :
    (∃ i : Index kind, ofNat n = .ok i) ↔ n < 0x100000000 := by
  simp only [ofNat_eq_ok_iff]
  constructor
  · rintro ⟨i, rfl⟩
    exact i.toNat_lt
  · exact fun h => ⟨⟨n, h⟩, rfl⟩

/-- Indices are ordered by their numbers. -/
instance : Ord (Index kind) :=
  ⟨compareOn toNat⟩

instance : Std.TransOrd (Index kind) :=
  inferInstanceAs (Std.TransCmp (compareOn toNat))

instance : Std.LawfulEqOrd (Index kind) where
  eq_of_compare {i j} h := by
    have hnumber : compare i.toNat j.toNat = .eq := h
    exact ext (Std.LawfulEqCmp.eq_of_compare hnumber)

/-- The index with its kind around it. -/
def debugText (i : Index kind) : String :=
  s!"{kind}({i.toNat})"

/-- Appends an element and gives its index. -/
def push (xs : Array α) (x : α) : Except OutOfRange (Index kind × Array α) := do
  let i ← ofNat xs.size
  return (i, xs.push x)

/-- The element at an index. -/
def get (xs : Array α) (i : Index kind) : Except OutOfBounds α :=
  match xs[i.toNat]? with
  | some x => .ok x
  | none => .error ⟨xs.size, i.toNat⟩

/-- Replaces the element at an index. -/
def set (xs : Array α) (i : Index kind) (x : α) : Except OutOfBounds (Array α) :=
  if h : i.toNat < xs.size then .ok (xs.set i.toNat x) else .error ⟨xs.size, i.toNat⟩

end Index
end CompilerTables
