import Std.Data.String.ToNat
import CompilerTables.Proofs.Description.Resolution

/-!
# When two names stand for one symbol

Terminals are numbered in the order in which they are named, and the largest number is that of the
end of the input.  The numbers run out only after the largest one has been given away
(`Names.length_le_of_ofLists`).  So a list of `2 ^ 32` names of terminals is taken, and its last
name stands for the end of the input.

This is the only way in which two names can come to stand for one symbol (`Resolves.confusion`):
different symbols are told apart by their sort and their number, and only the end of the input has a
name besides the one at its number.  With one terminal less, all names resolve to different symbols
(`resolution_injective_iff`).
-/

namespace CompilerTables
namespace Description

open Parsing (Symbol Terminal)

variable {nonterminals terminals : List String} {names names' : Names} {name name' : String}
  {symbol : Symbol}

/-- Names that resolve to one symbol are one name. -/
def Names.IsInjective (names : Names) : Prop :=
  ∀ name name' symbol, names.symbol name = .ok symbol → names.symbol name' = .ok symbol →
    name = name'

/-! ## The number of terminals -/

/-- Every terminal that is added has a number. -/
theorem Names.length_le_of_addTerminals {first : Nat} {rest : List String}
    (h : names.addTerminals first rest = .ok names') (hfirst : first ≤ 2 ^ 32) :
    first + rest.length ≤ 2 ^ 32 := by
  induction rest generalizing names first with
  | nil => exact hfirst
  | cons new rest ih =>
    unfold addTerminals at h
    split at h
    · cases h
    · next t ht =>
      have hlt : first < 2 ^ 32 := by
        rw [← Index.toNat_of_ofNat? ht]
        exact t.toNat_lt
      obtain ⟨extended, -, hrest⟩ := bind_eq_ok_iff.mp h
      have hle := ih hrest hlt
      rw [List.length_cons]
      omega

/-- There are at most as many terminals as numbers, the one of the end of the input included. -/
theorem Names.length_le_of_ofLists (h : Names.ofLists nonterminals terminals = .ok names) :
    terminals.length ≤ 2 ^ 32 := by
  obtain ⟨withNonterminals, -, hterminals⟩ := bind_eq_ok_iff.mp h
  have hle := length_le_of_addTerminals hterminals (Nat.zero_le _)
  rwa [Nat.zero_add] at hle

/-! ## Confusion -/

/-- Where two names stand for one symbol, one of them is that of the end of the input, and the other
is the name of the terminal that has its number. -/
theorem Resolves.confusion (h : Resolves nonterminals terminals name symbol)
    (h' : Resolves nonterminals terminals name' symbol) (hne : name ≠ name') :
    symbol = .terminal Terminal.endMarker ∧
      (name = endMarkerName ∧ terminals[Terminal.endMarker.toNat]? = some name' ∨
        name' = endMarkerName ∧ terminals[Terminal.endMarker.toNat]? = some name) := by
  cases h with
  | endMarker =>
    cases h' with
    | endMarker => exact absurd rfl hne
    | terminal h' => exact ⟨rfl, .inl ⟨rfl, h'⟩⟩
  | nonterminal h =>
    cases h' with
    | nonterminal h' => exact absurd (Option.some_inj.mp (h.symm.trans h')) hne
  | terminal h =>
    cases h' with
    | endMarker => exact ⟨rfl, .inr ⟨rfl, h⟩⟩
    | terminal h' => exact absurd (Option.some_inj.mp (h.symm.trans h')) hne

namespace Names

variable (h : ofLists nonterminals terminals = .ok names)
include h

/-- The name of the end of the input is declared by no list. -/
theorem endMarkerName_notMem_terminals : endMarkerName ∉ terminals := by
  have hnodup := (exists_ofLists_iff (length_le_of_ofLists h)).mp ⟨names, h⟩
  exact fun hmem => (List.nodup_cons.mp hnodup).1 (List.mem_append_right _ hmem)

/-- If there is a terminal for every number, the last one stands for the end of the input. -/
theorem confusion_of_full (hfull : terminals.length = 2 ^ 32) :
    ∃ last, terminals[2 ^ 32 - 1]? = some last ∧ last ≠ endMarkerName ∧
      names.symbol last = .ok (.terminal Terminal.endMarker) ∧
      names.symbol endMarkerName = .ok (.terminal Terminal.endMarker) := by
  have hlt : 2 ^ 32 - 1 < terminals.length := by omega
  have hlast : terminals[2 ^ 32 - 1]? = some terminals[2 ^ 32 - 1] := List.getElem?_eq_getElem hlt
  refine ⟨terminals[2 ^ 32 - 1], hlast, ?_, (symbol_ofLists_eq_ok_iff h).mpr (.terminal hlast),
    (symbol_ofLists_eq_ok_iff h).mpr .endMarker⟩
  intro heq
  exact endMarkerName_notMem_terminals h (heq ▸ List.getElem_mem hlt)

/-- If some number is left, no two names stand for one symbol. -/
theorem isInjective_of_lt (hlt : terminals.length < 2 ^ 32) : names.IsInjective := by
  intro name name' symbol hname hname'
  rw [symbol_ofLists_eq_ok_iff h] at hname hname'
  exact hname.name_eq hlt hname'

theorem not_isInjective_of_full (hfull : terminals.length = 2 ^ 32) : ¬ names.IsInjective := by
  obtain ⟨last, -, hne, hlast, hend⟩ := confusion_of_full h hfull
  exact fun hinjective => hne (hinjective _ _ _ hlast hend)

end Names

/-- **Two names stand for one symbol only if there is a terminal for every number.**  Accepted lists
name at most `2 ^ 32` terminals.  If they name fewer, resolution is injective.  If they name as
many, the last terminal stands for the end of the input, and these two names are the only ones that
are confused. -/
theorem resolution_injective_iff (h : Names.ofLists nonterminals terminals = .ok names) :
    terminals.length ≤ 2 ^ 32 ∧
      (names.IsInjective ↔ terminals.length ≠ 2 ^ 32) ∧
      ∀ name name' symbol, names.symbol name = .ok symbol → names.symbol name' = .ok symbol →
        name ≠ name' →
        symbol = .terminal Terminal.endMarker ∧
          (name = endMarkerName ∧ terminals[2 ^ 32 - 1]? = some name' ∨
            name' = endMarkerName ∧ terminals[2 ^ 32 - 1]? = some name) := by
  have hle := Names.length_le_of_ofLists h
  refine ⟨hle, ⟨fun hinjective hfull => ?_, fun hne => ?_⟩,
    fun name name' symbol hname hname' => ?_⟩
  · exact Names.not_isInjective_of_full h hfull hinjective
  · exact Names.isInjective_of_lt h (Nat.lt_of_le_of_ne hle hne)
  · rw [Names.symbol_ofLists_eq_ok_iff h] at hname hname'
    exact hname.confusion hname'

/-- One nonterminal and two terminals are told apart from each other and from the end of the
input. -/
theorem resolution_injective_iff_twoLetters :
    ∃ names, Names.ofLists ["S"] ["a", "b"] = .ok names ∧ names.IsInjective := by
  have hshort : ["a", "b"].length ≤ 2 ^ 32 := by decide
  obtain ⟨names, hnames⟩ : ∃ names, Names.ofLists ["S"] ["a", "b"] = .ok names :=
    (Names.exists_ofLists_iff hshort).mpr (by decide)
  exact ⟨names, hnames, (resolution_injective_iff hnames).2.1.mpr (by decide)⟩

/-! ## A terminal for every number -/

/-- So many names, the numbers from `0` on in decimal digits. -/
def numerals (count : Nat) : List String :=
  (List.range count).map Nat.repr

theorem length_numerals (count : Nat) : (numerals count).length = count := by
  rw [numerals, List.length_map, List.length_range]

theorem nodup_numerals (count : Nat) : (numerals count).Nodup :=
  List.nodup_range.map fun _ _ heq => Nat.repr_inj.mp heq

theorem endMarkerName_notMem_numerals (count : Nat) : endMarkerName ∉ numerals count := by
  intro hmem
  obtain ⟨n, -, hn⟩ := List.mem_map.mp hmem
  have hdigit : '$' ∈ Nat.toDigits 10 n := by
    rw [← Nat.toList_repr, hn]
    decide
  exact absurd (Nat.isDigit_of_mem_toDigits (by decide) (by decide) hdigit) (by decide)

/-- As many names as there are numbers of terminals can be declared. -/
theorem exists_names_numerals : ∃ names, Names.ofLists [] (numerals (2 ^ 32)) = .ok names := by
  rw [Names.exists_ofLists_iff (length_numerals _).le, declaredNames, List.nil_append]
  exact List.nodup_cons.mpr ⟨endMarkerName_notMem_numerals _, nodup_numerals _⟩

/-- The last of them stands for the end of the input. -/
theorem last_numeral_confused :
    ∃ names, Names.ofLists [] (numerals (2 ^ 32)) = .ok names ∧
      names.symbol "4294967295" = .ok (.terminal Terminal.endMarker) ∧
      names.symbol "$" = .ok (.terminal Terminal.endMarker) ∧ ¬ names.IsInjective := by
  obtain ⟨names, hnames⟩ := exists_names_numerals
  obtain ⟨last, hlast, -, hsymbol, hend⟩ := Names.confusion_of_full hnames (length_numerals _)
  have hnumeral : (numerals (2 ^ 32))[2 ^ 32 - 1]? = some "4294967295" := by
    rw [numerals, List.getElem?_map, List.getElem?_range (by decide), Option.map_some]
    decide
  rw [hnumeral] at hlast
  cases hlast
  exact ⟨names, hnames, hsymbol, hend, Names.not_isInjective_of_full hnames (length_numerals _)⟩

end Description
end CompilerTables
