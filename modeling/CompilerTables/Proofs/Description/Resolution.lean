import Mathlib.Algebra.Group.Nat.Defs
import Mathlib.Data.List.Nodup
import CompilerTables.Description.Names
import CompilerTables.Proofs.Outcome

/-!
# What the names of a description stand for

A table of names is built by adding one name after the other, and adding refuses a name that is
there already.  So no entry is ever replaced, and the finished table holds what was put in: the end
of the input, each nonterminal under its name, and each terminal under its name.  `Resolves` says
this of the two lists of names alone, without the table.

A table can be built whenever no name is declared twice (`Names.exists_ofLists_iff`).  It then knows
the declared names and no others, and whether one is that of a nonterminal or of a terminal can be
seen from the list that it stands in.

A grammar that was given the same lists spells each symbol by the name that stands for it.  For this
the names of terminals have to be fewer than the numbers of terminals.  If they were as many, the
last of them would have the number of the end of the input.
-/

namespace CompilerTables
namespace Description

open Parsing (Symbol Terminal Grammar)

variable {nonterminals terminals : List String} {names names' : Names} {name : String}
  {symbol : Symbol}

/-- The symbols that names stand for: nonterminals and terminals stand at their numbers in the two
lists. -/
inductive Resolves (nonterminals terminals : List String) : String → Symbol → Prop
  | endMarker : Resolves nonterminals terminals endMarkerName (.terminal Terminal.endMarker)
  | nonterminal {name : String} {n : Nat} (h : nonterminals[n]? = some name) :
      Resolves nonterminals terminals name (.nonterminal n)
  | terminal {name : String} {t : Terminal} (h : terminals[t.toNat]? = some name) :
      Resolves nonterminals terminals name (.terminal t)

/-- An element of a list is the first one, at `0`, or one of the rest, a place further on. -/
theorem exists_getElem?_cons_iff {α : Type} {x y : α} {xs : List α} {P : Nat → Prop} :
    (∃ k, (x :: xs)[k]? = some y ∧ P k) ↔ (y = x ∧ P 0) ∨ ∃ k, xs[k]? = some y ∧ P (k + 1) := by
  constructor
  · rintro ⟨k, hk, hP⟩
    cases k with
    | zero => exact .inl ⟨(Option.some.inj hk).symm, hP⟩
    | succ k => exact .inr ⟨k, hk, hP⟩
  · rintro (⟨rfl, hP⟩ | ⟨k, hk, hP⟩)
    · exact ⟨0, rfl, hP⟩
    · exact ⟨k + 1, hk, hP⟩

namespace Names

/-! ## Asking for a symbol -/

theorem symbol_eq_ok_iff :
    names.symbol name = .ok symbol ↔
      (names : Std.ExtTreeMap String Symbol)[name]? = some symbol := by
  unfold Names.symbol
  cases (names : Std.ExtTreeMap String Symbol)[name]? with
  | none => exact iff_of_false (fun h => by cases h) fun h => by cases h
  | some found => rw [Except.ok.injEq, Option.some.injEq]

/-- A name is that of a nonterminal when it stands for one. -/
theorem nonterminal_eq_ok_iff {n : Nat} :
    names.nonterminal name = .ok n ↔ names.symbol name = .ok (.nonterminal n) := by
  unfold Names.nonterminal
  rw [bind_eq_ok_iff]
  constructor
  · rintro ⟨symbol, hsymbol, hn⟩
    cases symbol with
    | nonterminal n' =>
      cases hn
      exact hsymbol
    | terminal t => cases hn
    | epsilon => cases hn
  · intro h
    exact ⟨_, h, rfl⟩

/-- A name is that of a terminal when it stands for one. -/
theorem terminal_eq_ok_iff {t : Terminal} :
    names.terminal name = .ok t ↔ names.symbol name = .ok (.terminal t) := by
  unfold Names.terminal
  rw [bind_eq_ok_iff]
  constructor
  · rintro ⟨symbol, hsymbol, ht⟩
    cases symbol with
    | terminal t' =>
      cases ht
      exact hsymbol
    | nonterminal n => cases ht
    | epsilon => cases ht
  · intro h
    exact ⟨_, h, rfl⟩

/-! ## Adding names -/

theorem symbol_start_eq_ok_iff :
    start.symbol name = .ok symbol ↔
      name = endMarkerName ∧ symbol = .terminal Terminal.endMarker := by
  rw [symbol_eq_ok_iff, start, Std.ExtTreeMap.getElem?_insert]
  by_cases hname : endMarkerName = name
  · subst hname
    simp [eq_comm]
  · simp [hname, Ne.symm hname]

/-- One more name resolves, and those that did resolve as before. -/
theorem symbol_add_eq_ok_iff {new : String} {newSymbol : Symbol}
    (h : names.add new newSymbol = .ok names') :
    names'.symbol name = .ok symbol ↔
      names.symbol name = .ok symbol ∨ name = new ∧ symbol = newSymbol := by
  unfold add at h
  split at h
  · cases h
  · next hnew =>
    cases h
    have hfresh : (names : Std.ExtTreeMap String Symbol)[new]? = none :=
      Std.ExtTreeMap.getElem?_eq_none hnew
    rw [symbol_eq_ok_iff, symbol_eq_ok_iff, Std.ExtTreeMap.getElem?_insert]
    by_cases hname : new = name
    · subst hname
      simp [hfresh, eq_comm]
    · simp [hname, Ne.symm hname]

theorem symbol_addNonterminals_eq_ok_iff {first : Nat} {rest : List String}
    (h : names.addNonterminals first rest = .ok names') :
    names'.symbol name = .ok symbol ↔
      names.symbol name = .ok symbol ∨
        ∃ k, rest[k]? = some name ∧ symbol = .nonterminal (first + k) := by
  induction rest generalizing names first with
  | nil =>
    cases h
    simp
  | cons new rest ih =>
    obtain ⟨extended, hadd, hrest⟩ := bind_eq_ok_iff.mp h
    rw [ih hrest, symbol_add_eq_ok_iff hadd, or_assoc, exists_getElem?_cons_iff]
    simp only [Nat.add_zero, Nat.add_assoc, Nat.add_comm 1]

theorem symbol_addTerminals_eq_ok_iff {first : Nat} {rest : List String}
    (h : names.addTerminals first rest = .ok names') :
    names'.symbol name = .ok symbol ↔
      names.symbol name = .ok symbol ∨
        ∃ k, rest[k]? = some name ∧ ∃ t : Terminal, t.toNat = first + k ∧ symbol = .terminal t := by
  induction rest generalizing names first with
  | nil =>
    cases h
    simp
  | cons new rest ih =>
    unfold addTerminals at h
    split at h
    · cases h
    · next t ht =>
      have hfirst : t.toNat = first := Index.toNat_of_ofNat? ht
      obtain ⟨extended, hadd, hrest⟩ := bind_eq_ok_iff.mp h
      -- `t` is the only terminal with the number `first`
      have hnumber : ∀ t' : Terminal, t'.toNat = first ↔ t' = t := by
        intro t'
        rw [Index.ext_iff, hfirst]
      rw [ih hrest, symbol_add_eq_ok_iff hadd, or_assoc, exists_getElem?_cons_iff]
      simp only [Nat.add_zero, Nat.add_assoc, Nat.add_comm 1, hnumber, exists_eq_left]

/-- A finished table resolves the names of its two lists and that of the end of the input, and no
others. -/
theorem symbol_ofLists_eq_ok_iff (h : ofLists nonterminals terminals = .ok names) :
    names.symbol name = .ok symbol ↔ Resolves nonterminals terminals name symbol := by
  obtain ⟨withNonterminals, hnonterminals, hterminals⟩ := bind_eq_ok_iff.mp h
  rw [symbol_addTerminals_eq_ok_iff hterminals, symbol_addNonterminals_eq_ok_iff hnonterminals,
    symbol_start_eq_ok_iff]
  constructor
  · rintro ((⟨rfl, rfl⟩ | ⟨k, hk, rfl⟩) | ⟨k, hk, t, ht, rfl⟩)
    · exact .endMarker
    · exact .nonterminal (by rw [Nat.zero_add]; exact hk)
    · exact .terminal (by rw [ht, Nat.zero_add]; exact hk)
  · intro hresolves
    cases hresolves with
    | endMarker => exact .inl (.inl ⟨rfl, rfl⟩)
    | @nonterminal _ n hname => exact .inl (.inr ⟨n, hname, by rw [Nat.zero_add]⟩)
    | @terminal _ t hname => exact .inr ⟨t.toNat, hname, t, by rw [Nat.zero_add], rfl⟩

end Names

/-! ## Every declared name stands for a symbol -/

/-- The names that a description with these lists may use. -/
def declaredNames (nonterminals terminals : List String) : List String :=
  endMarkerName :: (nonterminals ++ terminals)

/-- Every declared name resolves as long as the numbers of terminals do not run out. -/
theorem exists_resolves_of_mem (hterminals : terminals.length < 2 ^ 32)
    (hname : name ∈ declaredNames nonterminals terminals) :
    ∃ symbol, Resolves nonterminals terminals name symbol := by
  simp only [declaredNames, List.mem_cons, List.mem_append] at hname
  rcases hname with rfl | hname | hname
  · exact ⟨_, .endMarker⟩
  · obtain ⟨n, hn⟩ := List.mem_iff_getElem?.mp hname
    exact ⟨_, .nonterminal hn⟩
  · obtain ⟨k, hk⟩ := List.mem_iff_getElem?.mp hname
    have hlt : k < terminals.length := (List.getElem?_eq_some_iff.mp hk).1
    exact ⟨_, .terminal (t := ⟨k, by omega⟩) hk⟩

theorem mem_declaredNames_of_resolves (h : Resolves nonterminals terminals name symbol) :
    name ∈ declaredNames nonterminals terminals := by
  cases h with
  | endMarker => exact List.mem_cons_self
  | nonterminal h =>
    exact List.mem_cons_of_mem _ (List.mem_append_left _ (List.mem_of_getElem? h))
  | terminal h =>
    exact List.mem_cons_of_mem _ (List.mem_append_right _ (List.mem_of_getElem? h))

/-- The symbol of a name is numbered below the names of its sort. -/
theorem Resolves.declared (h : Resolves nonterminals terminals name symbol) :
    symbol.Declared nonterminals.length terminals.length := by
  cases h with
  | endMarker => exact .inl rfl
  | nonterminal h => exact (List.getElem?_eq_some_iff.mp h).1
  | terminal h => exact .inr (List.getElem?_eq_some_iff.mp h).1

/-- With fewer terminals than numbers for them, no two names stand for one symbol. -/
theorem Resolves.name_eq (hterminals : terminals.length < 2 ^ 32) {name' : String}
    (h : Resolves nonterminals terminals name symbol)
    (h' : Resolves nonterminals terminals name' symbol) : name = name' := by
  -- a terminal of the list is not the end of the input, whose number is the largest
  have hne : ∀ {name : String}, terminals[Terminal.endMarker.toNat]? ≠ some name := by
    intro name heq
    have hlt : Terminal.endMarker.toNat < terminals.length := (List.getElem?_eq_some_iff.mp heq).1
    have hnumber : Terminal.endMarker.toNat = 2 ^ 32 - 1 := rfl
    omega
  cases h with
  | endMarker =>
    cases h' with
    | endMarker => rfl
    | terminal h' => exact absurd h' hne
  | nonterminal h =>
    cases h' with
    | nonterminal h' => exact Option.some_inj.mp (h.symm.trans h')
  | terminal h =>
    cases h' with
    | endMarker => exact absurd h hne
    | terminal h' => exact Option.some_inj.mp (h.symm.trans h')

/-! ## Whether the names can be declared

A table of names takes a further name when it is not there yet.  So a table can be built from two
lists of names exactly when no name is declared twice, the name of the end of the input included. -/

namespace Names

/-- The names in a table are those of a list. -/
def Lists (names : Names) (known : List String) : Prop :=
  ∀ name, (∃ symbol, names.symbol name = .ok symbol) ↔ name ∈ known

variable {known : List String}

theorem lists_start : start.Lists [endMarkerName] := by
  intro name
  simp only [symbol_start_eq_ok_iff, exists_and_left, exists_eq, and_true, List.mem_singleton]

theorem Lists.add (hlists : names.Lists known) {new : String} {newSymbol : Symbol}
    (h : names.add new newSymbol = .ok names') : names'.Lists (known ++ [new]) := by
  intro name
  simp only [symbol_add_eq_ok_iff h, exists_or, exists_and_left, exists_eq, and_true, hlists name,
    List.mem_append, List.mem_singleton]

theorem Lists.exists_add_iff (hlists : names.Lists known) {new : String} {newSymbol : Symbol} :
    (∃ names', names.add new newSymbol = .ok names') ↔ new ∉ known := by
  have hmem : new ∈ names ↔ new ∈ known := by
    rw [← hlists new]
    simp only [symbol_eq_ok_iff]
    exact Std.ExtTreeMap.mem_iff_isSome_getElem?.trans Option.isSome_iff_exists
  unfold Names.add
  split
  · next hnew => exact iff_of_false not_exists_error_eq_ok fun h => h (hmem.mp hnew)
  · next hnew => exact iff_of_true ⟨_, rfl⟩ (mt hmem.mpr hnew)

/-- The first of the names to come is declared, and then the others. -/
theorem Lists.exists_add_bind_iff (hlists : names.Lists known) (hnodup : known.Nodup)
    {new : String} {rest : List String} {newSymbol : Symbol}
    {next : Names → Except PartsError Names}
    (ih : ∀ extended, extended.Lists (known ++ [new]) → (known ++ [new]).Nodup →
      ((∃ names', next extended = .ok names') ↔ (known ++ [new] ++ rest).Nodup)) :
    (∃ names', names.add new newSymbol >>= next = .ok names') ↔ (known ++ new :: rest).Nodup := by
  have hsnoc : new ∉ known ↔ (known ++ [new]).Nodup := by
    rw [List.nodup_append_comm, List.singleton_append, List.nodup_cons]
    exact ⟨fun hnew => ⟨hnew, hnodup⟩, And.left⟩
  rw [List.append_cons, exists_bind_eq_ok_iff fun extended hadd =>
    ih extended (hlists.add hadd) (hsnoc.mp (hlists.exists_add_iff.mp ⟨extended, hadd⟩)),
    hlists.exists_add_iff, hsnoc]
  exact and_iff_right_of_imp List.Nodup.of_append_left

theorem Lists.exists_addNonterminals_iff {first : Nat} {rest : List String}
    (hlists : names.Lists known) (hnodup : known.Nodup) :
    (∃ names', names.addNonterminals first rest = .ok names') ↔ (known ++ rest).Nodup := by
  induction rest generalizing names known first with
  | nil =>
    rw [List.append_nil]
    exact iff_of_true ⟨names, rfl⟩ hnodup
  | cons new rest ih =>
    exact hlists.exists_add_bind_iff hnodup fun _ => ih

/-- As long as their numbers do not run out, terminals are declared like nonterminals. -/
theorem Lists.exists_addTerminals_iff {first : Nat} {rest : List String}
    (hlists : names.Lists known) (hnodup : known.Nodup) (hnumbers : first + rest.length ≤ 2 ^ 32) :
    (∃ names', names.addTerminals first rest = .ok names') ↔ (known ++ rest).Nodup := by
  induction rest generalizing names known first with
  | nil =>
    rw [List.append_nil]
    exact iff_of_true ⟨names, rfl⟩ hnodup
  | cons new rest ih =>
    rw [List.length_cons] at hnumbers
    have hfirst : first < 0x100000000 := by omega
    rw [addTerminals, Index.ofNat?, dif_pos hfirst]
    exact hlists.exists_add_bind_iff hnodup fun _ hextended hnew => ih hextended hnew (by omega)

theorem Lists.addNonterminals (hlists : names.Lists known) {first : Nat} {rest : List String}
    (h : names.addNonterminals first rest = .ok names') : names'.Lists (known ++ rest) := by
  intro name
  simp only [symbol_addNonterminals_eq_ok_iff h, exists_or, hlists name, List.mem_append]
  rw [List.mem_iff_getElem? (l := rest)]
  refine or_congr_right ⟨?_, ?_⟩
  · rintro ⟨_, k, hk, -⟩
    exact ⟨k, hk⟩
  · rintro ⟨k, hk⟩
    exact ⟨_, k, hk, rfl⟩

/-- A table can be built from two lists of names exactly when no name is declared twice. -/
theorem exists_ofLists_iff (hterminals : terminals.length ≤ 2 ^ 32) :
    (∃ names, ofLists nonterminals terminals = .ok names) ↔
      (declaredNames nonterminals terminals).Nodup := by
  have hstart : [endMarkerName].Nodup := List.nodup_singleton endMarkerName
  have hnonterminals : (∃ names, start.addNonterminals 0 nonterminals = .ok names) ↔
      ([endMarkerName] ++ nonterminals).Nodup := lists_start.exists_addNonterminals_iff hstart
  have hsplit : declaredNames nonterminals terminals =
      [endMarkerName] ++ nonterminals ++ terminals := rfl
  rw [ofLists, exists_bind_eq_ok_iff fun names hnames =>
    (lists_start.addNonterminals hnames).exists_addTerminals_iff
      (hnonterminals.mp ⟨names, hnames⟩) (by omega), hnonterminals, hsplit]
  exact and_iff_right_of_imp List.Nodup.of_append_left

/-! ## Which names a finished table knows -/

section Finished

variable (h : ofLists nonterminals terminals = .ok names)
include h

theorem exists_symbol_iff (hterminals : terminals.length < 2 ^ 32) :
    (∃ symbol, names.symbol name = .ok symbol) ↔ name ∈ declaredNames nonterminals terminals := by
  simp only [symbol_ofLists_eq_ok_iff h]
  exact ⟨fun ⟨_, hresolves⟩ => mem_declaredNames_of_resolves hresolves,
    exists_resolves_of_mem hterminals⟩

theorem exists_nonterminal_iff :
    (∃ n, names.nonterminal name = .ok n) ↔ name ∈ nonterminals := by
  simp only [nonterminal_eq_ok_iff, symbol_ofLists_eq_ok_iff h, List.mem_iff_getElem?]
  refine exists_congr fun n => ⟨?_, .nonterminal⟩
  rintro (_ | hn)
  exact hn

theorem exists_terminal_iff (hterminals : terminals.length < 2 ^ 32) :
    (∃ t, names.terminal name = .ok t) ↔ name ∈ endMarkerName :: terminals := by
  simp only [terminal_eq_ok_iff, symbol_ofLists_eq_ok_iff h, List.mem_cons]
  constructor
  · rintro ⟨t, _ | _ | ht⟩
    · exact .inl rfl
    · exact .inr (List.mem_of_getElem? ht)
  · rintro (rfl | hname)
    · exact ⟨_, .endMarker⟩
    · obtain ⟨k, hk⟩ := List.mem_iff_getElem?.mp hname
      have hlt : k < terminals.length := (List.getElem?_eq_some_iff.mp hk).1
      exact ⟨⟨k, by omega⟩, .terminal hk⟩

end Finished

end Names

/-! ## Spelling a symbol -/

/-- No name stands for the mark of the empty word. -/
theorem Resolves.ne_epsilon (h : Resolves nonterminals terminals name symbol) :
    symbol ≠ .epsilon := by
  cases h <;> exact fun heq => by cases heq

/-- A grammar with the same lists of names spells a symbol by the name that stands for it. -/
theorem Resolves.symbolName (h : Resolves nonterminals terminals name symbol)
    (hterminals : terminals.length < 2 ^ 32) {g : Grammar}
    (hnonterminalNames : g.nonterminalNames = nonterminals.toArray)
    (hterminalNames : g.terminalNames = terminals.toArray) : g.symbolName symbol = name := by
  cases h with
  | endMarker => rfl
  | @nonterminal _ n hname =>
    show g.nonterminalName n = name
    rw [Grammar.nonterminalName, hnonterminalNames, List.getElem?_toArray, hname, Option.getD_some]
  | @terminal _ t hname =>
    show g.terminalName t = name
    have hlt : t.toNat < terminals.length := (List.getElem?_eq_some_iff.mp hname).1
    have hne : t ≠ Terminal.endMarker := by
      rintro rfl
      have hnumber : Terminal.endMarker.toNat = 2 ^ 32 - 1 := rfl
      omega
    rw [Grammar.terminalName, if_neg hne, hterminalNames, List.getElem?_toArray, hname,
      Option.getD_some]

end Description
end CompilerTables
