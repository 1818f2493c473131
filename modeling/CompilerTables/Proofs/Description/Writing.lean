import CompilerTables.Description.Reading
import CompilerTables.Proofs.FiniteMap
import CompilerTables.Proofs.Json.Reading
import CompilerTables.Proofs.Json.Texts

/-!
# Reading a description undoes writing it

A description has many texts.  Fields stand in any order, those that have their defaults may be left
out, fields that no reader knows may be added to every structure, and on top of that a value has
many spellings.  Whichever text is chosen, reading it gives the description
(`reading_undoes_writing`), and there always is one to choose, since the numbers of a description
are only bounded by the words that hold them (`exists_writtenIn`).

Structure by structure, a relation says which values write it and a lemma says that the reader gives
it back.  The relations name the fields and their defaults once more, apart from the readers, so
that the two can be held against each other.

Transitions are no record.  Every member of their object is a transition, so there is no room for
unknown members, and the map has no order that the members could keep.
-/

namespace CompilerTables
namespace Description

open Json (Value Undoes)

/-! ## Which values write a structure -/

/-- A production; an empty body may be left out. -/
inductive Rule.WrittenAs (rule : Rule) : Value → Prop
  | record {lhs value : Value} {body : Option Value}
      (hlhs : Json.StringWrittenAs rule.lhs lhs)
      (hbody : Json.OptionalWrittenAs (Json.ListWrittenAs Json.StringWrittenAs) [] rule.body body)
      (hrecord : Json.RecordWrittenAs [("lhs", some lhs), ("body", body)] value) :
      Rule.WrittenAs rule value

/-- An item; the end of the input may be left out. -/
inductive ItemEntry.WrittenAs (entry : ItemEntry) : Value → Prop
  | record {production dot value : Value} {lookahead : Option Value}
      (hproduction : Json.NaturalWrittenAs entry.production production)
      (hdot : Json.NaturalWrittenAs entry.dot dot)
      (hlookahead : Json.OptionalWrittenAs Json.StringWrittenAs "$" entry.lookahead lookahead)
      (hrecord : Json.RecordWrittenAs
        [("production", some production), ("dot", some dot), ("lookahead", lookahead)] value) :
      ItemEntry.WrittenAs entry value

/-- A transition by its name and its number. -/
def TransitionWrittenAs (transition : String × Nat) (named : String × Value) : Prop :=
  transition.1 = named.1 ∧ Json.NaturalWrittenAs transition.2 named.2

/-- Transitions, each by one member, in any order. -/
inductive TransitionsWrittenAs (transitions : Std.ExtTreeMap String Nat) : Value → Prop
  | members {listed : List (String × Nat)} {named : List (String × Value)}
      {members : List (Json.CodePoints × Value)} (hlisted : listed.Perm transitions.toList)
      (hnumbers : List.Forall₂ TransitionWrittenAs listed named)
      (hmembers : List.Forall₂ Json.MemberWrittenAs named members) :
      TransitionsWrittenAs transitions (.object members)

/-- A state; the map without transitions may be left out. -/
inductive StateEntry.WrittenAs (entry : StateEntry) : Value → Prop
  | record {items value : Value} {transitions : Option Value}
      (hitems : Json.ListWrittenAs ItemEntry.WrittenAs entry.items items)
      (htransitions : Json.OptionalWrittenAs TransitionsWrittenAs ∅ entry.transitions transitions)
      (hrecord : Json.RecordWrittenAs [("items", some items), ("transitions", transitions)] value) :
      StateEntry.WrittenAs entry value

/-- A description; the number 0 of the augmented production may be left out. -/
inductive WrittenAs (d : Description) : Value → Prop
  | record {nonterminals terminals productions states value : Value} {augmented : Option Value}
      (hnonterminals : Json.ListWrittenAs Json.StringWrittenAs d.nonterminals nonterminals)
      (hterminals : Json.ListWrittenAs Json.StringWrittenAs d.terminals terminals)
      (hproductions : Json.ListWrittenAs Rule.WrittenAs d.productions productions)
      (haugmented : Json.OptionalWrittenAs Json.NaturalWrittenAs 0 d.augmented augmented)
      (hstates : Json.ListWrittenAs StateEntry.WrittenAs d.states states)
      (hrecord : Json.RecordWrittenAs [("nonterminals", some nonterminals),
        ("terminals", some terminals), ("productions", some productions), ("augmented", augmented),
        ("states", some states)] value) :
      WrittenAs d value

/-- A text that spells, with blanks wherever they may stand, a value that writes the description. -/
def WrittenIn (d : Description) (text : String) : Prop :=
  ∃ value, d.WrittenAs value ∧ Json.SpellsAmid value text.toList

/-! ## Reading them back -/

theorem Rule.undoes_ofJson? : Undoes Rule.ofJson? Rule.WrittenAs := by
  rintro rule value @⟨lhs, _, body, hlhs, hbody, hrecord⟩
  have hfields : Json.fields? ["lhs", "body"] value = some [some lhs, body] :=
    Json.fields?_of_recordWrittenAs (by simp) hrecord
  have hlhs' : Json.string? lhs = some rule.lhs := Json.undoes_string? hlhs
  have hbody' := Json.undoes_string?.list?.optional? hbody
  simp [Rule.ofJson?, hfields, Json.required?, hlhs', hbody']

theorem ItemEntry.undoes_ofJson? : Undoes ItemEntry.ofJson? ItemEntry.WrittenAs := by
  rintro entry value @⟨production, dot, _, lookahead, hproduction, hdot, hlookahead, hrecord⟩
  have hfields : Json.fields? ["production", "dot", "lookahead"] value =
      some [some production, some dot, lookahead] :=
    Json.fields?_of_recordWrittenAs (by simp) hrecord
  have hproduction' := Json.undoes_natural? hproduction
  have hdot' := Json.undoes_natural? hdot
  have hlookahead' := Json.undoes_string?.optional? hlookahead
  simp [ItemEntry.ofJson?, hfields, Json.required?, hproduction', hdot', endMarkerName, hlookahead']

theorem undoes_transitionsOfJson? : Undoes transitionsOfJson? TransitionsWrittenAs := by
  rintro transitions _ @⟨listed, named, members, hlisted, hnumbers, hmembers⟩
  simp only [transitionsOfJson?, Json.namedMembers?_of_forall₂ hmembers, Option.bind_eq_bind,
    Option.bind_some]
  rw [mapM_eq_some_of_forall₂ (hnumbers.flip.imp ?_), Option.bind_some]
  · exact congrArg some (foldl_insert_eq_of_perm hlisted)
  · rintro ⟨name, value⟩ ⟨_, target⟩ ⟨rfl, htarget⟩
    simp only [Json.undoes_natural? htarget, Option.map_some]

theorem StateEntry.undoes_ofJson? : Undoes StateEntry.ofJson? StateEntry.WrittenAs := by
  rintro entry value @⟨items, _, transitions, hitems, htransitions, hrecord⟩
  have hfields : Json.fields? ["items", "transitions"] value = some [some items, transitions] :=
    Json.fields?_of_recordWrittenAs (by simp) hrecord
  have hitems' := ItemEntry.undoes_ofJson?.list? hitems
  have htransitions' := undoes_transitionsOfJson?.optional? htransitions
  simp [StateEntry.ofJson?, hfields, Json.required?, hitems', htransitions']

theorem undoes_ofJson? : Undoes ofJson? WrittenAs := by
  rintro d value @⟨nonterminals, terminals, productions, states, _, augmented, hnonterminals,
    hterminals, hproductions, haugmented, hstates, hrecord⟩
  have hfields : Json.fields? ["nonterminals", "terminals", "productions", "augmented", "states"]
      value = some [some nonterminals, some terminals, some productions, augmented, some states] :=
    Json.fields?_of_recordWrittenAs (by simp) hrecord
  have hnonterminals' := Json.undoes_string?.list? hnonterminals
  have hterminals' := Json.undoes_string?.list? hterminals
  have hproductions' := Rule.undoes_ofJson?.list? hproductions
  have haugmented' := Json.undoes_natural?.optional? haugmented
  have hstates' := StateEntry.undoes_ofJson?.list? hstates
  simp [ofJson?, hfields, Json.required?, hnonterminals', hterminals', hproductions', haugmented',
    hstates']

/-! ## Every description has a text -/

/-- The numbers of the entry are numbers that a word holds. -/
def ItemEntry.FitsWords (entry : ItemEntry) : Prop :=
  entry.production < 2 ^ 64 ∧ entry.dot < 2 ^ 64

/-- The numbers of the state are numbers that a word holds. -/
def StateEntry.FitsWords (entry : StateEntry) : Prop :=
  (∀ item ∈ entry.items, item.FitsWords) ∧
    ∀ transition ∈ entry.transitions.toList, transition.2 < 2 ^ 64

/-- The numbers of the description are numbers that a word holds. -/
def FitsWords (d : Description) : Prop :=
  d.augmented < 2 ^ 64 ∧ ∀ entry ∈ d.states, entry.FitsWords

theorem Rule.writable (rule : Rule) : Json.Writable Rule.WrittenAs rule := by
  obtain ⟨lhs, hlhs, hlhsText⟩ := Json.writable_string rule.lhs
  obtain ⟨body, hbody, hbodyText⟩ := Json.Writable.list fun name (_ : name ∈ rule.body) =>
    Json.writable_string name
  obtain ⟨value, hrecord, htext⟩ := @Json.exists_recordWrittenAs
    [("lhs", some lhs), ("body", some body)] (by simp [hlhsText, hbodyText])
  exact ⟨value, .record hlhs (.given hbody) hrecord, htext⟩

theorem ItemEntry.writable {entry : ItemEntry} (h : entry.FitsWords) :
    Json.Writable ItemEntry.WrittenAs entry := by
  obtain ⟨production, hproduction, hproductionText⟩ := Json.writable_natural h.1
  obtain ⟨dot, hdot, hdotText⟩ := Json.writable_natural h.2
  obtain ⟨lookahead, hlookahead, hlookaheadText⟩ := Json.writable_string entry.lookahead
  obtain ⟨value, hrecord, htext⟩ := @Json.exists_recordWrittenAs
    [("production", some production), ("dot", some dot), ("lookahead", some lookahead)]
    (by simp [hproductionText, hdotText, hlookaheadText])
  exact ⟨value, .record hproduction hdot (.given hlookahead) hrecord, htext⟩

theorem writable_transitions {transitions : Std.ExtTreeMap String Nat}
    (h : ∀ transition ∈ transitions.toList, transition.2 < 2 ^ 64) :
    Json.Writable TransitionsWrittenAs transitions := by
  have hnumbers : List.Forall₂ TransitionWrittenAs transitions.toList
      (transitions.toList.map fun transition =>
        (transition.1, .number (Nat.toDigits 10 transition.2))) := by
    rw [List.forall₂_map_right_iff, List.forall₂_same]
    exact fun transition htransition => ⟨rfl, .digits (h transition htransition)⟩
  refine ⟨_, .members (.refl _) hnumbers (Json.forall₂_memberWrittenAs _),
    Json.hasText_objectOf fun member hmember => ?_⟩
  obtain ⟨transition, -, rfl⟩ := List.mem_map.mp hmember
  exact Json.hasText_number transition.2

theorem StateEntry.writable {entry : StateEntry} (h : entry.FitsWords) :
    Json.Writable StateEntry.WrittenAs entry := by
  obtain ⟨items, hitems, hitemsText⟩ := Json.Writable.list fun item hitem =>
    ItemEntry.writable (h.1 item hitem)
  obtain ⟨transitions, htransitions, htransitionsText⟩ := writable_transitions h.2
  obtain ⟨value, hrecord, htext⟩ := @Json.exists_recordWrittenAs
    [("items", some items), ("transitions", some transitions)]
    (by simp [hitemsText, htransitionsText])
  exact ⟨value, .record hitems (.given htransitions) hrecord, htext⟩

/-- Every description with numbers that words hold has a text. -/
theorem exists_writtenIn {d : Description} (h : d.FitsWords) : ∃ text, d.WrittenIn text := by
  obtain ⟨nonterminals, hnonterminals, hnonterminalsText⟩ := Json.Writable.list
    fun name (_ : name ∈ d.nonterminals) => Json.writable_string name
  obtain ⟨terminals, hterminals, hterminalsText⟩ := Json.Writable.list
    fun name (_ : name ∈ d.terminals) => Json.writable_string name
  obtain ⟨productions, hproductions, hproductionsText⟩ := Json.Writable.list
    fun rule (_ : rule ∈ d.productions) => rule.writable
  obtain ⟨augmented, haugmented, haugmentedText⟩ := Json.writable_natural h.1
  obtain ⟨states, hstates, hstatesText⟩ := Json.Writable.list fun entry hentry =>
    StateEntry.writable (h.2 entry hentry)
  obtain ⟨value, hrecord, text, htext⟩ := @Json.exists_recordWrittenAs
    [("nonterminals", some nonterminals), ("terminals", some terminals),
      ("productions", some productions), ("augmented", some augmented), ("states", some states)]
    (by simp [hnonterminalsText, hterminalsText, hproductionsText, haugmentedText, hstatesText])
  have hspells := Json.SpellsAmid.blanks Json.blanks_nil htext Json.blanks_nil
  rw [List.nil_append, List.append_nil, ← String.toList_ofList (l := text)] at hspells
  exact ⟨String.ofList text, value, .record hnonterminals hterminals hproductions
    (.given haugmented) hstates hrecord, hspells⟩

/-- **Reading undoes writing.**  Whatever text a description is written in, the reader takes it, and
gives that description. -/
theorem reading_undoes_writing {d : Description} {text : String} (h : d.WrittenIn text) :
    ofText? text = some d := by
  obtain ⟨value, hwritten, hspells⟩ := h
  rw [ofText?, Json.read?_eq_some_of_spellsAmid hspells]
  exact undoes_ofJson? hwritten

/-! ### A grammar that derives the empty word -/

/-- The rule `S → ε` and the state that it begins in. -/
def emptyWord : Description where
  nonterminals := ["S"]
  terminals := []
  productions := [⟨"S", []⟩]
  augmented := 0
  states := [{ items := [⟨0, 0, "$"⟩], transitions := ∅ }]

/-- The description with a field that no reader knows, fields in other orders, and without the
fields that have their defaults. -/
def emptyWordValue : Value :=
  Json.objectOf [
    ("note", .array [.number ['-', '1', '.', '5']]),
    ("states", .array [Json.objectOf [("items", .array [
      Json.objectOf [("dot", .number ['0']), ("production", .number ['0'])]])]]),
    ("nonterminals", .array [.string (Json.codePoints "S")]),
    ("terminals", .array []),
    ("productions", .array [Json.objectOf [("lhs", .string (Json.codePoints "S"))]])]

/-- A text of the value, with blanks between tokens and an escape. -/
def emptyWordText : String :=
  "\x7b\"note\": [-1.5], \"states\": [\x7b\"items\": [\x7b\"dot\": 0, \"production\": 0\x7d]\x7d],
 \"nonterminals\": [\"\\u0053\"], \"terminals\": [], \"productions\": [\x7b\"lhs\": \"S\"\x7d]\x7d\n"

theorem emptyWord_writtenAs : emptyWord.WrittenAs emptyWordValue := by
  have hS : Json.StringWrittenAs "S" (.string (Json.codePoints "S")) :=
    .content (Json.textWrittenAs_codePoints "S")
  have hzero : Json.NaturalWrittenAs 0 (.number ['0']) := .digits (by decide)
  have hrule : Rule.WrittenAs ⟨"S", []⟩ (Json.objectOf [("lhs", .string (Json.codePoints "S"))]) :=
    .record hS (.leftOut rfl) (Json.recordWrittenAs_objectOf (.refl _) nofun)
  have hitem : ItemEntry.WrittenAs ⟨0, 0, "$"⟩
      (Json.objectOf [("dot", .number ['0']), ("production", .number ['0'])]) :=
    .record hzero hzero (.leftOut rfl) (Json.recordWrittenAs_objectOf (.swap _ _ _) nofun)
  have hstate : StateEntry.WrittenAs { items := [⟨0, 0, "$"⟩], transitions := ∅ }
      (Json.objectOf [("items", .array [
        Json.objectOf [("dot", .number ['0']), ("production", .number ['0'])]])]) :=
    .record (.elements (.cons hitem .nil)) (.leftOut rfl)
      (Json.recordWrittenAs_objectOf (.refl _) nofun)
  -- The states go behind the other fields, and then the note behind all of them.
  have hmoved : ∀ (note states : String × Value) (others : List (String × Value)),
      (note :: states :: others).Perm (others ++ [states] ++ [note]) := fun note states others =>
    ((List.perm_append_singleton states others).symm.cons note).trans
      (List.perm_append_singleton note _).symm
  exact .record (.elements (.cons hS .nil)) (.elements .nil) (.elements (.cons hrule .nil))
    (.leftOut rfl) (.elements (.cons hstate .nil))
    (Json.recordWrittenAs_objectOf (hmoved _ _ [_, _, _]) (by simp))

theorem spellsAmid_emptyWordText : Json.SpellsAmid emptyWordValue emptyWordText.toList := by
  have hnone : Json.Blanks [] := by decide
  have hspace : Json.Blanks [' '] := by decide
  have hline : Json.Blanks ['\n', ' '] := by decide
  have hend : Json.Blanks ['\n'] := by decide
  have hplain : ∀ s : String, (s.toList.all fun c => Json.IsPlain c) = true →
      Json.SpellsString (Json.codePoints s) ('"' :: (s.toList ++ ['"'])) := fun s hs =>
    .quoted (Json.spellsPoints_of_isPlain (List.all_iff_forall_prop.mp hs))
  have hescaped : Json.SpellsString (Json.codePoints "S")
      ['"', '\\', 'u', '0', '0', '5', '3', '"'] :=
    .quoted (.cons (@Json.SpellsPoint.digits '0' '0' '5' '3' 0 0 5 3 (.inl rfl) (.inl rfl)
      (.inl rfl) (.inl rfl)) .nil)
  have hzero : Json.IsNumber ['0'] := .parts List.mem_cons_self .zero .none .none
  have hminus : ['-'] ∈ [[], ['-']] := by decide
  have hone : Json.IsWhole ['1'] := .digits (by decide) (by decide) (by simp)
  have hhalf : Json.IsDigits ['5'] := by decide
  have hfraction : Json.IsNumber ['-', '1', '.', '5'] := .parts hminus hone (.point hhalf) .none
  have hnote := Json.SpellsMember.colon hnone (hplain "note" (by decide)) hnone
    (.blanks hspace (.array (.last (.blanks hnone (.number hfraction) hnone))) hnone)
  have hdot := Json.SpellsMember.colon hnone (hplain "dot" (by decide)) hnone
    (.blanks hspace (.number hzero) hnone)
  have hproduction := Json.SpellsMember.colon hspace (hplain "production" (by decide)) hnone
    (.blanks hspace (.number hzero) hnone)
  have hitems := Json.SpellsMember.colon hnone (hplain "items" (by decide)) hnone
    (.blanks hspace (.array (.last
      (.blanks hnone (.object (.cons hdot (.last hproduction))) hnone))) hnone)
  have hstates := Json.SpellsMember.colon hspace (hplain "states" (by decide)) hnone
    (.blanks hspace (.array (.last (.blanks hnone (.object (.last hitems)) hnone))) hnone)
  have hnonterminals := Json.SpellsMember.colon hline (hplain "nonterminals" (by decide)) hnone
    (.blanks hspace (.array (.last (.blanks hnone (.string hescaped) hnone))) hnone)
  have hterminals := Json.SpellsMember.colon hspace (hplain "terminals" (by decide)) hnone
    (.blanks hspace (.emptyArray hnone) hnone)
  have hlhs := Json.SpellsMember.colon hnone (hplain "lhs" (by decide)) hnone
    (.blanks hspace (.string (hplain "S" (by decide))) hnone)
  have hproductions := Json.SpellsMember.colon hspace (hplain "productions" (by decide)) hnone
    (.blanks hspace (.array (.last (.blanks hnone (.object (.last hlhs)) hnone))) hnone)
  obtain ⟨text, hspells, htext⟩ :
      ∃ text, Json.SpellsAmid emptyWordValue text ∧ emptyWordText.toList = text :=
    ⟨_, .blanks hnone (.object (.cons hnote (.cons hstates (.cons hnonterminals
      (.cons hterminals (.last hproductions)))))) hend, by decide +kernel⟩
  rw [htext]
  exact hspells

theorem reading_undoes_writing_emptyWord :
    emptyWord.WrittenIn emptyWordText ∧ ofText? emptyWordText = some emptyWord := by
  have hwritten : emptyWord.WrittenIn emptyWordText :=
    ⟨emptyWordValue, emptyWord_writtenAs, spellsAmid_emptyWordText⟩
  exact ⟨hwritten, reading_undoes_writing hwritten⟩

end Description
end CompilerTables
