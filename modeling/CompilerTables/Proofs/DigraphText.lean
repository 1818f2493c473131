import Mathlib.Data.List.Forall2
import CompilerTables.Digraph

/-!
# How a graph is written

The text of a graph, told by its lines.  A line for each node comes first, in the order of their
numbers, then a line for each edge, in the order of the edges, and all of them stand between an
opening and a closing line.  A label stands between quotes, so three characters cannot stand in it
as they are: a quote and a backslash get a backslash before them, and a line break is written as the
mark `\l`, which ends a line flush left.

`Digraph.IsText` says this without the function that writes a graph.  It leaves nothing open, and
`isText_iff` says that the function keeps to it: a text is that of a graph exactly when it is the
one that is written.
-/

namespace CompilerTables

/-- Lists that correspond by a function are a list and its image. -/
theorem forall₂_iff_eq_map {α β : Type} {r : α → β → Prop} {f : α → β}
    (hr : ∀ x y, r x y ↔ y = f x) {xs : List α} {ys : List β} :
    List.Forall₂ r xs ys ↔ ys = xs.map f := by
  have hsame : r = fun x y => f x = y :=
    funext fun x => funext fun y => propext ((hr x y).trans eq_comm)
  rw [hsame, ← List.forall₂_map_left_iff (R := Eq), List.forall₂_eq_eq_eq, eq_comm]

namespace Digraph

variable {g : Digraph String} {c : Char} {piece : List Char} {label spelled line text : String}
  {node : String × Nat} {e : Edge String}

/-! ## Labels -/

/-- A character of a label as it stands between quotes. -/
inductive SpellsLabelChar : Char → List Char → Prop
  | quote : SpellsLabelChar '"' ['\\', '"']
  | backslash : SpellsLabelChar '\\' ['\\', '\\']
  | lineBreak : SpellsLabelChar '\n' ['\\', 'l']
  | plain {c : Char} (hc : c ∉ ['"', '\\', '\n']) : SpellsLabelChar c [c]

/-- The characters of a label, one after the other. -/
def SpellsLabel (label spelled : String) : Prop :=
  ∃ pieces, List.Forall₂ SpellsLabelChar label.toList pieces ∧ spelled.toList = pieces.flatten

theorem spellsLabelChar_iff :
    SpellsLabelChar c piece ↔
      piece = if c = '"' ∨ c = '\\' then ['\\', c] else if c = '\n' then ['\\', 'l'] else [c] := by
  constructor
  · intro h
    cases h with
    | quote => rfl
    | backslash => rfl
    | lineBreak => rfl
    | plain hc =>
      simp only [List.mem_cons, List.not_mem_nil, or_false, not_or] at hc
      rw [if_neg (not_or.mpr ⟨hc.1, hc.2.1⟩), if_neg hc.2.2]
  · rintro rfl
    split
    · next hescaped =>
      rcases hescaped with rfl | rfl
      · exact .quote
      · exact .backslash
    · next hescaped =>
      split
      · next hbreak =>
        rw [hbreak]
        exact .lineBreak
      · next hbreak =>
        refine .plain fun hc => ?_
        simp only [List.mem_cons, List.not_mem_nil, or_false] at hc
        exact hescaped (hc.imp_right fun h => h.resolve_right hbreak)

theorem spellsLabel_iff :
    SpellsLabel label spelled ↔ spelled = String.ofList (escapeLabel label.toList) := by
  unfold SpellsLabel
  simp only [forall₂_iff_eq_map (r := SpellsLabelChar) fun _ _ => spellsLabelChar_iff,
    exists_eq_left]
  rw [← List.flatMap_def, ← String.toList_inj, String.toList_ofList]
  rfl

/-! ## Lines -/

/-- The line of a node: its number and its label. -/
def IsNodeLine (node : String × Nat) (line : String) : Prop :=
  ∃ label, SpellsLabel node.1 label ∧ line = s!"    {node.2} [ label = \"{label}\" ]\n"

/-- The line of an edge: the numbers of its nodes and its label. -/
def IsEdgeLine (e : Edge String) (line : String) : Prop :=
  ∃ label, SpellsLabel e.label label ∧
    line = s!"    {e.source} -> {e.target} [ label = \"{label}\" ]\n"

/-- The text of a graph: the lines of its nodes and those of its edges, between an opening and a
closing line. -/
def IsText (g : Digraph String) (text : String) : Prop :=
  ∃ nodeLines edgeLines, List.Forall₂ IsNodeLine g.nodes.zipIdx nodeLines ∧
    List.Forall₂ IsEdgeLine g.edges edgeLines ∧
    text = "digraph \x7b\n" ++ String.join nodeLines ++ String.join edgeLines ++ "\x7d\n"

/-- The label comes last in a line, as the only attribute. -/
theorem append_labelAttribute (front label : String) :
    front ++ " [ label = \"" ++ String.ofList (escapeLabel label.toList) ++ "\" ]\n" =
      front ++ " " ++ labelAttribute label ++ "\n" := by
  have hopen : " [ label = \"" = " " ++ "[ label = \"" := by decide
  have hclose : "\" ]\n" = "\" ]" ++ "\n" := by decide
  rw [labelAttribute, hopen, hclose]
  simp only [String.append_assoc]

theorem isNodeLine_iff :
    IsNodeLine node line ↔ line = s!"    {node.2} {labelAttribute node.1}\n" := by
  simp only [IsNodeLine, spellsLabel_iff, exists_eq_left]
  show line = "    " ++ toString node.2 ++ " [ label = \"" ++
      String.ofList (escapeLabel node.1.toList) ++ "\" ]\n" ↔ _
  rw [append_labelAttribute]
  rfl

theorem isEdgeLine_iff :
    IsEdgeLine e line ↔ line = s!"    {e.source} -> {e.target} {labelAttribute e.label}\n" := by
  simp only [IsEdgeLine, spellsLabel_iff, exists_eq_left]
  show line = "    " ++ toString e.source ++ " -> " ++ toString e.target ++ " [ label = \"" ++
      String.ofList (escapeLabel e.label.toList) ++ "\" ]\n" ↔ _
  rw [append_labelAttribute]
  rfl

/-- The text of a graph is the one that is written. -/
theorem isText_iff : g.IsText text ↔ text = g.dot := by
  unfold IsText
  simp only [forall₂_iff_eq_map (r := IsNodeLine) fun _ _ => isNodeLine_iff,
    forall₂_iff_eq_map (r := IsEdgeLine) fun _ _ => isEdgeLine_iff, exists_and_left,
    exists_eq_left]
  rfl

end Digraph
end CompilerTables
