import Mathlib.Data.Bool.AllAny
import CompilerTables.Json.Reader
import CompilerTables.Proofs.Json.Spelling
import CompilerTables.Proofs.Outcome

/-!
# The reader reads what is spelled

Whatever text spells a value, with blanks around it or not, the reader takes it to the end and gives
that value.  The rules of the grammar are followed one by one, and for each the states of the reader
before and after its text are named.

## A number has no end of its own

Most values are followed by the state that says they are done.  A number is followed by a state that
is still inside it, and only the next character, or the end of the text, tells that it is over.  So
what follows a value is one of two states (`Ended`), and a lemma shows that no rule needs to know
which: a blank, a comma or a closing bracket is taken the same way in both.
-/

namespace CompilerTables
namespace Json

variable {mode : Mode} {frames : List Frame} {r r' r'' : Reader} {value : Value}
  {text more : List Char} {c : Char}

/-! ## Blanks -/

/-- Between tokens, where blanks change nothing. -/
def Mode.IsBetween : Mode → Prop
  | .value | .firstElement | .firstName | .name _ | .colon _ _ | .done _ => True
  | .nameText _ _ | .word _ _ | .number _ _ | .text _ => False

theorem isBlank_iff : isBlank c = true ↔ c ∈ [' ', '\n', '\t', '\r'] := by
  simp [isBlank, or_assoc]

theorem step_of_isBlank (hmode : mode.IsBetween) (hc : isBlank c = true) :
    Reader.step ⟨mode, frames⟩ c = some ⟨mode, frames⟩ := by
  cases mode with
  | value | firstElement | firstName | name | colon | done => exact if_pos hc
  | nameText | word | number | text => exact hmode.elim

theorem takes_blanks (hmode : mode.IsBetween) (hblanks : Blanks text) :
    Takes Reader.step ⟨mode, frames⟩ text ⟨mode, frames⟩ := by
  induction text with
  | nil => exact .nil
  | cons c rest ih =>
    have hc : isBlank c = true := isBlank_iff.mpr (hblanks c List.mem_cons_self)
    exact .cons (step_of_isBlank hmode hc) (ih fun c hc => hblanks c (List.mem_cons_of_mem _ hc))

/-! ## After a value -/

/-- The reader after a value: the value is done, or it is a number that may end here. -/
inductive Ended : Value → List Frame → Reader → Prop
  | done {value : Value} {frames : List Frame} : Ended value frames ⟨.done value, frames⟩
  | number {phase : NumberPhase} {literal : List Char} {frames : List Frame}
      (hcomplete : phase.isComplete = true) :
      Ended (.number literal.reverse) frames ⟨.number phase literal, frames⟩

/-- The characters that may follow a value. -/
def followers : List Char := [' ', '\n', '\t', '\r', ',', ']', '}']

/-- No number goes on with a character that may follow a value. -/
theorem NumberPhase.step_follower (phase : NumberPhase) (hc : c ∈ followers) :
    phase.step c = none := by
  have hnone : (followers.all fun c => phase.step c = none) = true := by
    cases phase <;> decide
  exact List.all_iff_forall_prop.mp hnone c hc

theorem Ended.step_follower (h : Ended value frames r) (hc : c ∈ followers) :
    r.step c = Reader.endValue value frames c := by
  cases h with
  | done => rfl
  | number hcomplete =>
    simp only [Reader.step, NumberPhase.step_follower _ hc]
    exact if_pos hcomplete

theorem Ended.takes_blanks (h : Ended value frames r) (hblanks : Blanks text) :
    ∃ r', Takes Reader.step r text r' ∧ Ended value frames r' := by
  cases text with
  | nil => exact ⟨r, .nil, h⟩
  | cons c rest =>
    have hc : c ∈ [' ', '\n', '\t', '\r'] := hblanks c List.mem_cons_self
    have hstep : r.step c = some ⟨.done value, frames⟩ :=
      (h.step_follower (List.mem_append_left [',', ']', '}'] hc)).trans
        (if_pos (isBlank_iff.mpr hc))
    have hrest : Blanks rest := fun c hc => hblanks c (List.mem_cons_of_mem _ hc)
    exact ⟨_, .cons hstep (Json.takes_blanks trivial hrest), .done⟩

theorem Ended.finish? (h : Ended value [] r) : r.finish? = some value := by
  cases h with
  | done => rfl
  | number hcomplete => exact if_pos hcomplete

/-! ## Strings -/

/-- The states inside a string and the state that follows it: a string is a value or a name. -/
structure ReadsString (inside : StringReader → Mode) (closed : CodePoints → Mode) : Prop where
  step_more : ∀ {reader reader' : StringReader} {frames : List Frame} {c : Char},
    reader.step c = some (.more reader') →
      Reader.step ⟨inside reader, frames⟩ c = some ⟨inside reader', frames⟩
  step_closed : ∀ {reader : StringReader} {content : CodePoints} {frames : List Frame} {c : Char},
    reader.step c = some (.closed content) →
      Reader.step ⟨inside reader, frames⟩ c = some ⟨closed content, frames⟩

theorem readsString_text : ReadsString .text fun content => .done (.string content) where
  step_more h := by simp only [Reader.step, h, Option.map_some]
  step_closed h := by simp only [Reader.step, h, Option.map_some]

theorem readsString_nameText (before : List (CodePoints × Value)) :
    ReadsString (.nameText before) (.colon before) where
  step_more h := by simp only [Reader.step, h, Option.map_some]
  step_closed h := by simp only [Reader.step, h, Option.map_some]

theorem StringReader.step_plain {content : CodePoints} (hquote : c ≠ '"') (hbackslash : c ≠ '\\')
    (hcontrol : 0x20 ≤ c.toNat) :
    StringReader.step ⟨.plain, content⟩ c = some (.more ⟨.plain, c.toNat :: content⟩) := by
  rw [StringReader.step, if_neg hquote, if_neg hbackslash, if_neg (Nat.not_lt.mpr hcontrol)]

theorem StringReader.step_letter {point : Nat} {content : CodePoints}
    (hletter : (c, point) ∈ shortEscapes) :
    StringReader.step ⟨.escape, content⟩ c = some (.more ⟨.plain, point :: content⟩) := by
  have hnotNumbered : ∀ e ∈ shortEscapes, e.1 ≠ 'u' := by decide
  have hpoint : ∀ e ∈ shortEscapes, shortEscape? e.1 = some e.2 := by decide
  rw [StringReader.step, if_neg (hnotNumbered _ hletter), hpoint _ hletter]
  rfl

theorem hexDigit?_of_isHexDigit {digit : Nat} (h : IsHexDigit c digit) :
    hexDigit? c = some digit := by
  have hsmall : ∀ e ∈ smallHexDigits.zipIdx, hexDigit? e.1 = some e.2 := by decide
  have hcapital : ∀ e ∈ capitalHexDigits.zipIdx, hexDigit? e.1 = some e.2 := by decide
  rcases h with h | h
  · exact hsmall (c, digit) (List.mk_mem_zipIdx_iff_getElem?.mpr h)
  · exact hcapital (c, digit) (List.mk_mem_zipIdx_iff_getElem?.mpr h)

/-- A digit that is not the last of its escape. -/
theorem StringReader.step_digit {digit missing sum : Nat} {content : CodePoints}
    (h : IsHexDigit c digit) :
    StringReader.step ⟨.hex (missing + 2) sum, content⟩ c =
      some (.more ⟨.hex (missing + 1) (16 * sum + digit), content⟩) := by
  rw [StringReader.step, hexDigit?_of_isHexDigit h]
  rfl

/-- The last digit of an escape. -/
theorem StringReader.step_lastDigit {digit sum : Nat} {content : CodePoints}
    (h : IsHexDigit c digit) :
    StringReader.step ⟨.hex 1 sum, content⟩ c =
      some (.more ⟨.plain, (16 * sum + digit) :: content⟩) := by
  rw [StringReader.step, hexDigit?_of_isHexDigit h]
  rfl

section Strings

variable {inside : StringReader → Mode} {closed : CodePoints → Mode} {content before : CodePoints}

theorem takes_of_spellsPoint (hinside : ReadsString inside closed) {point : Nat}
    (h : SpellsPoint point text) :
    Takes Reader.step ⟨inside ⟨.plain, before⟩, frames⟩ text
      ⟨inside ⟨.plain, point :: before⟩, frames⟩ := by
  cases h with
  | plain hquote hbackslash hcontrol =>
    exact .single (hinside.step_more (StringReader.step_plain hquote hbackslash hcontrol))
  | letter hletter =>
    exact .cons (hinside.step_more rfl) (.single (hinside.step_more
      (StringReader.step_letter hletter)))
  | @digits c₁ c₂ c₃ c₄ d₁ d₂ d₃ d₄ h₁ h₂ h₃ h₄ =>
    have hsum : 16 * (16 * (16 * (16 * 0 + d₁) + d₂) + d₃) + d₄ =
        0x1000 * d₁ + 0x100 * d₂ + 0x10 * d₃ + d₄ := by omega
    rw [← hsum]
    exact .cons (hinside.step_more rfl) (.cons (hinside.step_more rfl)
      (.cons (hinside.step_more (StringReader.step_digit h₁))
        (.cons (hinside.step_more (StringReader.step_digit h₂))
          (.cons (hinside.step_more (StringReader.step_digit h₃))
            (.single (hinside.step_more (StringReader.step_lastDigit h₄)))))))

theorem takes_of_spellsPoints (hinside : ReadsString inside closed)
    (h : SpellsPoints content text) :
    Takes Reader.step ⟨inside ⟨.plain, before⟩, frames⟩ text
      ⟨inside ⟨.plain, content.reverse ++ before⟩, frames⟩ := by
  induction h generalizing before with
  | nil => exact .nil
  | cons hpoint _ ih =>
    rw [List.reverse_cons, List.append_assoc, List.singleton_append]
    exact .append (takes_of_spellsPoint hinside hpoint) ih

/-- A string after its opening quote. -/
theorem takes_of_spellsPoints_quote (hinside : ReadsString inside closed)
    (h : SpellsPoints content text) :
    Takes Reader.step ⟨inside .start, frames⟩ (text ++ ['"']) ⟨closed content, frames⟩ := by
  have hclosed :
      StringReader.step ⟨.plain, content.reverse ++ []⟩ '"' = some (.closed content) := by
    rw [List.append_nil, StringReader.step, if_pos rfl, List.reverse_reverse]
  exact .append (takes_of_spellsPoints hinside h) (.single (hinside.step_closed hclosed))

end Strings

/-! ## Numbers -/

namespace NumberPhase

variable {phase phase' : NumberPhase}

/-- Digits that all leave the phase as it is. -/
theorem takes_of_stays (hstays : ∀ c : Char, c.isDigit = true → phase.step c = some phase)
    (hdigits : ∀ c ∈ text, c.isDigit = true) : Takes step phase text phase := by
  induction text with
  | nil => exact .nil
  | cons c rest ih =>
    exact .cons (hstays c (hdigits c List.mem_cons_self))
      (ih fun c hc => hdigits c (List.mem_cons_of_mem _ hc))

/-- Digits of which the first leads to a phase that the others leave as it is. -/
theorem takes_of_isDigits (henters : ∀ c : Char, c.isDigit = true → phase.step c = some phase')
    (hstays : ∀ c : Char, c.isDigit = true → phase'.step c = some phase')
    (hdigits : IsDigits text) : Takes step phase text phase' := by
  obtain ⟨hne, hall⟩ := hdigits
  cases text with
  | nil => exact absurd rfl hne
  | cons c rest =>
    exact .cons (henters c (hall c List.mem_cons_self))
      (takes_of_stays hstays fun c hc => hall c (List.mem_cons_of_mem _ hc))

/-- The digits before the point; a sign leads to the same phase as no sign. -/
theorem exists_takes_of_isWhole (h : IsWhole text) :
    ∃ phase ∈ [zero, digits], Takes step minus text phase := by
  cases h with
  | zero => exact ⟨zero, by decide, .single rfl⟩
  | @digits c rest hfirst hzero hrest =>
    have hstep : minus.step c = some digits := (if_neg hzero).trans (if_pos hfirst)
    exact ⟨digits, by decide, .cons hstep (takes_of_stays (fun c hc => if_pos hc) hrest)⟩

theorem exists_takes_of_isFraction (hphase : phase ∈ [zero, digits]) (h : IsFraction text) :
    ∃ phase' ∈ [zero, digits, fraction], Takes step phase text phase' := by
  cases h with
  | none => exact ⟨phase, List.mem_append_left [fraction] hphase, .nil⟩
  | point hdigits =>
    have hpoint : ∀ phase ∈ [zero, digits], phase.step '.' = some point := by decide
    exact ⟨fraction, by decide, .cons (hpoint phase hphase)
      (takes_of_isDigits (fun c hc => if_pos hc) (fun c hc => if_pos hc) hdigits)⟩

theorem step_exponent (hc : c.isDigit = true) : exponent.step c = some exponentDigits := by
  have hunsigned : ¬ (c = '+' || c = '-') = true := by
    rw [Bool.or_eq_true, decide_eq_true_iff, decide_eq_true_iff]
    rintro (rfl | rfl) <;> exact absurd hc (by decide)
  rw [step, if_neg hunsigned, if_pos hc]

theorem exists_takes_of_isExponent (hphase : phase ∈ [zero, digits, fraction])
    (h : IsExponent text) : ∃ phase', phase'.isComplete = true ∧ Takes step phase text phase' := by
  cases h with
  | none =>
    have hcomplete : ∀ phase ∈ [zero, digits, fraction], phase.isComplete = true := by decide
    exact ⟨phase, hcomplete phase hphase, .nil⟩
  | @mark c sign power hmark hsign hdigits =>
    have hstep : ∀ phase ∈ [zero, digits, fraction], phase.step c = some exponent := by
      simp only [List.mem_cons, List.not_mem_nil, or_false] at hmark
      rcases hmark with rfl | rfl <;> decide
    have hsigned : Takes step exponent (sign ++ power) exponentDigits := by
      have hstays : ∀ c : Char, c.isDigit = true → exponentDigits.step c = some exponentDigits :=
        fun c hc => if_pos hc
      simp only [List.mem_cons, List.not_mem_nil, or_false] at hsign
      rcases hsign with rfl | rfl | rfl
      · exact takes_of_isDigits (fun c hc => step_exponent hc) hstays hdigits
      · exact .cons rfl (takes_of_isDigits (fun c hc => if_pos hc) hstays hdigits)
      · exact .cons rfl (takes_of_isDigits (fun c hc => if_pos hc) hstays hdigits)
    exact ⟨exponentDigits, rfl, .cons (hstep phase hphase) hsigned⟩

/-- What may follow a sign may also begin a number. -/
theorem exists_start_of_takes (hcomplete : phase'.isComplete = true)
    (h : Takes step minus text phase') :
    ∃ c rest phase, text = c :: rest ∧ start? c = some phase ∧ Takes step phase rest phase' := by
  cases text with
  | nil =>
    cases h
    cases hcomplete
  | cons c rest =>
    obtain ⟨phase, hstep, hrest⟩ := h.exists_of_cons
    have hsign : c ≠ '-' := by
      rintro rfl
      cases hstep
    exact ⟨c, rest, phase, rfl, (if_neg hsign).trans hstep, hrest⟩

/-- The literal of a number is taken to a phase where the number may end. -/
theorem exists_start_of_isNumber (h : IsNumber text) :
    ∃ c rest phase phase', text = c :: rest ∧ start? c = some phase ∧
      Takes step phase rest phase' ∧ phase'.isComplete = true := by
  obtain @⟨sign, whole, decimals, power, hsign, hwhole, hfraction, hexponent⟩ := h
  obtain ⟨phase₁, hphase₁, htakes₁⟩ := exists_takes_of_isWhole hwhole
  obtain ⟨phase₂, hphase₂, htakes₂⟩ := exists_takes_of_isFraction hphase₁ hfraction
  obtain ⟨phase₃, hcomplete, htakes₃⟩ := exists_takes_of_isExponent hphase₂ hexponent
  have hunsigned : Takes step minus (whole ++ (decimals ++ power)) phase₃ :=
    htakes₁.append (htakes₂.append htakes₃)
  simp only [List.mem_cons, List.not_mem_nil, or_false] at hsign
  rcases hsign with rfl | rfl
  · obtain ⟨c, rest, phase, htext, hstart, hrest⟩ := exists_start_of_takes hcomplete hunsigned
    exact ⟨c, rest, phase, phase₃, htext, hstart, hrest, hcomplete⟩
  · exact ⟨'-', _, minus, phase₃, rfl, rfl, hunsigned, hcomplete⟩

end NumberPhase

/-- The reader inside a number goes through the phases of the number. -/
theorem takes_number {phase phase' : NumberPhase} {literal : List Char}
    (h : Takes NumberPhase.step phase text phase') :
    Takes Reader.step ⟨.number phase literal, frames⟩ text
      ⟨.number phase' (text.reverse ++ literal), frames⟩ := by
  induction text generalizing phase literal with
  | nil =>
    cases h
    exact .nil
  | cons c rest ih =>
    obtain ⟨next, hstep, hrest⟩ := h.exists_of_cons
    have htaken : Reader.step ⟨.number phase literal, frames⟩ c =
        some ⟨.number next (c :: literal), frames⟩ := by
      simp only [Reader.step, hstep]
    rw [List.reverse_cons, List.append_assoc, List.singleton_append]
    exact .cons htaken (ih hrest)

/-! ## Values -/

/-- Where a value may begin. -/
inductive Mode.AwaitsValue : Mode → Prop
  | value : Mode.AwaitsValue .value
  | firstElement : Mode.AwaitsValue .firstElement

/-- Where a name may begin, after these members of the object. -/
inductive Mode.AwaitsName : List (CodePoints × Value) → Mode → Prop
  | name {before : List (CodePoints × Value)} : Mode.AwaitsName before (.name before)
  | firstName : Mode.AwaitsName [] .firstName

theorem Mode.AwaitsValue.isBetween (h : mode.AwaitsValue) : mode.IsBetween := by
  cases h <;> trivial

theorem Mode.AwaitsName.isBetween {before : List (CodePoints × Value)}
    (h : mode.AwaitsName before) : mode.IsBetween := by
  cases h <;> trivial

theorem Mode.AwaitsName.step_quote {before : List (CodePoints × Value)}
    (h : mode.AwaitsName before) :
    Reader.step ⟨mode, frames⟩ '"' = some ⟨.nameText before .start, frames⟩ := by
  cases h <;> rfl

/-- Wherever a value may begin, the text is taken to the end of this value. -/
def ReadsValue (value : Value) (text : List Char) : Prop :=
  ∀ (mode : Mode) (frames : List Frame), mode.AwaitsValue →
    ∃ r, Takes Reader.step ⟨mode, frames⟩ text r ∧ Ended value frames r

/-- In an array, the text and the closing bracket add these elements and end the array. -/
def ReadsElements (elements : List Value) (text : List Char) : Prop :=
  ∀ (mode : Mode) (before : List Value) (frames : List Frame), mode.AwaitsValue →
    Takes Reader.step ⟨mode, .array before :: frames⟩ (text ++ [']'])
      ⟨.done (.array (before.reverse ++ elements)), frames⟩

/-- In an object, the text is taken to the end of the value of this member. -/
def ReadsMember (member : CodePoints × Value) (text : List Char) : Prop :=
  ∀ (mode : Mode) (before : List (CodePoints × Value)) (frames : List Frame),
    mode.AwaitsName before →
      ∃ r, Takes Reader.step ⟨mode, frames⟩ text r ∧
        Ended member.2 (.object before member.1 :: frames) r

/-- In an object, the text and the closing bracket add these members and end the object. -/
def ReadsMembers (members : List (CodePoints × Value)) (text : List Char) : Prop :=
  ∀ (mode : Mode) (before : List (CodePoints × Value)) (frames : List Frame),
    mode.AwaitsName before →
      Takes Reader.step ⟨mode, frames⟩ (text ++ ['}'])
        ⟨.done (.object (before.reverse ++ members)), frames⟩

theorem beginValue_of_start? {phase : NumberPhase} (h : NumberPhase.start? c = some phase) :
    Reader.beginValue frames c = some ⟨.number phase [c], frames⟩ := by
  unfold Reader.beginValue
  split
  case h_7 => rw [h, Option.map_some]
  all_goals cases h

/-- A number begins like nothing else that may stand in its place. -/
theorem step_of_start? (hmode : mode.AwaitsValue) {phase : NumberPhase}
    (h : NumberPhase.start? c = some phase) :
    Reader.step ⟨mode, frames⟩ c = some ⟨.number phase [c], frames⟩ := by
  have hother : ∀ c ∈ [' ', '\n', '\t', '\r', ']'], NumberPhase.start? c = none :=
    List.all_iff_forall_prop.mp (by decide)
  have hnotMem : c ∉ [' ', '\n', '\t', '\r', ']'] := by
    intro hc
    rw [hother c hc] at h
    cases h
  have hblank : ¬ isBlank c = true :=
    fun hc => hnotMem (List.mem_append_left [']'] (isBlank_iff.mp hc))
  have hbracket : c ≠ ']' := by
    rintro rfl
    exact hnotMem (by decide)
  cases hmode with
  | value => exact (if_neg hblank).trans (beginValue_of_start? h)
  | firstElement =>
    exact (if_neg hblank).trans ((if_neg hbracket).trans (beginValue_of_start? h))

theorem readsValue_number {literal : List Char} (h : IsNumber literal) :
    ReadsValue (.number literal) literal := by
  intro mode frames hmode
  obtain ⟨c, rest, phase, phase', rfl, hstart, hrest, hcomplete⟩ :=
    NumberPhase.exists_start_of_isNumber h
  have hended : Ended (.number (rest.reverse ++ [c]).reverse) frames
      ⟨.number phase' (rest.reverse ++ [c]), frames⟩ := .number hcomplete
  rw [List.reverse_append, List.reverse_reverse] at hended
  exact ⟨_, .cons (step_of_start? hmode hstart) (takes_number hrest), hended⟩

theorem readsValue_string {content : CodePoints} (h : SpellsString content text) :
    ReadsValue (.string content) text := by
  intro mode frames hmode
  obtain ⟨hpoints⟩ := h
  have hopen : Reader.step ⟨mode, frames⟩ '"' = some ⟨.text .start, frames⟩ := by
    cases hmode <;> rfl
  exact ⟨_, .cons hopen (takes_of_spellsPoints_quote readsString_text hpoints), .done⟩

theorem step_openArray (hmode : mode.AwaitsValue) :
    Reader.step ⟨mode, frames⟩ '[' = some ⟨.firstElement, .array [] :: frames⟩ := by
  cases hmode <;> rfl

theorem step_openObject (hmode : mode.AwaitsValue) :
    Reader.step ⟨mode, frames⟩ '{' = some ⟨.firstName, frames⟩ := by
  cases hmode <;> rfl

theorem readsValue_emptyArray (hblanks : Blanks text) :
    ReadsValue (.array []) ('[' :: (text ++ [']'])) := by
  intro mode frames hmode
  have hclose : Takes Reader.step ⟨.firstElement, .array [] :: frames⟩ [']']
      ⟨.done (.array []), frames⟩ := .single rfl
  exact ⟨_, .cons (step_openArray hmode) (.append (takes_blanks trivial hblanks) hclose), .done⟩

theorem readsValue_array {elements : List Value} (h : ReadsElements elements text) :
    ReadsValue (.array elements) ('[' :: (text ++ [']'])) := by
  intro mode frames hmode
  exact ⟨_, .cons (step_openArray hmode) (h _ [] frames .firstElement), .done⟩

theorem readsValue_emptyObject (hblanks : Blanks text) :
    ReadsValue (.object []) ('{' :: (text ++ ['}'])) := by
  intro mode frames hmode
  have hclose : Takes Reader.step ⟨.firstName, frames⟩ ['}'] ⟨.done (.object []), frames⟩ :=
    .single rfl
  exact ⟨_, .cons (step_openObject hmode) (.append (takes_blanks trivial hblanks) hclose), .done⟩

theorem readsValue_object {members : List (CodePoints × Value)} (h : ReadsMembers members text) :
    ReadsValue (.object members) ('{' :: (text ++ ['}'])) := by
  intro mode frames hmode
  exact ⟨_, .cons (step_openObject hmode) (h _ [] frames .firstName), .done⟩

theorem ReadsValue.amid {before after : List Char} (h : ReadsValue value text)
    (hbefore : Blanks before) (hafter : Blanks after) :
    ReadsValue value (before ++ (text ++ after)) := by
  intro mode frames hmode
  obtain ⟨r, htakes, hended⟩ := h mode frames hmode
  obtain ⟨r', hrest, hended'⟩ := hended.takes_blanks hafter
  exact ⟨r', .append (takes_blanks hmode.isBetween hbefore) (.append htakes hrest), hended'⟩

theorem ReadsValue.last (h : ReadsValue value text) : ReadsElements [value] text := by
  intro mode before frames hmode
  obtain ⟨r, htakes, hended⟩ := h mode (.array before :: frames) hmode
  have hclose : r.step ']' = some ⟨.done (.array (value :: before).reverse), frames⟩ :=
    hended.step_follower (by decide)
  rw [← List.reverse_cons]
  exact .append htakes (.single hclose)

theorem ReadsElements.cons {elements : List Value} (hrest : ReadsElements elements more)
    (h : ReadsValue value text) : ReadsElements (value :: elements) (text ++ ',' :: more) := by
  intro mode before frames hmode
  obtain ⟨r, htakes, hended⟩ := h mode (.array before :: frames) hmode
  have hcomma : r.step ',' = some ⟨.value, .array (value :: before) :: frames⟩ :=
    hended.step_follower (by decide)
  have hmore := hrest .value (value :: before) frames .value
  rw [List.reverse_cons, List.append_assoc, List.singleton_append] at hmore
  rw [List.append_assoc, List.cons_append]
  exact .append htakes (.cons hcomma hmore)

theorem ReadsValue.member {name : CodePoints} {before quoted after : List Char}
    (h : ReadsValue value text) (hbefore : Blanks before) (hname : SpellsString name quoted)
    (hafter : Blanks after) :
    ReadsMember (name, value) (before ++ (quoted ++ (after ++ ':' :: text))) := by
  intro mode earlier frames hmode
  obtain ⟨r, htakes, hended⟩ := h .value (.object earlier name :: frames) .value
  obtain ⟨hpoints⟩ := hname
  have hcolon : Reader.step ⟨.colon earlier name, frames⟩ ':' =
      some ⟨.value, .object earlier name :: frames⟩ := rfl
  refine ⟨r, .append (takes_blanks hmode.isBetween hbefore) (.append (.cons hmode.step_quote
    (takes_of_spellsPoints_quote (readsString_nameText earlier) hpoints)) ?_), hended⟩
  exact .append (takes_blanks trivial hafter) (.cons hcolon htakes)

theorem ReadsMember.last {member : CodePoints × Value} (h : ReadsMember member text) :
    ReadsMembers [member] text := by
  intro mode before frames hmode
  obtain ⟨r, htakes, hended⟩ := h mode before frames hmode
  have hclose : r.step '}' = some ⟨.done (.object (member :: before).reverse), frames⟩ :=
    hended.step_follower (by decide)
  rw [← List.reverse_cons]
  exact .append htakes (.single hclose)

theorem ReadsMembers.cons {member : CodePoints × Value} {members : List (CodePoints × Value)}
    (hrest : ReadsMembers members more) (h : ReadsMember member text) :
    ReadsMembers (member :: members) (text ++ ',' :: more) := by
  intro mode before frames hmode
  obtain ⟨r, htakes, hended⟩ := h mode before frames hmode
  have hcomma : r.step ',' = some ⟨.name (member :: before), frames⟩ :=
    hended.step_follower (by decide)
  have hmore := hrest (.name (member :: before)) (member :: before) frames .name
  rw [List.reverse_cons, List.append_assoc, List.singleton_append] at hmore
  rw [List.append_assoc, List.cons_append]
  exact .append htakes (.cons hcomma hmore)

/-! ## Texts -/

/-- One case for each rule of the grammar. -/
theorem readsValue_of_spellsAmid (h : SpellsAmid value text) : ReadsValue value text := by
  refine @SpellsAmid.rec (fun value text _ => ReadsValue value text)
    (fun value text _ => ReadsValue value text) (fun elements text _ => ReadsElements elements text)
    (fun member text _ => ReadsMember member text) (fun members text _ => ReadsMembers members text)
    ?null ?true ?false ?number ?string ?emptyArray ?array ?emptyObject ?object ?amid ?lastElement
    ?elements ?member ?lastMember ?members value text h
  case null => exact fun _ frames hmode => ⟨⟨.done .null, frames⟩, by cases hmode <;> rfl, .done⟩
  case true =>
    exact fun _ frames hmode => ⟨⟨.done (.bool true), frames⟩, by cases hmode <;> rfl, .done⟩
  case false =>
    exact fun _ frames hmode => ⟨⟨.done (.bool false), frames⟩, by cases hmode <;> rfl, .done⟩
  case number => exact readsValue_number
  case string => exact readsValue_string
  case emptyArray => exact readsValue_emptyArray
  case array => exact fun _ ih => readsValue_array ih
  case emptyObject => exact readsValue_emptyObject
  case object => exact fun _ ih => readsValue_object ih
  case amid => exact fun hbefore _ hafter ih => ih.amid hbefore hafter
  case lastElement => exact fun _ ih => ih.last
  case elements => exact fun _ _ ih ihrest => ihrest.cons ih
  case member => exact fun hbefore hname hafter _ ih => ih.member hbefore hname hafter
  case lastMember => exact fun _ ih => ih.last
  case members => exact fun _ _ ih ihrest => ihrest.cons ih

/-- **The reader reads what is spelled.** -/
theorem read?_eq_some_of_spellsAmid {text : String} (h : SpellsAmid value text.toList) :
    read? text = some value := by
  obtain ⟨r, htakes, hended⟩ := readsValue_of_spellsAmid h .value [] .value
  have htaken : text.toList.foldlM Reader.step Reader.start = some r := htakes
  rw [read?, htaken, Option.bind_some, hended.finish?]

end Json
end CompilerTables
