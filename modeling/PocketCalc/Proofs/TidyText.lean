import PocketCalc.Proofs.CanonicalText
import PocketCalc.Proofs.Stretches

/-! What the keys keep of the text being typed. They look only at its last stretch and its last
character, but then the whole text is tidy: its arithmetic characters are operators or signs
one by one, and none of the stretches between them has two points. Numerals are tidy too, so
typing may go on from an answer. -/

namespace PocketCalc

/-- A text that keys typed. At its front and after another arithmetic character, the only one is
a minus, which no other follows. -/
structure Tidy (text : List Char) : Prop where
  front : ∀ first ∈ text.head?, isArithmetic first = true → first = '-'
  adjacent : ∀ first second, [first, second] <:+: text → isArithmetic first = true →
    isArithmetic second = true → first ≠ '-' ∧ second = '-'
  points : ∀ stretch, stretch <:+: text → (∀ character ∈ stretch, isArithmetic character = false) →
    stretch.count '.' ≤ 1

def isPlain (character : Char) : Bool := !isArithmetic character && character != '.'

theorem isPlain_iff {character : Char} :
    isPlain character = true ↔ isArithmetic character = false ∧ character ≠ '.' := by
  simp [isPlain]

theorem isArithmetic_iff {character : Char} :
    isArithmetic character = true ↔ character ∈ ['+', '*', '/'] ∨ character = '-' := by
  simp only [isArithmetic, Bool.or_eq_true, beq_iff_eq, List.mem_cons, List.not_mem_nil]
  tauto

/-- A character with a property that no arithmetic character has. -/
theorem not_arithmetic_of {property : Char → Bool} {character : Char}
    (holds : property character = true) (none : ['+', '-', '*', '/'].all (!property ·) = true) :
    isArithmetic character = false := by
  apply Bool.eq_false_iff.mpr
  intro arithmetic
  have member : character ∈ ['+', '-', '*', '/'] := by
    rcases isArithmetic_iff.mp arithmetic with operator | rfl
    · simp only [List.mem_cons] at operator ⊢
      tauto
    · decide
  have lacking := List.all_eq_true.mp none character member
  rw [holds] at lacking
  contradiction

theorem tidy_nil : Tidy [] := by
  refine ⟨by simp, by simp, ?_⟩
  intro stretch within _
  rw [List.infix_nil.mp within]
  exact Nat.zero_le 1

theorem Tidy.of_prefix {text shorter : List Char} (tidy : Tidy text) (initial : shorter <+: text) :
    Tidy shorter := by
  refine ⟨?_, ?_, ?_⟩
  · intro first begins
    obtain ⟨rest, rfl⟩ := initial
    apply tidy.front first
    rw [Option.mem_def] at begins ⊢
    rw [List.head?_append, begins, Option.some_or]
  · intro first second within
    exact tidy.adjacent first second (within.trans initial.isInfix)
  · intro stretch within
    exact tidy.points stretch (within.trans initial.isInfix)

theorem accepts_character (text : List Char) {key : Char} (other : key ≠ '.') :
    accepts text [key] = (!isArithmetic key || acceptsArithmetic key text.getLast?) := by
  unfold accepts
  split
  next same =>
    cases same
    contradiction
  next same =>
    cases same
    rfl
  next => simp_all

theorem accepts_plain (text : List Char) {key : Char} (plain : isPlain key = true) :
    accepts text [key] = true := by
  obtain ⟨notArithmetic, notPoint⟩ := isPlain_iff.mp plain
  rw [accepts_character text notPoint, notArithmetic]
  rfl

private theorem acceptsArithmetic_of_accepts {text : List Char} {key : Char}
    (accepted : accepts text [key] = true) (arithmetic : isArithmetic key = true) :
    acceptsArithmetic key text.getLast? = true := by
  have other : key ≠ '.' := by
    rintro rfl
    contradiction
  rw [accepts_character text other, arithmetic] at accepted
  exact accepted

theorem lastStretch_append (text : List Char) {stretch : List Char}
    (plain : ∀ character ∈ stretch, isArithmetic character = false) :
    lastStretch (text ++ stretch) = lastStretch text ++ stretch := by
  unfold lastStretch
  rw [List.reverse_append, List.takeWhile_append_of_pos, List.reverse_append, List.reverse_reverse]
  intro character member
  rw [plain character (List.mem_reverse.mp member)]
  rfl

/-- A point is accepted only if there is none in the stretch that it goes on with. -/
theorem not_mem_of_accepts_point {text stretch : List Char} (ending : stretch <:+ text)
    (plain : ∀ character ∈ stretch, isArithmetic character = false)
    (accepted : accepts text ['.'] = true) : '.' ∉ stretch := by
  intro member
  obtain ⟨earlier, rfl⟩ := ending
  rw [accepts, lastStretch_append earlier plain] at accepted
  simp [member] at accepted

private theorem getLast?_of_pair_suffix {text : List Char} {first second key : Char}
    (last : [first, second] <:+ text ++ [key]) : second = key ∧ text.getLast? = some first := by
  rcases List.suffix_concat_iff.mp last with none | ⟨initial, same, ending⟩
  · cases none
  · have same : [first] ++ [second] = initial ++ [key] := same
    obtain ⟨rfl, same⟩ := List.append_inj' same rfl
    obtain ⟨before, rfl⟩ := ending
    cases same
    exact ⟨rfl, List.getLast?_concat⟩

theorem acceptsArithmetic_some_iff (key last : Char) : acceptsArithmetic key (some last) = true ↔
    (isArithmetic last = true → last ≠ '-' ∧ key = '-') := by
  by_cases minus : last = '-'
  · subst minus
    exact iff_of_false Bool.false_ne_true fun allowed => (allowed rfl).1 rfl
  · cases arithmetic : isArithmetic last <;> simp [acceptsArithmetic, arithmetic, minus]

/-- The keys only look at the end of a text, which is where a new key may break anything. -/
theorem Tidy.append_key {text : List Char} {key : Char} (tidy : Tidy text)
    (accepted : accepts text [key] = true) : Tidy (text ++ [key]) := by
  refine ⟨?_, ?_, ?_⟩
  · intro first begins arithmetic
    cases text with
    | nil =>
      cases begins
      simpa [acceptsArithmetic] using acceptsArithmetic_of_accepts accepted arithmetic
    | cons => exact tidy.front first begins arithmetic
  · intro first second within arithmetic following
    rcases List.infix_concat_iff.mp within with last | earlier
    · obtain ⟨rfl, ends⟩ := getLast?_of_pair_suffix last
      have allowed := acceptsArithmetic_of_accepts accepted following
      rw [ends] at allowed
      exact (acceptsArithmetic_some_iff second first).mp allowed arithmetic
    · exact tidy.adjacent first second earlier arithmetic following
  · intro stretch within plain
    rcases List.infix_concat_iff.mp within with last | earlier
    · rcases List.suffix_concat_iff.mp last with rfl | ⟨before, rfl, ending⟩
      · exact Nat.zero_le 1
      · have clean := (List.forall_mem_append.mp plain).1
        rw [List.count_append]
        by_cases point : key = '.'
        · subst point
          rw [List.count_eq_zero.mpr (not_mem_of_accepts_point ending clean accepted)]
          rfl
        · rw [List.count_singleton]
          simpa [point] using tidy.points before ending.isInfix clean
    · exact tidy.points stretch earlier plain

theorem Tidy.append_plain {text typed : List Char} (tidy : Tidy text)
    (plain : typed.all isPlain = true) : Tidy (text ++ typed) := by
  induction typed generalizing text with
  | nil =>
    rw [List.append_nil]
    exact tidy
  | cons key rest ih =>
    rw [List.all_cons, Bool.and_eq_true] at plain
    have begun := tidy.append_key (accepts_plain text plain.1)
    rw [List.append_cons]
    exact ih begun plain.2

theorem isPlain_of_digit {digit : Char} (isDigit : digit.isDigit = true) :
    isPlain digit = true := by
  refine isPlain_iff.mpr ⟨not_arithmetic_of isDigit (by decide), ?_⟩
  rintro rfl
  contradiction

private theorem Tidy.append_digits {text digits : List Char} (tidy : Tidy text)
    (all : Numeral.Digits digits) : Tidy (text ++ digits) :=
  tidy.append_plain (List.all_eq_true.mpr fun digit member => isPlain_of_digit (all digit member))

private theorem Tidy.append_fraction {text pointed : List Char} {fraction : Option (List Char)}
    (tidy : Tidy text) (none : '.' ∉ text) (spells : Numeral.SpellsFraction fraction pointed) :
    Tidy (text ++ pointed) := by
  cases spells with
  | absent =>
    rw [List.append_nil]
    exact tidy
  | point all =>
    have accepted : accepts text ['.'] = true := by
      have none : '.' ∉ lastStretch text := by
        intro member
        apply none
        apply List.mem_reverse.mp
        exact List.takeWhile_subset _ (List.mem_reverse.mp member)
      simpa [accepts] using none
    rw [List.append_cons]
    exact (tidy.append_key accepted).append_digits all

/-- The sign of an exponent stands behind a letter. -/
theorem Tidy.append_exponent {text marked : List Char}
    {exponent : Option (Option Sign × List Char)} (tidy : Tidy text)
    (spells : Numeral.SpellsExponent exponent marked) : Tidy (text ++ marked) := by
  cases spells with
  | absent =>
    rw [List.append_nil]
    exact tidy
  | @marked mark sign digits isMark _ all =>
    have plain : isPlain mark = true := by rcases isMark with rfl | rfl <;> rfl
    have begun := tidy.append_key (accepts_plain text plain)
    rw [List.append_cons, ← List.append_assoc]
    refine Tidy.append_digits ?_ all
    cases sign with
    | none =>
      rw [Option.map_none, Option.toList_none, List.append_nil]
      exact begun
    | some sign =>
      apply begun.append_key
      have allowed : acceptsArithmetic sign.char (some mark) = true := by
        rw [acceptsArithmetic_some_iff, (isPlain_iff.mp plain).1]
        exact fun arithmetic => absurd arithmetic Bool.false_ne_true
      have other : sign.char ≠ '.' := by cases sign <;> decide
      rw [accepts_character _ other, List.getLast?_concat, allowed, Bool.or_true]

private theorem Tidy.append_numeral {text lexeme : List Char} {numeral : Numeral} (tidy : Tidy text)
    (none : '.' ∉ text) (spells : numeral.Spells lexeme) : Tidy (text ++ lexeme) := by
  obtain @⟨whole, _, pointed, _, marked, all, fractional, -, exponential⟩ := spells
  have none : '.' ∉ text ++ whole := by
    intro member
    rcases List.mem_append.mp member with before | inWhole
    · exact none before
    · exact absurd (all '.' inWhole) (by decide)
  rw [← List.append_assoc, ← List.append_assoc]
  exact ((tidy.append_digits all).append_fraction none fractional).append_exponent exponential

theorem tidy_withMinus {lexeme : List Char} {numeral : Numeral} (spells : numeral.Spells lexeme)
    (negative : Bool) : Tidy (withMinus negative lexeme) := by
  cases negative with
  | false => exact tidy_nil.append_numeral List.not_mem_nil spells
  | true =>
    have minus : Tidy ['-'] := tidy_nil.append_key rfl
    exact minus.append_numeral (by decide) spells

theorem tidy_errorText : Tidy errorText.toList := by
  apply tidy_nil.append_plain
  decide

theorem tidy_canonical (value : Binary64) : Tidy (canonical value).toList := by
  cases value with
  | finite negative magnitude =>
    obtain ⟨text, ⟨numeral, spells, -⟩, canonical⟩ := canonical_written negative magnitude
    rw [canonical, String.toList_ofList]
    exact tidy_withMinus spells _
  | nan | infinite => exact tidy_errorText

theorem tidy_answer (text : String) (mode : AngleMode) : Tidy (answer text mode).toList := by
  obtain ⟨value, same⟩ | failed := answer_eq_canonical_or text mode
  · rw [same]
    exact tidy_canonical value
  · rw [failed]
    exact tidy_errorText

end PocketCalc
