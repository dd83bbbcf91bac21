import PocketCalc.Numeral.Basic
import Mathlib.Data.List.TakeWhile

/-! Which texts are numerals, stated on its own, and that scanning takes the longest one a
text begins with. Each part of a numeral begins with a character the part before it cannot
go on with, so the parts are as long as possible if the whole is. -/

namespace PocketCalc
namespace Numeral

def Digits (text : List Char) : Prop := ∀ character ∈ text, character.isDigit = true

inductive SpellsFraction : Option (List Char) → List Char → Prop
  | absent : SpellsFraction none []
  | point {digits} : Digits digits → SpellsFraction (some digits) ('.' :: digits)

inductive SpellsExponent : Option (Option Sign × List Char) → List Char → Prop
  | absent : SpellsExponent none []
  | marked {mark sign digits} : mark = 'e' ∨ mark = 'E' → digits ≠ [] → Digits digits →
      SpellsExponent (some (sign, digits)) (mark :: ((sign.map Sign.char).toList ++ digits))

/-- Digits before a point, after it, or both, and then perhaps an exponent. -/
inductive Spells : Numeral → List Char → Prop
  | parts {whole fraction pointed exponent marked} : Digits whole →
      SpellsFraction fraction pointed → whole ++ fraction.getD [] ≠ [] →
      SpellsExponent exponent marked →
      Spells ⟨whole, fraction, exponent⟩ (whole ++ (pointed ++ marked))

private theorem digits_takeWhile (text : List Char) : Digits (text.takeWhile Char.isDigit) :=
  fun _ => List.mem_takeWhile_imp

private theorem digits_or (text : List Char) :
    (text.takeWhile Char.isDigit = [] ∧ text.dropWhile Char.isDigit = text) ∨
      ∃ digit rest, text = digit :: rest ∧ digit.isDigit = true := by
  cases text with
  | nil => exact .inl ⟨rfl, rfl⟩
  | cons first rest =>
    cases digit : first.isDigit
    · refine .inl ⟨List.takeWhile_cons_of_neg ?_, List.dropWhile_cons_of_neg ?_⟩ <;> simp [digit]
    · exact .inr ⟨first, rest, rfl, digit⟩

private theorem dropWhile_length_lt {digit : Char} (isDigit : digit.isDigit = true)
    (rest : List Char) :
    ((digit :: rest).dropWhile Char.isDigit).length < (digit :: rest).length := by
  rw [List.dropWhile_cons_of_pos isDigit]
  exact Nat.lt_succ_of_le (dropWhile_length_le _ _)

theorem scan_digits (text : List Char) : (scan text).1.digits =
    text.takeWhile Char.isDigit ++ (scanFraction (text.dropWhile Char.isDigit)).1.getD [] := by
  unfold scan
  dsimp only
  split <;> rfl

private theorem scan_of_digits (text : List Char) (present : (scan text).1.digits ≠ []) :
    scan text =
    (⟨text.takeWhile Char.isDigit, (scanFraction (text.dropWhile Char.isDigit)).1,
      (scanExponent (scanFraction (text.dropWhile Char.isDigit)).2).1⟩,
      (scanExponent (scanFraction (text.dropWhile Char.isDigit)).2).2) := by
  rw [scan_digits] at present
  unfold scan
  dsimp only
  rw [if_neg (by simpa using present)]

private theorem scanFraction_spells (text : List Char) :
    ∃ pointed, text = pointed ++ (scanFraction text).2 ∧
      SpellsFraction (scanFraction text).1 pointed := by
  unfold scanFraction
  split
  next rest =>
    refine ⟨'.' :: rest.takeWhile Char.isDigit, ?_, .point (digits_takeWhile rest)⟩
    rw [List.cons_append, List.takeWhile_append_dropWhile]
  next => exact ⟨[], rfl, .absent⟩

private theorem sign_scan?_spells (text : List Char) :
    text = ((Sign.scan? text).1.map Sign.char).toList ++ (Sign.scan? text).2 := by
  unfold Sign.scan?
  split <;> rfl

private theorem scanExponent_spells (text : List Char) :
    ∃ marked, text = marked ++ (scanExponent text).2 ∧
      SpellsExponent (scanExponent text).1 marked := by
  unfold scanExponent
  split
  next => exact ⟨[], rfl, .absent⟩
  next mark rest =>
    dsimp only
    split
    next present =>
      simp only [Bool.and_eq_true, Bool.or_eq_true, beq_iff_eq, Bool.not_eq_true',
        List.isEmpty_eq_false_iff] at present
      refine ⟨_, ?_, .marked present.1 present.2 (digits_takeWhile _)⟩
      rw [List.cons_append, List.append_assoc, List.takeWhile_append_dropWhile,
        ← sign_scan?_spells]
    next => exact ⟨[], rfl, .absent⟩

/-- What is scanned is a numeral in front of what is left, unless it has no digits. -/
theorem scan_spells {text : List Char} (present : (scan text).1.digits ≠ []) :
    ∃ lexeme, text = lexeme ++ (scan text).2 ∧ (scan text).1.Spells lexeme := by
  have digits := scan_digits text
  obtain ⟨pointed, pointedText, fraction⟩ := scanFraction_spells (text.dropWhile Char.isDigit)
  obtain ⟨marked, markedText, exponent⟩ :=
    scanExponent_spells (scanFraction (text.dropWhile Char.isDigit)).2
  rw [digits] at present
  refine ⟨text.takeWhile Char.isDigit ++ (pointed ++ marked), ?_, ?_⟩
  · rw [scan_of_digits text (digits ▸ present), List.append_assoc, List.append_assoc, ← markedText,
      ← pointedText, List.takeWhile_append_dropWhile]
  · rw [scan_of_digits text (digits ▸ present)]
    exact .parts (digits_takeWhile text) fraction present exponent

private theorem SpellsFraction.not_digit {fraction : Option (List Char)}
    {pointed rest after : List Char} {digit : Char} (spells : SpellsFraction fraction pointed)
    (isDigit : digit.isDigit = true) (same : pointed ++ rest = digit :: after) :
    fraction = none ∧ pointed = [] := by
  cases spells with
  | absent => exact ⟨rfl, rfl⟩
  | point =>
    cases same
    contradiction

private theorem SpellsExponent.not_mark {exponent : Option (Option Sign × List Char)}
    {marked rest after : List Char} {first : Char} (spells : SpellsExponent exponent marked)
    (noMark : first ≠ 'e' ∧ first ≠ 'E') (same : marked ++ rest = first :: after) :
    exponent = none ∧ marked = [] := by
  cases spells with
  | absent => exact ⟨rfl, rfl⟩
  | marked mark =>
    cases same
    exact absurd mark (not_or.mpr noMark)

private theorem not_mark_of_digit {digit : Char} (isDigit : digit.isDigit = true) :
    digit ≠ 'e' ∧ digit ≠ 'E' := by
  constructor <;> rintro rfl <;> contradiction

private theorem sign_scan?_append (sign : Option Sign) {digits : List Char} (present : digits ≠ [])
    (all : Digits digits) (rest : List Char) :
    Sign.scan? ((sign.map Sign.char).toList ++ digits ++ rest) = (sign, digits ++ rest) := by
  obtain ⟨first, others, rfl⟩ := List.exists_cons_of_ne_nil present
  have digit := all first List.mem_cons_self
  match sign with
  | some .plus | some .minus => rfl
  | none =>
    unfold Sign.scan?
    split
    next same =>
      cases same
      contradiction
    next same =>
      cases same
      contradiction
    next => rfl

/-- An exponent is scanned as it is spelled, unless digits follow it. -/
theorem SpellsExponent.scan_append {exponent : Option (Option Sign × List Char)}
    {marked : List Char} (spells : SpellsExponent exponent marked) (rest : List Char) :
    scanExponent (marked ++ rest) = (exponent, rest) ∨
      (scanExponent (marked ++ rest)).2.length < rest.length := by
  cases spells with
  | absent =>
    rw [List.nil_append]
    obtain ⟨found, text, spelled⟩ := scanExponent_spells rest
    generalize scanExponent rest = scanned at *
    obtain ⟨exponent, after⟩ := scanned
    subst text
    cases spelled with
    | absent => exact .inl rfl
    | marked =>
      right
      simp only [List.length_append, List.length_cons]
      omega
  | @marked mark sign digits isMark present all =>
    have scanned : scanExponent (mark :: ((sign.map Sign.char).toList ++ digits) ++ rest) =
        (some (sign, digits ++ rest.takeWhile Char.isDigit), rest.dropWhile Char.isDigit) := by
      simp only [scanExponent, List.cons_append]
      rw [sign_scan?_append sign present all, List.takeWhile_append_of_pos all,
        List.dropWhile_append_of_pos all, if_pos]
      simpa using ⟨isMark, fun none => absurd none present⟩
    rw [scanned]
    obtain ⟨none, same⟩ | ⟨digit, others, rfl, isDigit⟩ := digits_or rest
    · rw [none, same, List.append_nil]
      exact .inl rfl
    · exact .inr (dropWhile_length_lt isDigit others)

/-- A fraction is scanned as it is spelled, unless it goes on with digits or begins after all. -/
theorem SpellsFraction.scan_append {fraction : Option (List Char)} {pointed : List Char}
    (spells : SpellsFraction fraction pointed) (rest : List Char) :
    scanFraction (pointed ++ rest) = (fraction, rest) ∨
      fraction.getD [] <+: (scanFraction (pointed ++ rest)).1.getD [] ∧
      (scanFraction (pointed ++ rest)).2.length < rest.length ∧
      ∃ first after, rest = first :: after ∧ (first ≠ 'e' ∧ first ≠ 'E') := by
  cases spells with
  | absent =>
    rw [List.nil_append]
    unfold scanFraction
    split
    next after =>
      exact .inr ⟨List.nil_prefix, Nat.lt_succ_of_le (dropWhile_length_le _ _), '.', after, rfl,
        by decide⟩
    next => exact .inl rfl
  | @point digits all =>
    have scanned : scanFraction ('.' :: digits ++ rest) =
        (some (digits ++ rest.takeWhile Char.isDigit), rest.dropWhile Char.isDigit) := by
      simp only [scanFraction, List.cons_append]
      rw [List.takeWhile_append_of_pos all, List.dropWhile_append_of_pos all]
    rw [scanned]
    obtain ⟨none, same⟩ | ⟨digit, after, rfl, isDigit⟩ := digits_or rest
    · rw [none, same, List.append_nil]
      exact .inl rfl
    · exact .inr ⟨List.prefix_append _ _, dropWhile_length_lt isDigit after, digit, after, rfl,
        not_mark_of_digit isDigit⟩

/-- A numeral in front of a text is scanned as it is spelled, unless a longer one is. -/
theorem Spells.scan_append {numeral : Numeral} {lexeme : List Char}
    (spells : numeral.Spells lexeme) (rest : List Char) :
    scan (lexeme ++ rest) = (numeral, rest) ∨ (scan (lexeme ++ rest)).1.digits ≠ [] ∧
      (scan (lexeme ++ rest)).2.length < rest.length := by
  obtain @⟨whole, fraction, pointed, exponent, marked, all, fractional, present, exponential⟩ :=
    spells
  have taken : (whole ++ (pointed ++ marked) ++ rest).takeWhile Char.isDigit =
      whole ++ (pointed ++ (marked ++ rest)).takeWhile Char.isDigit := by
    rw [List.append_assoc, List.append_assoc, List.takeWhile_append_of_pos all]
  have dropped : (whole ++ (pointed ++ marked) ++ rest).dropWhile Char.isDigit =
      (pointed ++ (marked ++ rest)).dropWhile Char.isDigit := by
    rw [List.append_assoc, List.append_assoc, List.dropWhile_append_of_pos all]
  generalize whole ++ (pointed ++ marked) ++ rest = text at *
  have digits := scan_digits text
  have whence := scan_of_digits text
  have shorter := scan_rest_length_le_fraction text
  rw [taken, dropped] at digits whence
  rw [dropped] at shorter
  obtain ⟨none, same⟩ | ⟨digit, after, same, isDigit⟩ := digits_or (pointed ++ (marked ++ rest))
  · rw [none, same, List.append_nil] at digits whence
    rw [same] at shorter
    obtain exact | ⟨longer, less, first, after, begun, noMark⟩ :=
      fractional.scan_append (marked ++ rest)
    · rw [exact] at digits whence
      rw [whence (by rw [digits]; exact present)]
      obtain exact | less := exponential.scan_append rest
      · rw [exact]
        exact .inl rfl
      · refine .inr ⟨?_, less⟩
        exact present
    · -- More of a fraction follows, so the lexeme has no exponent.
      obtain ⟨rfl, rfl⟩ := exponential.not_mark noMark begun
      refine .inr ⟨?_, shorter.trans_lt less⟩
      obtain ⟨more, same⟩ := longer
      rw [digits, ← same, ← List.append_assoc]
      exact List.append_ne_nil_of_left_ne_nil present more
  · -- More digits follow the whole part, so that is all the lexeme is.
    obtain ⟨rfl, rfl⟩ := fractional.not_digit isDigit same
    obtain ⟨rfl, rfl⟩ := exponential.not_mark (not_mark_of_digit isDigit) same
    obtain rfl : rest = digit :: after := same
    refine .inr ⟨?_, ?_⟩
    · rw [Option.getD_none, List.append_nil] at present
      rw [digits, List.append_assoc]
      exact List.append_ne_nil_of_left_ne_nil present _
    · exact (shorter.trans (scanFraction_rest_length _)).trans_lt (dropWhile_length_lt isDigit after)

theorem Spells.scan_whole {numeral : Numeral} {lexeme : List Char}
    (spells : numeral.Spells lexeme) : scan lexeme = (numeral, []) := by
  have scanned := spells.scan_append []
  rw [List.append_nil] at scanned
  exact scanned.resolve_right fun longer => absurd longer.2 (Nat.not_lt_zero _)

theorem Spells.unique {numeral other : Numeral} {lexeme : List Char}
    (spells : numeral.Spells lexeme) (alternative : other.Spells lexeme) : other = numeral := by
  have same := alternative.scan_whole.symm.trans spells.scan_whole
  exact congrArg Prod.fst same

theorem Spells.scan_digits_ne_nil {numeral : Numeral} {lexeme : List Char}
    (spells : numeral.Spells lexeme) (rest : List Char) :
    (scan (lexeme ++ rest)).1.digits ≠ [] := by
  obtain exact | longer := spells.scan_append rest
  · rw [exact]
    obtain ⟨_, _, present, _⟩ := spells
    exact present
  · exact longer.1

theorem Spells.scan_rest_le {numeral : Numeral} {lexeme : List Char}
    (spells : numeral.Spells lexeme) (rest : List Char) :
    (scan (lexeme ++ rest)).2.length ≤ rest.length := by
  obtain exact | longer := spells.scan_append rest
  · rw [exact]
  · exact longer.2.le

theorem Spells.exists_first {numeral : Numeral} {lexeme : List Char}
    (spells : numeral.Spells lexeme) :
    ∃ first others, lexeme = first :: others ∧ (first.isDigit = true ∨ first = '.') := by
  obtain @⟨whole, _, _, _, _, all, fractional, present, _⟩ := spells
  cases whole with
  | cons first others => exact ⟨first, _, rfl, .inl (all first List.mem_cons_self)⟩
  | nil =>
    cases fractional with
    | absent => exact absurd rfl present
    | point => exact ⟨'.', _, rfl, .inr rfl⟩

/-- No numeral contains a blank, a comma or a letter other than its exponent mark. -/
theorem Spells.characters {numeral : Numeral} {lexeme : List Char}
    (spells : numeral.Spells lexeme) : ∀ character ∈ lexeme,
      character.isDigit = true ∨ character ∈ ['.', 'e', 'E', '+', '-'] := by
  intro character member
  obtain @⟨whole, fraction, pointed, exponent, marked, all, fractional, -, exponential⟩ := spells
  simp only [List.mem_append] at member
  rcases member with inWhole | inPointed | inMarked
  · exact .inl (all character inWhole)
  · cases fractional with
    | absent => cases inPointed
    | point digits =>
      rcases List.mem_cons.mp inPointed with rfl | inDigits
      · exact .inr (by decide)
      · exact .inl (digits character inDigits)
  · cases exponential with
    | absent => cases inMarked
    | @marked mark sign digits isMark _ all =>
      simp only [List.mem_cons, List.mem_append, Option.mem_toList] at inMarked
      rcases inMarked with rfl | inSign | inDigits
      · right
        rcases isMark with rfl | rfl <;> decide
      · right
        match sign, inSign with
        | some .plus, rfl | some .minus, rfl => decide
      · exact .inl (all character inDigits)

end Numeral
end PocketCalc
