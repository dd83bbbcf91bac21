import PocketCalc.Proofs.SurroundingBlanks

/-! A blank between two texts separates them. Each part of the scanner stops in front of a
blank as it does at the end of a text, so nothing behind the blank has a say in what is found
before it, be that a fault, and what is found behind it is that of the second text alone. -/

namespace PocketCalc

section
variable {stop : Char} {property : Char → Bool}

private theorem takeWhile_append_stop (stops : property stop = false) (text other : List Char) :
    (text ++ stop :: other).takeWhile property = text.takeWhile property := by
  induction text with
  | nil => exact List.takeWhile_cons_of_neg (by simp [stops])
  | cons first rest ih =>
    rw [List.cons_append, List.takeWhile_cons, List.takeWhile_cons, ih]

private theorem dropWhile_append_stop (stops : property stop = false) (text other : List Char) :
    (text ++ stop :: other).dropWhile property = text.dropWhile property ++ stop :: other := by
  induction text with
  | nil => exact List.dropWhile_cons_of_neg (by simp [stops])
  | cons first rest ih =>
    rw [List.cons_append, List.dropWhile_cons, List.dropWhile_cons, ih]
    split
    · rfl
    · rw [List.cons_append]

end

variable {blank : Char}

private theorem not_digit_of_blank (separates : isBlank blank = true) : blank.isDigit = false := by
  have contained : CharacterClass.blank.Contains blank := separates
  exact Bool.eq_false_iff.mpr fun digit =>
    CharacterClass.not_numeral_of_blank contained (.inl digit)

private theorem ne_of_blank {character : Char} (separates : isBlank blank = true)
    (solid : isBlank character = false) : blank ≠ character := by
  rintro rfl
  rw [solid] at separates
  contradiction

section
variable (separates : isBlank blank = true) (text other : List Char)
include separates

private theorem Sign.scan?_append_blank : scan? (text ++ blank :: other) =
    ((scan? text).1, (scan? text).2 ++ blank :: other) := by
  cases text with
  | nil =>
    have notPlus : blank ≠ '+' := ne_of_blank separates (by decide)
    have notMinus : blank ≠ '-' := ne_of_blank separates (by decide)
    simp [scan?, notPlus, notMinus]
  | cons first rest =>
    rw [List.cons_append]
    unfold scan?
    split <;> simp_all

namespace Numeral

private theorem scanFraction_append_blank : scanFraction (text ++ blank :: other) =
    ((scanFraction text).1, (scanFraction text).2 ++ blank :: other) := by
  have stops := not_digit_of_blank separates
  cases text with
  | nil =>
    have notPoint : blank ≠ '.' := ne_of_blank separates (by decide)
    simp [scanFraction, notPoint]
  | cons first rest =>
    by_cases point : first = '.'
    · subst point
      simp only [scanFraction, List.cons_append, takeWhile_append_stop stops,
        dropWhile_append_stop stops]
    · simp [scanFraction, point]

private theorem scanExponent_append_blank : scanExponent (text ++ blank :: other) =
    ((scanExponent text).1, (scanExponent text).2 ++ blank :: other) := by
  have stops := not_digit_of_blank separates
  cases text with
  | nil =>
    have notSmall : blank ≠ 'e' := ne_of_blank separates (by decide)
    have notLarge : blank ≠ 'E' := ne_of_blank separates (by decide)
    simp [scanExponent, notSmall, notLarge]
  | cons mark rest =>
    -- An exponent without a digit before the blank has none behind it either.
    simp only [scanExponent, List.cons_append, Sign.scan?_append_blank separates,
      takeWhile_append_stop stops, dropWhile_append_stop stops]
    split <;> rfl

private theorem scan_append_blank : scan (text ++ blank :: other) =
    ((scan text).1, (scan text).2 ++ blank :: other) := by
  have stops := not_digit_of_blank separates
  simp only [scan, takeWhile_append_stop stops, dropWhile_append_stop stops,
    scanFraction_append_blank separates, scanExponent_append_blank separates]
  split <;> rfl

end Numeral

namespace Token

theorem not_foreign_of_blank : isForeign blank = false := by
  simp [isForeign, separates]

/-- The first step on a text goes no further than the blank behind it. -/
theorem first_append_blank (character : Char) :
    first character (text ++ blank :: other) =
      (first character text).map fun (token, after) => (token, after ++ blank :: other) := by
  have stops := continuesAtom_of_blank separates
  have notStar : blank ≠ '*' := ne_of_blank separates (by decide)
  unfold first
  split
  · rw [takeWhile_append_stop stops, dropWhile_append_stop stops]
    rfl
  · split
    · rw [← List.cons_append, Numeral.scan_append_blank separates]
      dsimp only
      cases ofNumeral (Numeral.scan (character :: text)).1 <;> rfl
    · cases found : ofOperator? character with
      | none =>
        dsimp only
        split
        · rfl
        · rw [← List.cons_append, takeWhile_append_stop (not_foreign_of_blank separates)]
          rfl
      | some token =>
        -- Only a star looks at what follows it, and a blank is not the second of two.
        cases token with
        | multiply =>
          cases text with
          | nil => simp [notStar, Except.map]
          | cons next rest =>
            by_cases star : next = '*'
            · subst star
              rfl
            · simp [star, Except.map]
        | _ => rfl

end Token
end

namespace Token

/-- Scanning goes on behind a blank as at the beginning of a text. -/
theorem scan_append_blank (separates : isBlank blank = true) (text other : List Char) :
    scan (text ++ blank :: other) =
      (scan text).bind fun tokens => (scan other).map (tokens ++ ·) := by
  match text with
  | [] =>
    rw [List.nil_append, scan_blank separates, scan_nil]
    cases scan other <;> rfl
  | character :: rest =>
    rw [List.cons_append, scan_cons, scan_cons, first_append_blank separates]
    cases found : first character rest with
    | error fault => rfl
    | ok step =>
      obtain ⟨token, after⟩ := step
      have shorter := first_rest_length found
      change (scan (after ++ blank :: other)).map (token.toList ++ ·) =
        ((scan after).map (token.toList ++ ·)).bind _
      rw [scan_append_blank separates after other]
      cases scan after with
      | error fault => rfl
      | ok tokens =>
        cases scan other with
        | error fault => rfl
        | ok others => simp [Except.map, Except.bind]
termination_by text.length
decreasing_by exact Nat.lt_succ_of_le shorter

/-- A blank between two texts separates them: the tokens are those of the first and then those
of the second, the fault of the first is reported in any case, and that of the second if the
first has none. -/
theorem blanks_separate {blank : Char} (separates : isBlank blank = true) (text other : String) :
    scan (text ++ String.singleton blank ++ other).toList =
      match scan text.toList, scan other.toList with
      | .error fault, _ => .error fault
      | .ok _, .error fault => .error fault
      | .ok tokens, .ok others => .ok (tokens ++ others) := by
  have whole : (text ++ String.singleton blank ++ other).toList =
      text.toList ++ blank :: other.toList := by simp
  rw [whole, scan_append_blank separates]
  cases scan text.toList with
  | error fault => rfl
  | ok tokens => cases scan other.toList <;> rfl

/-- Without the blank between them the two texts would be one numeral. -/
theorem blanks_separate_a_mark_from_digits :
    isBlank '\u2003' = true ∧
    scan ("2e+" ++ String.singleton '\u2003' ++ "3").toList =
      .ok [.number (.ofDecimal false ⟨2, 0⟩), .atom "e", .plus,
        .number (.ofDecimal false ⟨3, 0⟩)] := by
  have separates : isBlank '\u2003' = true := by decide
  have front : scan "2e+".toList =
      .ok [.number (.ofDecimal false ⟨2, 0⟩), .atom "e", .plus] := by decide +kernel
  have behind : scan "3".toList = .ok [.number (.ofDecimal false ⟨3, 0⟩)] := by decide +kernel
  have whole := blanks_separate separates "2e+" "3"
  rw [front, behind] at whole
  exact ⟨separates, whole⟩

end Token
end PocketCalc
