import PocketCalc.Proofs.TypedOperations

/-! Decimal numbers typed behind a text. Digits are always taken, and a point unless one stands
behind the last arithmetic character. A power does not end the stretch that its base stands in,
so a base with a point is what keeps one out of an exponent. -/

namespace PocketCalc

/-- A point stands in a text, and no arithmetic character behind it. -/
def Pointed (text : List Char) : Prop :=
  ∃ before after, text = before ++ '.' :: after ∧
    ∀ character ∈ after, isArithmetic character = false

theorem mem_lastStretch_iff {text : List Char} : '.' ∈ lastStretch text ↔ Pointed text := by
  constructor
  · intro member
    have ending : lastStretch text <:+ text := by
      rw [← List.reverse_prefix, lastStretch, List.reverse_reverse]
      exact List.takeWhile_prefix _
    have clean : ∀ character ∈ lastStretch text, isArithmetic character = false := by
      intro character inside
      simpa using List.mem_takeWhile_imp (List.mem_reverse.mp inside)
    obtain ⟨earlier, whole⟩ := ending
    obtain ⟨before, after, split⟩ := List.append_of_mem member
    refine ⟨earlier ++ before, after, ?_, fun character inside => ?_⟩
    · rw [← whole, split, List.append_assoc]
    · apply clean
      rw [split]
      exact List.mem_append_right before (List.mem_cons_of_mem '.' inside)
  · rintro ⟨before, after, rfl, clean⟩
    have plain : ∀ character ∈ '.' :: after, isArithmetic character = false :=
      List.forall_mem_cons.mpr ⟨rfl, clean⟩
    rw [lastStretch_append before plain]
    exact List.mem_append_right _ List.mem_cons_self

theorem accepts_point_iff {text : List Char} : accepts text ['.'] = true ↔ ¬ Pointed text := by
  rw [← mem_lastStretch_iff]
  simp [accepts]

/-- An arithmetic character at the end leaves a new stretch, which is empty. -/
theorem not_pointed_of_arithmetic {text : List Char} {last : Char}
    (ends : text.getLast? = some last) (arithmetic : isArithmetic last = true) :
    ¬ Pointed text := by
  rintro ⟨before, after, rfl, clean⟩
  have member : last ∈ '.' :: after := by
    rw [List.getLast?_append_of_ne_nil _ (List.cons_ne_nil '.' after)] at ends
    exact List.mem_of_getLast? ends
  rcases List.mem_cons.mp member with rfl | inside
  · contradiction
  · rw [clean last inside] at arithmetic
    contradiction

private theorem pointed_append_digits {text digits : List Char} (all : Numeral.Digits digits) :
    Pointed (text ++ digits) ↔ Pointed text := by
  have plain : ∀ character ∈ digits, isArithmetic character = false := fun character member =>
    not_arithmetic_of (all character member) (by decide)
  have none : '.' ∉ digits := fun member => absurd (all '.' member) (by decide)
  rw [← mem_lastStretch_iff, ← mem_lastStretch_iff, lastStretch_append text plain, List.mem_append]
  exact or_iff_left none

namespace Session

variable {session : Session} {whole fraction numeral : List Char}

private theorem step_number_of_refused {key : Char} (editing : session.calculated = false)
    (refused : ¬ accepts session.expression.toList [key] = true) :
    session.step (.number (String.singleton key)) = session := by
  simp [step, afresh, editing, append, isValidAppend, refused]

theorem run_cons (session : Session) (action : Action) (later : List Action) :
    session.run (action :: later) = (session.step action).run later := rfl

/-- The digits of a decimal number are all taken; whether its point is depends on what stands
before it. -/
theorem run_pointed (editing : session.calculated = false) (before : Numeral.Digits whole)
    (after : Numeral.Digits fraction) :
    (¬ Pointed session.expression.toList →
      session.run ((whole ++ '.' :: fraction).map fun key => .number (String.singleton key)) =
        { session with expression := session.expression ++ .ofList (whole ++ '.' :: fraction) }) ∧
    (Pointed session.expression.toList →
      session.run ((whole ++ '.' :: fraction).map fun key => .number (String.singleton key)) =
        { session with expression := session.expression ++ .ofList (whole ++ fraction) }) := by
  let begun : Session := { session with expression := session.expression ++ .ofList whole }
  have typing : begun.calculated = false := editing
  have allowed : accepts begun.expression.toList ['.'] = true ↔
      ¬ Pointed session.expression.toList := by
    rw [accepts_point_iff, String.toList_append, String.toList_ofList, pointed_append_digits before]
  rw [List.map_append, List.map_cons, run_append, run_digits editing before, run_cons]
  constructor
  · intro unpointed
    rw [step_number_of_accepted typing (allowed.mpr unpointed), run_digits ?_ after]
    · congr 1
      apply String.toList_inj.mp
      simp [begun]
    · exact editing
  · intro pointed
    rw [step_number_of_refused typing (mt allowed.mp (not_not.mpr pointed)),
      run_digits typing after]
    congr 1
    apply String.toList_inj.mp
    simp [begun]

/-- A decimal number without a point is its digits. With one, it is digits around the point. -/
theorem digits_or_pointed (unsigned : ∀ key ∈ numeral, key.isDigit = true ∨ key = '.')
    (once : numeral.count '.' ≤ 1) :
    Numeral.Digits numeral ∨ ∃ whole fraction, numeral = whole ++ '.' :: fraction ∧
      Numeral.Digits whole ∧ Numeral.Digits fraction := by
  have digits {part : List Char} (within : ∀ key ∈ part, key ∈ numeral) (none : '.' ∉ part) :
      Numeral.Digits part := by
    intro key member
    refine (unsigned key (within key member)).resolve_right ?_
    rintro rfl
    exact none member
  by_cases member : '.' ∈ numeral
  · right
    obtain ⟨whole, fraction, rfl⟩ := List.append_of_mem member
    rw [List.count_append, List.count_cons_self] at once
    refine ⟨whole, fraction, rfl, digits (by simp +contextual) ?_,
      digits (by simp +contextual) ?_⟩
    · exact List.count_eq_zero.mp (by omega)
    · exact List.count_eq_zero.mp (by omega)
  · exact .inl (digits (fun _ => id) member)

/-- To a session being typed in, a decimal number can be typed behind anything that ends in an
arithmetic character. In general it is typed as it is unless it has a point where the text has
one behind its last arithmetic character; that point is then refused, and nothing else. -/
theorem decimals_can_be_typed (session : Session) (numeral : List Char)
    (editing : session.calculated = false)
    (unsigned : ∀ key ∈ numeral, key.isDigit = true ∨ key = '.') (once : numeral.count '.' ≤ 1) :
    let text := session.expression.toList
    let typed := session.run (numeral.map fun key => .number (String.singleton key))
    (∀ last ∈ text.getLast?, isArithmetic last = true →
      typed = { session with expression := session.expression ++ .ofList numeral }) ∧
    (typed = { session with expression := session.expression ++ .ofList numeral } ↔
      ('.' ∈ numeral → ¬ Pointed text)) ∧
    ('.' ∈ numeral → Pointed text →
      typed = { session with expression := session.expression ++ .ofList (numeral.erase '.') }) ∧
    (isValidAppend session.expression "." = false ↔ Pointed text) := by
  intro text typed
  have whole : ('.' ∈ numeral → ¬ Pointed text) →
      typed = { session with expression := session.expression ++ .ofList numeral } := by
    intro unpointed
    rcases digits_or_pointed unsigned once with all | ⟨before, after, rfl, left, right⟩
    · exact run_digits editing all
    · exact (run_pointed editing left right).1 (unpointed (by simp))
  have without : '.' ∈ numeral → Pointed text →
      typed = { session with expression := session.expression ++ .ofList (numeral.erase '.') } := by
    intro member pointed
    rcases digits_or_pointed unsigned once with all | ⟨before, after, rfl, left, right⟩
    · exact absurd (all '.' member) (by decide)
    · have first : '.' ∉ before := fun inside => absurd (left '.' inside) (by decide)
      rw [List.erase_append_right _ first, List.erase_cons_head]
      exact (run_pointed editing left right).2 pointed
  refine ⟨fun last ends arithmetic => ?_, ⟨fun kept member pointed => ?_, whole⟩, without, ?_⟩
  · exact whole fun _ => not_pointed_of_arithmetic ends arithmetic
  · have same := congrArg (fun after => after.expression.toList.length)
      (kept.symm.trans (without member pointed))
    have shorter := List.length_erase_of_mem member
    have present := List.length_pos_of_mem member
    simp only [String.toList_append, String.toList_ofList, List.length_append] at same
    omega
  · rw [← not_iff_not, Bool.not_eq_false]
    exact accepts_point_iff

/-- In a product, an exponent may have a point although the first factor has one. -/
theorem decimals_can_be_typed_in_an_exponent :
    let session := (initial .degrees).run
      [.number "1", .number ".", .number "5", .operator "*", .number "2", .operator "^"]
    session.calculated = false ∧ session.expression = "1.5*2^" ∧
    (session.run (".25".toList.map fun key => .number (String.singleton key))).expression =
      "1.5*2^.25" := by
  intro session
  have editing : session.calculated = false := by decide +kernel
  have typed : session.expression = "1.5*2^" := by decide +kernel
  have accepted : isValidAppend session.expression "." = true := by decide +kernel
  obtain ⟨-, kept, -, refused⟩ := decimals_can_be_typed session ".25".toList editing (by simp)
    (by decide)
  have unpointed : ¬ Pointed session.expression.toList := by
    rw [← refused, accepted]
    exact Bool.noConfusion
  refine ⟨editing, typed, ?_⟩
  rw [kept.mpr fun _ => unpointed, typed]
  rfl

/-- The point of an exponent is lost if the base of the power has one. -/
theorem exponents_lose_their_point :
    let session := (initial .degrees).run [.number "1", .number ".", .number "5", .operator "^"]
    session.calculated = false ∧ session.expression = "1.5^" ∧
    (session.run (".5".toList.map fun key => .number (String.singleton key))).expression =
      "1.5^5" ∧ "1.5^5" ≠ session.expression ++ ".5" := by
  decide +kernel

end Session
end PocketCalc
