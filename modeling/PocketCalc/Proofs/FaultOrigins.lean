import PocketCalc.Proofs.FollowSets

/-! Where the fault that interrupts a reading comes from. A reader raises it itself, in one of a
few places, or passes on the fault of a reader it has entered. Down a chain of calls there is
therefore a reader that raised it, so a statement about a fault takes the place where it is raised
and one step from a called reader back to its caller. -/

namespace PocketCalc

variable {α : Type} {arity : String → Option Nat} {fault : Fault}

/-- A reading that is interrupted by the fault, whatever was complete by then. -/
def Fault.Interrupts (fault : Fault) (reading : Except Interruption α) : Prop :=
  ∃ complete, reading = .error ⟨complete, fault⟩

namespace Reader

variable {link : Token → Option Link}

/-- A chain is interrupted in a link or by a number that no operator stands before. -/
theorem extend_interrupts {left : Expr} {input : List Token} {interruption : Interruption}
    (failed : extend link left input = .error interruption) :
    ∃ token rest, Relation.ReflTransGen (Advances link) input (token :: rest) ∧
      ((∃ next, link token = some next ∧ interruption.fault.Interrupts (next.read token rest)) ∨
        ∃ value, token = .number value ∧
          interruption.fault = .unexpectedToken (toString value) .operator) := by
  match input with
  | [] =>
    rw [extend_nil] at failed
    cases failed
  | token :: tokens =>
    rw [extend_cons] at failed
    split at failed
    next next chosen =>
      split at failed
      next within =>
        cases failed
        exact ⟨token, tokens, .refl, .inl ⟨next, chosen, _, within⟩⟩
      next right after shorter =>
        have taken := Link.progress shorter
        obtain ⟨later, rest, reached, origin⟩ := extend_interrupts failed
        have advances : Advances link (token :: tokens) after :=
          ⟨token, tokens, next, right, rfl, chosen, shorter⟩
        exact ⟨later, rest, .head advances reached, origin⟩
    · unfold conclude at failed
      split at failed <;> cases failed
      exact ⟨_, tokens, .refl, .inr ⟨_, rfl, rfl⟩⟩
termination_by input.length
decreasing_by exact Nat.lt_succ_of_le taken

theorem chain_interrupts {first : Reader} {input : List Token}
    (failed : fault.Interrupts ((first.chain link).read input)) :
    fault.Interrupts (first.read input) ∨
      ∃ token rest, first.Reaches link input (token :: rest) ∧
        ((∃ next, link token = some next ∧ fault.Interrupts (next.read token rest)) ∨
          ∃ value, token = .number value ∧ fault = .unexpectedToken (toString value) .operator) := by
  obtain ⟨complete, failed⟩ := failed
  unfold chain at failed
  dsimp only at failed
  split at failed
  next within =>
    cases failed
    exact .inl ⟨_, within⟩
  next operand position read =>
    obtain ⟨token, rest, reached, origin⟩ := extend_interrupts failed
    exact .inr ⟨token, rest, ⟨operand, position, read, reached⟩, origin⟩

end Reader

/-- Brackets with something in them, or at least with something else behind the opening one. -/
def Token.OpensArgument : List Token → Prop
  | .openParen :: token :: _ => token ≠ .closeParen
  | _ => False

/-- Arguments are interrupted in one of them, or where the next one should begin. -/
theorem Level.readArguments_interrupts {argument : Reader} {name : String} {count : Nat}
    {input : List Token} (failed : fault.Interrupts (readArguments argument name count input)) :
    ∃ earlier arguments rest, earlier < count ∧
      readArguments argument name earlier input = .ok (arguments, rest) ∧
      (Token.OpensArgument rest ∧ fault.Interrupts (argument.read rest) ∨
        ¬ Token.OpensArgument rest ∧ fault = .noFunctionArgument name) := by
  obtain ⟨complete, failed⟩ := failed
  induction count generalizing input complete with
  | zero => cases failed
  | succ count ih =>
    unfold readArguments at failed
    split at failed
    · contradiction
    · cases failed
      exact ⟨0, [], _, Nat.succ_pos _, rfl, .inr ⟨fun inhabited => inhabited rfl, rfl⟩⟩
    next inhabited same =>
      cases same
      split at failed
      next within =>
        cases failed
        exact ⟨0, [], _, Nat.succ_pos _, rfl, .inl ⟨inhabited, _, within⟩⟩
      next first after shorter =>
        split at failed <;> cases failed
        next interruption within =>
          obtain ⟨earlier, arguments, rest, less, read, origin⟩ := ih _ within
          refine ⟨earlier + 1, first :: arguments, rest, Nat.succ_lt_succ less, ?_, origin⟩
          exact readArguments_more inhabited shorter read
    next bare =>
      cases failed
      refine ⟨0, [], _, Nat.succ_pos _, rfl, .inr ⟨?_, rfl⟩⟩
      intro opens
      unfold Token.OpensArgument at opens
      split at opens
      · exact bare _ _ rfl
      · exact opens

namespace Frame

/-- One constructor for each place where a fault is raised. There are three more in the readers,
which no tokens lead to: a sum ends neither at a number nor, in a group, before anything but a
closing parenthesis, and it is not left before anything else at the outermost level. -/
inductive Raises (arity : String → Option Nat) : Frame → Fault → Prop
  | ended {depth} : Raises arity ⟨.primary, depth, []⟩ .unexpectedEndOfInput
  | misplaced {depth token rest} : Category.primary.begins token = false →
      Raises arity ⟨.primary, depth, token :: rest⟩ (.unexpectedToken token.text .number)
  | unknown {depth name rest} : arity name = none →
      Raises arity ⟨.primary, depth, .atom name :: rest⟩ (.unknownAtom name)
  | bare {depth name count earlier input arguments rest} : arity name = some count →
      earlier < count →
      Level.readArguments (Level.within arity depth).primary name earlier input =
        .ok (arguments, rest) →
      ¬ Token.OpensArgument rest →
      Raises arity ⟨.primary, depth, .atom name :: input⟩ (.noFunctionArgument name)
  | unclosed {depth rest expr} : reading arity ⟨.sum, depth + 1, rest⟩ = .ok (expr, []) →
      Raises arity ⟨.primary, depth, .openParen :: rest⟩ .unmatchedParenthesis
  | adjacent {depth input value rest} : FactorsReach arity depth input (.number value :: rest) →
      Raises arity ⟨.product, depth, input⟩ (.unexpectedToken (toString value) .operator)
  | tooDeep {frame : Frame} : Expr.nestingLimit ≤ frame.depth →
      Raises arity frame .nestingTooDeep

/-- A fault of a reader is its own, or it is passed on from a reader it has entered. -/
def Originates (arity : String → Option Nat) (frame : Frame) (fault : Fault) : Prop :=
  frame.Raises arity fault ∨
    ∃ called, frame.Calls arity called ∧ fault.Interrupts (called.reading arity)

variable {depth : Nat} {input : List Token} {frame : Frame}

/-- What is read by way of a deeper level. -/
theorem read_inner (arity : String → Option Nat) (depth : Nat) (input : List Token)
    (entrance : Level → Reader) (category : Category)
    (entered : ∀ inner : Level, entrance (inner.around arity) = inner.reader arity category)
    (refused : (entrance .exhausted).read input = .error (.here .nestingTooDeep)) :
    depth < Expr.nestingLimit ∧ (entrance (Level.within arity depth)).read input =
        reading arity ⟨category, depth + 1, input⟩ ∨
      Expr.nestingLimit ≤ depth ∧ (entrance (Level.within arity depth)).read input =
        .error (.here .nestingTooDeep) := by
  obtain inside | outside := Nat.lt_or_ge depth Expr.nestingLimit
  · left
    rw [Level.within_eq inside, entered]
    exact ⟨inside, rfl⟩
  · right
    rw [Level.within, Nat.sub_eq_zero_of_le outside, Level.remaining]
    exact ⟨outside, refused⟩

private theorem argument_originates {name : String} {count : Nat} (known : arity name = some count)
    (failed : fault.Interrupts
      (Level.readArguments (Level.within arity depth).primary name count input)) :
    Originates arity ⟨.primary, depth, .atom name :: input⟩ fault := by
  obtain ⟨earlier, arguments, rest, less, read, ⟨opens, failed⟩ | ⟨bare, rfl⟩⟩ :=
    Level.readArguments_interrupts failed
  · unfold Token.OpensArgument at opens
    split at opens
    next token others =>
      rcases read_inner arity depth (.openParen :: token :: others) Level.primary .primary
        (fun _ => rfl) rfl with
        ⟨inside, same⟩ | ⟨outside, same⟩
      · rw [same] at failed
        exact .inr ⟨_, .argument inside known less read opens, failed⟩
      · rw [same] at failed
        obtain ⟨_, failed⟩ := failed
        cases failed
        exact .inl (.tooDeep outside)
    · contradiction
  · exact .inl (.bare known less read bare)

private theorem group_originates {rest : List Token}
    (failed : fault.Interrupts (reading arity ⟨.primary, depth, .openParen :: rest⟩)) :
    Originates arity ⟨.primary, depth, .openParen :: rest⟩ fault := by
  obtain ⟨complete, failed⟩ := failed
  change Level.readPrimary arity (Level.within arity depth) (.openParen :: rest) = _ at failed
  unfold Level.readPrimary at failed
  rcases read_inner arity depth rest Level.sum .sum (fun _ => rfl) rfl with
    ⟨inside, same⟩ | ⟨outside, same⟩
  · simp only [same] at failed
    split at failed <;> cases failed
    next within => exact .inr ⟨_, .group inside, _, within⟩
    next whole => exact .inl (.unclosed whole)
    next token _ closed read =>
      -- A sum is left only before the parenthesis that closes the group.
      have followed := (finds_of_reading read).precedes token rfl
      cases token
      case closeParen => exact absurd rfl closed
      all_goals cases followed
  · simp only [same] at failed
    cases failed
    exact .inl (.tooDeep outside)

private theorem primary_originates
    (failed : fault.Interrupts (reading arity ⟨.primary, depth, input⟩)) :
    Originates arity ⟨.primary, depth, input⟩ fault := by
  cases input with
  | nil =>
    obtain ⟨_, failed⟩ := failed
    cases failed
    exact .inl .ended
  | cons token rest =>
    cases token with
    | openParen => exact group_originates failed
    | number value =>
      obtain ⟨_, failed⟩ := failed
      cases failed
    | atom name =>
      obtain ⟨complete, failed⟩ := failed
      change Level.readPrimary arity (Level.within arity depth) (.atom name :: rest) = _ at failed
      unfold Level.readPrimary at failed
      cases known : arity name with
      | none =>
        simp only [known] at failed
        cases failed
        exact .inl (.unknown known)
      | some count =>
        simp only [known] at failed
        split at failed <;> cases failed
        next within => exact argument_originates known ⟨_, within⟩
    | plus | minus | divide | multiply | exponent | closeParen =>
      obtain ⟨_, failed⟩ := failed
      cases failed
      exact .inl (.misplaced rfl)

private theorem power_originates
    (failed : fault.Interrupts (reading arity ⟨.power, depth, input⟩)) :
    Originates arity ⟨.power, depth, input⟩ fault := by
  obtain ⟨complete, failed⟩ := failed
  change (Level.powerReader (Level.primaryReader arity (Level.within arity depth))
    (Level.within arity depth)).read input = _ at failed
  unfold Level.powerReader at failed
  dsimp only at failed
  split at failed
  next within =>
    cases failed
    exact .inr ⟨_, .primary, _, within⟩
  next base rest read =>
    rcases read_inner arity depth rest Level.signed .signed (fun _ => rfl) rfl with
      ⟨inside, same⟩ | ⟨outside, same⟩
    · simp only [same] at failed
      split at failed <;> cases failed
      next within => exact .inr ⟨_, .exponent inside read, _, within⟩
    · simp only [same] at failed
      cases failed
      exact .inl (.tooDeep outside)
  · cases failed

private theorem operand_originates (sign : Sign) {rest : List Token}
    (failed : fault.Interrupts
      (Level.withSign sign ((Level.within arity depth).signed.read rest))) :
    Originates arity ⟨.signed, depth, sign.token :: rest⟩ fault := by
  obtain ⟨complete, failed⟩ := failed
  unfold Level.withSign at failed
  rcases read_inner arity depth rest Level.signed .signed (fun _ => rfl) rfl with
    ⟨inside, same⟩ | ⟨outside, same⟩
  · simp only [same] at failed
    split at failed <;> cases failed
    next within => exact .inr ⟨_, .operand sign inside, _, within⟩
  · simp only [same] at failed
    cases failed
    exact .inl (.tooDeep outside)

private theorem signed_originates
    (failed : fault.Interrupts (reading arity ⟨.signed, depth, input⟩)) :
    Originates arity ⟨.signed, depth, input⟩ fault := by
  change fault.Interrupts ((Level.signedReader (Level.powers arity (Level.within arity depth))
    (Level.within arity depth)).read input) at failed
  unfold Level.signedReader at failed
  dsimp only at failed
  split at failed
  · exact operand_originates .plus failed
  · exact operand_originates .minus failed
  next notPlus notMinus =>
    refine .inr ⟨_, .power fun sign rest same => ?_, failed⟩
    cases sign with
    | plus => exact notPlus rest same
    | minus => exact notMinus rest same

private theorem product_originates
    (failed : fault.Interrupts (reading arity ⟨.product, depth, input⟩)) :
    Originates arity ⟨.product, depth, input⟩ fault := by
  rcases Reader.chain_interrupts failed with
    failed | ⟨token, rest, reached, ⟨next, chosen, failed⟩ | ⟨value, rfl, rfl⟩⟩
  · exact .inr ⟨_, .signed, failed⟩
  · cases token <;> cases chosen
    · exact .inr ⟨_, .factor (.inr rfl) reached, failed⟩
    · exact .inr ⟨_, .factor (.inl rfl) reached, failed⟩
    · exact .inr ⟨_, .adjoining rfl reached, failed⟩
    · exact .inr ⟨_, .adjoining rfl reached, failed⟩
  · exact .inl (.adjacent reached)

private theorem sum_originates (failed : fault.Interrupts (reading arity ⟨.sum, depth, input⟩)) :
    Originates arity ⟨.sum, depth, input⟩ fault := by
  rcases Reader.chain_interrupts failed with
    failed | ⟨token, rest, reached, ⟨next, chosen, failed⟩ | ⟨value, rfl, rfl⟩⟩
  · exact .inr ⟨_, .product, failed⟩
  · cases token <;> cases chosen
    · exact .inr ⟨_, .term .plus reached, failed⟩
    · exact .inr ⟨_, .term .minus reached, failed⟩
  · -- A product is not left before a number.
    obtain ⟨_, _, _, followed⟩ := TermsReach.exists_sum reached
    cases followed _ rfl

theorem originates (failed : fault.Interrupts (frame.reading arity)) :
    frame.Originates arity fault := by
  obtain ⟨category, depth, input⟩ := frame
  cases category with
  | sum => exact sum_originates failed
  | product => exact product_originates failed
  | signed => exact signed_originates failed
  | power => exact power_originates failed
  | primary => exact primary_originates failed

/-- Down some chain of calls there is a reader that has raised the fault itself. -/
theorem exists_raises {frame : Frame} (failed : fault.Interrupts (frame.reading arity)) :
    ∃ called, Relation.ReflTransGen (Calls arity) frame called ∧ called.Raises arity fault := by
  obtain raised | ⟨called, call, passed⟩ := originates failed
  · exact ⟨frame, .refl, raised⟩
  · have less := call.room_lt
    obtain ⟨raiser, chain, raised⟩ := exists_raises passed
    exact ⟨raiser, .head call chain, raised⟩
termination_by frame.room

end Frame

/-- A whole list of tokens is not read because some reader raised a fault, or because a sum is
left at a closing parenthesis. -/
theorem Expr.ofTokens_interrupts {tokens : List Token}
    (failed : fault.Interrupts (ofTokens arity tokens)) :
    (∃ called, Relation.ReflTransGen (Frame.Calls arity) ⟨.sum, 0, tokens⟩ called ∧
        called.Raises arity fault) ∨
      fault = .unmatchedParenthesis ∧ ∃ expr rest,
        Frame.reading arity ⟨.sum, 0, tokens⟩ = .ok (expr, .closeParen :: rest) := by
  obtain ⟨complete, failed⟩ := failed
  unfold ofTokens at failed
  split at failed <;> cases failed
  next within => exact .inl (Frame.exists_raises ⟨_, within⟩)
  next read => exact .inr ⟨rfl, _, _, read⟩
  next expr token others closed read =>
    have found : Frame.Finds arity ⟨.sum, 0, tokens⟩ expr (token :: others) :=
      Frame.finds_of_reading read
    have followed := found.precedes token rfl
    cases token
    case closeParen => exact absurd rfl closed
    all_goals cases followed

end PocketCalc
