import PocketCalc.Environment.Standard
import PocketCalc.Proofs.FaultOrigins
import PocketCalc.Proofs.Journals
import PocketCalc.Proofs.Parentheses

/-! With what atoms are resolved. Every call in the journal of a list of tokens is one of an atom
in it, and its arguments are the values and the widths of the groups that stand behind the atom,
as many as its arity says. -/

namespace PocketCalc

variable {σ α : Type} {environment : Environment σ} {whole : List Token}

inductive Environment.Asks (environment : Environment σ) (tokens : List Token) :
    String → List Argument → σ → Prop
  | intro {name count groups start arguments before} : environment.arity name = some count →
      DerivesGroups environment.arity count (Expr.allTokens groups) groups →
      .atom name :: Expr.allTokens groups <:+: tokens →
      EvaluatesAll environment groups start arguments before →
      Asks environment tokens name arguments before

def Entry.Justified (environment : Environment σ) (tokens : List Token) : Entry σ → Prop
  | .operation operator left right outcome => outcome = operator.apply left right
  | .call name arguments before outcome after =>
    environment.resolve name arguments before = (outcome, after) ∧
      environment.Asks tokens name arguments before
  | .interruption fault => fault.Interrupts (Expr.ofTokens environment.arity tokens)

private theorem Evaluation.ofExcept_apply (outcome : Except Fault α) (state : σ) :
    (ofExcept outcome : Evaluation σ α) state = (outcome, state) := by
  cases outcome <;> rfl

private theorem Operator.notesFrom_applyNoted (operator : Operator) (left right : Binary64)
    (before : Journal σ) : (operator.applyNoted left right).NotesFrom
      (Entry.Justified environment whole) before := by
  have outcome := Evaluation.ofExcept_apply (operator.apply left right) before.1
  exact Evaluation.notesFrom_noted (congrArg Prod.fst outcome) rfl

private theorem Expr.evaluatesAll_of_noted {exprs : List Expr} {before after : Journal σ}
    {values : List Argument}
    (success : evaluateAllNoted environment exprs before = (.ok values, after)) :
    EvaluatesAll environment exprs before.1 values after.1 := by
  obtain ⟨outcome, state⟩ := environment.mirrors_self.evaluateAll exprs (Eq.refl before.1)
  rw [success] at outcome state
  exact .of_evaluateAll (Prod.ext outcome.symm state.symm)

mutual

theorem Derives.notesFrom {category : Category} {tokens : List Token} {expr : Expr} :
    Derives environment.arity category tokens expr → tokens <:+: whole → ∀ before : Journal σ,
      (expr.evaluateNoted environment).NotesFrom (Entry.Justified environment whole) before
  | .product derived, within, before | .signed derived, within, before
  | .power derived, within, before | .primary derived, within, before =>
    derived.notesFrom within before
  | .plus left right, within, before | .minus left right, within, before
  | .times left right, within, before | .over left right, within, before
  | .raised left right, within, before => by
    have former := (List.prefix_append _ _).isInfix.trans within
    have latter := (List.suffix_cons _ _).isInfix.trans
      ((List.suffix_append _ _).isInfix.trans within)
    refine (left.notesFrom former before).bind fun first middle _ => ?_
    refine (right.notesFrom latter middle).bind fun second last _ => ?_
    exact Operator.notesFrom_applyNoted _ first second last
  | .adjoining left _ right, within, before => by
    have former := (List.prefix_append _ _).isInfix.trans within
    have latter := (List.suffix_append _ _).isInfix.trans within
    refine (left.notesFrom former before).bind fun first middle _ => ?_
    refine (right.notesFrom latter middle).bind fun second last _ => ?_
    exact Operator.notesFrom_applyNoted _ first second last
  | .positive derived, within, before | .negative derived, within, before =>
    (derived.notesFrom ((List.suffix_cons _ _).isInfix.trans within) before).bind fun _ _ _ =>
      Evaluation.notesFrom_pure _
  | .number, _, _ => Evaluation.notesFrom_pure _
  | @Derives.group _ tokens _ derived, within, before =>
    derived.notesFrom (.trans ⟨[.openParen], [.closeParen], rfl⟩ within) before
  | .call known groups, within, before => by
    have latter := (List.suffix_cons _ _).isInfix.trans within
    refine (groups.notesFrom latter before).bind fun values middle evaluated => ?_
    refine Evaluation.notesFrom_noted ⟨rfl, ?_⟩ rfl
    obtain rfl := groups.tokens_eq
    exact .intro known groups within (Expr.evaluatesAll_of_noted evaluated)

theorem DerivesGroups.notesFrom {count : Nat} {tokens : List Token} {exprs : List Expr} :
    DerivesGroups environment.arity count tokens exprs → tokens <:+: whole →
      ∀ before : Journal σ, (Expr.evaluateAllNoted environment exprs).NotesFrom
        (Entry.Justified environment whole) before
  | .none, _, _ => Evaluation.notesFrom_pure _
  | @DerivesGroups.more _ _ tokens _ others _ derived groups, within, before => by
    have former : tokens <:+: whole := .trans ⟨[.openParen], .closeParen :: others, rfl⟩ within
    have latter := (List.suffix_cons _ _).isInfix.trans
      ((List.suffix_append _ _).isInfix.trans within)
    refine (derived.notesFrom former before).bind fun _ middle _ => ?_
    exact (groups.notesFrom latter middle).bind fun _ _ _ => Evaluation.notesFrom_pure _

end

private theorem Expr.notesFrom_evaluateAllNoted : ∀ {exprs : List Expr},
    (∀ expr ∈ exprs, expr.PartOf environment.arity whole) → ∀ before : Journal σ,
      (evaluateAllNoted environment exprs).NotesFrom (Entry.Justified environment whole) before
  | [], _, _ => Evaluation.notesFrom_pure _
  | first :: others, parts, before => by
    obtain ⟨⟨⟨_, derived⟩, within⟩, parts⟩ := List.forall_mem_cons.mp parts
    refine (derived.notesFrom within before).bind fun _ middle _ => ?_
    exact (notesFrom_evaluateAllNoted parts middle).bind fun _ _ _ => Evaluation.notesFrom_pure _

namespace Environment

variable {tokens : List Token} {before after : σ} {fault : Fault}

private theorem notesFrom_parseNoted (environment : Environment σ) (tokens : List Token)
    (before : Journal σ) : (environment.parseNoted tokens).NotesFrom
      (Entry.Justified environment tokens) before := by
  unfold parseNoted
  cases reading : Expr.ofTokens environment.arity tokens with
  | ok expr =>
    obtain ⟨derived, -⟩ := Expr.derives_of_ofTokens reading
    exact derived.notesFrom List.infix_rfl before
  | error interruption =>
    have complete := Expr.notesFrom_evaluateAllNoted (Expr.within_of_ofTokens reading) before
    refine complete.bind fun _ middle _ => ?_
    exact Evaluation.notesFrom_noted ⟨_, reading⟩ rfl

/-- The journal of a list of tokens, beside what is seen without it. -/
theorem exists_journal (environment : Environment σ) (tokens : List Token) (before : σ) :
    ∃ outcome after entries,
      environment.parseNoted tokens (before, []) = (outcome, after, entries) ∧
      environment.parse tokens before = (outcome, after) ∧
      environment.logged.parse tokens (before, []) =
        (outcome, after, entries.filterMap Entry.call?) ∧
      Entry.LeadTo entries outcome ∧ ∀ entry ∈ entries, entry.Justified environment tokens := by
  obtain ⟨entries, added, justified, leads⟩ := environment.notesFrom_parseNoted tokens (before, [])
  have plain := environment.parseNoted_eq tokens (before, [])
  have log := environment.parseNoted_logged tokens (before, [])
  cases run : environment.parseNoted tokens (before, []) with
  | mk outcome journal =>
    rw [run] at added leads plain log
    obtain ⟨after, made⟩ := journal
    obtain rfl : made = entries := added
    exact ⟨outcome, after, made, rfl, plain.symm, log.symm, leads, justified⟩

/-- In parsing the tokens an atom was resolved with the fault. -/
def Refuses (environment : Environment σ) (tokens : List Token) (before : σ) (fault : Fault) :
    Prop :=
  ∃ name arguments state later, Entry.call name arguments state (.error fault) later ∈
    (environment.parseNoted tokens (before, [])).2.2

/-- A fault comes from an atom, from an operation or from reading. -/
theorem parse_error (failed : environment.parse tokens before = (.error fault, after)) :
    environment.Refuses tokens before fault ∨ fault.OfOperation ∨
      fault.Interrupts (Expr.ofTokens environment.arity tokens) := by
  obtain ⟨outcome, state, entries, noted, plain, -, leads, justified⟩ :=
    environment.exists_journal tokens before
  rw [failed] at plain
  cases plain
  obtain ⟨earlier, last, rfl, ends, -⟩ := leads
  have reported := justified last (List.mem_append_right _ (List.mem_singleton_self last))
  cases last with
  | operation operator left right outcome =>
    cases ends
    right; left
    have failed : Evaluation.ofExcept (operator.apply left right) () = (.error fault, ()) := by
      rw [← reported]
      rfl
    exact Evaluation.failsOnly_apply operator left right failed
  | call name arguments state outcome later =>
    cases ends
    left
    refine ⟨name, arguments, state, later, ?_⟩
    rw [noted]
    exact List.mem_append_right _ (List.mem_singleton_self _)
  | interruption interrupting =>
    cases ends
    exact .inr (.inr reported)

/-- A fault that no operation has comes from an atom or from reading. -/
theorem parse_interrupted (failed : environment.parse tokens before = (.error fault, after))
    (unoperated : ¬ fault.OfOperation) : environment.Refuses tokens before fault ∨
      fault.Interrupts (Expr.ofTokens environment.arity tokens) := by
  obtain refused | operation | reading := parse_error failed
  · exact .inl refused
  · exact absurd operation unoperated
  · exact .inr reading

end Environment

structure Argument.Of (environment : Environment σ) (group : Expr) (argument : Argument) : Prop where
  bracketed : ∃ inner : Expr, group = .group inner ∧
    Derives environment.arity .sum inner.tokens inner ∧ Token.Balanced inner.tokens
  tokensRead : argument.tokensRead = group.tokens.length
  three_le : 3 ≤ argument.tokensRead
  value : ∃ before after, Evaluates environment group before argument.value after

theorem DerivesGroups.arguments {count : Nat} {tokens : List Token} {groups : List Expr}
    {arguments : List Argument} {start before : σ} :
    DerivesGroups environment.arity count tokens groups →
      EvaluatesAll environment groups start arguments before →
      arguments.length = count ∧ List.Forall₂ (Argument.Of environment) groups arguments
  | .none, .none => ⟨rfl, .nil⟩
  | .more derived groups, .more value values => by
    obtain ⟨length, others⟩ := groups.arguments values
    obtain ⟨first, rest, same, -⟩ := derived.exists_first
    refine ⟨congrArg Nat.succ length, .cons ?_ others⟩
    obtain rfl := derived.tokens_eq
    refine ⟨⟨_, rfl, derived, derived.balanced⟩, (Expr.length_tokens _).symm, ?_, _, _, value⟩
    change 3 ≤ Expr.width _ + 2
    rw [← Expr.length_tokens, same]
    exact Nat.add_le_add_right (Nat.succ_le_succ (Nat.zero_le rest.length)) 2

theorem Environment.Asks.exists_groups {tokens : List Token} {name : String}
    {arguments : List Argument} {state : σ} (asks : environment.Asks tokens name arguments state) :
    environment.arity name = some arguments.length ∧ ∃ front groups rest start,
      tokens = front ++ .atom name :: (Expr.allTokens groups ++ rest) ∧
      List.Forall₂ (Argument.Of environment) groups arguments ∧
      EvaluatesAll environment groups start arguments state := by
  obtain ⟨known, derived, ⟨front, rest, same⟩, values⟩ := asks
  obtain ⟨length, arguments⟩ := derived.arguments values
  refine ⟨by rw [known, length], front, _, rest, _, ?_, arguments, values⟩
  rw [← same, List.append_assoc, List.cons_append]

/-- A known name with as many arguments as it takes has a value. -/
theorem Environment.standardValue_isSome {name : String} {arguments : List Argument}
    (known : standardArity name = some arguments.length) (mode : AngleMode) :
    (standardValue mode name arguments).isSome = true := by
  unfold standardArity at known
  unfold standardValue
  cases constant : constant? name with
  | some value => rfl
  | none =>
    rw [constant] at known
    obtain ⟨function, found, length⟩ := Option.map_eq_some_iff.mp known
    cases arguments with
    | nil => cases length
    | cons argument others =>
      dsimp only
      rw [found]
      rfl

/-- Every call of an atom in parsing is justified by the tokens: its arguments are those of the
groups behind the atom, as many as its arity says. In what order things are done is written in a
journal, which ends with the first fault and has no call after it. So none of the calculator's own
functions is ever without its argument. -/
theorem atoms_are_resolved_with_their_groups (environment : Environment σ) (tokens : List Token)
    (before : σ) :
    (∃ outcome after entries,
      environment.parseNoted tokens (before, []) = (outcome, after, entries) ∧
      environment.parse tokens before = (outcome, after) ∧
      environment.logged.parse tokens (before, []) =
        (outcome, after, entries.filterMap Entry.call?) ∧
      Entry.LeadTo entries outcome ∧
      ∀ name arguments state result later,
        Entry.call name arguments state result later ∈ entries →
        environment.resolve name arguments state = (result, later) ∧
        environment.arity name = some arguments.length ∧
        ∃ front groups rest start,
          tokens = front ++ .atom name :: (Expr.allTokens groups ++ rest) ∧
          List.Forall₂ (Argument.Of environment) groups arguments ∧
          EvaluatesAll environment groups start arguments state) ∧
    ∀ mode, ∀ call ∈ ((Environment.standard mode).logged.parse tokens ((), [])).2.2,
      (Environment.standardValue mode call.name call.arguments).isSome = true := by
  constructor
  · obtain ⟨outcome, after, entries, noted, plain, log, leads, justified⟩ :=
      environment.exists_journal tokens before
    refine ⟨outcome, after, entries, noted, plain, log, leads, ?_⟩
    intro name arguments state result later member
    obtain ⟨resolved, asks⟩ := justified _ member
    exact ⟨resolved, asks.exists_groups⟩
  · intro mode call member
    obtain ⟨outcome, after, entries, -, -, log, -, justified⟩ :=
      (Environment.standard mode).exists_journal tokens ()
    rw [log] at member
    obtain ⟨entry, noted, same⟩ := List.mem_filterMap.mp member
    cases entry with
    | operation | interruption => cases same
    | call name arguments state result later =>
      cases same
      obtain ⟨-, asks⟩ := justified _ noted
      exact Environment.standardValue_isSome asks.exists_groups.1 mode

end PocketCalc
