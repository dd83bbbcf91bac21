import PocketCalc.Proofs.AgreeingEnvironments

/-! Evaluation that keeps a journal. Each operation, each call of an atom and the report of an
interrupted reading is one entry with its outcome. With the journal taken away this is plain
evaluation, and the calls in a journal are those that the environment sees. It ends at the first
entry that fails: nothing is done after a fault. -/

namespace PocketCalc

variable {σ τ α β : Type}

inductive Entry (σ : Type) where
  | operation (operator : Operator) (left right : Binary64) (outcome : Except Fault Binary64)
  | call (name : String) (arguments : List Argument) (before : σ)
      (outcome : Except Fault Binary64) (after : σ)
  | interruption (fault : Fault)

namespace Entry

def outcome : Entry σ → Except Fault Binary64
  | operation _ _ _ outcome | call _ _ _ outcome _ => outcome
  | interruption fault => .error fault

def call? : Entry σ → Option Call
  | call name arguments _ _ _ => some ⟨name, arguments⟩
  | operation .. | interruption _ => none

def Succeeds (entry : Entry σ) : Prop := ∃ value, entry.outcome = .ok value

/-- Entries up to the outcome of the whole: none of them fails before a fault, which the last
one meets. -/
def LeadTo (entries : List (Entry σ)) : Except Fault α → Prop
  | .ok _ => ∀ entry ∈ entries, entry.Succeeds
  | .error fault => ∃ earlier last, entries = earlier ++ [last] ∧ last.outcome = .error fault ∧
      ∀ entry ∈ earlier, entry.Succeeds

end Entry

/-- A state, and what has been done to come to it, the latest last. -/
abbrev Journal (σ : Type) := σ × List (Entry σ)

def Evaluation.noted (calculation : Evaluation σ Binary64)
    (entry : σ → Except Fault Binary64 → σ → Entry σ) : Evaluation (Journal σ) Binary64 :=
  fun journal =>
    let run := calculation journal.1
    (run.1, run.2, journal.2 ++ [entry journal.1 run.1 run.2])

def Operator.applyNoted (operator : Operator) (left right : Binary64) :
    Evaluation (Journal σ) Binary64 :=
  (Evaluation.ofExcept (operator.apply left right)).noted fun _ outcome _ =>
    .operation operator left right outcome

section
variable (environment : Environment σ)

def Environment.resolveNoted (name : String) (arguments : List Argument) :
    Evaluation (Journal σ) Binary64 :=
  (environment.resolve name arguments).noted (.call name arguments)

namespace Expr

mutual

def evaluateNoted : Expr → Evaluation (Journal σ) Binary64
  | .number value => pure value
  | .group inner => inner.evaluateNoted
  | .signed sign operand => do
    let value ← operand.evaluateNoted
    return sign.apply value
  | .binary operator left right => do
    let left ← left.evaluateNoted
    let right ← right.evaluateNoted
    operator.applyNoted left right
  | .adjoining left right => do
    let left ← left.evaluateNoted
    let right ← right.evaluateNoted
    Operator.times.applyNoted left right
  | .call name arguments => do
    let arguments ← evaluateAllNoted arguments
    environment.resolveNoted name arguments

def evaluateAllNoted : List Expr → Evaluation (Journal σ) (List Argument)
  | [] => pure []
  | first :: others => do
    let value ← first.evaluateNoted
    let values ← evaluateAllNoted others
    return ⟨value, first.width⟩ :: values

end

end Expr

/-- The value of what a whole list of tokens spells, or the report of what interrupted reading
after all that was complete. -/
def Environment.parseNoted (tokens : List Token) : Evaluation (Journal σ) Binary64 :=
  match Expr.ofTokens environment.arity tokens with
  | .ok expr => expr.evaluateNoted environment
  | .error interruption => do
    let _ ← Expr.evaluateAllNoted environment interruption.complete
    Evaluation.noted (throw interruption.fault) fun _ _ _ => .interruption interruption.fault

end

/-- A relation of journals to the states of an environment that sees the same calls. -/
structure Environment.Mirrors (related : Journal σ → τ → Prop) (environment : Environment σ)
    (other : Environment τ) : Prop where
  arity : other.arity = environment.arity
  resolve : ∀ name arguments,
    (environment.resolveNoted name arguments).Alike related (other.resolve name arguments)
  pass : ∀ ⦃state entries later entry⦄, Entry.call? entry = none →
    related (state, entries) later → related (state, entries ++ [entry]) later

namespace Environment.Mirrors

variable {related : Journal σ → τ → Prop} {environment : Environment σ} {other : Environment τ}

/-- What does not look at the state is written down without being seen. -/
theorem noted (mirrors : Mirrors related environment other) (outcome : Except Fault Binary64)
    {entry : σ → Except Fault Binary64 → σ → Entry σ}
    (uncalled : ∀ before after, (entry before outcome after).call? = none) :
    ((Evaluation.ofExcept outcome).noted entry).Alike related (Evaluation.ofExcept outcome) := by
  rintro ⟨state, entries⟩ later kept
  cases outcome with
  | ok value => exact ⟨rfl, mirrors.pass (uncalled state state) kept⟩
  | error fault => exact ⟨rfl, mirrors.pass (uncalled state state) kept⟩

mutual

theorem evaluate (mirrors : Mirrors related environment other) : ∀ expr : Expr,
    (expr.evaluateNoted environment).Alike related (expr.evaluate other)
  | .number value => Evaluation.alike_pure value
  | .group inner => mirrors.evaluate inner
  | .signed _ operand => (mirrors.evaluate operand).bind fun _ => Evaluation.alike_pure _
  | .binary _ left right =>
    (mirrors.evaluate left).bind fun _ => (mirrors.evaluate right).bind fun _ =>
      mirrors.noted _ fun _ _ => rfl
  | .adjoining left right =>
    (mirrors.evaluate left).bind fun _ => (mirrors.evaluate right).bind fun _ =>
      mirrors.noted _ fun _ _ => rfl
  | .call name arguments =>
    (mirrors.evaluateAll arguments).bind fun values => mirrors.resolve name values

theorem evaluateAll (mirrors : Mirrors related environment other) : ∀ exprs : List Expr,
    (Expr.evaluateAllNoted environment exprs).Alike related (Expr.evaluateAll other exprs)
  | [] => Evaluation.alike_pure []
  | first :: others =>
    (mirrors.evaluate first).bind fun _ => (mirrors.evaluateAll others).bind fun _ =>
      Evaluation.alike_pure _

end

theorem parse (mirrors : Mirrors related environment other) (tokens : List Token) :
    (environment.parseNoted tokens).Alike related (other.parse tokens) := by
  unfold Environment.parse Environment.parseNoted
  rw [mirrors.arity]
  cases Expr.ofTokens environment.arity tokens with
  | ok expr => exact mirrors.evaluate expr
  | error interruption =>
    refine (mirrors.evaluateAll interruption.complete).bind fun _ => ?_
    exact mirrors.noted (.error interruption.fault) fun _ _ => rfl

end Environment.Mirrors

/-- The journal taken away. -/
theorem Environment.mirrors_self (environment : Environment σ) :
    Environment.Mirrors (fun journal state => journal.1 = state) environment environment where
  arity := rfl
  resolve name arguments := by
    rintro ⟨state, entries⟩ _ rfl
    exact ⟨rfl, rfl⟩
  pass _ _ _ _ _ same := same

def Journal.Shows (journal : Journal σ) (log : σ × List Call) : Prop :=
  journal.1 = log.1 ∧ journal.2.filterMap Entry.call? = log.2

theorem Environment.mirrors_logged (environment : Environment σ) :
    Environment.Mirrors Journal.Shows environment environment.logged where
  arity := rfl
  resolve name arguments := by
    rintro ⟨state, entries⟩ ⟨_, calls⟩ ⟨rfl, rfl⟩
    refine ⟨rfl, rfl, ?_⟩
    exact List.filterMap_append
  pass state entries log entry uncalled := by
    rintro ⟨same, calls⟩
    refine ⟨same, ?_⟩
    rw [List.filterMap_append, calls, List.filterMap_cons_none uncalled, List.filterMap_nil,
      List.append_nil]

theorem Environment.parseNoted_eq (environment : Environment σ) (tokens : List Token)
    (journal : Journal σ) :
    ((environment.parseNoted tokens journal).1, (environment.parseNoted tokens journal).2.1) =
      environment.parse tokens journal.1 := by
  obtain ⟨outcome, state⟩ := environment.mirrors_self.parse tokens (Eq.refl journal.1)
  exact Prod.ext outcome state

theorem Environment.parseNoted_logged (environment : Environment σ) (tokens : List Token)
    (journal : Journal σ) :
    ((environment.parseNoted tokens journal).1, (environment.parseNoted tokens journal).2.1,
        (environment.parseNoted tokens journal).2.2.filterMap Entry.call?) =
      environment.logged.parse tokens (journal.1, journal.2.filterMap Entry.call?) := by
  have shown : journal.Shows (journal.1, journal.2.filterMap Entry.call?) := ⟨rfl, rfl⟩
  obtain ⟨outcome, state, calls⟩ := environment.mirrors_logged.parse tokens shown
  exact Prod.ext outcome (Prod.ext state calls)

/-- What a calculation adds to a journal: possible entries that lead to its outcome. -/
def Evaluation.NotesFrom (possible : Entry σ → Prop) (calculation : Evaluation (Journal σ) α)
    (before : Journal σ) : Prop :=
  ∃ entries, (calculation before).2.2 = before.2 ++ entries ∧
    (∀ entry ∈ entries, possible entry) ∧ Entry.LeadTo entries (calculation before).1

namespace Evaluation

variable {possible : Entry σ → Prop} {before : Journal σ}

theorem notesFrom_pure (value : α) : NotesFrom possible (pure value) before := by
  refine ⟨[], (List.append_nil _).symm, List.forall_mem_nil _, ?_⟩
  exact List.forall_mem_nil _

theorem notesFrom_noted {calculation : Evaluation σ Binary64}
    {entry : σ → Except Fault Binary64 → σ → Entry σ}
    (expected : possible (entry before.1 (calculation before.1).1 (calculation before.1).2))
    (same : (entry before.1 (calculation before.1).1 (calculation before.1).2).outcome =
      (calculation before.1).1) :
    NotesFrom possible (calculation.noted entry) before := by
  refine ⟨[_], rfl, List.forall_mem_singleton.mpr expected, ?_⟩
  change Entry.LeadTo _ (calculation before.1).1
  cases outcome : (calculation before.1).1 with
  | ok value =>
    rw [outcome] at same
    exact List.forall_mem_singleton.mpr ⟨value, same⟩
  | error fault =>
    rw [outcome] at same
    exact ⟨[], _, rfl, same, List.forall_mem_nil _⟩

theorem NotesFrom.bind {first : Evaluation (Journal σ) α} {next : α → Evaluation (Journal σ) β}
    (former : first.NotesFrom possible before)
    (latter : ∀ result middle, first before = (.ok result, middle) →
      (next result).NotesFrom possible middle) :
    (first >>= next).NotesFrom possible before := by
  obtain ⟨entries, added, allowed, leads⟩ := former
  unfold NotesFrom
  rw [bind_apply]
  cases run : first before with
  | mk outcome middle =>
    rw [run] at added leads
    cases outcome with
    | error fault => exact ⟨entries, added, allowed, leads⟩
    | ok result =>
      obtain ⟨others, more, possible, ends⟩ := latter result middle run
      refine ⟨entries ++ others, ?_, List.forall_mem_append.mpr ⟨allowed, possible⟩, ?_⟩
      · rw [more, added, List.append_assoc]
      · dsimp only
        cases outcome : (next result middle).1 with
        | ok value =>
          rw [outcome] at ends
          exact List.forall_mem_append.mpr ⟨leads, ends⟩
        | error fault =>
          rw [outcome] at ends
          obtain ⟨earlier, last, rfl, failed, succeeded⟩ := ends
          exact ⟨entries ++ earlier, last, (List.append_assoc _ _ _).symm, failed,
            List.forall_mem_append.mpr ⟨leads, succeeded⟩⟩

end Evaluation
end PocketCalc
