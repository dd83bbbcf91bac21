import PocketCalc.Proofs.Parsing

/-! What becomes of an expression that is nested too deeply. A group, a sign, an exponent or an
argument beyond the last level is reported as soon as evaluation comes to it, and whatever
stands to the left of it has been evaluated by then. Reading is interrupted at the same place,
which is shown along the derivation as it is for trees that are not too deep. -/

namespace PocketCalc

variable {σ α β γ δ : Type}

def Evaluation.descend (levels : Nat) (deeper : Nat → Evaluation σ α) : Evaluation σ α :=
  match levels with
  | 0 => throw .nestingTooDeep
  | levels + 1 => deeper levels

namespace Expr
variable (environment : Environment σ)

mutual

/-- Evaluation from left to right that has only so many levels to descend to. -/
def evaluateWithin : Nat → Expr → Evaluation σ Binary64
  | _, .number value => pure value
  | levels, .group inner => Evaluation.descend levels fun levels => inner.evaluateWithin levels
  | levels, .signed sign operand => do
    let value ← Evaluation.descend levels fun levels => operand.evaluateWithin levels
    return sign.apply value
  | levels, .binary .power base exponent => do
    let base ← base.evaluateWithin levels
    let exponent ← Evaluation.descend levels fun levels => exponent.evaluateWithin levels
    Evaluation.ofExcept (Operator.power.apply base exponent)
  | levels, .binary operator left right => do
    let left ← left.evaluateWithin levels
    let right ← right.evaluateWithin levels
    Evaluation.ofExcept (operator.apply left right)
  | levels, .adjoining left right => do
    let left ← left.evaluateWithin levels
    let right ← right.evaluateWithin levels
    Evaluation.ofExcept (Operator.times.apply left right)
  | levels, .call name arguments => do
    let arguments ← evaluateAllWithin levels arguments
    environment.resolve name arguments

/-- An argument is a level deeper than its call, and its brackets open another one. -/
def evaluateAllWithin : Nat → List Expr → Evaluation σ (List Argument)
  | _, [] => pure []
  | levels, first :: others => do
    let value ← Evaluation.descend levels fun levels => first.evaluateWithin levels
    let values ← evaluateAllWithin levels others
    return ⟨value, first.width⟩ :: values

end

end Expr

variable {environment : Environment σ}

namespace Expr

mutual

/-- Where the levels are enough, they make no difference. -/
theorem evaluateWithin_eq : ∀ {expr : Expr} {levels : Nat}, expr.nesting ≤ levels →
    expr.evaluateWithin environment levels = expr.evaluate environment
  | .number _, _, _ => by rw [evaluateWithin, evaluate]
  | .group inner, levels, enough => by
    obtain ⟨levels, rfl⟩ := Nat.exists_eq_add_one_of_ne_zero (Nat.ne_zero_of_lt enough)
    rw [evaluateWithin, evaluate, Evaluation.descend,
      evaluateWithin_eq (Nat.le_of_succ_le_succ enough)]
  | .signed sign operand, levels, enough => by
    obtain ⟨levels, rfl⟩ := Nat.exists_eq_add_one_of_ne_zero (Nat.ne_zero_of_lt enough)
    rw [evaluateWithin, evaluate, Evaluation.descend,
      evaluateWithin_eq (Nat.le_of_succ_le_succ enough)]
  | .binary .power base exponent, levels, enough => by
    obtain ⟨shallow, deep⟩ := Nat.max_le.mp enough
    obtain ⟨levels, rfl⟩ := Nat.exists_eq_add_one_of_ne_zero (Nat.ne_zero_of_lt deep)
    rw [evaluateWithin, evaluate, Evaluation.descend, evaluateWithin_eq shallow,
      evaluateWithin_eq (Nat.le_of_succ_le_succ deep)]
  | .binary .plus left right, levels, enough | .binary .minus left right, levels, enough
  | .binary .times left right, levels, enough | .binary .over left right, levels, enough => by
    obtain ⟨first, second⟩ := Nat.max_le.mp enough
    rw [evaluateWithin, evaluate, evaluateWithin_eq first, evaluateWithin_eq second]
    nofun
  | .adjoining left right, levels, enough => by
    obtain ⟨first, second⟩ := Nat.max_le.mp enough
    rw [evaluateWithin, evaluate, evaluateWithin_eq first, evaluateWithin_eq second]
  | .call name arguments, levels, enough => by
    rw [evaluateWithin, evaluate, evaluateAllWithin_eq enough]

theorem evaluateAllWithin_eq : ∀ {exprs : List Expr} {levels : Nat},
    argumentNesting exprs ≤ levels →
    evaluateAllWithin environment levels exprs = evaluateAll environment exprs
  | [], _, _ => by rw [evaluateAllWithin, evaluateAll]
  | first :: others, levels, enough => by
    obtain ⟨within, remaining⟩ := Nat.max_le.mp enough
    obtain ⟨levels, rfl⟩ := Nat.exists_eq_add_one_of_ne_zero (Nat.ne_zero_of_lt within)
    rw [evaluateAllWithin, evaluateAll, Evaluation.descend,
      evaluateWithin_eq (Nat.le_of_succ_le_succ within), evaluateAllWithin_eq remaining]

end

end Expr

namespace Environment

theorem interrupt_here (fault : Fault) :
    (environment.interrupt (.here fault) : Evaluation σ α) = throw fault := by
  rw [interrupt, Interruption.here, Expr.evaluateAll, pure_bind]

theorem interrupt_bind (interruption : Interruption) (next : α → Evaluation σ β) :
    environment.interrupt interruption >>= next = environment.interrupt interruption := by
  simp only [interrupt, bind_assoc]
  rfl

theorem interrupt_after (earlier : Expr) (interruption : Interruption) :
    (environment.interrupt (interruption.after earlier) : Evaluation σ α) =
      earlier.evaluate environment >>= fun _ => environment.interrupt interruption := by
  simp only [interrupt, Interruption.after, Expr.evaluateAll, bind_assoc, pure_bind]

end Environment

/-- Reading is interrupted for want of levels, and evaluation up to there is the calculation. -/
def RunsOut (environment : Environment σ) (reading : Except Interruption β)
    (calculation : Evaluation σ α) : Prop :=
  ∃ interruption, reading = .error interruption ∧ interruption.fault = .nestingTooDeep ∧
    environment.interrupt interruption = calculation

namespace RunsOut

private theorem here : RunsOut environment (.error (.here .nestingTooDeep) : Except Interruption β)
    (throw .nestingTooDeep : Evaluation σ α) :=
  ⟨_, rfl, rfl, Environment.interrupt_here _⟩

variable {calculation : Evaluation σ α} {reading : Except Interruption β}

private theorem bind (runsOut : RunsOut environment reading calculation)
    (next : α → Evaluation σ γ) : RunsOut environment reading (calculation >>= next) := by
  obtain ⟨interruption, read, fault, rfl⟩ := runsOut
  exact ⟨interruption, read, fault, (Environment.interrupt_bind _ _).symm⟩

/-- What passes an interruption on runs out as well. -/
theorem pass {outer : Except Interruption γ} (runsOut : RunsOut environment reading calculation)
    (passes : ∀ interruption, reading = .error interruption → outer = .error interruption) :
    RunsOut environment outer calculation := by
  obtain ⟨interruption, read, fault, same⟩ := runsOut
  exact ⟨interruption, passes interruption read, fault, same⟩

/-- An expression that was complete before is evaluated first. -/
theorem after {outer : Except Interruption γ} {earlier : Expr}
    (runsOut : RunsOut environment reading calculation)
    (passes : ∀ interruption, reading = .error interruption →
      outer = .error (interruption.after earlier))
    (next : Binary64 → α → Evaluation σ δ) :
    RunsOut environment outer
      (earlier.evaluate environment >>= fun value => calculation >>= next value) := by
  obtain ⟨interruption, read, fault, rfl⟩ := runsOut
  refine ⟨interruption.after earlier, passes interruption read, fault, ?_⟩
  simp only [Environment.interrupt_after, Environment.interrupt_bind]

/-- Of two operands the left one runs out of levels, or the right one does after it. -/
theorem operands {left : Expr} {levels nesting : Nat}
    {next : Binary64 → α → Evaluation σ δ} (deep : levels < max left.nesting nesting)
    (leftward : levels < left.nesting →
      RunsOut environment reading (left.evaluateWithin environment levels))
    (rightward : left.nesting ≤ levels → levels < nesting → RunsOut environment reading
      (left.evaluate environment >>= fun first => calculation >>= next first)) :
    RunsOut environment reading
      (left.evaluateWithin environment levels >>= fun first => calculation >>= next first) := by
  obtain first | first := Nat.lt_or_ge levels left.nesting
  · exact (leftward first).bind _
  · rw [Expr.evaluateWithin_eq first]
    exact rightward first (by omega)

variable {arity : String → Option Nat}

/-- A level is entered if there is one left, and otherwise the fault is met at once. -/
theorem descend {levels nesting : Nat} {input : List Token} {deeper : Nat → Evaluation σ α}
    (entrance : Level → Reader) (category : Category)
    (entered : ∀ inner : Level, entrance (inner.around arity) = inner.reader arity category)
    (refused : (entrance .exhausted).read input = .error (.here .nestingTooDeep))
    (deep : levels < nesting + 1)
    (runsOut : ∀ fewer < nesting, RunsOut environment
      (((Level.remaining arity fewer).reader arity category).read input) (deeper fewer)) :
    RunsOut environment ((entrance (Level.remaining arity levels)).read input)
      (Evaluation.descend levels deeper) := by
  cases levels with
  | zero =>
    rw [Level.remaining, refused]
    exact here
  | succ fewer =>
    rw [Level.remaining, entered]
    exact runsOut fewer (Nat.lt_of_succ_lt_succ deep)

private theorem chain {first : Reader} {link : Token → Option Link} {input : List Token}
    (runsOut : RunsOut environment (first.read input) calculation) :
    RunsOut environment ((first.chain link).read input) calculation :=
  runsOut.pass fun interruption read => by simp only [Reader.chain, read]

private theorem extend {link : Token → Option Link} {left : Expr} {token : Token} {next : Link}
    {rest : List Token} (chosen : link token = some next)
    (runsOut : RunsOut environment (next.read token rest) calculation)
    (compute : Binary64 → α → Evaluation σ δ) :
    RunsOut environment (Reader.extend link left (token :: rest))
      (left.evaluate environment >>= fun value => calculation >>= compute value) := by
  refine runsOut.after (fun interruption read => ?_) compute
  rw [Reader.extend_cons]
  simp only [chosen, read]

private theorem withSign {sign : Sign} {operand : Reading}
    (runsOut : RunsOut environment operand calculation) :
    RunsOut environment (Level.withSign sign operand) calculation :=
  runsOut.pass fun interruption read => by rw [read, Level.withSign]

variable {inner : Level} {input : List Token}

private theorem power
    (runsOut : RunsOut environment ((Level.primaryReader arity inner).read input) calculation) :
    RunsOut environment ((Level.powers arity inner).read input) calculation :=
  runsOut.pass fun interruption read => by simp only [Level.powers, Level.powerReader, read]

private theorem exponent {base : Expr} {rest : List Token}
    (success : (Level.primaryReader arity inner).read input = .ok (base, .exponent :: rest))
    (runsOut : RunsOut environment (inner.signed.read rest) calculation)
    (compute : Binary64 → α → Evaluation σ δ) :
    RunsOut environment ((Level.powers arity inner).read input)
      (base.evaluate environment >>= fun value => calculation >>= compute value) := by
  refine runsOut.after (fun interruption read => ?_) compute
  simp only [Level.powers, Level.powerReader, success, read]

private theorem group (runsOut : RunsOut environment (inner.sum.read input) calculation) :
    RunsOut environment ((Level.primaryReader arity inner).read (.openParen :: input))
      calculation :=
  runsOut.pass fun interruption read => by simp only [Level.primaryReader, Level.readPrimary, read]

private theorem call {name : String} {count : Nat} (known : arity name = some count)
    (runsOut : RunsOut environment (Level.readArguments inner.primary name count input)
      calculation) :
    RunsOut environment ((Level.primaryReader arity inner).read (.atom name :: input))
      calculation :=
  runsOut.pass fun interruption read => by
    simp only [Level.primaryReader, Level.readPrimary, known, read]

variable {single : Reader} {name : String} {count : Nat} {token : Token}

private theorem argument (inhabited : token ≠ .closeParen)
    (runsOut : RunsOut environment (single.read (.openParen :: token :: input)) calculation) :
    RunsOut environment
      (Level.readArguments single name (count + 1) (.openParen :: token :: input))
      calculation := by
  refine runsOut.pass fun interruption read => ?_
  cases token <;> first
    | exact absurd rfl inhabited
    | simp only [Level.readArguments, read]

private theorem arguments {first : Expr} {middle : List Token} (inhabited : token ≠ .closeParen)
    (success : single.read (.openParen :: token :: input) = .ok (first, middle))
    (runsOut : RunsOut environment (Level.readArguments single name count middle) calculation)
    (compute : Binary64 → α → Evaluation σ δ) :
    RunsOut environment
      (Level.readArguments single name (count + 1) (.openParen :: token :: input))
      (first.evaluate environment >>= fun value => calculation >>= compute value) := by
  refine runsOut.after (fun interruption read => ?_) compute
  cases token <;> first
    | exact absurd rfl inhabited
    | simp only [Level.readArguments, success, read]

end RunsOut

mutual

theorem Derives.runsOut {category : Category} {tokens rest : List Token} {expr : Expr}
    {levels : Nat} : Derives environment.arity category tokens expr → levels < expr.nesting →
      category.StopsAt rest →
      RunsOut environment
        (((Level.remaining environment.arity levels).reader environment.arity category).read
          (tokens ++ rest))
        (expr.evaluateWithin environment levels)
  | .product derived, deep, stops => (derived.runsOut deep stops.of_sum).chain
  | .plus left right, deep, stops | .minus left right, deep, stops => by
    rw [List.append_assoc, List.cons_append, Expr.evaluateWithin]
    · refine RunsOut.operands deep (fun first => left.runsOut first (.sum_cons rfl)) ?_
      intro first second
      rw [left.read first]
      · exact (right.runsOut second stops.of_sum).extend rfl _
      · exact .sum_cons rfl
    · nofun
  | .signed derived, deep, stops => (derived.runsOut deep stops).chain
  | .times left right, deep, stops | .over left right, deep, stops => by
    rw [List.append_assoc, List.cons_append, Expr.evaluateWithin]
    · refine RunsOut.operands deep (fun first => left.runsOut first (.product_cons nofun)) ?_
      intro first second
      rw [left.read first]
      · exact (right.runsOut second stops).extend rfl _
      · exact .product_cons nofun
    · nofun
  | @Derives.adjoining _ _ token _ _ _ left adjoins right, deep, stops => by
    have separate : token ≠ .exponent := by
      rintro rfl
      cases adjoins
    rw [List.append_assoc, List.cons_append, Expr.evaluateWithin]
    refine RunsOut.operands deep (fun first => left.runsOut first (.product_cons separate)) ?_
    intro first second
    rw [left.read first (.product_cons separate)]
    exact RunsOut.extend (Level.multiplicative_adjoins adjoins) (right.runsOut second stops) _
  | .power derived, deep, stops => by
    have runsOut := derived.runsOut deep stops
    obtain ⟨first, others, same, begun⟩ := derived.exists_first
    rw [same] at runsOut ⊢
    exact runsOut.pass fun interruption read => (Level.factors_read_eq begun).trans read
  | .positive derived, deep, stops | .negative derived, deep, stops => by
    rw [Expr.evaluateWithin]
    refine RunsOut.bind (RunsOut.withSign ?_) _
    exact RunsOut.descend Level.signed .signed (fun _ => rfl) rfl deep fun fewer within =>
      derived.runsOut within stops
  | .primary derived, deep, stops => (derived.runsOut deep trivial).power
  | .raised base exponent, deep, stops => by
    rw [List.append_assoc, List.cons_append, Expr.evaluateWithin]
    refine RunsOut.operands deep (fun first => (base.runsOut first trivial).power) ?_
    intro first second
    refine RunsOut.exponent (base.read first trivial) ?_ _
    exact RunsOut.descend Level.signed .signed (fun _ => rfl) rfl second fun fewer within =>
      exponent.runsOut within stops
  | .number, deep, _ => absurd deep (Nat.not_lt_zero _)
  | .group derived, deep, _ => by
    rw [List.cons_append, List.cons_append, List.append_assoc, Expr.evaluateWithin]
    refine RunsOut.group ?_
    exact RunsOut.descend Level.sum .sum (fun _ => rfl) rfl deep fun fewer within =>
      derived.runsOut within (.sum_cons rfl)
  | .call known groups, deep, _ => by
    rw [List.cons_append, Expr.evaluateWithin]
    exact ((groups.runsOut deep).call known).bind _

theorem DerivesGroups.runsOut {count levels : Nat} {tokens rest : List Token} {exprs : List Expr}
    {name : String} : DerivesGroups environment.arity count tokens exprs →
      levels < Expr.argumentNesting exprs →
      RunsOut environment
        (Level.readArguments (Level.remaining environment.arity levels).primary name count
          (tokens ++ rest))
        (Expr.evaluateAllWithin environment levels exprs)
  | .none, deep => absurd deep (Nat.not_lt_zero _)
  | @DerivesGroups.more _ _ _ inside _ exprs derived groups, deep => by
    have stops following : Category.sum.StopsAt (.closeParen :: following) := .sum_cons rfl
    have interrupted {fewest : Nat} (within : fewest < inside.nesting) following :=
      derived.runsOut within (stops following)
    have complete {fewest : Nat} (enough : inside.nesting ≤ fewest) following :=
      Level.primary_read_group following (derived.read enough (stops following))
    obtain ⟨token, more, same, begun⟩ := derived.exists_first
    have inhabited : token ≠ .closeParen := by
      rintro rfl
      cases begun
    rw [List.cons_append, List.cons_append, List.append_assoc, Expr.evaluateAllWithin]
    simp only [same, List.cons_append] at interrupted complete ⊢
    obtain first | first := Nat.lt_or_ge levels (inside.nesting + 1 + 1)
    · refine RunsOut.bind (RunsOut.argument inhabited ?_) _
      -- An argument opens a level for itself and another for its brackets.
      refine RunsOut.descend Level.primary .primary (fun _ => rfl) rfl first fun fewer within => ?_
      rw [Expr.evaluateWithin]
      refine RunsOut.group ?_
      exact RunsOut.descend Level.sum .sum (fun _ => rfl) rfl within fun fewest inner =>
        interrupted inner _
    · obtain ⟨outer, rfl⟩ := Nat.exists_eq_add_one_of_ne_zero (Nat.ne_zero_of_lt first)
      have enough := Nat.le_of_succ_le_succ first
      obtain ⟨levels, rfl⟩ := Nat.exists_eq_add_one_of_ne_zero (Nat.ne_zero_of_lt enough)
      have value : Evaluation.descend (levels + 1 + 1) (fun fewer =>
          (Expr.group inside).evaluateWithin environment fewer) =
            (Expr.group inside).evaluate environment := Expr.evaluateWithin_eq enough
      rw [value]
      have second : levels + 1 + 1 < Expr.argumentNesting exprs := by
        rw [Expr.argumentNesting, Expr.nesting] at deep
        omega
      exact RunsOut.arguments inhabited (complete (Nat.le_of_succ_le_succ enough) _)
        (groups.runsOut second) _

end

section
variable {tokens : List Token} {expr : Expr}

theorem Derives.parse_of_shallow (derived : Derives environment.arity .sum tokens expr)
    (shallow : expr.nesting ≤ Expr.nestingLimit) :
    environment.parse tokens = expr.evaluate environment := by
  rw [Environment.parse, Expr.ofTokens_eq_ok_iff.mpr ⟨derived, shallow⟩, Environment.evaluate]

theorem Derives.runsOut_of_deep (derived : Derives environment.arity .sum tokens expr)
    (deep : Expr.nestingLimit < expr.nesting) :
    RunsOut environment (Expr.ofTokens environment.arity tokens)
      (expr.evaluateWithin environment Expr.nestingLimit) := by
  have stops : Category.sum.StopsAt [] := nofun
  have runsOut := derived.runsOut deep stops
  rw [List.append_nil] at runsOut
  refine runsOut.pass fun interruption read => ?_
  have outermost : (Level.remaining environment.arity (Expr.nestingLimit + 1)).sum.read tokens =
      .error interruption := read
  simp only [Expr.ofTokens, outermost]

end

end PocketCalc
