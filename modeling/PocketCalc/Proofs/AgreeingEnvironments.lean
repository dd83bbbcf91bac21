import PocketCalc.Proofs.Interruptions
import PocketCalc.Proofs.Parsing

/-! What a list of tokens is worth depends on the atoms in it and on no others. Environments that
agree on those read the same tree or meet the same interruption, because readers ask for the
arity of an atom only where it stands. Evaluating the tree then gives the same value or the same
fault, and leaves the two states related as they were. -/

namespace PocketCalc

variable {σ τ α β : Type}

section Reading
variable {shared : Token → Prop} {arity others : String → Option Nat}

private theorem Reader.Faithful.rest_subset {reader : Reader} (faithful : reader.Faithful)
    {input rest : List Token} {expr : Expr} (success : reader.read input = .ok (expr, rest)) :
    rest ⊆ input := by
  rw [faithful success]
  exact List.subset_append_right _ _

private theorem Link.Faithful.rest_subset {link : Link} {token : Token}
    (faithful : link.Faithful token) {rest after : List Token} {expr : Expr}
    (success : link.read token rest = .ok (expr, after)) : after ⊆ token :: rest := by
  cases link with
  | explicit operator operand =>
    exact List.Subset.trans (Reader.Faithful.rest_subset faithful.2 success)
      (List.subset_cons_self _ _)
  | implied operand => exact Reader.Faithful.rest_subset faithful success

def Reader.Alike (shared : Token → Prop) (first second : Reader) : Prop :=
  ∀ ⦃input : List Token⦄, (∀ token ∈ input, shared token) → first.read input = second.read input

structure Link.Alike (shared : Token → Prop) (token : Token) (first second : Link) : Prop where
  join : first.join = second.join
  read : ∀ ⦃rest : List Token⦄, (∀ other ∈ token :: rest, shared other) →
    first.read token rest = second.read token rest

namespace Reader

def Parallel (shared : Token → Prop) (link other : Token → Option Link) : Prop :=
  ∀ ⦃token⦄, shared token → Option.Rel (Link.Alike shared token) (link token) (other token)

private theorem extend_alike {link other : Token → Option Link}
    (parallel : Parallel shared link other)
    (faithful : ∀ token, ∀ next ∈ link token, next.Faithful token) {left : Expr}
    {input : List Token} (known : ∀ token ∈ input, shared token) :
    extend link left input = extend other left input := by
  match input with
  | [] => rw [extend_nil, extend_nil]
  | token :: tokens =>
    rw [extend_cons, extend_cons]
    have same := parallel (known token List.mem_cons_self)
    cases chosen : link token with
    | none =>
      rw [chosen] at same
      cases alternative : other token with
      | none => rfl
      | some =>
        rw [alternative] at same
        cases same
    | some next =>
      rw [chosen] at same
      cases alternative : other token with
      | none =>
        rw [alternative] at same
        cases same
      | some another =>
        rw [alternative] at same
        cases same with
        | some alike =>
          dsimp only
          rw [← alike.read known]
          cases outcome : next.read token tokens with
          | error => rfl
          | ok result =>
            obtain ⟨right, after⟩ := result
            have shorter := Link.progress outcome
            have within := (faithful token next chosen).rest_subset outcome
            dsimp only
            rw [← alike.join]
            exact extend_alike parallel faithful fun later member => known later (within member)
termination_by input.length
decreasing_by exact Nat.lt_succ_of_le shorter

private theorem Alike.chain {first second : Reader} (alike : first.Alike shared second)
    (faithful : first.Faithful) {link other : Token → Option Link}
    (parallel : Parallel shared link other)
    (links : ∀ token, ∀ next ∈ link token, next.Faithful token) :
    (first.chain link).Alike shared (second.chain other) := by
  intro input known
  unfold Reader.chain
  dsimp only
  rw [← alike known]
  cases outcome : first.read input with
  | error => rfl
  | ok result =>
    obtain ⟨left, rest⟩ := result
    have within := faithful.rest_subset outcome
    exact extend_alike parallel links fun token member => known token (within member)

private theorem Alike.additive {first second : Reader} (alike : first.Alike shared second) :
    Parallel shared (additive first) (additive second) := by
  intro token known
  cases token
  case plus | minus =>
    refine .some ⟨rfl, fun rest known => ?_⟩
    exact alike (List.forall_mem_cons.mp known).2
  all_goals exact .none

private theorem Alike.multiplicative {first second factor other : Reader}
    (signed : first.Alike shared second) (unsigned : factor.Alike shared other) :
    Parallel shared (multiplicative first factor) (multiplicative second other) := by
  intro token known
  cases token
  case multiply | divide =>
    refine .some ⟨rfl, fun rest known => ?_⟩
    exact signed (List.forall_mem_cons.mp known).2
  case openParen | atom => exact .some ⟨rfl, fun rest known => unsigned known⟩
  all_goals exact .none

end Reader

namespace Level

structure Alike (shared : Token → Prop) (first second : Level) : Prop where
  sum : first.sum.Alike shared second.sum
  signed : first.signed.Alike shared second.signed
  primary : first.primary.Alike shared second.primary

private theorem readArguments_alike {first second : Reader} (alike : first.Alike shared second)
    (faithful : first.Faithful) (name : String) (count : Nat) {input : List Token}
    (known : ∀ token ∈ input, shared token) :
    readArguments first name count input = readArguments second name count input := by
  induction count generalizing input with
  | zero => rfl
  | succ count ih =>
    unfold readArguments
    split
    · rfl
    · rfl
    next same =>
      cases same
      rw [← alike known]
      split
      · rfl
      next shorter =>
        have within := faithful.rest_subset shorter
        rw [ih fun token member => known token (within member)]
    · rfl

variable {inner other : Level}

private theorem Alike.primaryReader (alike : inner.Alike shared other) (faithful : inner.Faithful)
    (arities : ∀ name, shared (.atom name) → arity name = others name) :
    (primaryReader arity inner).Alike shared (primaryReader others other) := by
  intro input known
  unfold Level.primaryReader readPrimary
  dsimp only
  split
  · rfl
  · rfl
  next name rest =>
    obtain ⟨atom, known⟩ := List.forall_mem_cons.mp known
    rw [← arities name atom]
    split
    · rfl
    next count _ => rw [readArguments_alike alike.primary faithful.primary name count known]
  next rest =>
    obtain ⟨-, known⟩ := List.forall_mem_cons.mp known
    rw [alike.sum known]
  · rfl

private theorem Alike.powerReader (alike : inner.Alike shared other) {first second : Reader}
    (base : first.Alike shared second) (faithful : first.Faithful) :
    (powerReader first inner).Alike shared (powerReader second other) := by
  intro input known
  unfold Level.powerReader
  dsimp only
  rw [← base known]
  split
  · rfl
  next shorter =>
    have within := faithful.rest_subset shorter
    rw [alike.signed fun token member => known token (within (List.mem_cons_of_mem _ member))]
  · rfl

private theorem Alike.signedReader (alike : inner.Alike shared other) {first second : Reader}
    (unsigned : first.Alike shared second) :
    (signedReader first inner).Alike shared (signedReader second other) := by
  intro input known
  unfold Level.signedReader
  dsimp only
  split
  · rw [alike.signed (List.forall_mem_cons.mp known).2]
  · rw [alike.signed (List.forall_mem_cons.mp known).2]
  · exact unsigned known

private theorem Alike.around (alike : inner.Alike shared other) (faithful : inner.Faithful)
    (arities : ∀ name, shared (.atom name) → arity name = others name) :
    (inner.around arity).Alike shared (other.around others) := by
  have primary := alike.primaryReader faithful arities
  have faithfulPrimary := faithful.primaryReader arity
  have power := alike.powerReader primary faithfulPrimary
  have faithfulPower := faithful.powerReader faithfulPrimary
  have signed := alike.signedReader power
  have faithfulSigned := faithful.signedReader faithfulPower
  have links := faithfulSigned.multiplicative faithfulPower
  have product := signed.chain faithfulSigned (signed.multiplicative power) links
  have faithfulProduct := faithfulSigned.chain links
  exact ⟨product.chain faithfulProduct product.additive faithfulProduct.additive, signed, primary⟩

theorem remaining_alike (arities : ∀ name, shared (.atom name) → arity name = others name)
    (levels : Nat) : (remaining arity levels).Alike shared (remaining others levels) := by
  induction levels with
  | zero => exact ⟨fun _ _ => rfl, fun _ _ => rfl, fun _ _ => rfl⟩
  | succ levels ih => exact ih.around (remaining_faithful arity levels) arities

end Level

/-- Reading depends on the arities of the atoms that are there. -/
theorem Expr.ofTokens_congr {tokens : List Token}
    (arities : ∀ name, .atom name ∈ tokens → arity name = others name) :
    ofTokens arity tokens = ofTokens others tokens := by
  unfold ofTokens
  rw [(Level.remaining_alike arities _).sum fun _ => id]

end Reading

/-- Calculations with the same outcome that keep two states related. -/
def Evaluation.Alike (related : σ → τ → Prop) (first : Evaluation σ α) (second : Evaluation τ α) :
    Prop :=
  ∀ ⦃before other⦄, related before other →
    (first before).1 = (second other).1 ∧ related (first before).2 (second other).2

namespace Evaluation

variable {related : σ → τ → Prop}

theorem alike_pure (value : α) :
    Alike related (pure value : Evaluation σ α) (pure value : Evaluation τ α) :=
  fun _ _ kept => ⟨rfl, kept⟩

private theorem alike_throw (fault : Fault) :
    Alike related (throw fault : Evaluation σ α) (throw fault : Evaluation τ α) :=
  fun _ _ kept => ⟨rfl, kept⟩

private theorem alike_ofExcept (outcome : Except Fault α) :
    Alike related (ofExcept outcome : Evaluation σ α) (ofExcept outcome : Evaluation τ α) := by
  cases outcome with
  | ok value => exact alike_pure value
  | error fault => exact alike_throw fault

theorem Alike.bind {first : Evaluation σ α} {second : Evaluation τ α}
    {next : α → Evaluation σ β} {later : α → Evaluation τ β} (former : first.Alike related second)
    (latter : ∀ result, (next result).Alike related (later result)) :
    (first >>= next).Alike related (second >>= later) := by
  intro before other kept
  obtain ⟨same, kept⟩ := former kept
  rw [bind_apply, bind_apply, ← same]
  cases (first before).1 with
  | error => exact ⟨rfl, kept⟩
  | ok result => exact latter result kept

end Evaluation

/-- Environments that know each atom of some tokens alike. Resolving one keeps their states
related, so they agree on what is resolved later too. -/
structure Environment.Agrees (related : σ → τ → Prop) (tokens : List Token)
    (first : Environment σ) (second : Environment τ) : Prop where
  arity : ∀ name, .atom name ∈ tokens → first.arity name = second.arity name
  resolve : ∀ name arguments, .atom name ∈ tokens →
    (first.resolve name arguments).Alike related (second.resolve name arguments)

namespace Environment.Agrees

variable {related : σ → τ → Prop} {tokens part : List Token} {first : Environment σ}
  {second : Environment τ}

theorem mono (agrees : Agrees related tokens first second) (within : part ⊆ tokens) :
    Agrees related part first second where
  arity name member := agrees.arity name (within member)
  resolve name arguments member := agrees.resolve name arguments (within member)

mutual

private theorem evaluate (expr : Expr) (agrees : Agrees related expr.tokens first second) :
    (expr.evaluate first).Alike related (expr.evaluate second) := by
  match expr with
  | .number value => exact Evaluation.alike_pure value
  | .group inner =>
    refine evaluate inner (agrees.mono ?_)
    simp [Expr.tokens]
  | .signed sign operand =>
    have inside := evaluate operand (agrees.mono (by simp [Expr.tokens]))
    exact inside.bind fun value => Evaluation.alike_pure _
  | .binary operator left right =>
    have former := evaluate left (agrees.mono (by simp [Expr.tokens]))
    have latter := evaluate right (agrees.mono (by simp [Expr.tokens]))
    exact former.bind fun _ => latter.bind fun _ => Evaluation.alike_ofExcept _
  | .adjoining left right =>
    have former := evaluate left (agrees.mono (by simp [Expr.tokens]))
    have latter := evaluate right (agrees.mono (by simp [Expr.tokens]))
    exact former.bind fun _ => latter.bind fun _ => Evaluation.alike_ofExcept _
  | .call name arguments =>
    have inside := evaluateAll arguments (agrees.mono (by simp [Expr.tokens]))
    refine inside.bind fun values => agrees.resolve name values ?_
    simp [Expr.tokens]

private theorem evaluateAll (exprs : List Expr)
    (agrees : Agrees related (Expr.allTokens exprs) first second) :
    (Expr.evaluateAll first exprs).Alike related (Expr.evaluateAll second exprs) := by
  match exprs with
  | [] => exact Evaluation.alike_pure []
  | expr :: others =>
    have former := evaluate expr (agrees.mono (by simp [Expr.allTokens]))
    have latter := evaluateAll others (agrees.mono (by simp [Expr.allTokens]))
    exact former.bind fun _ => latter.bind fun _ => Evaluation.alike_pure _

end

/-- Environments that agree on the atoms of a list of tokens give it the same value or the same
fault. -/
theorem parse (agrees : Agrees related tokens first second) :
    (first.parse tokens).Alike related (second.parse tokens) := by
  unfold Environment.parse
  rw [← Expr.ofTokens_congr agrees.arity]
  cases reading : Expr.ofTokens first.arity tokens with
  | ok expr =>
    rw [← Expr.tokens_eq_of_ofTokens reading] at agrees
    exact evaluate expr agrees
  | error interruption =>
    have within := Expr.within_of_ofTokens reading
    have complete := evaluateAll interruption.complete (agrees.mono fun _ => within.mem)
    exact complete.bind fun _ => Evaluation.alike_throw _

end Environment.Agrees
end PocketCalc
