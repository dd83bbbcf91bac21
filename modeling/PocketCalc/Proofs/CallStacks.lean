import PocketCalc.Proofs.ReaderCompleteness
import Mathlib.Logic.Relation

/-! Which readers stand above one another while a list of tokens is read. Within a level a reader
asks only tighter ones, and each of the four ways around, by a sign, an exponent, a group or an
argument, goes one level deeper. The stack is therefore bounded by the levels, however long the
tokens are. That no call is left out follows from what a reading depends on. -/

namespace PocketCalc

variable {arity : String → Option Nat}

namespace Reader

def Advances (link : Token → Option Link) (input after : List Token) : Prop :=
  ∃ token rest next operand, input = token :: rest ∧ link token = some next ∧
    next.read token rest = .ok (operand, after)

def Reaches (first : Reader) (link : Token → Option Link) (input position : List Token) : Prop :=
  ∃ operand rest, first.read input = .ok (operand, rest) ∧
    Relation.ReflTransGen (Advances link) rest position

/-- A chain is the same if its links are, wherever it looks for them. -/
theorem extend_congr {link other : Token → Option Link} {left : Expr} {input : List Token}
    (joins : ∀ token, (other token).map Link.join = (link token).map Link.join)
    (reads : ∀ token rest next alternative,
      Relation.ReflTransGen (Advances link) input (token :: rest) → link token = some next →
      other token = some alternative → alternative.read token rest = next.read token rest) :
    extend other left input = extend link left input := by
  match input with
  | [] => rw [extend_nil, extend_nil]
  | token :: rest =>
    have same := joins token
    rw [extend_cons, extend_cons]
    cases chosen : link token with
    | none =>
      rw [chosen, Option.map_none, Option.map_eq_none_iff] at same
      rw [same]
    | some next =>
      rw [chosen, Option.map_some, Option.map_eq_some_iff] at same
      obtain ⟨alternative, found, join⟩ := same
      simp only [found, join, reads token rest next alternative .refl chosen found]
      cases success : next.read token rest with
      | error interruption => rfl
      | ok result =>
        obtain ⟨right, after⟩ := result
        have taken := Link.progress success
        have advances : Advances link (token :: rest) after :=
          ⟨token, rest, next, right, rfl, chosen, success⟩
        exact extend_congr joins fun token rest next alternative reached =>
          reads token rest next alternative (.head advances reached)
termination_by input.length
decreasing_by exact Nat.lt_succ_of_le taken

private theorem chain_congr {first other : Reader} {link links : Token → Option Link}
    {input : List Token} (same : other.read input = first.read input)
    (joins : ∀ token, (links token).map Link.join = (link token).map Link.join)
    (reads : ∀ token rest next alternative, first.Reaches link input (token :: rest) →
      link token = some next → links token = some alternative →
      alternative.read token rest = next.read token rest) :
    (other.chain links).read input = (first.chain link).read input := by
  simp only [chain, same]
  cases success : first.read input with
  | error interruption => rfl
  | ok result =>
    obtain ⟨operand, rest⟩ := result
    exact extend_congr joins fun token after next alternative reached =>
      reads token after next alternative ⟨operand, rest, success, reached⟩

end Reader

/-- Arguments are the same if each of them is, wherever it is read. -/
theorem Level.readArguments_congr {argument other : Reader} {name : String} {count : Nat}
    {input : List Token}
    (reads : ∀ earlier arguments token rest, earlier < count →
      readArguments argument name earlier input = .ok (arguments, .openParen :: token :: rest) →
      token ≠ .closeParen →
      other.read (.openParen :: token :: rest) = argument.read (.openParen :: token :: rest)) :
    readArguments other name count input = readArguments argument name count input := by
  induction count generalizing input with
  | zero => rfl
  | succ count ih =>
    unfold readArguments
    split
    · contradiction
    · rfl
    next token rest inhabited same =>
      cases same
      rw [reads 0 [] token rest (Nat.succ_pos _) rfl inhabited]
      cases success : argument.read (.openParen :: token :: rest) with
      | error interruption => rfl
      | ok result =>
        obtain ⟨first, after⟩ := result
        dsimp only
        rw [ih fun earlier arguments token rest less read =>
          reads (earlier + 1) (first :: arguments) token rest (Nat.succ_lt_succ less)
            (readArguments_more inhabited success read)]
    · rfl

/-- The level within a depth, at which groups, signs, exponents and arguments are read. -/
def Level.within (arity : String → Option Nat) (depth : Nat) : Level :=
  Level.remaining arity (Expr.nestingLimit - depth)

theorem Level.within_eq {depth : Nat} (inside : depth < Expr.nestingLimit) :
    within arity depth = (within arity (depth + 1)).around arity := by
  have levels : Expr.nestingLimit - depth = Expr.nestingLimit - (depth + 1) + 1 := by omega
  rw [within, levels, remaining, ← within]

def Category.rank : Category → Nat
  | .primary => 0
  | .power => 1
  | .signed => 2
  | .product => 3
  | .sum => 4

private theorem Category.rank_le (category : Category) : category.rank ≤ 4 := by
  cases category <;> decide

/-- A reader at work: how deep it was entered, and what it was given to read. -/
structure Frame where
  category : Category
  depth : Nat
  input : List Token

namespace Frame

def reading (arity : String → Option Nat) (frame : Frame) : Reading :=
  ((Level.within arity frame.depth).reader arity frame.category).read frame.input

def TermsReach (arity : String → Option Nat) (depth : Nat) : List Token → List Token → Prop :=
  let product := Level.products arity (Level.within arity depth)
  product.Reaches (Reader.additive product)

def FactorsReach (arity : String → Option Nat) (depth : Nat) : List Token → List Token → Prop :=
  let factor := Level.factors arity (Level.within arity depth)
  factor.Reaches (Reader.multiplicative factor (Level.powers arity (Level.within arity depth)))

/-- One constructor for each place where a reader enters another. A deeper level is entered only
below the limit; at the limit the fault is reported instead. -/
inductive Calls (arity : String → Option Nat) : Frame → Frame → Prop
  | product {depth input} : Calls arity ⟨.sum, depth, input⟩ ⟨.product, depth, input⟩
  | term {depth input rest} (sign : Sign) : TermsReach arity depth input (sign.token :: rest) →
      Calls arity ⟨.sum, depth, input⟩ ⟨.product, depth, rest⟩
  | signed {depth input} : Calls arity ⟨.product, depth, input⟩ ⟨.signed, depth, input⟩
  | factor {depth input token rest} : token = .multiply ∨ token = .divide →
      FactorsReach arity depth input (token :: rest) →
      Calls arity ⟨.product, depth, input⟩ ⟨.signed, depth, rest⟩
  | adjoining {depth input token rest} : token.adjoins = true →
      FactorsReach arity depth input (token :: rest) →
      Calls arity ⟨.product, depth, input⟩ ⟨.power, depth, token :: rest⟩
  | operand {depth rest} (sign : Sign) : depth < Expr.nestingLimit →
      Calls arity ⟨.signed, depth, sign.token :: rest⟩ ⟨.signed, depth + 1, rest⟩
  | power {depth input} : (∀ (sign : Sign) rest, input ≠ sign.token :: rest) →
      Calls arity ⟨.signed, depth, input⟩ ⟨.power, depth, input⟩
  | primary {depth input} : Calls arity ⟨.power, depth, input⟩ ⟨.primary, depth, input⟩
  | exponent {depth input base rest} : depth < Expr.nestingLimit →
      reading arity ⟨.primary, depth, input⟩ = .ok (base, .exponent :: rest) →
      Calls arity ⟨.power, depth, input⟩ ⟨.signed, depth + 1, rest⟩
  | group {depth rest} : depth < Expr.nestingLimit →
      Calls arity ⟨.primary, depth, .openParen :: rest⟩ ⟨.sum, depth + 1, rest⟩
  | argument {depth name count earlier input arguments token rest} : depth < Expr.nestingLimit →
      arity name = some count → earlier < count →
      Level.readArguments (Level.within arity depth).primary name earlier input =
        .ok (arguments, .openParen :: token :: rest) →
      token ≠ .closeParen →
      Calls arity ⟨.primary, depth, .atom name :: input⟩
        ⟨.primary, depth + 1, .openParen :: token :: rest⟩

variable {caller called frame : Frame}

theorem Calls.depth_eq_or (calls : Calls arity caller called) :
    called.depth = caller.depth ∧ called.category.rank < caller.category.rank ∨
      called.depth = caller.depth + 1 ∧ caller.depth < Expr.nestingLimit := by
  cases calls with
  | product | term | signed | factor | adjoining | power | primary =>
    exact .inl ⟨rfl, by simp [Category.rank]⟩
  | operand _ inside | exponent inside | group inside | argument inside => exact .inr ⟨rfl, inside⟩

/-- How many readers can be entered above a frame: five at each deeper level, and those that are
tighter at its own. -/
def room (frame : Frame) : Nat :=
  5 * (Expr.nestingLimit - frame.depth) + frame.category.rank

theorem Calls.room_lt (calls : Calls arity caller called) : called.room < caller.room := by
  have tightest := called.category.rank_le
  unfold room
  rcases calls.depth_eq_or with ⟨same, tighter⟩ | ⟨deeper, inside⟩
  · rw [same]
    omega
  · omega

private theorem room_lt_of_transGen (calls : Relation.TransGen (Calls arity) caller called) :
    called.room < caller.room := by
  induction calls with
  | single call => exact call.room_lt
  | tail _ call ih => exact Nat.lt_trans call.room_lt ih

/-- Between two calls of one reader there is a deeper level. -/
theorem depth_lt_of_transGen (calls : Relation.TransGen (Calls arity) caller called)
    (again : called.category = caller.category) : caller.depth < called.depth := by
  have less := room_lt_of_transGen calls
  unfold room at less
  rw [again] at less
  omega

/-- A level answers as the readers do that are entered one level deeper. -/
structure Answered (arity : String → Option Nat) (inner : Level) (frame : Frame) : Prop where
  sum : ∀ input, Relation.TransGen (Calls arity) frame ⟨.sum, frame.depth + 1, input⟩ →
    inner.sum.read input = reading arity ⟨.sum, frame.depth + 1, input⟩
  signed : ∀ input, Relation.TransGen (Calls arity) frame ⟨.signed, frame.depth + 1, input⟩ →
    inner.signed.read input = reading arity ⟨.signed, frame.depth + 1, input⟩
  primary : ∀ input, Relation.TransGen (Calls arity) frame ⟨.primary, frame.depth + 1, input⟩ →
    inner.primary.read input = reading arity ⟨.primary, frame.depth + 1, input⟩

section
variable {inner : Level} {depth : Nat} {input : List Token} {category : Category}

private theorem Answered.of_call (answered : Answered arity inner ⟨category, depth, input⟩)
    {called : Category} {asked : List Token}
    (call : Calls arity ⟨category, depth, input⟩ ⟨called, depth, asked⟩) :
    Answered arity inner ⟨called, depth, asked⟩ where
  sum input calls := answered.sum input (.head call calls)
  signed input calls := answered.signed input (.head call calls)
  primary input calls := answered.primary input (.head call calls)

private theorem Answered.read_primary (answered : Answered arity inner ⟨.primary, depth, input⟩)
    (inside : depth < Expr.nestingLimit) :
    (Level.primaryReader arity inner).read input = reading arity ⟨.primary, depth, input⟩ := by
  change Level.readPrimary arity inner input =
    Level.readPrimary arity (Level.within arity depth) input
  unfold Level.readPrimary
  split
  · rfl
  · rfl
  next name rest =>
    cases known : arity name with
    | none => rfl
    | some count =>
      have same : Level.readArguments inner.primary name count rest =
          Level.readArguments (Level.within arity depth).primary name count rest := by
        refine Level.readArguments_congr ?_
        intro earlier arguments token after less read inhabited
        rw [answered.primary _ (.single (.argument inside known less read inhabited)),
          Level.within_eq inside]
        rfl
      simp only [same]
  next rest =>
    have same : inner.sum.read rest = (Level.within arity depth).sum.read rest := by
      rw [answered.sum _ (.single (.group inside)), Level.within_eq inside]
      rfl
    rw [same]
  · rfl

private theorem Answered.read_power (answered : Answered arity inner ⟨.power, depth, input⟩)
    (inside : depth < Expr.nestingLimit) :
    (Level.powers arity inner).read input = reading arity ⟨.power, depth, input⟩ := by
  have base : (Level.primaryReader arity inner).read input =
      (Level.primaryReader arity (Level.within arity depth)).read input :=
    (answered.of_call .primary).read_primary inside
  simp only [reading, Level.reader, Level.powers, Level.powerReader, base]
  cases success : (Level.primaryReader arity (Level.within arity depth)).read input with
  | error interruption => rfl
  | ok result =>
    split
    · rfl
    next same =>
      cases same
      rw [answered.signed _ (.single (.exponent inside success)), Level.within_eq inside]
      rfl
    · rfl

private theorem Answered.read_operand (sign : Sign) {rest : List Token}
    (answered : Answered arity inner ⟨.signed, depth, sign.token :: rest⟩)
    (inside : depth < Expr.nestingLimit) :
    inner.signed.read rest = (Level.within arity depth).signed.read rest := by
  rw [answered.signed _ (.single (.operand sign inside)), Level.within_eq inside]
  rfl

private theorem Answered.read_signed (answered : Answered arity inner ⟨.signed, depth, input⟩)
    (inside : depth < Expr.nestingLimit) :
    (Level.factors arity inner).read input = reading arity ⟨.signed, depth, input⟩ := by
  change _ = (Level.factors arity (Level.within arity depth)).read input
  simp only [Level.factors, Level.signedReader]
  split
  next rest => rw [Answered.read_operand .plus answered inside]
  next rest => rw [Answered.read_operand .minus answered inside]
  next notPlus notMinus =>
    refine (answered.of_call (.power fun sign rest same => ?_)).read_power inside
    cases sign with
    | plus => exact notPlus rest same
    | minus => exact notMinus rest same

private theorem Answered.read_product (answered : Answered arity inner ⟨.product, depth, input⟩)
    (inside : depth < Expr.nestingLimit) :
    (Level.products arity inner).read input = reading arity ⟨.product, depth, input⟩ := by
  apply Reader.chain_congr ((answered.of_call .signed).read_signed inside)
  case joins =>
    intro token
    cases token <;> rfl
  case reads =>
    intro token rest next alternative reached chosen found
    cases token <;> cases chosen <;> cases found
    case multiply => exact (answered.of_call (.factor (.inl rfl) reached)).read_signed inside
    case divide => exact (answered.of_call (.factor (.inr rfl) reached)).read_signed inside
    case openParen | atom => exact (answered.of_call (.adjoining rfl reached)).read_power inside

private theorem Answered.read_sum (answered : Answered arity inner ⟨.sum, depth, input⟩)
    (inside : depth < Expr.nestingLimit) :
    (inner.reader arity .sum).read input = reading arity ⟨.sum, depth, input⟩ := by
  apply Reader.chain_congr ((answered.of_call .product).read_product inside)
  case joins =>
    intro token
    cases token <;> rfl
  case reads =>
    intro token rest next alternative reached chosen found
    cases token <;> cases chosen <;> cases found
    case plus => exact (answered.of_call (.term .plus reached)).read_product inside
    case minus => exact (answered.of_call (.term .minus reached)).read_product inside

end

/-- Below the limit, what a reader reads depends on nothing but the readers it enters. -/
theorem Answered.read_eq {inner : Level} (answered : frame.Answered arity inner)
    (inside : frame.depth < Expr.nestingLimit) :
    (inner.reader arity frame.category).read frame.input = frame.reading arity := by
  obtain ⟨category, depth, input⟩ := frame
  cases category with
  | sum => exact answered.read_sum inside
  | product => exact answered.read_product inside
  | signed => exact answered.read_signed inside
  | power => exact answered.read_power inside
  | primary => exact answered.read_primary inside

end Frame

/-- Readers that are at work at the same time, the one entered last first. -/
inductive CallStack (arity : String → Option Nat) (tokens : List Token) : List Frame → Prop
  | bottom : CallStack arity tokens [⟨.sum, 0, tokens⟩]
  | push {caller called others} : CallStack arity tokens (caller :: others) →
      caller.Calls arity called → CallStack arity tokens (called :: caller :: others)

namespace CallStack

variable {tokens : List Token} {stack : List Frame}

theorem depth_le (calls : CallStack arity tokens stack) :
    ∀ frame ∈ stack, frame.depth ≤ Expr.nestingLimit := by
  induction calls with
  | bottom => simp
  | push calls call ih =>
    have inside := ih _ List.mem_cons_self
    refine List.forall_mem_cons.mpr ⟨?_, ih⟩
    rcases call.depth_eq_or with ⟨same, -⟩ | ⟨deeper, below⟩ <;> omega

private theorem length_add_room_le (calls : CallStack arity tokens stack) :
    ∀ top ∈ stack.head?, stack.length + top.room ≤ 5 * (Expr.nestingLimit + 1) := by
  induction calls with
  | bottom =>
    rintro _ ⟨⟩
    exact Nat.le_refl _
  | push calls call ih =>
    rintro _ ⟨⟩
    have less := call.room_lt
    have bounded := ih _ rfl
    rw [List.length_cons]
    omega

theorem length_le (calls : CallStack arity tokens stack) :
    stack.length ≤ 5 * (Expr.nestingLimit + 1) := by
  have bounded := calls.length_add_room_le
  cases calls with
  | bottom | push => exact Nat.le_of_add_right_le (bounded _ rfl)

end CallStack
end PocketCalc
