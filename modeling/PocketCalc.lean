import PocketCalc.Expr.Spelling
import PocketCalc.Main
import PocketCalc.Proofs.Grammar
import PocketCalc.Proofs.ReaderSoundness
import PocketCalc.Proofs.Calculator
import PocketCalc.Proofs.CanonicalText
import PocketCalc.Proofs.Finiteness
import PocketCalc.Proofs.SurroundingBlanks
import PocketCalc.Proofs.StandardInput
import PocketCalc.Proofs.DisplayedAnswers
import PocketCalc.Proofs.TidyText
import PocketCalc.Proofs.TypedSessions
import PocketCalc.Proofs.ArithmeticChains
import PocketCalc.Proofs.TypedExpressions
import PocketCalc.Proofs.FailedCalculations
import PocketCalc.Proofs.LexemeEnds
import PocketCalc.Proofs.TypedOperations
import PocketCalc.Proofs.ContinuedResults
import PocketCalc.Proofs.DisplayedSums
import PocketCalc.Proofs.TypedDecimals
import PocketCalc.Proofs.AgreeingEnvironments
import PocketCalc.Proofs.AngleModes
import PocketCalc.Proofs.WrittenForms
import PocketCalc.Proofs.CanonicalShape
import PocketCalc.Proofs.FixedPlaces
import PocketCalc.Proofs.SeparatingBlanks
import PocketCalc.Proofs.ShortestDigits
import PocketCalc.Proofs.DisplayedNumbers
import PocketCalc.Proofs.StableDisplays
import PocketCalc.Proofs.CallStacks
import PocketCalc.Proofs.NestingLimit
import PocketCalc.Proofs.ResolvedAtoms
import PocketCalc.Proofs.UnexpectedTokens
import PocketCalc.Proofs.UnmatchedParentheses
import PocketCalc.Proofs.ViablePrefixes
import PocketCalc.Proofs.ErasedKeys
import PocketCalc.Proofs.WrittenTokens
import PocketCalc.Proofs.DegreeConversion
