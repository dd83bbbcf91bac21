import PocketCalc.AngleMode

/-! What the words of a command line ask for. Options come before the first word
of the expression; from there on, or after a double dash, every word belongs to
the expression even if it begins with a dash. -/

namespace PocketCalc
namespace CommandLine

structure Settings where
  mode : AngleMode
  precision : Nat
  raw : Bool
deriving DecidableEq

inductive Request where
  | version
  | refused
  | lines (settings : Settings)
  | expression (settings : Settings) (text : String)
deriving DecidableEq

/-- The options met so far, each as often as it was given. A precision without a
value is `none`. -/
structure Options where
  radians : Nat
  raw : Nat
  precisions : List (Option (List Char))
deriving DecidableEq

namespace Options

def initial : Options := ⟨0, 0, []⟩

def addRadians (options : Options) : Options := { options with radians := options.radians + 1 }

def addRaw (options : Options) : Options := { options with raw := options.raw + 1 }

def addPrecision (options : Options) (value : List Char) : Options :=
  { options with precisions := some value :: options.precisions }

/-- A value in the same word as its option. Equal signs between the two belong to
neither, while a value that is a word of its own is taken as it stands. -/
def addAttachedPrecision (options : Options) (text : List Char) : Options :=
  options.addPrecision (text.dropWhile (· == '='))

def settled (options : Options) (awaiting : Bool) : Options :=
  if awaiting then { options with precisions := none :: options.precisions } else options

/-- A natural number of at most 64 bits. -/
def readPlaces? (text : List Char) : Option Nat :=
  let digits :=
    match text with
    | '+' :: digits => digits
    | digits => digits
  let places := Nat.ofDigitChars 10 digits 0
  if !digits.isEmpty && digits.all Char.isDigit && places ≤ 0xffffffffffffffff then some places
  else none

def places? (options : Options) : Option Nat :=
  match options.precisions with
  | [] => some 6
  | [some value] => readPlaces? value
  | _ => none

/-- The settings, if no option was given twice and the precision is a number. -/
def settings? (options : Options) : Option Settings :=
  if options.radians ≤ 1 && options.raw ≤ 1 then
    options.places?.map fun precision =>
      ⟨if options.radians = 0 then .degrees else .radians, precision, options.raw == 1⟩
  else none

def request (options : Options) (words : List String) : Request :=
  match options.settings?, words with
  | none, _ => .refused
  | some settings, [] => .lines settings
  | some settings, words => .expression settings (" ".intercalate words)

end Options

/-- What an option word leads to: to further options, the first of which may be
the value of a precision, or to the end of them. -/
inductive Progress where
  | version
  | refused
  | ended
  | options (options : Options)
  | awaiting (options : Options)

/-- The letters after a single dash. A precision takes the rest of the word as its
value, if there is a rest. -/
def readLetters (options : Options) : List Char → Progress
  | [] => .options options
  | 'V' :: _ => .version
  | 'p' :: [] => .awaiting options
  | 'p' :: text => .options (options.addAttachedPrecision text)
  | 'r' :: letters => readLetters options.addRadians letters
  | 'v' :: letters => readLetters options letters
  | _ => .refused

def readName (options : Options) (word : List Char) : Progress :=
  let attached := word.dropWhile (· != '=')
  match String.ofList (word.takeWhile (· != '=')) with
  | "version" => .version
  | "radians" => .options options.addRadians
  | "raw" => .options options.addRaw
  | "precision" =>
    if attached.isEmpty then .awaiting options
    else .options (options.addAttachedPrecision attached)
  | _ => .refused

/-- What a word is where an option may stand. A dash alone is no option. -/
def readOption? (options : Options) : List Char → Option Progress
  | ['-', '-'] => some .ended
  | '-' :: '-' :: name => some (readName options (name.dropWhile (· == '-')))
  | '-' :: letter :: letters => some (readLetters options (letter :: letters))
  | _ => none

/-- Read words where an option may stand, or the value a precision is awaiting. A
word that looks like an option is never a value. -/
def readWords (options : Options) (awaiting : Bool) : List String → Request
  | [] => (options.settled awaiting).request []
  | word :: words =>
    match readOption? (options.settled awaiting) word.toList with
    | none =>
      if awaiting then readWords (options.addPrecision word.toList) false words
      else options.request (word :: words)
    | some .version => .version
    | some .refused => .refused
    | some .ended => (options.settled awaiting).request words
    | some (.options options) => readWords options false words
    | some (.awaiting options) => readWords options true words

def Request.ofWords (words : List String) : Request := readWords .initial false words

end CommandLine
end PocketCalc
