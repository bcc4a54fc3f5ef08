import CrewRoster.Number.Numeral

/-!
Command line options. An option is given as `--name value` or `--name=value`, and its name may be cut
short as long as no other option starts the same way. All arguments are sorted into options and values
before any of them is looked at.
-/

namespace CrewRoster.Command

/-- What an option takes. -/
inductive OptionKind
  | text
  | whole
  | real
  | oneOf (values : List String)
  | switch

structure OptionSpec where
  name : String
  kind : OptionKind

/-- The ways in which reading arguments ends a program. -/
inductive Stop
  | help
  | misuse
  deriving DecidableEq, Repr

def Stop.exitCode : Stop → Nat
  | help => 0
  | misuse => 2

/-- An argument, before its meaning for its neighbours is known. -/
inductive Argument
  | value (text : String)
  | option (spec : OptionSpec) (value : Option String)
  | help
  | unknown
  /-- An option for help that is given a value. -/
  | refused
  /-- Past this mark everything is a value. -/
  | mark

namespace Argument

/-- A minus before digits, or before a fraction; a line may end behind them. -/
def isNegativeNumber (cs : List Char) : Bool :=
  match cs with
  | '-' :: cs =>
    let cs := if cs.getLast? == some '\n' then cs.dropLast else cs
    let isDigit (c : Char) : Bool := (Text.digit? c).isSome
    let whole := cs.takeWhile isDigit
    match cs.dropWhile isDigit with
    | [] => !whole.isEmpty
    | '.' :: fraction => !fraction.isEmpty && fraction.all isDigit
    | _ => false
  | _ => false

/-- A name and the value behind the first equals sign. -/
def splitValue (text : String) : String × Option String :=
  match text.splitOn "=" with
  | [] => (text, none)
  | [name] => (name, none)
  | name :: values => (name, some ("=".intercalate values))

/-- The options that a name may stand for, `none` being the one for help. -/
def candidates (specs : List OptionSpec) (name : String) : List (Option OptionSpec) :=
  (if name.isPrefixOf "--help" then [none] else []) ++
    (specs.filter fun spec => name.isPrefixOf spec.name).map some

def ofCandidate (given : Option String) : Option OptionSpec → Argument
  | none => if given.isSome then .refused else .help
  | some spec => .option spec given

/-- What stands behind `-h`, or behind an equals sign there, are more letters for help. -/
def ofLetters (cs : List Char) : Argument :=
  match cs with
  | ['='] => .refused
  | '=' :: cs => if cs.all (· == 'h') then .help else .refused
  | cs => if cs.all (· == 'h') then .help else .refused

/-- What does not name an option may still be a value. -/
def ofOther (text : String) : Argument :=
  if isNegativeNumber text.toList || text.contains ' ' then .value text else .unknown

def classify (specs : List OptionSpec) (text : String) : Except Stop Argument :=
  let cs := text.toList
  if cs.head? ≠ some '-' || cs.length = 1 then .ok (.value text)
  else if cs.take 2 = ['-', 'h'] then .ok (ofLetters (cs.drop 2))
  else
    match specs.find? (·.name = text) with
    | some spec => .ok (.option spec none)
    | none =>
      let (name, given) := splitValue text
      match specs.find? (·.name = name) with
      | some spec => .ok (.option spec given)
      | none =>
        -- only long names may be cut short
        if cs.take 2 = ['-', '-'] then
          match candidates specs name with
          | [] => .ok (ofOther text)
          | [candidate] => .ok (ofCandidate given candidate)
          | _ => .error .misuse
        else .ok (ofOther text)

def classifyAll (specs : List OptionSpec) : List String → Except Stop (List Argument)
  | [] => .ok []
  | "--" :: texts => .ok (.mark :: texts.map .value)
  | text :: texts => do return (← classify specs text) :: (← classifyAll specs texts)

end Argument

/-- Whether an option can take a text as its value. -/
def OptionKind.accepts : OptionKind → String → Bool
  | text, _ => true
  | whole, s => (readWhole? s).isSome
  | real, s => (readBinary64? s).isSome
  | oneOf values, s => values.contains s
  | switch, _ => false

/-- The options given, by name, the last value of each being the one that counts. -/
structure Given where
  values : List (String × String)
  /-- Arguments that belong to no option. -/
  isOver : Bool

namespace Given

def value? (g : Given) (name : String) : Option String := g.values.lookup name

def isSet (g : Given) (name : String) : Bool := (g.value? name).isSome

def give (g : Given) (spec : OptionSpec) (text : String) : Except Stop Given :=
  if spec.kind.accepts text then .ok { g with values := (spec.name, text) :: g.values }
  else .error .misuse

def read (g : Given) : List Argument → Except Stop Given
  | [] => if g.isOver then .error .misuse else .ok g
  | .help :: _ => .error .help
  | .refused :: _ => .error .misuse
  | .unknown :: rest | .value _ :: rest | .mark :: rest => read { g with isOver := true } rest
  | .option ⟨name, .switch⟩ none :: rest => read { g with values := (name, "") :: g.values } rest
  | .option spec (some text) :: rest => do read (← g.give spec text) rest
  | .option spec none :: .value text :: rest => do read (← g.give spec text) rest
  | .option _ none :: _ => .error .misuse

end Given

/-- The options among some arguments. -/
def readArguments (specs : List OptionSpec) (texts : List String) : Except Stop Given := do
  Given.read ⟨[], false⟩ (← Argument.classifyAll specs texts)

end CrewRoster.Command
