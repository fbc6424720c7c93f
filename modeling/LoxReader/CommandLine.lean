import LoxReader.Settings
import LoxReader.Text.DecimalDigit

/-! # The command line

Arguments are first told apart one by one: options, unknown options, and operands. They are
then acted on from left to right. Long options may be shortened as long as one option alone
starts so, and short options may be joined. After a double dash everything is an operand. -/

namespace LoxReader

inductive Flag where
  | help | tokens | explain | verbose
deriving DecidableEq, Repr

namespace Flag

/-- The long options, in the order in which messages list them. -/
def longNames : List (String × Flag) :=
  [("--help", .help), ("--tokens", .tokens), ("--explain", .explain), ("--verbose", .verbose)]

/-- The letters of the short options. -/
def letters : List (Char × Flag) :=
  [('h', .help), ('v', .verbose)]

/-- An option as messages name it. -/
def label : Flag → String
  | .help => "-h/--help"
  | .tokens => "--tokens"
  | .explain => "--explain"
  | .verbose => "-v/--verbose"

end Flag

/-- Why a command line is refused. -/
inductive UsageError where
  /-- Several options start like the argument. -/
  | ambiguous (argument : String) (candidates : List String)
  /-- An option is given a value but takes none. -/
  | unexpectedValue (flag : Flag) (value : String)
  /-- Unknown options and operands beyond the first. -/
  | unrecognized (arguments : List String)
  /-- The log level of the environment is none. -/
  | logLevel (error : UnknownLogLevel)
deriving DecidableEq, Repr

def UsageError.message : UsageError → String
  | .ambiguous argument candidates =>
    "ambiguous option: " ++ argument ++ " could match " ++ ", ".intercalate candidates
  | .unexpectedValue flag value =>
    "argument " ++ flag.label ++ ": ignored explicit argument " ++
      String.ofList (Text.quoted Text.isPrintable value.toList)
  | .unrecognized arguments => "unrecognized arguments: " ++ " ".intercalate arguments
  | .logLevel error => error.message

/-- One argument, told apart. -/
inductive Argument where
  /-- The first double dash. -/
  | separator
  | operand (text : String)
  | unknown (text : String)
  /-- An option, with the value given to it if there is one. -/
  | option (flag : Flag) (value : Option String)
  /-- A short option with more letters behind it. -/
  | joined (flag : Flag) (letters : List Char)
deriving DecidableEq, Repr

/-- A text before its first equals sign, and what follows the sign if there is one. -/
def splitValue : List Char → List Char × Option (List Char)
  | [] => ([], none)
  | c :: rest =>
    if c = '=' then ([], some rest)
    else
      let (name, value) := splitValue rest
      (c :: name, value)

/-- Whether a text without its dash is a number: digits, or a point with digits behind it and
perhaps before it. One newline at the end does not count. -/
def looksNumeric (s : List Char) : Bool :=
  let s := if s.getLast? = some '\n' then s.dropLast else s
  let rest := s.dropWhile Text.isDecimalDigit
  match rest with
  | [] => !s.isEmpty
  | '.' :: fraction => !fraction.isEmpty && fraction.all Text.isDecimalDigit
  | _ => false

/-- An argument that no option matches. A negative number or a text with a space is an operand
all the same. -/
def unmatched (text : String) : Argument :=
  if looksNumeric (text.toList.drop 1) || ' ' ∈ text.toList then .operand text
  else .unknown text

/-- Tells one argument apart. One equals sign may stand between a short option and the letters
joined to it. -/
def Argument.ofText (text : String) : Except UsageError Argument :=
  let (name, value) := splitValue text.toList
  match text.toList with
  | '-' :: '-' :: _ =>
    match Flag.longNames.lookup (String.ofList name) with
    | some flag => .ok (.option flag (value.map String.ofList))
    | none =>
      match Flag.longNames.filter fun entry => name.isPrefixOf entry.1.toList with
      | [] => .ok (unmatched text)
      | [(_, flag)] => .ok (.option flag (value.map String.ofList))
      | candidates => .error (.ambiguous text (candidates.map (·.1)))
  | '-' :: letter :: rest =>
    match Flag.letters.lookup letter with
    | none => .ok (unmatched text)
    | some flag =>
      match rest with
      | [] => .ok (.option flag none)
      | ['='] => .ok (.option flag (some ""))
      | '=' :: letters => .ok (.joined flag letters)
      | letters => .ok (.joined flag letters)
  | _ => .ok (.operand text)

/-- Tells the arguments of a command line apart. -/
def Argument.ofTexts : List String → Except UsageError (List Argument)
  | [] => .ok []
  | text :: rest =>
    if text = "--" then .ok (.separator :: rest.map .operand)
    else
      match Argument.ofText text with
      | .error e => .error e
      | .ok argument =>
        match Argument.ofTexts rest with
        | .error e => .error e
        | .ok arguments => .ok (argument :: arguments)

/-- The options that letters behind a short option stand for, that option first. From the first
unknown letter on they are a value for the option before it, and no option takes one. -/
def joinedFlags (flag : Flag) : List Char → Except UsageError (List Flag)
  | [] => .ok [flag]
  | letter :: rest =>
    match Flag.letters.lookup letter with
    | none => .error (.unexpectedValue flag (String.ofList (letter :: rest)))
    | some next => (joinedFlags next rest).map (flag :: ·)

/-- What a command line asks for. -/
structure Options where
  script : Option String := none
  tokens : Bool := false
  explain : Bool := false
  verbose : Bool := false
deriving DecidableEq, Repr

/-- What a command line comes to. -/
inductive Invocation where
  | help
  | refused (error : UsageError)
  | run (options : Options)
deriving DecidableEq, Repr

def Options.set (o : Options) : Flag → Options
  | .help => o
  | .tokens => { o with tokens := true }
  | .explain => { o with explain := true }
  | .verbose => { o with verbose := true }

/-- Sets options, unless help is among them. -/
def Options.setAll (o : Options) (flags : List Flag) : Option Options :=
  if .help ∈ flags then none else some (flags.foldl Options.set o)

/-- Acts on arguments from left to right. The first operand is the script; a double dash
before it, or right behind it, is dropped. Everything unknown is collected and refused at the
end, unless help is asked for before. -/
def Invocation.ofArguments (o : Options) (unknown : List String) : List Argument → Invocation
  | [] => if unknown.isEmpty then .run o else .refused (.unrecognized unknown)
  | .operand text :: rest =>
    if o.script.isSome then ofArguments o (unknown ++ [text]) rest
    else
      match rest with
      | .separator :: rest => ofArguments { o with script := some text } unknown rest
      | rest => ofArguments { o with script := some text } unknown rest
  | .separator :: rest =>
    ofArguments o (if o.script.isSome then unknown ++ ["--"] else unknown) rest
  | .unknown text :: rest => ofArguments o (unknown ++ [text]) rest
  | .option flag (some value) :: _ => .refused (.unexpectedValue flag value)
  | .option flag none :: rest =>
    match o.setAll [flag] with
    | none => .help
    | some o => ofArguments o unknown rest
  | .joined flag letters :: rest =>
    match joinedFlags flag letters with
    | .error e => .refused e
    | .ok flags =>
      match o.setAll flags with
      | none => .help
      | some o => ofArguments o unknown rest

/-- What a list of arguments asks for. -/
def Invocation.ofTexts (texts : List String) : Invocation :=
  match Argument.ofTexts texts with
  | .error e => .refused e
  | .ok arguments => .ofArguments {} [] arguments

/-- The line that shows how the program is called. -/
def usageLine : String :=
  "usage: lox [-h] [--tokens] [--explain] [-v] [script]\n"

def helpText : String :=
  usageLine ++
    "\nScan and parse Lox expressions and print their syntax trees.\n" ++
    "\npositional arguments:\n" ++
    "  script         Script to run; omit for an interactive prompt\n" ++
    "\noptions:\n" ++
    "  -h, --help     show this help message and exit\n" ++
    "  --tokens       Print the token list before each tree\n" ++
    "  --explain      Add help text to every error\n" ++
    "  -v, --verbose  Enable debug logging\n"

/-- What is written when a command line is refused. -/
def UsageError.report (e : UsageError) : String :=
  usageLine ++ "lox: error: " ++ e.message ++ "\n"

end LoxReader
