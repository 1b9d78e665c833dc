/-
FieldCheck.CommandLine — the arguments of the program, and its runs.

There are three options: one for help, one for a detailed log and one for
the configuration file. Long options may be cut short as long as only one is
meant, and the value of an option may stand behind an equals sign; the value
`--` counts as none. There are no other arguments. Behind `--` nothing is an
option.

`Invocation.ofArguments` says what the arguments ask for, and `run` what a
run then writes to its two outputs. Log records are written to the second
output, as lines, if their level is at least the one that applies.
-/
import FieldCheck.Number.Numeral
import FieldCheck.Server

namespace FieldCheck.CommandLine

/-! ## Options -/

/-- An option of the program. -/
inductive Flag where
  | help
  | debug
  | config
  deriving DecidableEq, Repr

/-- All options. -/
def Flag.all : List Flag := [.help, .debug, .config]

/-- The long form of an option. -/
def Flag.long : Flag → String
  | help => "--help"
  | debug => "--debug"
  | config => "--config"

/-- What an option is called in messages. -/
def Flag.title : Flag → String
  | help => "-h/--help"
  | f => f.long

/-- What one argument is. -/
inductive Argument where
  /-- The mark behind which nothing is an option. -/
  | separator
  /-- No option. -/
  | plain
  /-- An option that is not known. -/
  | unknown
  /-- A long option, with a value if one stands behind an equals sign. -/
  | long (flag : Flag) (value : Option String)
  /-- The short option, with the rest of the argument, behind an equals sign if there is one. -/
  | short (rest : List Char)
  deriving DecidableEq, Repr

/-! ## Reading single arguments -/

/-- The part in front of the first equals sign and the part behind it, if there is one. -/
def splitValue (cs : List Char) : List Char × Option String :=
  match cs.dropWhile (· != '=') with
  | [] => (cs, none)
  | _ :: value => (cs.takeWhile (· != '='), some (String.ofList value))

/-- The long options that a text is the start of. -/
def startedBy (front : List Char) : List Flag :=
  Flag.all.filter fun f => front.isPrefixOf f.long.toList

/-- A negative number, which is no option; a line feed may end it. -/
def isNegativeNumber (cs : List Char) : Bool :=
  match Locale.beforeLineEnd cs with
  | '-' :: ds =>
    match ds.dropWhile Text.isDigit with
    | [] => !ds.isEmpty
    | '.' :: fraction => !fraction.isEmpty && fraction.all Text.isDigit
    | _ => false
  | _ => false

/-- What an argument is that starts like an option and is none of the known ones. -/
def unmatched (cs : List Char) : Argument :=
  if isNegativeNumber cs || cs.contains ' ' then .plain else .unknown

/-- What is said about a text that starts several options. -/
def ambiguousMessage (argument : String) (flags : List Flag) : String :=
  "ambiguous option: " ++ argument ++ " could match " ++ ", ".intercalate (flags.map Flag.long)

/-- What a long option is. -/
def readLong (cs : List Char) : Except String Argument :=
  let (front, value) := splitValue cs
  match Flag.all.find? fun f => f.long.toList = front with
  | some f => .ok (.long f value)
  | none =>
    match startedBy front with
    | [] => .ok (unmatched cs)
    | [f] => .ok (.long f value)
    | flags => .error (ambiguousMessage (String.ofList cs) flags)

/-- What an argument is. A text that starts several options is an error. -/
def readArgument (s : String) : Except String Argument :=
  match s.toList with
  | ['-', '-'] => .ok .separator
  | '-' :: '-' :: _ => readLong s.toList
  | '-' :: 'h' :: '=' :: rest => .ok (.short rest)
  | '-' :: 'h' :: [] => .ok (.long .help none)
  | '-' :: 'h' :: rest => .ok (.short rest)
  | '-' :: _ :: _ => .ok (unmatched s.toList)
  | _ => .ok .plain

/-- What the arguments are, each with its text. -/
def readArguments : List String → Except String (List (String × Argument))
  | [] => .ok []
  | s :: rest =>
    match readArgument s with
    | .error m => .error m
    | .ok .separator => .ok ((s, .separator) :: rest.map fun t => (t, .plain))
    | .ok a => (readArguments rest).map ((s, a) :: ·)

/-! ## Invocations -/

/-- The choices that options make. -/
structure Choices where
  debug : Bool
  config : Option String
  deriving DecidableEq, Repr

/-- What the arguments ask for. -/
inductive Invocation where
  | help
  | misuse (message : String)
  | serve (choices : Choices)
  deriving DecidableEq, Repr

/-- The misuse of giving an option a value that it does not take. -/
def ignoredValue (f : Flag) (value : String) : Invocation :=
  .misuse ("argument " ++ f.title ++ ": ignored explicit argument " ++ Text.quote value)

/-- What the short option with the rest of its argument asks for. The option
may be repeated in one argument; whatever else stands behind it is a value,
which it does not take. -/
def shortHelp (rest : List Char) : Invocation :=
  match rest, rest.dropWhile (· == 'h') with
  | _ :: _, [] => .help
  | _, left => ignoredValue .help (String.ofList left)

/-- The configuration file that the value of an option names. -/
def configOf (value : String) : Option String := if value = "--" then none else some value

/-- What is asked for at the end of the arguments. -/
def atEnd (choices : Choices) (extras : List String) : Invocation :=
  if extras.isEmpty then .serve choices
  else .misuse ("unrecognized arguments: " ++ " ".intercalate extras)

/-- Goes through the arguments; `extras` holds those that are not understood. -/
def interpret (choices : Choices) (extras : List String) :
    List (String × Argument) → Invocation
  | [] => atEnd choices extras
  | (_, .short cs) :: _ => shortHelp cs
  | (_, .long .help none) :: _ => .help
  | (_, .long .help (some v)) :: _ => ignoredValue .help v
  | (_, .long .debug none) :: rest => interpret { choices with debug := true } extras rest
  | (_, .long .debug (some v)) :: _ => ignoredValue .debug v
  | (_, .long .config (some v)) :: rest =>
    interpret { choices with config := configOf v } extras rest
  | (_, .long .config none) :: (v, .plain) :: rest =>
    interpret { choices with config := some v } extras rest
  | (_, .long .config none) :: _ =>
    .misuse ("argument " ++ Flag.config.title ++ ": expected one argument")
  | (s, _) :: rest => interpret choices (extras ++ [s]) rest

/-- What the arguments ask for. -/
def Invocation.ofArguments (arguments : List String) : Invocation :=
  match readArguments arguments with
  | .error m => .misuse m
  | .ok as => interpret ⟨false, none⟩ [] as

/-! ## Messages of the program -/

/-- The name of the program. -/
def programName : String := "required-fields-rpc"

/-- How the program is used, on one line. -/
def usage : String := "usage: " ++ programName ++ " [-h] [--debug] [--config CONFIG]"

/-- The lines of the help. -/
def helpLines : List String :=
  [usage, "", "required-fields JSON-RPC 2.0 Server", "", "options:",
   "  -h, --help       show this help message and exit",
   "  --debug          Enable debug logging to stderr",
   "  --config CONFIG  Path to a YAML config file (defaults to bundled config)", "",
   "Example usage:",
   "  python -m required_fields.jsonrpc_server",
   "  python -m required_fields.jsonrpc_server --debug",
   "  python -m required_fields.jsonrpc_server --config ./my-config.yaml", "",
   "Supported methods:"]
    ++ Rpc.Method.all.map (fun m => "  - " ++ m.name)
    ++ ["", "Protocol: JSON-RPC 2.0 over stdin/stdout",
        "See: https://www.jsonrpc.org/specification", "        "]

/-- The lines that are written about a misuse. -/
def misuseLines (message : String) : List String :=
  [usage, programName ++ ": error: " ++ message]

/-- The exit code after a misuse. -/
def misuseCode : UInt32 := 2

/-! ## Log lines -/

/-- The level from which on records are written while the server runs. -/
def Choices.level (c : Choices) (s : Settings) : Level :=
  if c.debug then .debug else s.logLevel

/-- The log lines of the records of at least a level. -/
def logLines (least : Level) (rs : List LogRecord) : List String :=
  (rs.filter fun r => least.rank ≤ r.level.rank).map fun r => "[required-fields] " ++ r.line

/-- The log lines of the records from before the log is set up: the messages of warnings and worse. -/
def earlyLines (rs : List LogRecord) : List String :=
  (rs.filter fun r => Level.warning.rank ≤ r.level.rank).map LogRecord.message

/-! ## Runs -/

/-- What a run of the program does. -/
structure Run where
  /-- The exit code, or the fault because of which the server did not start. -/
  exit : Except Fault (Option UInt32)
  /-- The lines written to the output. -/
  output : List String
  /-- The lines written to the log. -/
  errors : List String
  /-- What was not read. -/
  unread : List Arrival

/-- A run of the server. -/
def serveRun (choices : Choices) (arrivals : List Arrival) (w : World) : Run :=
  match Server.start choices.config { w with log := [] } with
  | (.error f, w) => ⟨.error f, [], earlyLines w.log, arrivals⟩
  | (.ok server, w) =>
    let level := choices.level server.service.catalogs.settings
    match Server.serve arrivals server { w with log := [] } with
    | (.ok served, _, w') =>
      ⟨.ok none, served.lines, earlyLines w.log ++ logLines level w'.log, served.unread⟩
    | (.error f, _, w') => ⟨.error f, [], earlyLines w.log ++ logLines level w'.log, []⟩

/-- A run of the program with its arguments and what arrives at its input. -/
def run (arguments : List String) (arrivals : List Arrival) (w : World) : Run :=
  match Invocation.ofArguments arguments with
  | .help => ⟨.ok (some 0), helpLines, [], arrivals⟩
  | .misuse m => ⟨.ok (some misuseCode), [], misuseLines m, arrivals⟩
  | .serve choices => serveRun choices arrivals w

end FieldCheck.CommandLine
