/-
  ErrorContract.CommandLine.Arguments
  ───────────────────────────────────
  **WHAT THE PROGRAM IS TOLD WHEN IT STARTS.**

      -c, --config FILE          DBFRONT_CONFIG
          --listen ADDRESS       DBFRONT_LISTEN
          --log-filter FILTER    DBFRONT_LOG
      -h, --help

  A value stands in the argument behind its option, or in the same one
  behind an equals sign.  An option that waits for its value is settled when
  the next one comes or the arguments end; what is wrong with its value, or
  that it was given before, is found then.  A variable of the environment is
  looked at only for an option that is not given.
-/
import ErrorContract.Config.Environment
import ErrorContract.Net.Address

namespace ErrorContract.CommandLine

open ErrorContract

/-! ## §1. Options. -/

/-- An option that takes a value. -/
inductive Setting where
  | config
  | listen
  | logFilter
  deriving Repr, DecidableEq

/-- What an option is. -/
inductive OptionKind where
  | takes (setting : Setting)
  | help
  deriving Repr, DecidableEq

/-- The option with a long name. -/
def longOption : List Char → Option OptionKind := fun name =>
  if name = "config".toList then some (.takes .config)
  else if name = "listen".toList then some (.takes .listen)
  else if name = "log-filter".toList then some (.takes .logFilter)
  else if name = "help".toList then some .help
  else none

/-- The option with a short name. -/
def shortOption (c : Char) : Option OptionKind :=
  if c = 'c' then some (.takes .config)
  else if c = 'h' then some .help
  else none

/-- The variable of the environment that stands in for an option. -/
def Setting.variable : Setting → String
  | .config => "DBFRONT_CONFIG"
  | .listen => "DBFRONT_LISTEN"
  | .logFilter => "DBFRONT_LOG"

/-! ## §2. Faults. -/

/-- Why the program does not start as it is told. -/
inductive Fault where
  /-- An argument that is no option and no value. -/
  | unknownArgument
  /-- A value is missing or empty. -/
  | invalidValue
  /-- A value is not of the expected kind. -/
  | valueValidation
  /-- An option is given twice. -/
  | argumentConflict
  /-- An option that takes no value has one. -/
  | tooManyValues
  /-- Help is asked for. -/
  | displayHelp
  /-- A value is no text. -/
  | invalidUtf8
  deriving Repr, DecidableEq

/-! ## §3. Values. -/

/-- The values that were given. -/
structure Given where
  config : Option String := none
  listen : Option Net.SocketAddress := none
  logFilter : Option String := none
  deriving Repr, DecidableEq

/-- Is there a value of a setting? -/
def Given.has (g : Given) : Setting → Bool
  | .config => g.config.isSome
  | .listen => g.listen.isSome
  | .logFilter => g.logFilter.isSome

/-- Give a setting a value, which must be of its kind. -/
def Given.give (g : Given) (value : String) : Setting → Except Fault Given
  | .config =>
    if value.isEmpty then .error .invalidValue else .ok { g with config := some value }
  | .listen =>
    match Net.SocketAddress.parse value with
    | some address => .ok { g with listen := some address }
    | none => .error .valueValidation
  | .logFilter => .ok { g with logFilter := some value }

/-- Give a setting a value on the command line, where it may be given only once. -/
def Given.giveOnce (g : Given) (setting : Setting) (value : String) : Except Fault Given :=
  if g.has setting then .error .argumentConflict else g.give value setting

/-- An option that is not settled yet, with its value if that was read. -/
abbrev Pending := Option (Setting × Option String)

/-- Settle what is pending. -/
def settle (g : Given) : Pending → Except Fault Given
  | none => .ok g
  | some (_, none) => .error .invalidValue
  | some (setting, some value) => g.giveOnce setting value

/-! ## §4. Arguments. -/

/-- What an argument looks like. -/
inductive Shape where
  /-- Nothing but values follows. -/
  | escape
  /-- A long name, and a value behind an equals sign. -/
  | long (name : List Char) (value : Option String)
  /-- Short names, at least one. -/
  | short (names : List Char)
  | value (text : String)
  deriving Repr, DecidableEq

/-- The shape of an argument. -/
def shape (argument : String) : Shape :=
  match argument.toList with
  | ['-', '-'] => .escape
  | '-' :: '-' :: cs =>
    match cs.span (· != '=') with
    | (name, _ :: value) => .long name (some (String.ofList value))
    | (name, []) => .long name none
  | '-' :: c :: cs => .short (c :: cs)
  | _ => .value argument

/-- The value in the same argument as a short name. -/
def attached : List Char → Option String
  | [] => none
  | '=' :: cs => some (String.ofList cs)
  | cs => some (String.ofList cs)

/-- Read an option that takes a value. -/
def takeOption (g : Given) (pending : Pending) (setting : Setting) (value : Option String) :
    Except Fault (Given × Pending) := do
  let g ← settle g pending
  match value with
  | some v => return (← g.giveOnce setting v, none)
  | none => return (g, some (setting, none))

/-- Read one argument; `pending` is not settled yet. -/
def readArgument (g : Given) (pending : Pending) (argument : String) :
    Except Fault (Given × Pending) :=
  match shape argument with
  | .escape => .ok (g, pending)
  | .long name value =>
    match longOption name, value with
    | some (.takes setting), value => takeOption g pending setting value
    | some .help, some _ => .error .tooManyValues
    | some .help, none => settle g pending >>= fun _ => .error .displayHelp
    | none, _ => .error .unknownArgument
  | .short [] => .error .unknownArgument
  | .short (c :: cs) =>
    match shortOption c with
    | some (.takes setting) => takeOption g pending setting (attached cs)
    | some .help => settle g pending >>= fun _ => .error .displayHelp
    | none => .error .unknownArgument
  | .value text =>
    match pending with
    | some (setting, none) => .ok (g, some (setting, some text))
    | _ => .error .unknownArgument

/-- Read arguments up to their end. -/
def readArguments (g : Given) (pending : Pending) : List String → Except Fault Given
  | [] => settle g pending
  | argument :: rest =>
    if shape argument = .escape then
      if rest.isEmpty then settle g pending else .error .unknownArgument
    else do
      let (g, pending) ← readArgument g pending argument
      readArguments g pending rest

/-! ## §5. The environment. -/

/-- The text of bytes for a setting; a path may be any bytes. -/
def valueText (setting : Setting) (bytes : List UInt8) : Except Fault String :=
  match setting with
  | .config => .ok (Utf8.decodeLossy bytes)
  | _ => (Utf8.decodeText bytes).mapError fun _ => .invalidUtf8

/-- Give a setting the value in the environment, unless it has one. -/
def Given.complete (env : Environment) (g : Given) (setting : Setting) : Except Fault Given :=
  if g.has setting then .ok g
  else
    match env.bytes? setting.variable with
    | none => .ok g
    | some bytes => do g.give (← valueText setting bytes) setting

/-- What the program is told. -/
structure Arguments where
  /-- The path of the configuration file. -/
  config : Option String
  /-- The address to listen on. -/
  listen : Option Net.SocketAddress
  /-- What is logged. -/
  logFilter : String
  deriving Repr, DecidableEq

/-- What is logged if nothing is said about it. -/
def defaultLogFilter : String := "info"

/-- What is said by the values that were given. -/
def Given.arguments (g : Given) : Arguments :=
  ⟨g.config, g.listen, g.logFilter.getD defaultLogFilter⟩

/-- **What the program is told** by its arguments, behind its own name, and by the environment. -/
def Arguments.parse (env : Environment) (arguments : List String) : Except Fault Arguments := do
  let g ← readArguments {} none arguments
  let g ← g.complete env .config
  let g ← g.complete env .listen
  let g ← g.complete env .logFilter
  return g.arguments

end ErrorContract.CommandLine
