/-!
# The command line

The arguments of the program are options of its own, then the name of a command, then that command's
options and the container it works on.  Two options, `--config` and `--json`, may stand before and
after the name of the command; the later one counts.

Arguments are read from left to right (`Level.take`).  The value of an option that stands in an
argument of its own is looked at when the next argument has been understood (`Seen.settle`).
-/

namespace Crossroads.Command

/-- Why arguments do not make a call of the program. -/
inductive Usage
  /-- Help was asked for. -/
  | help
  /-- There was no argument that means anything. -/
  | helpForNothing
  | unknownCommand
  | missingCommand
  | missingArgument
  | unknownArgument
  | badValue
  /-- An option stands twice. -/
  | repeated
  /-- A flag was given a value. -/
  | needlessValue
deriving DecidableEq, Repr

/-- What a level of the command line takes besides the options of all levels. -/
structure Level where
  /-- Options with a value, and whether that value may be empty. -/
  options : List (String × Bool)
  /-- An argument that is no option is welcome. -/
  positional : Bool

/-- The options of all levels that have a value. -/
def sharedOptions : List (String × Bool) := [("config", false)]

/-- What has been read on a level. -/
structure Seen where
  values : List (String × String) := []
  json : Bool := false
  container : Option String := none
  /-- The option that waits for its value. -/
  awaiting : Option String := none
  /-- What is wrong with the last value. -/
  overdue : Option Usage := none
  /-- No more options follow. -/
  closed : Bool := false
deriving Repr

namespace Seen

/-- Looks at the last value. -/
def settle (s : Seen) : Except Usage Seen :=
  if s.awaiting.isSome then .error .badValue
  else match s.overdue with
    | some usage => .error usage
    | none => .ok s

/-- The value of an option. -/
def value? (s : Seen) (option : String) : Option String := s.values.lookup option

end Seen

namespace Level

/-- An option of the level: whether its value may be empty. -/
def option? (level : Level) (name : String) : Option Bool :=
  (sharedOptions ++ level.options).lookup name

/-- What is wrong with a value of an option. -/
def objection? (level : Level) (s : Seen) (name value : String) : Option Usage :=
  if (s.value? name).isSome then some .repeated
  else if value.isEmpty && level.option? name != some true then some .badValue
  else none

/-- Takes an option by its long name, with a value if one is attached. -/
def takeLong (level : Level) (s : Seen) (name : String) (attached : Option String) :
    Except Usage Seen :=
  if name == "help" then
    if attached.isSome then .error .needlessValue
    else s.settle >>= fun _ => .error .help
  else if name == "json" then
    if attached.isSome then .error .needlessValue
    else do
      let s ← s.settle
      if s.json then .error .repeated else .ok { s with json := true }
  else if (level.option? name).isNone then .error .unknownArgument
  else do
    let s ← s.settle
    match attached with
    | none => .ok { s with awaiting := some name }
    | some value =>
      match level.objection? s name value with
      | some usage => .error usage
      | none => .ok { s with values := (name, value) :: s.values }

/-- Takes an argument that is no option; `unwelcome` is what is wrong with one too many. -/
def takePositional (level : Level) (unwelcome : Usage) (s : Seen) (arg : String) :
    Except Usage Seen :=
  if level.positional && s.container.isNone then do
    let s ← s.settle
    .ok { s with container := some arg, overdue := if arg.isEmpty then some .badValue else none }
  else .error unwelcome

/-- Takes an argument. -/
def take (level : Level) (unwelcome : Usage) (s : Seen) (arg : String) : Except Usage Seen :=
  let chars := arg.toList
  if s.closed then level.takePositional unwelcome s arg
  else if chars == ['-', '-'] then .ok { s with closed := true }
  else if chars.take 2 == ['-', '-'] then
    let name := (chars.drop 2).takeWhile (· != '=')
    let attached := match (chars.drop 2).dropWhile (· != '=') with
      | _ :: value => some (String.ofList value)
      | [] => none
    level.takeLong s (String.ofList name) attached
  else if chars.head? == some '-' && chars.length ≠ 1 then
    if chars.take 2 == ['-', 'h'] then s.settle >>= fun _ => .error .help
    else .error .unknownArgument
  else match s.awaiting with
    | some name =>
      .ok { s with
        awaiting := none
        values := (name, arg) :: s.values
        overdue := level.objection? s name arg }
    | none => level.takePositional unwelcome s arg

end Level

/-! ## Commands -/

/-- What the program is asked to do. -/
inductive Task
  | init (container : String) (features : Option String)
  | routing (container country features : String)
  | crossing (container country features dataDir : String)
  | info (container : String)
deriving DecidableEq, Repr

/-- A call of the program. -/
structure Call where
  config : Option String
  json : Bool
  task : Task
deriving DecidableEq, Repr

/-- The name of a command. -/
inductive Name
  | init
  | routing
  | crossing
  | info
deriving DecidableEq, Repr

namespace Name

/-- The command with a name. -/
def ofText? : String → Option Name
  | "init" => some init
  | "routing" => some routing
  | "cross-mwm" => some crossing
  | "info" => some info
  | _ => none

/-- What a command takes. -/
def level : Name → Level
  | init => ⟨[("features", false)], true⟩
  | routing => ⟨[("country", true), ("features", false)], true⟩
  | crossing => ⟨[("country", true), ("features", false), ("data-dir", false)], true⟩
  | info => ⟨[], true⟩

/-- The task that a command makes of what has been read. -/
def task? (name : Name) (s : Seen) : Option Task := do
  let container ← s.container
  match name with
  | init => some (.init container (s.value? "features"))
  | routing => some (.routing container (← s.value? "country") (← s.value? "features"))
  | crossing =>
    some (.crossing container (← s.value? "country") (← s.value? "features")
      ((s.value? "data-dir").getD "."))
  | info => some (.info container)

/-- Reads the arguments after a command's name. -/
def read (name : Name) (args : List String) : Except Usage (Task × Seen) := do
  let s ← args.foldlM (name.level.take .unknownArgument) {}
  let s ← s.settle
  match name.task? s with
  | some task => return (task, s)
  | none => .error .missingArgument

end Name

/-- What the arguments after `help` ask for: help on a command, or on `help`, if they name one. -/
def readHelp : List String → Usage
  | [] => .help
  | [name] => if name == "help" || (Name.ofText? name).isSome then .help else .unknownCommand
  | _ => .unknownCommand

/-- What the program itself takes. -/
def topLevel : Level := ⟨[], false⟩

/-- Reads the arguments from the name of the command on. -/
def readCommand (s : Seen) (name : Name) (args : List String) : Except Usage Call := do
  let (task, inner) ← name.read args
  let _ ← s.settle
  return ⟨inner.value? "config" <|> s.value? "config", s.json || inner.json, task⟩

/-- Reads arguments after those that have been seen. -/
def readFrom (s : Seen) : List String → Except Usage Call
  | [] => do
    let s ← s.settle
    if s.values.isEmpty && !s.json then .error .helpForNothing else .error .missingCommand
  | arg :: rest =>
    if !s.closed && s.awaiting.isNone then
      if arg == "help" then .error (readHelp rest)
      else match Name.ofText? arg with
        | some name => readCommand s name rest
        | none => do readFrom (← topLevel.take .unknownCommand s arg) rest
    else
      let known := s.closed && (arg == "help" || (Name.ofText? arg).isSome)
      do readFrom (← topLevel.take (if known then .unknownArgument else .unknownCommand) s arg) rest

/-- The call that arguments make. -/
def read (args : List String) : Except Usage Call := readFrom {} args

end Crossroads.Command
