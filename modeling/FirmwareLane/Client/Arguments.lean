import FirmwareLane.Classification
import FirmwareLane.Message.Operation
import FirmwareLane.Text.Blank
import FirmwareLane.Text.Numeral

/-!
# Arguments of a client

The words of a command line: options for the connection, a command, and the options and paths of
the command.  An option has a long name and may have a short one, and its value follows it, behind
an equals sign or as the next word.  The options for the connection may stand before the command and
behind it, where they count more.

The value of an option, and whether the option may come once more, is looked at when the next thing
that makes sense comes up, so a word that makes none is the first thing to be wrong.
-/

set_option autoImplicit false
namespace FirmwareLane
namespace ClientCommand

/-- Where the worker is, as far as the command line says. -/
structure Connection where
  config : Option String
  host : Option String
  port : Option Nat
  deriving DecidableEq, Repr

/-- The arguments of the command that runs operations. -/
structure RunArguments where
  root : String
  /-- Extensions and how they are classified, in order. -/
  classes : List (String × Encoding)
  files : List String
  operations : List Operation
  modifiedOnly : Bool
  out : Option String
  json : Bool
  deriving DecidableEq, Repr

/-- A command with its arguments. -/
inductive Command where
  | run (a : RunArguments)
  | asm (file : Option String) (json : Bool)
  | probe (json : Bool)
  deriving DecidableEq, Repr

/-- Why a command line is not carried out. -/
inductive Stop where
  /-- Help was asked for. -/
  | help
  /-- The version was asked for. -/
  | version
  /-- The value of an option is no operation. -/
  | badOperation (value : String)
  /-- The words make no sense. -/
  | misuse
  deriving DecidableEq, Repr

/-! ## Values of options -/

/-- The operation that a value stands for. -/
def operation? (value : String) : Option Operation :=
  if value = "reset" then some .reset
  else
    match Text.cutAt? ':' value.toList with
    | none => none
    | some (name, command) =>
      if (Text.trim command).isEmpty then none
      else if name = "sh".toList then some (.shell .posix (String.ofList command))
      else if name = "native".toList then some (.shell .native (String.ofList command))
      else none

/-- The reason why a value is no operation. -/
def operationWanted (value : String) : String :=
  "expected \x60sh:CMD\x60, \x60native:CMD\x60 or \x60reset\x60, got \x60" ++ value ++ "\x60"

/-- The port that a value stands for. -/
def port? (value : String) : Option Nat :=
  let digits := match value.toList with
    | '+' :: rest => rest
    | all => all
  match Text.Numeral.read? 10 digits with
  | some n => if n < 65536 then some n else none
  | none => none

/-- Whether the value of an option makes sense. -/
def checkValue (name value : String) : Except Stop Unit :=
  if name = "op" then if (operation? value).isSome then .ok () else .error (.badOperation value)
  else if name = "port" then if (port? value).isSome then .ok () else .error .misuse
  else if name ∈ ["config", "root", "out", "file"] then
    if value.isEmpty then .error .misuse else .ok ()
  else .ok ()

/-! ## Levels of a command line -/

/-- What may stand at a level of a command line, the words before the command or those behind it. -/
structure Level where
  /-- Options with a value. -/
  valued : List String
  /-- Options that may come more than once. -/
  repeated : List String
  /-- Options without a value. -/
  flags : List String
  /-- How many words may stand alone. -/
  alone : Nat
  /-- Commands that end the level. -/
  commands : List String

/-- The options and words of a level. -/
structure Given where
  /-- Options with their values, in order; those without a value have an empty one. -/
  options : List (String × String)
  alone : List String

namespace Given

/-- The first value of an option. -/
def value? (g : Given) (name : String) : Option String := g.options.lookup name

/-- All values of an option. -/
def values (g : Given) (name : String) : List String :=
  (g.options.filter fun o ↦ o.1 == name).map (·.2)

/-- Whether an option is given. -/
def has (g : Given) (name : String) : Bool := (g.value? name).isSome

end Given

/-- A word of a command line by its form. -/
inductive Form where
  /-- A long option, perhaps with a value behind an equals sign. -/
  | long (name : String) (attached : Option String)
  /-- Short options. -/
  | short (letters : List Char)
  /-- The word after which all words stand alone. -/
  | divider
  | plain

/-- The form of a word. -/
def form (word : String) : Form :=
  match word.toList with
  | ['-', '-'] => .divider
  | '-' :: '-' :: rest =>
    match Text.cutAt? '=' rest with
    | some (name, value) => .long (String.ofList name) (some (String.ofList value))
    | none => .long (String.ofList rest) none
  | '-' :: c :: rest => .short (c :: rest)
  | _ => .plain

/-- The reading of a level: what is given so far, an option whose value is not looked at yet, and
whether all words stand alone. -/
structure Reading where
  given : Given
  pending : Option (String × String)
  divided : Bool

namespace Reading

/-- The reading with the pending option looked at; one that may come only once must be new. -/
def settle (level : Level) (r : Reading) : Except Stop Reading :=
  match r.pending with
  | none => .ok r
  | some (name, value) => do
    if r.given.has name && !level.repeated.contains name then throw .misuse
    checkValue name value
    return { r with
      given := { r.given with options := r.given.options ++ [(name, value)] }
      pending := none }

/-- What is given so far, with the pending option. -/
def soFar (r : Reading) : Given := { r.given with options := r.given.options ++ r.pending.toList }

/-- The reading with an option. -/
def option (level : Level) (name value : String) (r : Reading) : Except Stop Reading := do
  return { (← r.settle level) with pending := some (name, value) }

/-- The reading with a word that stands alone. -/
def word (level : Level) (value : String) (r : Reading) : Except Stop Reading := do
  let r ← r.settle level
  if value.isEmpty || level.alone ≤ r.given.alone.length then .error .misuse
  else return { r with given := { r.given with alone := r.given.alone ++ [value] } }

/-- The end of everything that help or the version is asked for. -/
def stop {α : Type} (level : Level) (r : Reading) (reason : Stop) : Except Stop α := do
  let _ ← r.settle level
  .error reason

end Reading

/-- The long name of a short option. -/
def longName? (level : Level) (c : Char) : Option String :=
  if c = 'c' ∧ level.valued.contains "config" then some "config"
  else if c = 'h' then some "help"
  else if c = 'V' ∧ level.flags.contains "version" then some "version"
  else none

/-- The reason for which an option ends everything. -/
def stopOf? (name : String) : Option Stop :=
  if name = "help" then some .help else if name = "version" then some .version else none

/-- What is given at a level, and the command that ends it with the words behind it.  The values
behind the command are looked at before the last one in front of it, by the given function. -/
def readLevel {α : Type} (level : Level) (onCommand : Given → String → List String → Except Stop α)
    (onEnd : Given → Except Stop α) : Reading → List String → Except Stop α
  | r, [] => do onEnd (← r.settle level).given
  | r, word :: rest =>
    if r.divided then do readLevel level onCommand onEnd (← r.word level word) rest
    else
      match form word with
      | .divider => readLevel level onCommand onEnd { r with divided := true } rest
      | .plain =>
        if level.commands.contains word then do
          let answer ← onCommand r.soFar word rest
          let _ ← r.settle level
          return answer
        else if level.alone = 0 then .error .misuse
        else do readLevel level onCommand onEnd (← r.word level word) rest
      | .long name attached =>
        if name = "help" ∨ (name = "version" ∧ level.flags.contains "version") then
          match attached with
          | some _ => .error .misuse
          | none => r.stop level ((stopOf? name).getD .help)
        else if level.flags.contains name then
          match attached with
          | some _ => .error .misuse
          | none => do readLevel level onCommand onEnd (← r.option level name "") rest
        else if level.valued.contains name then
          match attached with
          | some value => do
            readLevel level onCommand onEnd (← (← r.option level name value).settle level) rest
          | none =>
            match r.settle level, rest with
            | .error reason, _ => .error reason
            | .ok _, [] => .error .misuse
            | .ok r, value :: rest =>
              match form value with
              | .plain => do readLevel level onCommand onEnd (← r.option level name value) rest
              | _ => .error .misuse
        else .error .misuse
      | .short letters =>
        match letters with
        | [] => .error .misuse
        | c :: more =>
          match longName? level c with
          | none => .error .misuse
          | some name =>
            match stopOf? name with
            | some reason => r.stop level reason
            | none =>
              match more with
              | [] =>
                match r.settle level, rest with
                | .error reason, _ => .error reason
                | .ok _, [] => .error .misuse
                | .ok r, value :: rest =>
                  match form value with
                  | .plain => do readLevel level onCommand onEnd (← r.option level name value) rest
                  | _ => .error .misuse
              | '=' :: value => do
                let r ← r.option level name (String.ofList value)
                readLevel level onCommand onEnd (← r.settle level) rest
              | value => do
                let r ← r.option level name (String.ofList value)
                readLevel level onCommand onEnd (← r.settle level) rest

/-! ## Commands -/

/-- The options for the connection. -/
def connectionOptions : List String := ["config", "host", "port"]

/-- The words before the command. -/
def outerLevel : Level where
  valued := connectionOptions
  repeated := []
  flags := ["version"]
  alone := 0
  commands := ["run", "asm", "probe", "help"]

/-- The words behind a command. -/
def innerLevel (command : String) : Level where
  valued :=
    connectionOptions ++
      (if command = "run" then ["root", "text", "binary", "file", "op", "out"] else [])
  repeated := ["text", "binary", "file", "op"]
  flags := if command = "run" then ["modified-only", "json"] else ["json"]
  alone := if command = "asm" then 1 else 0
  commands := []

/-- The connection that the words before a command and those behind it describe. -/
def connection (outer inner : Given) : Connection :=
  let value (name : String) := inner.value? name <|> outer.value? name
  ⟨value "config", value "host", (value "port").bind port?⟩

/-- The command that the words behind its name describe. -/
def command (name : String) (g : Given) : Except Stop Command :=
  if name = "run" then
    match g.value? "root", (g.values "op").filterMap operation? with
    | none, _ => .error .misuse
    | _, [] => .error .misuse
    | some root, operations =>
      .ok (.run
        { root
          classes := (g.values "text").map (fun e ↦ (e, Encoding.text)) ++
            (g.values "binary").map fun e ↦ (e, Encoding.binary)
          files := g.values "file"
          operations
          modifiedOnly := g.has "modified-only"
          out := g.value? "out"
          json := g.has "json" })
  else if name = "asm" then .ok (.asm g.alone.head? (g.has "json"))
  else .ok (.probe (g.has "json"))

/-- A reading before the first word. -/
def fresh : Reading := ⟨⟨[], []⟩, none, false⟩

/-- The end of a command line that asks for help on commands. -/
def helpOn : List String → Except Stop (Connection × Command)
  | [] => .error .help
  | [name] => .error (if outerLevel.commands.contains name then .help else .misuse)
  | _ => .error .misuse

/-- The connection and the command of a command line. -/
def read (words : List String) : Except Stop (Connection × Command) :=
  readLevel outerLevel
    (fun outer name rest ↦
      if name = "help" then helpOn rest
      else
        readLevel (innerLevel name) (fun _ _ _ ↦ .error .misuse)
          (fun inner ↦ do return (connection outer inner, ← command name inner)) fresh rest)
    (fun _ ↦ .error .misuse) fresh words

end ClientCommand
end FirmwareLane
