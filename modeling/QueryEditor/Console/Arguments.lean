import QueryEditor.Console.Outcome
import QueryEditor.Text.Cut

/-!
# Command-line arguments

A command line is a command with options; those of every command may stand before or after its
name.  `--name=value` and `--name value` mean the same, except that a separate value may not
start with a hyphen unless it is just that.  `Request.ofArguments` reads a command line.
-/

namespace QueryEditor

namespace Console

/-! ### Options on the line -/

/-- How often an option may stand, and whether a value follows. -/
inductive Arity
  /-- Once, without a value. -/
  | flag
  /-- Once, with a value. -/
  | single
  /-- Any number of times, with a value. -/
  | repeated
  deriving DecidableEq, Repr

/-- An option that may stand. -/
structure Rule where
  name : String
  arity : Arity
  /-- The values it takes. -/
  accepts : String → Bool := fun _ => true

/-- The options that stand on the line with their values, in order. -/
abbrev Given := List (String × String)

/-- Why a line cannot be read. -/
inductive UsageError
  | unknownOption (name : String)
  | repeatedOption (name : String)
  | missingValue (name : String)
  | unexpectedValue (name : String)
  | invalidValue (name value : String)
  | unexpectedWord (word : String)
  | missingCommand
  | unknownCommand (word : String)
  | missingOption (name : String)
  deriving DecidableEq, Repr

/-- What to tell the user. -/
def UsageError.message : UsageError → String
  | unknownOption name => s!"unknown option '{name}'"
  | repeatedOption name => s!"option '{name}' stands more than once"
  | missingValue name => s!"option '{name}' needs a value"
  | unexpectedValue name => s!"option '{name}' takes no value"
  | invalidValue name value => s!"option '{name}' does not take '{value}'"
  | unexpectedWord word => s!"unexpected argument '{word}'"
  | missingCommand => "a command is missing"
  | unknownCommand word => s!"unknown command '{word}'"
  | missingOption name => s!"option '{name}' is missing"

/-- What options may be asked for instead of a command. -/
inductive Notice
  | version
  | help
  deriving DecidableEq, Repr

/-- What options lead up to. -/
inductive Scan
  /-- The end of the line. -/
  | finished (given : Given)
  /-- A word, with what stands after it. -/
  | word (given : Given) (word : String) (rest : List String)
  /-- A notice, which ends the reading at once. -/
  | notice (n : Notice)
  | failed (e : UsageError)

/-- An argument by its form. -/
inductive Argument
  /-- The mark after which only words stand. -/
  | separator
  | long (name : String) (value : Option String)
  | short (letter : Char)
  | word
  deriving DecidableEq

/-- The form of an argument. -/
def Argument.ofText (s : String) : Argument :=
  match s.toList with
  | ['-', '-'] => .separator
  | '-' :: '-' :: cs => match Text.cut '=' cs with
    | some (name, value) => .long (String.ofList name) (some (String.ofList value))
    | none => .long (String.ofList cs) none
  | '-' :: c :: _ => .short c
  | _ => .word

/-- Adds an option to those given before, if it may stand there with this value. -/
def Given.add (given : Given) (r : Rule) (value : String) : Except UsageError Given :=
  if !r.accepts value then .error (.invalidValue r.name value)
  else if r.arity ≠ .repeated ∧ given.any (·.1 == r.name) then .error (.repeatedOption r.name)
  else .ok (given ++ [(r.name, value)])

/-- Reads options up to a word or the end; `notices` tells which notices may be asked for. -/
def scan (rules : List Rule) (notices : Argument → Option Notice) (given : Given) :
    List String → Scan
  | [] => .finished given
  | arg :: rest => match notices (.ofText arg) with
    | some n => .notice n
    | none => match Argument.ofText arg with
      | .word => .word given arg rest
      | .short c => .failed (.unknownOption (String.singleton c))
      | .separator => match rest with
        | [] => .finished given
        | word :: _ => .failed (.unexpectedWord word)
      | .long name value => match rules.find? (·.name == name) with
        | none => .failed (.unknownOption name)
        | some r => match r.arity, value, rest with
          | .flag, some _, _ => .failed (.unexpectedValue name)
          | .flag, none, rest => match given.add r "" with
            | .ok given => scan rules notices given rest
            | .error e => .failed e
          | _, some value, rest => match given.add r value with
            | .ok given => scan rules notices given rest
            | .error e => .failed e
          | _, none, [] => .failed (.missingValue name)
          | _, none, value :: rest =>
            if Argument.ofText value = .word then
              match given.add r value with
              | .ok given => scan rules notices given rest
              | .error e => .failed e
            else .failed (.missingValue name)

namespace Given

/-- The value of an option. -/
def value? (given : Given) (name : String) : Option String := given.lookup name

/-- Whether an option stands. -/
def has (given : Given) (name : String) : Bool := (given.lookup name).isSome

/-- All values of an option. -/
def all (given : Given) (name : String) : List String :=
  (given.filter (·.1 == name)).map (·.2)

/-- The value of an option that has to stand. -/
def required (given : Given) (name : String) : Except UsageError String :=
  match given.value? name with
  | some value => .ok value
  | none => .error (.missingOption name)

end Given

/-! ### Commands -/

/-- A condition as it is given on the command line. -/
structure ConditionArguments where
  /-- The root entity of the query. -/
  entity : String
  attributeName : String := ""
  operator : String := ""
  value : String := ""
  valueOf : String := ""
  /-- The texts of its value nodes. -/
  nodes : List String := []
  /-- Linked entities, each a name or a name, a colon and an alias. -/
  links : List String := []
  /-- The linked entity that the condition is about. -/
  scope : Option String := none
  deriving DecidableEq

/-- A command. -/
inductive Command
  /-- Validates a condition and saves it if asked to. -/
  | check (condition : ConditionArguments) (strict save : Bool)
  /-- Lists operators, of an attribute of an entity if one is named. -/
  | operators (about : Option (String × String))
  /-- Shows how the value of a condition is edited. -/
  | mode (condition : ConditionArguments) (target : String) (resolve : Bool)
  /-- Brings a layout up to date. -/
  | layout (entity : String) (file : Option String) (columns : List String)
      (widths : Option String)
  deriving DecidableEq

/-- What a command line asks for. -/
inductive Request
  | notice (n : Notice)
  | perform (options : Options) (command : Command)
  deriving DecidableEq

/-- Options of every command.  A file needs a name. -/
def commonRules : List Rule :=
  [ { name := "output", arity := .single, accepts := fun v => v == "text" || v == "json" },
    { name := "quiet", arity := .flag },
    { name := "config", arity := .single, accepts := (· != "") },
    { name := "catalog", arity := .single, accepts := (· != "") } ]

/-- Options that describe a condition. -/
def conditionRules : List Rule :=
  ["entity", "attribute", "operator", "value", "value-of"].map (⟨·, .single, fun _ => true⟩) ++
    [ { name := "node", arity := .repeated },
      { name := "link", arity := .repeated },
      { name := "scope", arity := .single } ]

/-- The options of a command. -/
def rulesOf? : String → Option (List Rule)
  | "check" => some (conditionRules ++
      [{ name := "strict", arity := .flag }, { name := "save", arity := .flag }])
  | "operators" =>
    some [{ name := "entity", arity := .single }, { name := "attribute", arity := .single }]
  | "mode" => some (conditionRules ++
      [{ name := "target", arity := .single }, { name := "resolve", arity := .flag }])
  | "layout" => some
      [ { name := "entity", arity := .single },
        { name := "layout", arity := .single, accepts := (· != "") },
        { name := "attribute", arity := .repeated },
        { name := "widths", arity := .single } ]
  | _ => none

/-- Reads the options that describe a condition. -/
def ConditionArguments.ofGiven (given : Given) : Except UsageError ConditionArguments :=
  (given.required "entity").map fun entity =>
    { entity
      attributeName := (given.value? "attribute").getD ""
      operator := (given.value? "operator").getD ""
      value := (given.value? "value").getD ""
      valueOf := (given.value? "value-of").getD ""
      nodes := given.all "node"
      links := given.all "link"
      scope := given.value? "scope" }

/-- Reads the options of `operators`: an attribute and its entity, or neither. -/
def operatorsOfGiven (given : Given) : Except UsageError Command :=
  match given.value? "entity", given.value? "attribute" with
  | some entity, some name => .ok (.operators (some (entity, name)))
  | none, none => .ok (.operators none)
  | some _, none => .error (.missingOption "attribute")
  | none, some _ => .error (.missingOption "entity")

/-- Reads the options of a command. -/
def Command.ofGiven (name : String) (given : Given) : Except UsageError Command :=
  match name with
  | "check" => (ConditionArguments.ofGiven given).map fun c =>
      .check c (given.has "strict") (given.has "save")
  | "operators" => operatorsOfGiven given
  | "mode" => (ConditionArguments.ofGiven given).map fun c =>
      .mode c ((given.value? "target").getD "") (given.has "resolve")
  | "layout" => (given.required "entity").map fun entity =>
      .layout entity (given.value? "layout") (given.all "attribute") (given.value? "widths")
  | _ => .error (.unknownCommand name)

/-- Reads the options of every command; one after the name of the command overrides one before
it. -/
def Options.ofGiven (before after : Given) : Options :=
  let value? (name : String) := (after.value? name).or (before.value? name)
  { format := if value? "output" = some "json" then .json else .text
    isQuiet := (value? "quiet").isSome
    config := value? "config"
    catalog := value? "catalog" }

/-- The notices that may be asked for after a command. -/
def commandNotice : Argument → Option Notice
  | .long "help" none => some .help
  | .short 'h' => some .help
  | _ => none

/-- The notices that may be asked for before a command. -/
def leadingNotice : Argument → Option Notice
  | .long "version" none => some .version
  | .short 'V' => some .version
  | a => commandNotice a

/-- Reads what stands after the name of a command. -/
def Request.ofCommand (before : Given) (name : String) (rules : List Rule) (rest : List String) :
    Except UsageError Request :=
  match scan (rules ++ commonRules) commandNotice [] rest with
  | .finished given => (Command.ofGiven name given).map (.perform (Options.ofGiven before given))
  | .word _ word _ => .error (.unexpectedWord word)
  | .notice n => .ok (.notice n)
  | .failed e => .error e

/-- Reads what stands after `help`: at most one word, which has to be a command. -/
def Request.ofHelp : List String → Except UsageError Request
  | [] => .ok (.notice .help)
  | name :: rest =>
    if (rulesOf? name).isNone ∧ name ≠ "help" then .error (.unknownCommand name)
    else match rest with
      | [] => .ok (.notice .help)
      | word :: _ => .error (.unexpectedWord word)

/-- Reads a command line. -/
def Request.ofArguments (args : List String) : Except UsageError Request :=
  match scan commonRules leadingNotice [] args with
  | .finished _ => .error .missingCommand
  | .notice n => .ok (.notice n)
  | .failed e => .error e
  | .word before name rest => match rulesOf? name with
    | some rules => Request.ofCommand before name rules rest
    | none => if name = "help" then Request.ofHelp rest else .error (.unknownCommand name)

end Console

end QueryEditor
