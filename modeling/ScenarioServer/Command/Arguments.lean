import ScenarioServer.Settings

/-!
# Command line arguments

The program serves an editor or checks files. Three options choose the configuration file and the
tables; they may stand before or behind the command, and behind it they count. Two further options
belong to the check. An option is given once at each of the two places, with its value behind an
equals sign or as the next argument, and the next argument may not look like an option itself.
-/

namespace ScenarioServer

namespace Command

/-- The options that take a value. -/
inductive OptionName where
  | config
  | keywords
  | hover
  | maxProblems
  | format
deriving Repr, DecidableEq

inductive Format where
  | text
  | json
deriving Repr, DecidableEq

inductive Task where
  | serve
  | check (files : List String) (maxProblems : Option Nat) (format : Format)
deriving Repr, DecidableEq

structure Invocation where
  config : Option String := none
  keywords : Option String := none
  hover : Option String := none
  task : Task := .serve
deriving Repr, DecidableEq

inductive Stop where
  | usageError
  | version
  | help
deriving Repr, DecidableEq

/-- The places where arguments stand: before the command, and behind each command. -/
inductive Place where
  | top
  | serve
  | check
deriving Repr, DecidableEq

/-- The options and the other arguments of one place. -/
structure Given where
  values : List (OptionName × String) := []
  files : List String := []
deriving Repr, DecidableEq

/-! ## Single arguments -/

def longOption? (place : Place) (name : String) : Option OptionName :=
  match name with
  | "config" => some .config
  | "keywords" => some .keywords
  | "hover" => some .hover
  | "max-problems" => if place = .check then some .maxProblems else none
  | "format" => if place = .check then some .format else none
  | _ => none

def shortOption? (place : Place) (letter : Char) : Option OptionName :=
  if letter = 'c' then some .config
  else if letter = 'f' && place = .check then some .format
  else none

/-- An integer with an optional sign that is an unsigned 32-bit one, so that of the negative ones
only zero is left. -/
def cap? (text : String) : Option Nat :=
  let (negative, digits) := match text.toList with
    | '+' :: digits => (false, digits)
    | '-' :: digits => (true, digits)
    | digits => (false, digits)
  if digits.isEmpty || !digits.all Char.isDigit then none
  else
    let value := digits.foldl (fun n c => n * 10 + (c.toNat - '0'.toNat)) 0
    if value < (if negative then 1 else Settings.capBound) then some value else none

def Format.ofName? (name : String) : Option Format :=
  match name with
  | "text" => some .text
  | "json" => some .json
  | _ => none

/-- Whether an option takes a value: a path may not be empty, a cap has to be a number, and a format
has to exist. -/
def OptionName.accepts (name : OptionName) (value : String) : Bool :=
  match name with
  | .config | .keywords | .hover => value ≠ ""
  | .maxProblems => (cap? value).isSome
  | .format => (Format.ofName? value).isSome

/-- Whether an argument looks like an option. A lone hyphen does not. -/
def looksLikeOption (argument : String) : Bool :=
  argument.toList.head? = some '-' && argument ≠ "-"

/-- Adds the value of an option that has not been given yet. -/
def Given.add (given : Given) (name : OptionName) (value : String) : Except Stop Given :=
  if (given.values.lookup name).isSome || !name.accepts value then .error .usageError
  else .ok { given with values := given.values ++ [(name, value)] }

def Given.addFile (given : Given) (file : String) : Except Stop Given :=
  if file = "" then .error .usageError else .ok { given with files := given.files ++ [file] }

/-- What an argument that looks like an option says: an option, perhaps with its value attached, or
that the program should stop. -/
def readOption (place : Place) (argument : String) : Except Stop (OptionName × Option String) :=
  match argument.toList with
  | '-' :: '-' :: long =>
    let name := String.ofList (long.takeWhile (· ≠ '='))
    let attached := match long.dropWhile (· ≠ '=') with
      | '=' :: value => some (String.ofList value)
      | _ => none
    match longOption? place name with
    | some option => .ok (option, attached)
    | none =>
      if name = "help" && attached.isNone then .error .help
      else if name = "version" && attached.isNone && place = .top then .error .version
      else .error .usageError
  | '-' :: letter :: rest =>
    match shortOption? place letter with
    | some option =>
      let attached := match rest with
        | [] => none
        | '=' :: value => some (String.ofList value)
        | value => some (String.ofList value)
      .ok (option, attached)
    | none =>
      if letter = 'h' then .error .help
      else if letter = 'V' && place = .top then .error .version
      else .error .usageError
  | _ => .error .usageError

/-! ## The command line -/

/-- Reads the arguments of a place. Before the command, the first argument that is not an option is
the command; it is returned with the arguments behind it. -/
def readPlace (place : Place) (given : Given) :
    List String → Except Stop (Given × Option (String × List String))
  | [] => .ok (given, none)
  | argument :: rest =>
    if argument = "--" then
      match place with
      | .check => (rest.foldlM Given.addFile given).map (·, none)
      | _ => if rest.isEmpty then .ok (given, none) else .error .usageError
    else if looksLikeOption argument then
      match readOption place argument with
      | .error stop => .error stop
      | .ok (name, some value) =>
        match given.add name value with
        | .error stop => .error stop
        | .ok given => readPlace place given rest
      | .ok (name, none) =>
        match rest with
        | [] => .error .usageError
        | value :: rest =>
          if looksLikeOption value then .error .usageError
          else match given.add name value with
            | .error stop => .error stop
            | .ok given => readPlace place given rest
    else
      match place with
      | .top => .ok (given, some (argument, rest))
      | .serve => .error .usageError
      | .check =>
        match given.addFile argument with
        | .error stop => .error stop
        | .ok given => readPlace place given rest

/-- The invocation of a task, with the values behind the command before those in front of it. -/
def invocation (top sub : Given) (task : Task) : Invocation :=
  let value (name : OptionName) := (sub.values.lookup name).or (top.values.lookup name)
  { config := value .config, keywords := value .keywords, hover := value .hover, task }

/-- The check that the arguments behind its command ask for. -/
def checkTask (given : Given) : Except Stop Task :=
  if given.files.isEmpty then .error .usageError
  else
    let maxProblems := (given.values.lookup .maxProblems).bind cap?
    let format := ((given.values.lookup .format).bind Format.ofName?).getD .text
    .ok (.check given.files maxProblems format)

/-- Whether there is help for what stands behind the command for help: nothing, or one command. -/
def isHelpTopic : List String → Bool
  | [] => true
  | [command] => ["serve", "check", "help"].contains command
  | _ => false

def parseArguments (arguments : List String) : Except Stop Invocation := do
  let (top, command) ← readPlace .top {} arguments
  match command with
  | none => return invocation top {} .serve
  | some ("serve", rest) =>
    let (sub, _) ← readPlace .serve {} rest
    return invocation top sub .serve
  | some ("check", rest) =>
    let (sub, _) ← readPlace .check {} rest
    return invocation top sub (← checkTask sub)
  | some ("help", topics) => throw (if isHelpTopic topics then .help else .usageError)
  | some _ => throw .usageError

end Command

end ScenarioServer
