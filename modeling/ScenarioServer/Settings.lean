import ScenarioServer.Files
import ScenarioServer.Json.Value
import ScenarioServer.Toml.Parse

/-!
# Settings and the configuration file

Where the cap on diagnostics comes from: the client, and the configuration file of a workspace.
-/

namespace ScenarioServer

/-!
## Settings of a document

The one setting is the cap on the diagnostics of a document. A client sends it as JSON, in answer to
a request or on its own; a number is taken over exactly or not at all.
-/

/-- The settings of one validation pass. -/
structure Settings where
  maxNumberOfProblems : Nat := 1000
deriving Repr, DecidableEq

namespace Settings

/-- The section of the client's configuration that belongs to this program. -/
def sectionName : String := "tacl"

def capName : String := "maxNumberOfProblems"

/-- The caps are the unsigned 32-bit integers, those below this bound. -/
def capBound : Nat := 0x100000000

/-- The cap that a member of a section gives: none for null, a number for a cap, and failure for
everything else. -/
def cap? : Json.Value → Option (Option Nat)
  | .null => some none
  | value =>
    match value.natural? with
    | some n => if n < capBound then some (some n) else none
    | none => none

/-- The cap that a section gives: an object in which it may be absent, or an array with the cap as
its only item. -/
def sectionCap? : Json.Value → Option (Option Nat)
  | .object members =>
    match members.lookup capName with
    | some value => cap? value
    | none => some none
  | .array [value] => cap? value
  | _ => none

/-- The settings that a section gives over `fallback`; none if the section is null or unusable. -/
def ofSection? (value : Json.Value) (fallback : Settings) : Option Settings :=
  (sectionCap? value).map fun cap => ⟨cap.getD fallback.maxNumberOfProblems⟩

/-- The settings after a change that a client announces, either with its whole configuration or with
the section alone; none if the change does not concern this program. An unusable section resets the
settings to `fallback`. -/
def ofChange? (value : Json.Value) (fallback : Settings) : Option Settings :=
  match value.get? sectionName with
  | some part => some ((ofSection? part fallback).getD fallback)
  | none =>
    if (value.get? capName).isSome then some ((ofSection? value fallback).getD fallback) else none

/-- The settings that a JSON text spells as a record. Here the cap may be absent but not null. -/
def parse? (text : String) : Option Settings := do
  match ← (← Json.Node.parse? text).fields? [capName] with
  | [none] => return {}
  | [some node] => return ⟨← node.natural? capBound⟩
  | _ => none

end Settings

/-!
## The configuration file

A workspace may hold a configuration file with the cap on diagnostics and the places of tables that
replace the built-in ones. Unknown keys are ignored, and a table may also be written as an array of
its fields in order. Paths of tables are relative to the directory of the file.
-/

structure Config where
  maxNumberOfProblems : Nat := 1000
  keywords : Option String := none
  hover : Option String := none
deriving Repr, DecidableEq

inductive ConfigError where
  | unreadable (path : String) (cause : FileError)
  | malformed (path : String)
deriving Repr, DecidableEq

def ConfigError.message : ConfigError → String
  | .unreadable path cause => s!"failed to read {path}: {cause.message}"
  | .malformed path => s!"invalid configuration in {path}: "

namespace Config

def fileName : String := "tacl.toml"

/-- The fields of a table, in the order of `names`. An array gives the fields in order, with missing
ones absent and further ones ignored; a date is a table with no known field. -/
def fields? (names : List String) : Toml.Item → Option (List (Option Toml.Item))
  | .table _ members | .inlineTable members => some (names.map fun name => members.lookup name)
  | .array items => some (names.zipIdx.map fun (_, index) => items[index]?)
  | .tables elements =>
    some (names.zipIdx.map fun (_, index) => elements[index]?.map (.table .header))
  | .datetime _ => some (names.map fun _ => none)
  | _ => none

def cap? : Toml.Item → Option Nat
  | .integer value => if 0 ≤ value && value < Settings.capBound then some value.toNat else none
  | _ => none

/-- The path that an optional value gives. -/
def path? : Option Toml.Item → Option (Option String)
  | none => some none
  | some (.string path) => some (some path)
  | some _ => none

def diagnosticsCap? : Option Toml.Item → Option Nat
  | none => some ({} : Config).maxNumberOfProblems
  | some item => do
    match ← fields? ["max_number_of_problems"] item with
    | [some value] => cap? value
    | _ => some ({} : Config).maxNumberOfProblems

/-- The two paths of the table of tables. -/
def tablePaths? : Option Toml.Item → Option (Option String × Option String)
  | none => some (none, none)
  | some item => do
    match ← fields? ["keywords", "hover"] item with
    | [keywords, hover] => return (← path? keywords, ← path? hover)
    | _ => none

/-- The configuration that the members of a document's root table give. -/
def ofMembers? (members : Toml.Members) : Option Config := do
  let maxNumberOfProblems ← diagnosticsCap? (members.lookup "diagnostics")
  let (keywords, hover) ← tablePaths? (members.lookup "tables")
  return { maxNumberOfProblems, keywords, hover }

def parse? (text : String) : Option Config := (Toml.parse? text).bind ofMembers?

/-- The configuration with the paths of its tables below the directory of the file. -/
def relativeTo (path : String) (config : Config) : Config :=
  match Path.parent? path with
  | none => config
  | some base =>
    { config with keywords := config.keywords.map (Path.join base)
                  hover := config.hover.map (Path.join base) }

def load (files : FileSystem) (path : String) : Except ConfigError Config :=
  match files.read path with
  | .error cause => .error (.unreadable path cause)
  | .ok text =>
    match parse? text with
    | none => .error (.malformed path)
    | some config => .ok (config.relativeTo path)

def pathIn (root : String) : String := Path.join root fileName

/-- Loads the configuration file of a workspace, if it has one. -/
def discover (files : FileSystem) (root : String) : Except ConfigError (Option Config) :=
  if files.isFile (pathIn root) then (load files (pathIn root)).map some else .ok none

def settings (config : Config) : Settings := ⟨config.maxNumberOfProblems⟩

/-- Whether a configuration is the one of an empty file. -/
def isDefault (config : Config) : Bool := config = {}

end Config

end ScenarioServer
