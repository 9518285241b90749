import CiPlan.Cli.Arguments

/-!
# Invocations

What a user can ask for on a command line.
-/

namespace CiPlan.Cli

/-- The form in which results are shown. -/
inductive Format where
  | text
  | json
  deriving DecidableEq, Repr

/-- What a selector is tried on. -/
inductive SelectScope where
  /-- Nothing: it is only shown. -/
  | nothing
  /-- A set of tags. -/
  | tags (tags : List String)
  /-- The name of a test. -/
  | name (name : String)
  /-- The tests of the corpus, by name or by tags, for a level or for any. -/
  | corpus (byName : Bool) (level : Option String)
  deriving DecidableEq, Repr

/-- What is asked for. -/
inductive Request where
  /-- The plan of a trigger, with or without its tests. -/
  | plan (trigger : String) (tests : Bool)
  /-- The partition at the level of a trigger, or at every level. -/
  | verify (trigger : Option String)
  /-- A selector, tried on something. -/
  | select (expression : String) (scope : SelectScope)
  /-- A leak check of the profiles with the given names, or of all. -/
  | leakCheck (profiles : List String) (once : Bool)
  /-- A run. -/
  | run (trigger : String)
  /-- Whether the configuration is valid. -/
  | configValidate
  /-- The configuration, or a section of it. -/
  | configShow (part : Option String)
  deriving DecidableEq, Repr

/-- A request with the options that every command has. -/
structure Invocation where
  configPath : String
  format : Format
  request : Request
  deriving DecidableEq, Repr

namespace Invocation

/-- The options that every command has. -/
def sharedOptions : List OptionSpec :=
  [⟨"config", some 'c', .path, false⟩, ⟨"log-level", none, .text, false⟩,
    ⟨"output", none, .oneOf ["text", "json"], false⟩]

/-- The option that names a trigger. -/
def triggerOption : OptionSpec := ⟨"trigger", some 't', .text, false⟩

/-- A switch without a letter. -/
def switch (long : String) : OptionSpec := ⟨long, none, .switch, false⟩

/-- A command without subcommands. -/
def leaf (options : List OptionSpec) (operands : Nat) : Grammar :=
  ⟨options ++ sharedOptions, [], operands, false⟩

/-- The subcommands of the whole program. -/
def commands : List String := ["plan", "verify", "select", "leak-check", "run", "config", "help"]

/-- The subcommands of `config`. -/
def configCommands : List String := ["validate", "show", "help"]

/-- The whole program. -/
def program : Grammar := ⟨sharedOptions, commands, 0, true⟩

/-- Fails unless a condition holds. -/
def demand (condition : Bool) : Except Stop Unit :=
  if condition then .ok () else .error .misuse

/-- A value that must be given. -/
def needed {α : Type} (value : Option α) : Except Stop α :=
  match value with
  | some a => .ok a
  | none => .error .misuse

/-- Help on the subcommand that some words name. -/
def helpOn : List String → Stop
  | [] => .help
  | ["config", word] => if configCommands.contains word then .help else .misuse
  | [word] => if commands.contains word then .help else .misuse
  | _ => .misuse

def readPlan (words : List String) : Except Stop (Request × List Reading) := do
  let r ← (leaf [triggerOption, switch "tests"] 0).read words
  return (.plan (← needed (r.value? "trigger")) (r.has "tests"), [r])

def readVerify (words : List String) : Except Stop (Request × List Reading) := do
  let r ← (leaf [triggerOption, switch "all"] 0).read words
  demand !(r.has "trigger" && r.has "all")
  return (.verify (r.value? "trigger"), [r])

/-- The scope that some options name.  At most one of the three may be given.  The refinements of the
last need one of the three, and say nothing about the other two. -/
def scopeOf (r : Reading) : Except Stop SelectScope := do
  let given := ["tags", "name", "corpus"].filter r.has
  demand (given.length ≤ 1)
  demand (!given.isEmpty || !(r.has "keyword" || r.has "level"))
  if r.has "corpus" then return .corpus (r.has "keyword") (r.value? "level")
  if r.has "tags" then return .tags ((r.valuesOf "tags").flatMap (·.splitOn ","))
  match r.value? "name" with
  | some name => return .name name
  | none => return .nothing

def readSelect (words : List String) : Except Stop (Request × List Reading) := do
  let r ← (leaf [⟨"tags", none, .text, true⟩, ⟨"name", none, .text, false⟩, switch "corpus",
    switch "keyword", ⟨"level", none, .text, false⟩] 1).read words
  return (.select (← needed r.operands.head?) (← scopeOf r), [r])

def readLeakCheck (words : List String) : Except Stop (Request × List Reading) := do
  let r ← (leaf [⟨"profile", some 'p', .text, true⟩, switch "once"] 0).read words
  return (.leakCheck (r.valuesOf "profile") (r.has "once"), [r])

def readRun (words : List String) : Except Stop (Request × List Reading) := do
  let r ← (leaf [triggerOption] 0).read words
  return (.run (← needed (r.value? "trigger")), [r])

def readConfig (words : List String) : Except Stop (Request × List Reading) := do
  let outer ← (⟨sharedOptions, configCommands, 0, false⟩ : Grammar).read words
  match ← needed outer.subcommand with
  | ("validate", rest) => return (.configValidate, [outer, ← (leaf [] 0).read rest])
  | ("show", rest) =>
    let r ← (leaf [⟨"section", none, .text, false⟩] 0).read rest
    return (.configShow (r.value? "section"), [outer, r])
  | (_, rest) => throw (helpOn ("config" :: if rest.isEmpty then ["help"] else rest))

def readCommand : String → List String → Except Stop (Request × List Reading)
  | "plan", words => readPlan words
  | "verify", words => readVerify words
  | "select", words => readSelect words
  | "leak-check", words => readLeakCheck words
  | "run", words => readRun words
  | "config", words => readConfig words
  | _, words => .error (helpOn words)

/-- The value of a shared option; the innermost command that is given one decides. -/
def shared (readings : List Reading) (long : String) : Option String :=
  (readings.filterMap (·.value? long)).getLast?

/-- Reads the words of a command line. -/
def parse (words : List String) : Except Stop Invocation := do
  let outer ← program.read words
  let (name, rest) ← needed outer.subcommand
  let (request, readings) ← readCommand name rest
  let readings := outer :: readings
  return {
    configPath := (shared readings "config").getD "testgate.toml"
    format := if shared readings "output" == some "json" then .json else .text
    request }

end Invocation

end CiPlan.Cli
