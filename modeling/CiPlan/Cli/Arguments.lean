/-!
# Command lines

How the words of a command line are read.  A word that starts with two dashes names an option by its
long name, and may hold its value after `=`; a word that starts with one dash names options by single
letters, and the rest of the word after an option that takes a value is the value; any other word is
the value of the option before it, the name of a subcommand, or an operand.  After `--` all words are
operands.
-/

namespace CiPlan.Cli

/-- Why a command line is not carried out. -/
inductive Stop where
  /-- It asks for help. -/
  | help
  /-- It asks for the version. -/
  | version
  /-- It is not understood. -/
  | misuse
  deriving DecidableEq, Repr

def Stop.exitCode : Stop → Nat
  | help | version => 0
  | misuse => 2

/-- The values that an option takes. -/
inductive ValueKind where
  /-- None: it is a switch. -/
  | switch
  | text
  /-- A text that is not empty. -/
  | path
  /-- One of some texts. -/
  | oneOf (allowed : List String)
  deriving DecidableEq, Repr

/-- A text is a value of a kind. -/
def ValueKind.admits : ValueKind → String → Bool
  | switch, _ => false
  | text, _ => true
  | path, value => !value.isEmpty
  | oneOf allowed, value => allowed.contains value

/-- An option. -/
structure OptionSpec where
  long : String
  short : Option Char
  kind : ValueKind
  /-- It may be given more than once. -/
  repeatable : Bool
  deriving DecidableEq, Repr

/-- What a command understands. -/
structure Grammar where
  options : List OptionSpec
  subcommands : List String
  /-- The most operands. -/
  operands : Nat
  /-- It can be asked for the version. -/
  versioned : Bool

/-- What has been read of a command line. -/
structure Reading where
  /-- The options by long name, in order; a switch has an empty value. -/
  options : List (String × String)
  operands : List String
  /-- The subcommand, and the words after it. -/
  subcommand : Option (String × List String)

namespace Reading

def valuesOf (r : Reading) (long : String) : List String :=
  (r.options.filter (·.1 == long)).map (·.2)

def value? (r : Reading) (long : String) : Option String :=
  (r.valuesOf long).head?

def has (r : Reading) (long : String) : Bool :=
  (r.value? long).isSome

end Reading

namespace Grammar

/-- The words that ask for something else than a run: help, and the version. -/
def stop? (g : Grammar) (long : String) (short : Char) : Option Stop :=
  if long == "help" || short == 'h' then some .help
  else if g.versioned && (long == "version" || short == 'V') then some .version
  else none

/-- Adds an option with a value. -/
def give (o : OptionSpec) (value : String) (r : Reading) : Except Stop Reading :=
  if (!o.repeatable && r.has o.long) || !o.kind.admits value then .error .misuse
  else .ok { r with options := r.options ++ [(o.long, value)] }

/-- Adds a switch. -/
def switchOn (o : OptionSpec) (r : Reading) : Except Stop Reading :=
  if r.has o.long then .error .misuse
  else .ok { r with options := r.options ++ [(o.long, "")] }

/-- Drops one sign of equality. -/
def dropEquals : List Char → List Char
  | '=' :: value => value
  | value => value

/-- Reads a long name and what follows it in its word.  The option that is returned still needs its
value. -/
def readLong (g : Grammar) (r : Reading) (word : List Char) :
    Except Stop (Reading × Option OptionSpec) :=
  let name := String.ofList (word.takeWhile (· != '='))
  let value := word.dropWhile (· != '=')
  match g.options.find? (·.long == name) with
  | some o =>
    if o.kind = .switch then
      if value.isEmpty then return (← switchOn o r, none) else .error .misuse
    else if value.isEmpty then .ok (r, some o)
    else return (← give o (String.ofList (dropEquals value)) r, none)
  | none =>
    match g.stop? name ' ' with
    | some stop => .error (if value.isEmpty then stop else .misuse)
    | none => .error .misuse

/-- Reads the letters of a word. -/
def readShort (g : Grammar) (r : Reading) : List Char → Except Stop (Reading × Option OptionSpec)
  | [] => .ok (r, none)
  | c :: rest =>
    match g.options.find? (·.short == some c) with
    | some o =>
      if o.kind = .switch then do g.readShort (← switchOn o r) rest
      else if rest.isEmpty then .ok (r, some o)
      else return (← give o (String.ofList (dropEquals rest)) r, none)
    | none => .error ((g.stop? "" c).getD .misuse)

/-- Reads words; `pending` is an option that still needs its value. -/
def readWords (g : Grammar) (r : Reading) (pending : Option OptionSpec) :
    List String → Except Stop Reading
  | [] => if pending.isSome then .error .misuse else .ok r
  | word :: rest =>
    match word.toList, pending with
    | ['-', '-'], some _ => .error .misuse
    | ['-', '-'], none =>
      if rest.isEmpty then .ok r
      else if r.operands.length + rest.length ≤ g.operands then
        .ok { r with operands := r.operands ++ rest }
      else .error .misuse
    | '-' :: '-' :: long, none => do
      let (r, pending) ← g.readLong r long
      g.readWords r pending rest
    | '-' :: c :: letters, none => do
      let (r, pending) ← g.readShort r (c :: letters)
      g.readWords r pending rest
    | '-' :: _ :: _, some _ => .error .misuse
    | _, some o => do
      g.readWords (← give o word r) none rest
    | _, none =>
      if g.subcommands.contains word then .ok { r with subcommand := some (word, rest) }
      else if r.operands.length < g.operands then
        g.readWords { r with operands := r.operands ++ [word] } none rest
      else .error .misuse

/-- Reads the words of a command line. -/
def read (g : Grammar) (words : List String) : Except Stop Reading :=
  g.readWords ⟨[], [], none⟩ none words

end Grammar

end CiPlan.Cli
