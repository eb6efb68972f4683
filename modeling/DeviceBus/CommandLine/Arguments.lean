import DeviceBus.Decimal.Integer

/-! Arguments of a command. Options take a value, in the same argument or in the next one; flags take none
and may be given as letters; each may come once. A value missing from the arguments may come from a
variable of the environment. Reading goes from left to right and stops at the first mistake, and where the
version or the help is asked for. -/
namespace DeviceBus.CommandLine

structure OptionRule where
  name : String
  /-- The variable that gives the value where no argument does. -/
  inherits : Option String
  accepts : String → Bool

structure FlagRule where
  name : String
  letter : Option Char

structure Grammar where
  options : List OptionRule
  flags : List FlagRule
  commands : List String
  places : Nat
  versioned : Bool

structure Found where
  options : List (String × String)
  flags : List String
  places : List String
  command : Option (String × List String)
deriving DecidableEq, Repr

def Found.nothing : Found := ⟨[], [], [], none⟩

inductive Stop
  | usage
  | version
  | help
deriving DecidableEq, Repr

inductive Shape
  | escape
  | long (name : List Char) (value : Option (List Char))
  | letters (cs : List Char)
  | plain
deriving DecidableEq, Repr

def splitValue (text : List Char) : List Char × Option (List Char) :=
  match text.dropWhile (· ≠ '=') with
  | [] => (text, none)
  | _ :: value => (text.takeWhile (· ≠ '='), some value)

def Shape.of (argument : String) : Shape :=
  match argument.toList with
  | ['-', '-'] => .escape
  | '-' :: '-' :: rest =>
    let (name, value) := splitValue rest
    .long name value
  | '-' :: c :: cs => .letters (c :: cs)
  | _ => .plain

namespace Grammar

def option? (g : Grammar) (name : List Char) : Option OptionRule :=
  g.options.find? fun rule => rule.name.toList = name

def flag? (g : Grammar) (name : List Char) : Option FlagRule :=
  g.flags.find? fun rule => rule.name.toList = name

def addOption (found : Found) (rule : OptionRule) (value : String) : Except Stop Found :=
  if (found.options.lookup rule.name).isSome || !rule.accepts value then .error .usage
  else .ok { found with options := found.options ++ [(rule.name, value)] }

def addFlag (found : Found) (rule : FlagRule) : Except Stop Found :=
  if found.flags.contains rule.name then .error .usage
  else .ok { found with flags := found.flags ++ [rule.name] }

def addPlace (g : Grammar) (found : Found) (argument : String) : Except Stop Found :=
  if found.places.length < g.places then .ok { found with places := found.places ++ [argument] }
  else .error .usage

def readLetters (g : Grammar) (found : Found) : List Char → Except Stop Found
  | [] => .ok found
  | c :: rest =>
    if c = 'V' ∧ g.versioned then .error .version
    else if c = 'h' then .error .help
    else match g.flags.find? fun rule => rule.letter = some c with
      | none => .error .usage
      | some rule => do
        let found ← addFlag found rule
        readLetters g found rest

def readFlag (g : Grammar) (found : Found) (name : List Char) (value : Option (List Char)) :
    Except Stop Found :=
  if value.isSome then .error .usage
  else if name = "version".toList ∧ g.versioned then .error .version
  else if name = "help".toList then .error .help
  else match g.flag? name with
    | none => .error .usage
    | some rule => addFlag found rule

def readHelp (g : Grammar) : List String → Stop
  | [] => .help
  | name :: _ => if g.commands.contains name then .help else .usage

def readFrom (g : Grammar) (found : Found) : List String → Except Stop Found
  | [] => .ok found
  | argument :: rest =>
    match Shape.of argument with
    | .escape => rest.foldlM g.addPlace found
    | .letters cs => do
      let found ← g.readLetters found cs
      readFrom g found rest
    | .plain =>
      if g.commands.isEmpty then do
        let found ← g.addPlace found argument
        readFrom g found rest
      else if g.commands.contains argument then .ok { found with command := some (argument, rest) }
      else if argument = "help" then .error (g.readHelp rest)
      else .error .usage
    | .long name value =>
      match g.option? name, value with
      | some rule, some value => do
        let found ← addOption found rule (String.ofList value)
        readFrom g found rest
      | some rule, none =>
        match rest with
        | value :: rest =>
          if Shape.of value = .plain then do
            let found ← addOption found rule value
            readFrom g found rest
          else .error .usage
        | [] => .error .usage
      | none, _ => do
        let found ← g.readFlag found name value
        readFrom g found rest

def complete (g : Grammar) (environment : List (String × String)) (found : Found) : Except Stop Found :=
  g.options.foldlM (fun found rule =>
    if (found.options.lookup rule.name).isSome then .ok found
    else match rule.inherits.bind fun variableName => environment.lookup variableName with
      | none => .ok found
      | some value => addOption found rule value) found

def read (g : Grammar) (environment : List (String × String)) (arguments : List String) :
    Except Stop Found := do
  let found ← g.readFrom .nothing arguments
  g.complete environment found

end Grammar

namespace Found

def option? (found : Found) (name : String) : Option String := found.options.lookup name

def required (found : Found) (name : String) : Except Stop String :=
  match found.option? name with
  | some value => .ok value
  | none => .error .usage

/-- A number below 65536; a sign does not matter as long as the number is none less. -/
def word? (value : String) : Option UInt16 :=
  (Decimal.readInt? 0 65535 value.toList).map fun n => n.toNat.toUInt16

def word (found : Found) (name : String) (default : UInt16) : UInt16 :=
  ((found.option? name).bind word?).getD default

end Found
end DeviceBus.CommandLine
