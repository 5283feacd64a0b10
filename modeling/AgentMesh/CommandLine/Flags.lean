/-!
# Flags

The flags of a command line: switches, and options with one value, which follows as the next argument or
after an equals sign. An option that is not given may take its value from the environment. Arguments are
read from the left. A value is checked only when the next flag or the end of the line is reached, so an
unknown argument is reported before a bad value in front of it.
-/

namespace AgentMesh.CommandLine

structure Flag where
  name : String
  takesValue : Bool := true
  /-- The environment variable that stands in for the flag. -/
  envName : Option String := none
  accepts : String → Bool := fun _ => true
  /-- The flags that must not be given together with this one. -/
  conflicts : List String := []

inductive FlagError
  | unknownArgument
  | invalidValue
  | valueValidation
  /-- A flag given twice, or together with one that excludes it. -/
  | argumentConflict
  | tooManyValues
  /-- Not a mistake: help was asked for. -/
  | displayHelp
deriving Repr, DecidableEq, Inhabited

/-- The flags that are given, each with its value. -/
abbrev Given := List (String × String)

namespace Given

def value? (g : Given) (name : String) : Option String :=
  (g.find? fun entry => entry.1 == name).map (·.2)

def contains (g : Given) (name : String) : Bool :=
  (g.value? name).isSome

def add (g : Given) (f : Flag) (value : String) : Except FlagError Given :=
  if g.contains f.name then .error .argumentConflict
  else if f.accepts value then .ok (g ++ [(f.name, value)])
  else .error .valueValidation

end Given

/-! ## Arguments -/

structure Reading where
  given : Given := []
  /-- The option that was read last, with its value if it has followed. -/
  pending : Option (Flag × Option String) := none
  /-- Whether only plain arguments may follow. -/
  onlyPlain : Bool := false

namespace Reading

def settle (r : Reading) : Except FlagError Given :=
  match r.pending with
  | none => .ok r.given
  | some (_, none) => .error .invalidValue
  | some (f, some value) => r.given.add f value

def take (r : Reading) (f : Flag) (value : String) : Except FlagError Reading := do
  return { r with given := ← (← r.settle).add f value, pending := none }

/-- Help is shown unless the arguments before it are at fault. -/
def help (r : Reading) : Except FlagError Reading := do
  discard r.settle
  .error .displayHelp

/-- A name after two dashes, with the value after its equals sign. -/
def named (r : Reading) (flags : List Flag) (name : String) (value? : Option String) :
    Except FlagError Reading :=
  if name = "help" then if value?.isSome then .error .tooManyValues else r.help
  else
    match flags.find? fun f => f.name == name with
    | none => .error .unknownArgument
    | some f =>
        match f.takesValue, value? with
        | true, some value => r.take f value
        | true, none => do return { r with given := ← r.settle, pending := some (f, none) }
        | false, some _ => .error .tooManyValues
        | false, none => r.take f "true"

/-- An argument without dashes is the value of the option before it. -/
def plain (r : Reading) (argument : String) : Except FlagError Reading :=
  match r.pending with
  | some (f, none) => .ok { r with pending := some (f, some argument) }
  | _ => .error .unknownArgument

def next (flags : List Flag) (r : Reading) (argument : String) : Except FlagError Reading :=
  if r.onlyPlain then .error .unknownArgument
  else
    match argument.toList with
    | ['-', '-'] => .ok { r with onlyPlain := true }
    | '-' :: '-' :: rest =>
        let name := rest.takeWhile (· != '=')
        let value? := match rest.drop name.length with
          | _ :: value => some (String.ofList value)
          | [] => none
        r.named flags (String.ofList name) value?
    | '-' :: c :: _ => if c = 'h' then r.help else .error .unknownArgument
    | _ => r.plain argument

end Reading

/-! ## Command lines -/

/-- Takes up the environment for a flag that is not given. -/
def Given.addVariable (environment : Given) (g : Given) (f : Flag) : Except FlagError Given :=
  if g.contains f.name then .ok g
  else
    match f.envName.bind environment.value? with
    | none => .ok g
    | some value => g.add f value

/-- Whether a given flag excludes another one that is given. -/
def Given.conflicting (g : Given) (flags : List Flag) : Bool :=
  flags.any fun f => g.contains f.name && f.conflicts.any g.contains

def readFlags (flags : List Flag) (arguments : List String) (environment : Given) :
    Except FlagError Given := do
  let reading ← arguments.foldlM (Reading.next flags) {}
  let given ← flags.foldlM (Given.addVariable environment) (← reading.settle)
  if given.conflicting flags then .error .argumentConflict else .ok given

end AgentMesh.CommandLine
