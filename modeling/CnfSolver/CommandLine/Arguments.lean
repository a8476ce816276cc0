/-!
# Reading arguments

Arguments are read from the left against a scope: the options it knows, at most
one positional argument, and the names of its subcommands. A long option takes a
value after `=` or as the next argument, a short one also directly behind its
letter, and short flags can be bundled. The argument `--` makes everything after
it positional.

A value given as an argument of its own waits until the next option, positional
argument or the end before it is judged. A request for help or for the version
is answered when it is reached, so only faults before it count.
-/

namespace CnfSolver.CommandLine

/-- Why no command is carried out. -/
inductive Refusal where
  /-- The arguments do not fit the scope. -/
  | misuse
  | help
  | version
  deriving DecidableEq, Repr

inductive OptionKind where
  | flag
  | valued (accepts : String → Bool)
  /-- An option that is answered in place of a command. -/
  | request (refusal : Refusal)

structure OptionSpec where
  long : String
  short : Option Char
  kind : OptionKind

/-- A positional argument. -/
structure Positional where
  name : String
  accepts : String → Bool

structure Scope where
  options : List OptionSpec
  positional : Option Positional
  subcommands : List String

/-- A value that has not been judged yet, or that is still to come. -/
structure Pending where
  name : String
  accepts : String → Bool
  value : Option String

/-- The options found so far, in order. A flag has the empty value. -/
structure Reading where
  found : List (String × String)
  pending : Option Pending

namespace Reading

def empty : Reading := ⟨[], none⟩

def has (reading : Reading) (name : String) : Bool :=
  reading.found.any fun entry => entry.1 == name

def value? (reading : Reading) (name : String) : Option String := reading.found.lookup name

/-- Whether the next argument is the value of an option. -/
def isAwaiting (reading : Reading) : Bool :=
  reading.pending.any fun pending => pending.value.isNone

/-- Enter an option. None may be given twice. -/
def enter (reading : Reading) (name value : String) : Except Refusal Reading :=
  if reading.has name then .error .misuse
  else .ok { reading with found := reading.found ++ [(name, value)] }

/-- Judge the pending value. -/
def settle (reading : Reading) : Except Refusal Reading :=
  match reading.pending with
  | none => .ok reading
  | some ⟨_, _, none⟩ => .error .misuse
  | some ⟨name, accepts, some value⟩ =>
      if accepts value then { reading with pending := none }.enter name value
      else .error .misuse

/-- Take an option with the value attached to it, if any. -/
def option (reading : Reading) (spec : OptionSpec) (attached : Option String) :
    Except Refusal Reading := do
  let settled ← reading.settle
  match spec.kind, attached with
  | .flag, none => settled.enter spec.long ""
  | .flag, some _ => .error .misuse
  | .request refusal, none => .error refusal
  | .request _, some _ => .error .misuse
  | .valued accepts, some value =>
      if accepts value then settled.enter spec.long value else .error .misuse
  | .valued accepts, none => .ok { settled with pending := some ⟨spec.long, accepts, none⟩ }

/-- Take the value that an option awaits. -/
def supply (reading : Reading) (value : String) : Reading :=
  { reading with
    pending := reading.pending.map fun pending => { pending with value := some value } }

/-- Take a positional argument. -/
def positional (reading : Reading) (scope : Scope) (value : String) : Except Refusal Reading := do
  let settled ← reading.settle
  match scope.positional with
  | none => .error .misuse
  | some ⟨name, accepts⟩ =>
      if settled.has name then .error .misuse
      else .ok { settled with pending := some ⟨name, accepts, some value⟩ }

/-- Take a long option, given without its two dashes. -/
def long (reading : Reading) (scope : Scope) (text : List Char) : Except Refusal Reading :=
  let name := String.ofList (text.takeWhile (· != '='))
  let attached :=
    match text.dropWhile (· != '=') with
    | [] => none
    | _ :: value => some (String.ofList value)
  match scope.options.find? fun spec => spec.long == name with
  | none => .error .misuse
  | some spec => reading.option spec attached

/-- The value directly behind the letter of an option. -/
def attachedValue : List Char → Option String
  | [] => none
  | '=' :: value => some (String.ofList value)
  | value => some (String.ofList value)

/-- Take short options, given without the dash. -/
def shorts (reading : Reading) (scope : Scope) : List Char → Except Refusal Reading
  | [] => .ok reading
  | letter :: rest =>
      match scope.options.find? fun spec => spec.short == some letter with
      | none => .error .misuse
      | some spec =>
          match spec.kind with
          | .valued _ => reading.option spec (attachedValue rest)
          | .flag | .request _ => do
              let next ← reading.option spec none
              next.shorts scope rest

/-- The arguments read, and a subcommand with the arguments after it. -/
structure Split where
  reading : Reading
  subcommand : Option (String × List String)

/-- Read positional arguments only. -/
def positionals (reading : Reading) (scope : Scope) (arguments : List String) :
    Except Refusal Reading :=
  arguments.foldlM (fun reading value => reading.positional scope value) reading

/-- Read arguments up to the end or to a subcommand. The last value is left
pending. -/
def arguments (reading : Reading) (scope : Scope) : List String → Except Refusal Split
  | [] => .ok ⟨reading, none⟩
  | argument :: rest =>
      if !reading.isAwaiting && scope.subcommands.contains argument then
        .ok ⟨reading, some (argument, rest)⟩
      else
        match argument.toList with
        | ['-', '-'] => do
            let ended ← reading.positionals scope rest
            .ok ⟨ended, none⟩
        | '-' :: '-' :: text => do
            let next ← reading.long scope text
            next.arguments scope rest
        | '-' :: letter :: letters => do
            let next ← reading.shorts scope (letter :: letters)
            next.arguments scope rest
        | _ =>
            if reading.isAwaiting then (reading.supply argument).arguments scope rest
            else do
              let next ← reading.positional scope argument
              next.arguments scope rest

end Reading

end CnfSolver.CommandLine
