import RegionSalvage.Text.DecimalDigit

/-! # Reading options

A command line is a list of arguments.  Some are options: a long one is written `--name`, a short
one `-n`; several short ones without values can share a dash; a long name may be cut off as long as
only one option fits.  The value of an option is the next argument, or it is attached:
`--name=value`, `-n=value`, `-nvalue`.  After `--` no argument is an option; `--` attached to an
option leaves that option without a value (`Setting.blank`).

An option changes the settings it belongs to, so a table of options is typed by its settings.
Reading goes in two steps: first every argument gets its role (`OptionTable.role`), then the options
act from left to right (`OptionTable.read`).
-/

namespace RegionSalvage

/-- What a command line asks for instead of a command, or why it cannot be obeyed. -/
inductive EarlyExit where
  | help
  | version
  | ambiguous (argument : String)
  | missingValue (option : String)
  | needlessValue (option : String)
  | refusedValue (option value : String)
  | strayArguments (arguments : List String)
  | missingOption (option : String)
  | missingCommand
  | unknownCommand (name : String)
deriving DecidableEq, Repr

/-- What an option has been given. -/
inductive Setting (α : Type) where
  /-- Nothing, and that expressly. -/
  | blank
  | value (a : α)
deriving DecidableEq, Repr

def Setting.getD {α : Type} (s : Setting α) (default : α) : α :=
  match s with
  | .blank => default
  | .value a => a

inductive OptionEffect (σ : Type) where
  | flag (set : σ → σ)
  /-- A value is taken, unless `set` refuses it; `clear` leaves the option without one. -/
  | value (set : String → σ → Option σ) (clear : σ → σ)
  | exit (reason : EarlyExit)

structure OptionSpec (σ : Type) where
  short : Option Char := none
  long : String
  effect : OptionEffect σ

/-- A value attached to an option in one argument. -/
inductive Attachment where
  | absent
  | assigned (text : String)
  /-- Behind a short option, with an equals sign between them or without. -/
  | joined (text : List Char)
deriving DecidableEq, Repr

inductive ArgumentRole (σ : Type) where
  | operand
  | separator
  | unknownOption
  | option (spec : OptionSpec σ) (attachment : Attachment)

abbrev OptionTable (σ : Type) := List (OptionSpec σ)

/-- Whether a text is a negative number, which is never an option.  A line feed may follow. -/
def isNegativeNumber : List Char → Bool
  | '-' :: rest =>
    let rest := if rest.getLast? = some '\n' then rest.dropLast else rest
    let isDigit (c : Char) : Bool := (digitValue? c).isSome
    match rest.dropWhile isDigit with
    | [] => !rest.isEmpty
    | '.' :: fraction => !fraction.isEmpty && fraction.all isDigit
    | _ => false
  | _ => false

namespace OptionTable

variable {σ : Type}

/-! ## Roles -/

def named? (table : OptionTable σ) (written : List Char) : Option (OptionSpec σ) :=
  table.find? fun spec =>
    written == '-' :: '-' :: spec.long.toList ||
      match spec.short with
      | none => false
      | some short => written == ['-', short]

def assignedValue (written : List Char) : Attachment :=
  match written.dropWhile (· ≠ '=') with
  | [] => .absent
  | _ :: value =>
    if written.take 2 = ['-', '-'] then .assigned (String.ofList value) else .joined value

/-- The options whose names begin like this, or that share a dash with what follows. -/
def candidates (table : OptionTable σ) : List Char → List (OptionSpec σ × Attachment)
  | '-' :: '-' :: name =>
    let start := name.takeWhile (· ≠ '=')
    (table.filter fun spec => start.isPrefixOf spec.long.toList).map
      (·, assignedValue ('-' :: '-' :: name))
  | '-' :: short :: rest =>
    (table.filter fun spec => spec.short = some short).map (·, .joined rest)
  | _ => []

def dashedRole (table : OptionTable σ) (argument : List Char) :
    Except EarlyExit (ArgumentRole σ) :=
  match table.named? (argument.takeWhile (· ≠ '=')) with
  | some spec => .ok (.option spec (assignedValue argument))
  | none =>
    match table.candidates argument with
    | [(spec, attachment)] => .ok (.option spec attachment)
    | _ :: _ :: _ => .error (.ambiguous (String.ofList argument))
    | [] =>
      if isNegativeNumber argument || argument.contains ' ' then .ok .operand
      else .ok .unknownOption

def role (table : OptionTable σ) (argument : String) : Except EarlyExit (ArgumentRole σ) :=
  match argument.toList with
  | '-' :: rest =>
    match table.named? ('-' :: rest) with
    | some spec => .ok (.option spec .absent)
    | none => if rest.isEmpty then .ok .operand else table.dashedRole ('-' :: rest)
  | _ => .ok .operand

/-- The roles of all arguments; behind a separator there are only operands. -/
def roles (table : OptionTable σ) : List String →
    Except EarlyExit (List (String × ArgumentRole σ))
  | [] => .ok []
  | "--" :: rest => .ok (("--", .separator) :: rest.map (·, .operand))
  | argument :: rest =>
    match table.role argument with
    | .error e => .error e
    | .ok role =>
      match table.roles rest with
      | .error e => .error e
      | .ok roles => .ok ((argument, role) :: roles)

/-! ## Acting -/

/-- An option that is going to act, with the value it has taken. -/
inductive Deed (σ : Type) where
  | change (f : σ → σ)
  | take (option value : String) (f : String → σ → Option σ)
  | exit (reason : EarlyExit)

def Deed.perform (s : σ) : Deed σ → Except EarlyExit σ
  | .change f => .ok (f s)
  | .take option value f =>
    match f value s with
    | none => .error (.refusedValue option value)
    | some s => .ok s
  | .exit reason => .error reason

/-- What the options that share one argument are going to do. -/
structure Gathered (σ : Type) where
  deeds : List (Deed σ)
  /-- Whether the next argument was taken for a value. -/
  takesNext : Bool := false

/-- What an option without an attachment is going to do in front of the argument `next`. -/
def gatherAlone (spec : OptionSpec σ) (next : Option (String × ArgumentRole σ)) :
    Except EarlyExit (Gathered σ) :=
  match spec.effect, next with
  | .flag f, _ => .ok { deeds := [.change f] }
  | .exit reason, _ => .ok { deeds := [.exit reason] }
  | .value set _, some (value, .operand) =>
    .ok { deeds := [.take spec.long value set], takesNext := true }
  | .value _ _, _ => .error (.missingValue spec.long)

def gatherValue (spec : OptionSpec σ) (value : String) : Except EarlyExit (Gathered σ) :=
  match spec.effect with
  | .value set clear =>
    .ok { deeds := [if value = "--" then .change clear else .take spec.long value set] }
  | _ => .error (.needlessValue spec.long)

/-- What a short option and the text joined to it are going to do.  The text is the option's value,
or more short options, the last of which may have a value. -/
def gatherJoined (table : OptionTable σ) (next : Option (String × ArgumentRole σ))
    (spec : OptionSpec σ) : List Char → Except EarlyExit (Gathered σ)
  | [] => gatherValue spec ""
  | short :: tail =>
    match spec.effect with
    | .value _ _ => gatherValue spec (String.ofList (short :: tail))
    | _ =>
      match table.named? ['-', short] with
      | none => .error (.needlessValue spec.long)
      | some further => do
        let this ← gatherAlone spec next
        let those ←
          if tail.isEmpty then gatherAlone further next else gatherJoined table next further tail
        return { those with deeds := this.deeds ++ those.deeds }

def gather (table : OptionTable σ) (next : Option (String × ArgumentRole σ))
    (spec : OptionSpec σ) : Attachment → Except EarlyExit (Gathered σ)
  | .absent => gatherAlone spec next
  | .assigned value => gatherValue spec value
  | .joined text => gatherJoined table next spec text

/-! ## Reading -/

structure Reading (σ : Type) where
  settings : σ
  strays : List String := []
  command : Option (String × List String) := none

def Reading.stray (r : Reading σ) (argument : String) : Reading σ :=
  { r with strays := r.strays ++ [argument] }

/-- Lets the options act from left to right.  If a command is wanted, the first argument that is no
option names it and ends the reading. -/
def act (table : OptionTable σ) (wantsCommand : Bool) (r : Reading σ) :
    List (String × ArgumentRole σ) → Except EarlyExit (Reading σ)
  | [] => .ok r
  | (_, .option spec attachment) :: rest => do
    let gathered ← table.gather rest.head? spec attachment
    let settings ← gathered.deeds.foldlM Deed.perform r.settings
    let r := { r with settings }
    match gathered.takesNext, rest with
    | true, _ :: rest => table.act wantsCommand r rest
    | _, rest => table.act wantsCommand r rest
  | (argument, .unknownOption) :: rest => table.act wantsCommand (r.stray argument) rest
  | (argument, _) :: rest =>
    if wantsCommand then .ok { r with command := some (argument, rest.map (·.1)) }
    else table.act wantsCommand (r.stray argument) rest

def read (table : OptionTable σ) (wantsCommand : Bool) (settings : σ) (arguments : List String) :
    Except EarlyExit (Reading σ) := do
  table.act wantsCommand { settings } (← table.roles arguments)

end OptionTable

end RegionSalvage
