import Undelete.Drive

/-!
The arguments of the command line. Options of the program may stand before or after the command;
an option given twice on one side is an error, and the one nearer to the end counts otherwise.
-/

namespace Undelete.CommandLine

inductive Command where
  | partitions
  | scan
  | recover
  deriving Repr, DecidableEq

def Command.names : List (String × Command) :=
  [("partitions", .partitions), ("scan", .scan), ("recover", .recover)]

/-- Options that take a value. -/
inductive ValueOption where
  | image
  | config
  | out
  | cluster
  | size
  | report
  deriving Repr, DecidableEq

def ValueOption.names : List (String × ValueOption) :=
  [("image", .image), ("config", .config), ("out", .out), ("cluster", .cluster), ("size", .size),
   ("report", .report)]

/-- Options without a value. -/
inductive Switch where
  | verbose
  | quiet
  | help
  | version
  deriving Repr, DecidableEq

def Switch.names : List (String × Switch) :=
  [("verbose", .verbose), ("quiet", .quiet), ("help", .help), ("version", .version)]

def Switch.letters : List (Char × Switch) :=
  [('v', .verbose), ('q', .quiet), ('h', .help), ('V', .version)]

structure Invocation where
  command : Command
  drive : String
  image : Option Category
  config : Option String
  out : Option String
  cluster : Option Nat
  size : Option Nat
  report : Option String
  deriving Repr, DecidableEq

/-- The paths that an invocation reads from or writes to. -/
def Invocation.paths (invocation : Invocation) : List String :=
  let drive := match invocation.image with
    | some _ => [invocation.drive]
    | none => ((Drive.classify invocation.drive).toOption.map Drive.path).toList
  drive ++ invocation.config.toList ++ invocation.out.toList ++ invocation.report.toList

/-- What the arguments ask for. -/
inductive Request where
  | run (invocation : Invocation)
  | version
  | help
  | misuse
  deriving Repr, DecidableEq

/-- Arguments understood so far, on one side of the command's name. -/
structure Side where
  values : List (ValueOption × String)
  quiet : Bool
  /-- The word that is no option. -/
  drive : Option String

def Side.empty : Side := ⟨[], false, none⟩

/-- Which options are known: before the command only those of the program, after it also its own. -/
def allows (command : Option Command) : ValueOption → Bool
  | .image | .config => true
  | .cluster | .size | .report => command = some .scan || command = some .recover
  | .out => command = some .recover

/-- A whole number with an optional sign, that is not negative and fits 32 bits. -/
def wordOf? (text : String) : Option Nat :=
  let (limit, digits) := match text.toList with
    | '+' :: rest => (UInt32.size, rest)
    | '-' :: rest => (1, rest)
    | chars => (UInt32.size, chars)
  if digits ≠ [] ∧ digits.all Char.isDigit then
    let value := digits.foldl (fun total c => total * 10 + (c.toNat - 48)) 0
    if value < limit then some value else none
  else none

def isAcceptable (option : ValueOption) (value : String) : Bool :=
  match option with
  | .image => value = "physical" || value = "logical"
  | .config | .out | .report => value ≠ ""
  | .cluster | .size => (wordOf? value).isSome

/-- Enter an option's value; an unacceptable or second one is refused. -/
def Side.enter (side : Side) (option : ValueOption) (value : String) : Except Request Side :=
  if isAcceptable option value && !side.values.any (·.1 = option) then
    .ok { side with values := (option, value) :: side.values }
  else .error .misuse

def Side.flip (side : Side) (command : Option Command) : Switch → Except Request Side
  | .verbose => .ok side
  | .quiet => if side.quiet then .error .misuse else .ok { side with quiet := true }
  | .help => .error .help
  | .version => .error (if command = none then .version else .misuse)

/-- The form of one argument. -/
inductive Form where
  | separator
  | long (name : String) (value : Option String)
  | letters (chars : List Char)
  | word

def Form.ofText (text : String) : Form :=
  match text.toList with
  | ['-', '-'] => separator
  | '-' :: '-' :: rest =>
    let name := String.ofList (rest.takeWhile (· ≠ '='))
    match rest.dropWhile (· ≠ '=') with
    | [] => long name none
    | _ :: value => long name (some (String.ofList value))
  | '-' :: c :: rest => letters (c :: rest)
  | _ => word

inductive Token where
  | valued (option : ValueOption) (value : String)
  | switch (switch : Switch)
  | word (text : String)
  /-- All arguments behind it are words. -/
  | separator
  | unknown
  deriving Repr, DecidableEq

def Token.ofLetter (c : Char) : Token :=
  match Switch.letters.lookup c with
  | some known => .switch known
  | none => .unknown

def Token.ofSwitch (name : String) : Token :=
  match Switch.names.lookup name with
  | some known => .switch known
  | none => .unknown

/-- An option that takes a value has it behind an equals sign or in the next argument, which then
has to be a word. -/
def tokens : List String → List Token
  | [] => []
  | text :: rest =>
    match Form.ofText text with
    | .separator => .separator :: rest.map Token.word
    | .word => .word text :: tokens rest
    | .letters chars => chars.map Token.ofLetter ++ tokens rest
    | .long name value =>
      match ValueOption.names.lookup name, value, rest with
      | some option, some value, rest => .valued option value :: tokens rest
      | some option, none, next :: rest =>
        match Form.ofText next with
        | .word => .valued option next :: tokens rest
        | _ => [.unknown]
      | some _, none, [] => [.unknown]
      | none, some _, _ => [.unknown]
      | none, none, rest => Token.ofSwitch name :: tokens rest

/-- Enter an option that is known on this side of the command's name, or the drive. The first token
that cannot be entered decides what the arguments ask for. -/
def Side.take (side : Side) (command : Option Command) : Token → Except Request Side
  | .valued option value =>
    if allows command option then side.enter option value else .error .misuse
  | .switch switch => side.flip command switch
  | .word text =>
    if side.drive.isNone then .ok { side with drive := some text } else .error .misuse
  | .separator => .ok side
  | .unknown => .error .misuse

def invocation? (command : Command) (outer inner : Side) : Option Invocation :=
  let value? := fun option => (inner.values.lookup option).or (outer.values.lookup option)
  match inner.drive with
  | some drive =>
    if command = .recover ∧ (value? .out).isNone then none
    else some
      { command
        drive
        image := (value? .image).map fun kind => if kind = "physical" then .physical else .logical
        config := value? .config
        out := value? .out
        cluster := (value? .cluster).bind wordOf?
        size := (value? .size).bind wordOf?
        report := value? .report }
  | none => none

/-- Help on a command, if there is such a command. -/
def helpOn : List Token → Request
  | [] => .help
  | [.word name] =>
    if name = "help" ∨ (Command.names.lookup name).isSome then .help else .misuse
  | _ => .misuse

/-- Understand the tokens up to the command's name, and then those behind it. -/
def read (outer : Side) : List Token → Except Request Request
  | [] | .separator :: _ => .error .misuse
  | .word name :: rest =>
    match Command.names.lookup name with
    | some command => do
      let inner ← rest.foldlM (·.take (some command) ·) Side.empty
      pure (((invocation? command outer inner).map Request.run).getD .misuse)
    | none => .ok (if name = "help" then helpOn rest else .misuse)
  | token :: rest => do read (← outer.take none token) rest

def Request.ofArguments (arguments : List String) : Request :=
  match read Side.empty (tokens arguments) with
  | .ok request | .error request => request

end Undelete.CommandLine
