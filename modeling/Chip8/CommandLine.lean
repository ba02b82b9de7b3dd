import Chip8.Config
import Chip8.Text.Decimal

/-!
# The command line

The words after the program's name are flags, settings with a value, and the path of the
program to run. They are taken from left to right. A value and a path are checked when the
next word turns out to be one that fits, or at the end of the line, so a word that fits nowhere
is reported before them.
-/

namespace Chip8

/-- What can be wrong with a command line. -/
inductive UsageError
  /-- A word that names no option, or a second path. -/
  | unknownArgument
  /-- Not a fault, but the wish to see the help text. -/
  | displayHelp
  /-- A setting without its value, or an empty path. -/
  | invalidValue
  /-- A value that its setting does not take. -/
  | valueValidation
  /-- A flag with a value. -/
  | tooManyValues
  /-- A flag or a setting given twice. -/
  | argumentConflict
  /-- No path. -/
  | missingRequiredArgument
  deriving DecidableEq

/-- The options without a value. -/
inductive Flag
  | legacyTimers
  | shiftsY
  | logicClearsFlag
  | jumpsByX
  | mute
  | debug
  deriving DecidableEq

/-- The options with a value. -/
inductive Setting
  | seed
  | cyclesPerFrame
  | scale
  deriving DecidableEq

/-- What a command line asks for. -/
structure Options where
  /-- The path of the program to run. -/
  program : String
  cyclesPerFrame : UInt32
  scale : UInt8
  mute : Bool
  debug : Bool
  config : Config
  deriving DecidableEq

namespace CommandLine

/-- An option by its name. -/
inductive Named
  | flag (flag : Flag)
  | setting (setting : Setting)
  | help

/-- The option that a name without its dashes stands for. -/
def named? : String → Option Named
  | "legacy-timers" => some (.flag .legacyTimers)
  | "shift-quirk" => some (.flag .shiftsY)
  | "logic-quirk" => some (.flag .logicClearsFlag)
  | "jump-quirk" => some (.flag .jumpsByX)
  | "mute" => some (.flag .mute)
  | "debug" => some (.flag .debug)
  | "seed" => some (.setting .seed)
  | "cycles-per-frame" => some (.setting .cyclesPerFrame)
  | "scale" => some (.setting .scale)
  | "help" => some .help
  | _ => none

/-- A word of the command line by its shape. -/
inductive Word
  /-- Two dashes alone: all that follows are paths. -/
  | terminator
  /-- Two dashes, a name, and a value if there is an equals sign. -/
  | long (name : String) (value : Option String)
  /-- One dash and a letter, with whatever follows it. -/
  | short (letter : Char)
  /-- Anything else, a dash alone included. -/
  | plain

/-- The shape of a word. -/
def Word.ofString (word : String) : Word :=
  match word.toList with
  | ['-', '-'] => .terminator
  | '-' :: '-' :: rest =>
    match rest.dropWhile (· ≠ '=') with
    | [] => .long (String.ofList rest) none
    | _ :: value => .long (String.ofList (rest.takeWhile (· ≠ '='))) (some (String.ofList value))
  | '-' :: letter :: _ => .short letter
  | _ => .plain

/-- A word that was taken but is still to be checked. -/
inductive Pending
  | nothing
  | setting (setting : Setting) (value : Option String)
  | path (path : String)

/-- What was found in the words taken so far. -/
structure Reading where
  flags : List Flag
  seed : Option Nat
  cyclesPerFrame : Option Nat
  scale : Option Nat
  path : Option String
  /-- Whether a word was taken as the path, checked or not. -/
  hasPath : Bool
  /-- Whether two dashes alone have ended the options. -/
  ended : Bool
  pending : Pending

/-- Nothing was taken yet. -/
def Reading.start : Reading := ⟨[], none, none, none, none, false, false, .nothing⟩

/-- The number that a setting takes for a text. Only the small settings take a minus sign,
which leaves zero as the one number in range. -/
def value? (setting : Setting) (text : String) : Option Nat :=
  let within (largest : Nat) (number : Int) : Option Nat :=
    if 0 ≤ number ∧ number ≤ largest then some number.toNat else none
  match setting with
  | .seed => (Decimal.natural? text.toList).bind fun number => within 18446744073709551615 number
  | .cyclesPerFrame => (Decimal.integer? text.toList).bind (within 4294967295)
  | .scale => (Decimal.integer? text.toList).bind (within 255)

namespace Reading

/-- The value that a setting already has. -/
def get (reading : Reading) : Setting → Option Nat
  | .seed => reading.seed
  | .cyclesPerFrame => reading.cyclesPerFrame
  | .scale => reading.scale

/-- Gives a setting its value. -/
def put (reading : Reading) (setting : Setting) (value : Nat) : Reading :=
  match setting with
  | .seed => { reading with seed := some value }
  | .cyclesPerFrame => { reading with cyclesPerFrame := some value }
  | .scale => { reading with scale := some value }

/-- Takes the value of a setting, unless the setting was given before. -/
def assign (reading : Reading) (setting : Setting) (text : String) :
    Except UsageError Reading :=
  if (reading.get setting).isSome then
    .error .argumentConflict
  else
    match value? setting text with
    | some value => .ok (reading.put setting value)
    | none => .error .valueValidation

/-- Checks the word that is still to be checked. -/
def settle (reading : Reading) : Except UsageError Reading :=
  let settled := { reading with pending := .nothing }
  match reading.pending with
  | .nothing => .ok reading
  | .setting _ none => .error .invalidValue
  | .setting setting (some text) => settled.assign setting text
  | .path path => if path = "" then .error .invalidValue else .ok { settled with path := some path }

/-- Takes a word as the path. -/
def takePath (reading : Reading) (word : String) : Except UsageError Reading :=
  if reading.hasPath then
    .error .unknownArgument
  else do
    return { ← reading.settle with hasPath := true, pending := .path word }

/-- Takes a flag. -/
def takeFlag (reading : Reading) (flag : Flag) : Except UsageError Reading := do
  let reading ← reading.settle
  if flag ∈ reading.flags then
    .error .argumentConflict
  else
    return { reading with flags := flag :: reading.flags }

/-- Takes an option by its name. -/
def takeNamed (reading : Reading) (option : Named) (value : Option String) :
    Except UsageError Reading :=
  match option, value with
  | .flag flag, none => reading.takeFlag flag
  | .setting setting, none => do
    return { ← reading.settle with pending := .setting setting none }
  | .setting setting, some text => do (← reading.settle).assign setting text
  | .help, none => do
    let _ ← reading.settle
    .error .displayHelp
  | .flag _, some _ | .help, some _ => .error .tooManyValues

/-- Takes a word. -/
def take (reading : Reading) (word : String) : Except UsageError Reading :=
  if reading.ended then
    reading.takePath word
  else
    match Word.ofString word with
    | .terminator => .ok { reading with ended := true }
    | .long name value =>
      match named? name with
      | some option => reading.takeNamed option value
      | none => .error .unknownArgument
    | .short letter =>
      if letter = 'h' then reading.takeNamed .help none else .error .unknownArgument
    | .plain =>
      match reading.pending with
      | .setting setting none =>
        .ok { reading with pending := .setting setting (some word) }
      | _ => reading.takePath word

/-- The dialect that the flags choose. -/
def dialect (reading : Reading) : Dialect where
  shiftsY := Flag.shiftsY ∈ reading.flags
  logicClearsFlag := Flag.logicClearsFlag ∈ reading.flags
  jumpsByX := Flag.jumpsByX ∈ reading.flags

/-- What the words ask for when all have been taken. -/
def finish (reading : Reading) : Except UsageError Options := do
  let reading ← reading.settle
  match reading.path with
  | none => .error .missingRequiredArgument
  | some program =>
    return {
      program
      cyclesPerFrame := UInt32.ofNat (reading.cyclesPerFrame.getD 10)
      scale := UInt8.ofNat (reading.scale.getD 16)
      mute := Flag.mute ∈ reading.flags
      debug := Flag.debug ∈ reading.flags
      config := {
        timerMode := if Flag.legacyTimers ∈ reading.flags then .perStep else .wallClock
        dialect := reading.dialect
        seed := reading.seed.map UInt64.ofNat } }

end Reading

/-- Reads the words of a command line. -/
def parse (words : List String) : Except UsageError Options := do
  (← words.foldlM Reading.take .start).finish

end CommandLine

end Chip8
