import Chip8.CommandLine
import Chip8.Host.Directory
import Chip8.Machine.Basic

/-!
# Launching a program

A launch reads the command line and the program, loads it into a machine, and opens a window
of the chosen scale. A launch on a host without a screen ends at the window.
-/

namespace Chip8

namespace Window

/-- The scales that a window can have. -/
def scales : List UInt8 := [1, 2, 4, 8, 16, 32]

/-- Why no window of a scale can be opened on a host without a screen. -/
def error (scale : UInt8) : String :=
  if scale ∈ scales then "Failed to create window" else s!"unsupported scale {scale.toNat}"

end Window

/-- How a launch ended. -/
inductive Launch
  /-- The help text was asked for. -/
  | help
  /-- The command line was at fault. -/
  | misused (reason : UsageError)
  /-- The program could not be run, after these records were shown. -/
  | failed (log : List LogRecord) (message : String)
  deriving DecidableEq

namespace Launch

/-- The exit code that tells the caller how a launch ended. -/
def exitCode : Launch → UInt32
  | help => 0
  | misused _ => 2
  | failed _ _ => 1

/-- The message about a file that could not be read, with its cause below it. -/
def readMessage (path : String) (reason : ReadError) : String :=
  s!"failed to read {path}\n\nCaused by:\n    {reason.message}"

/-- A machine with the glyphs and a program in its memory. -/
def prepare (options : Options) (entropy : Source UInt32) (program : List UInt8) : Report Unit :=
  (Machine.new options.config entropy .zero).loadGlyphs.loadProgram program

/-- The record of a program that was read and loaded. -/
def loadedRecord (path : String) (program : List UInt8) : LogRecord :=
  ⟨.info, s!"loaded {path} ({program.length} bytes)"⟩

/-- Opens the window for a program that was read. -/
def run (options : Options) (entropy : Source UInt32) (program : List UInt8) : Launch :=
  match (prepare options entropy program).result with
  | .error (.fault fault) => failed [] fault.message
  | .error (.overflow overflow) => failed [] overflow.message
  | .ok () =>
    failed [(loadedRecord options.program program).shown] (Window.error options.scale)

/-- Launches with the words of a command line on a host whose files `read` gives. -/
def start (words : List String) (entropy : Source UInt32)
    (read : String → Except ReadError (List UInt8)) : Launch :=
  match CommandLine.parse words with
  | .error .displayHelp => help
  | .error reason => misused reason
  | .ok options =>
    match read options.program with
    | .error reason => failed [] (readMessage options.program reason)
    | .ok program => run options entropy program

end Launch

end Chip8
