import Chip8.Host.Launch
import Chip8.Random.ChaCha

/-!
# The command

The command reads the program that the command line names, and shows on standard error the
records of the launch and the message it ended with.
-/

namespace Chip8

/-- The help text. -/
def usage : String :=
  "Runs a 64x32 hex-keypad virtual machine program\n\n" ++
  "Usage: chip8 [OPTIONS] <ROM>\n\n" ++
  "Arguments:\n" ++
  "  <ROM>  Program image, loaded verbatim at 0x200\n\n" ++
  "Options:\n" ++
  "      --cycles-per-frame <N>  Instructions executed per 60 Hz frame [default: 10]\n" ++
  "      --scale <N>             Window scale factor (1, 2, 4, 8, 16 or 32) [default: 16]\n" ++
  "      --seed <N>              Seed the random instruction for reproducible runs\n" ++
  "      --legacy-timers         Decrement timers once per instruction instead of at 60 Hz\n" ++
  "      --shift-quirk           8XY6/8XYE shift VY into VX\n" ++
  "      --logic-quirk           8XY1/8XY2/8XY3 reset VF\n" ++
  "      --jump-quirk            BNNN jumps to XNN + VX\n" ++
  "      --mute                  Do not open an audio device\n" ++
  "      --debug                 Dump registers and memory on an unknown opcode or a fault\n" ++
  "  -h, --help                  Print help\n"

/-- Why the host did not give the contents of a file. -/
def readError : IO.Error → ReadError
  | .noFileOrDirectory .. => .noSuchFile
  | .inappropriateType _ 21 _ => .isADirectory
  | .inappropriateType .. => .notADirectory
  | .invalidArgument .. => .nameTooLong
  | .permissionDenied .. => .other "Permission denied (os error 13)"
  | reason => .other (toString reason)

/-- Reads a file of the host. -/
def readFile (path : String) : IO (Except ReadError (List UInt8)) := do
  try
    return .ok (← IO.FS.readBinFile path).toList
  catch reason =>
    return .error (readError reason)

/-- Shows how a launch ended and gives its exit code. -/
def conclude (launch : Launch) : IO UInt32 := do
  match launch with
  | .help => IO.print usage
  | .misused _ => IO.eprint usage
  | .failed log message =>
    for record in log do
      IO.eprintln s!"[{record.severity.name}] {record.text}"
    IO.eprintln s!"Error: {message}"
  return launch.exitCode

end Chip8

open Chip8 in
/-- Launches with the words after the command's name. -/
def main (words : List String) : IO UInt32 := do
  let contents ← match CommandLine.parse words with
    | .ok options => readFile options.program
    | .error _ => pure (.ok [])
  let seed ← IO.rand 0 18446744073709551615
  conclude (Launch.start words (ChaCha.source (UInt64.ofNat seed)) fun _ => contents)
