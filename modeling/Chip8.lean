import Chip8.Address
import Chip8.CallStack
import Chip8.Clock
import Chip8.CommandLine
import Chip8.Config
import Chip8.Dump
import Chip8.Fault
import Chip8.Host.Directory
import Chip8.Host.Launch
import Chip8.Instruction.Basic
import Chip8.Instruction.Decode
import Chip8.Instruction.Encode
import Chip8.Instruction.Mnemonic
import Chip8.Instruction.Nibbles
import Chip8.Keyboard
import Chip8.Keypad
import Chip8.Log
import Chip8.Machine.Action
import Chip8.Machine.Basic
import Chip8.Machine.Execute
import Chip8.Machine.Step
import Chip8.Main
import Chip8.Memory
import Chip8.Nibble
import Chip8.Proofs.Coding
import Chip8.Proofs.Execution
import Chip8.Proofs.Faults
import Chip8.Proofs.Fetching
import Chip8.Proofs.Script
import Chip8.Proofs.Timing
import Chip8.Proofs.WellFormed
import Chip8.Random.ChaCha
import Chip8.Registers
import Chip8.Registers.Combine
import Chip8.Screen
import Chip8.Sound.Frames
import Chip8.Sound.Sample
import Chip8.Source
import Chip8.Text.Decimal
import Chip8.Text.Hexadecimal
import Chip8.Text.Terminal
import Chip8.Time
import Chip8.Timers
import Chip8.Proofs.KeyWait
import Chip8.Proofs.TimerPace
import Chip8.Proofs.Calls
import Chip8.Proofs.ExecutionState
import Chip8.Proofs.Likeness
import Chip8.Proofs.Settings
import Chip8.Proofs.TimerModes
import Chip8.Proofs.Reset
import Chip8.Proofs.Forms
import Chip8.Proofs.ControlFlow
import Chip8.Proofs.Transfers
import Chip8.Proofs.Footprint
import Chip8.Proofs.Veils
import Chip8.Proofs.IndexRange
import Chip8.Proofs.Drawing
import Chip8.Proofs.Executing
import Chip8.Proofs.Dialects
import Chip8.Proofs.Randomness
import Chip8.Proofs.Sprites
import Chip8.Proofs.Painting
import Chip8.Proofs.Plotting
import Chip8.Proofs.Arithmetic
import Chip8.Proofs.Blocks
import Chip8.Proofs.Periods
import Chip8.Proofs.Settling
import Chip8.Proofs.BoundedList
import Chip8.Proofs.Loading
import Chip8.Proofs.Meanings
import Chip8.Proofs.Numerals
import Chip8.Proofs.Words
import Chip8.Proofs.Assembler
import Chip8.Proofs.Tracing
import Chip8.Proofs.MemoryDump
import Chip8.Proofs.RegisterDump
import Chip8.Proofs.Holding
import Chip8.Proofs.Filling
