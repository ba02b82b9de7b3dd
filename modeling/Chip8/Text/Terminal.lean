/-!
# Text for a terminal

A terminal obeys some of the characters it is sent: single control characters, and control
sequences, which begin with an escape character. `Terminal.plain` leaves them out of a text, so
that a text of unknown origin can be shown without driving the terminal. The sequences are those
of video terminals: short escape sequences, control sequences after `ESC [`, commands to the
operating system after `ESC ]`, and strings for a device or for the terminal itself. A sequence
that the text does not finish takes the rest of it along.
-/

namespace Chip8

namespace Terminal

/-- The kind of sequence that a terminal has begun to read. -/
inductive Sequence
  /-- No sequence; what comes is shown. -/
  | none
  /-- A sequence of which only the escape character has come. -/
  | escape
  /-- An escape sequence with characters between its first and its last. -/
  | intermediate
  /-- A control sequence, which ends with a character from `@` to `~`. -/
  | control
  /-- A string for a device that may still begin with parameters. -/
  | device
  /-- The parameters of a string for a device. -/
  | deviceParameters
  /-- The characters between the parameters and the name of a string for a device. -/
  | deviceIntermediate
  /-- A string, which ends with the byte that terminates strings. -/
  | string
  /-- A command to the operating system, which ends with a bell. -/
  | command
  deriving DecidableEq

/-- Whether a character lies between two others. -/
def within (first last char : Char) : Bool := first ≤ char && char ≤ last

/-- Whether a character has a place in a text: it is a blank, a line break, or no control
character of the first 128. -/
def isText (char : Char) : Bool :=
  char ∈ ['\t', '\n', '\x0c', '\r'] || ' ' ≤ char && char ≠ '\x7f'

/-- Whether a character holds the byte that terminates strings. -/
def endsString (char : Char) : Bool :=
  (String.utf8EncodeChar char).contains 0x9C

namespace Sequence

/-- The sequence that a terminal reads after a character that it does not show. -/
def next (sequence : Sequence) (char : Char) : Sequence :=
  if char = '\x1b' then escape
  else if char = '\x18' ∨ char = '\x1a' then none
  else
    match sequence with
    | none => none
    | escape =>
      if within ' ' '/' char then intermediate
      else if char = '[' then control
      else if char = ']' then command
      else if char = 'P' then device
      else if char ∈ ['X', '^', '_'] then string
      else if within '0' '~' char then none
      else escape
    | intermediate => if within '0' '~' char then none else intermediate
    | control => if within '@' '~' char then none else control
    | device =>
      if within ' ' '/' char then deviceIntermediate
      else if within '0' '?' char then deviceParameters
      else if within '@' '~' char then string
      else device
    | deviceParameters =>
      if within ' ' '/' char then deviceIntermediate
      else if within '<' '~' char then string
      else deviceParameters
    | deviceIntermediate => if within '0' '~' char then string else deviceIntermediate
    | string => if endsString char then none else string
    | command => if char = '\x07' then none else command

/-- Whether a terminal shows a character of a text inside a sequence: line breaks and tabs take
effect at once in the sequences that are not strings. -/
def shows (sequence : Sequence) (char : Char) : Bool :=
  match sequence with
  | none => true
  | escape | intermediate | control => char < ' '
  | device | deviceParameters | deviceIntermediate | string | command => false

end Sequence

/-- Leaves out what a terminal obeys, for one that has begun to read a sequence. A line break
shown inside a sequence interrupts it: the text goes on until the next control character, where
the sequence is taken up again unless a character beyond the first 128 has ended it. -/
def strip (sequence : Sequence) (interrupted : Bool) : List Char → List Char
  | [] => []
  | char :: rest =>
    if isText char && (interrupted || sequence.shows char) then
      char :: strip (if char.toNat < 128 then sequence else .none) true rest
    else
      strip (sequence.next char) false rest

/-- A text without the characters and sequences that a terminal obeys. -/
def plain (text : String) : String :=
  String.ofList (strip .none false text.toList)

/-- Nothing is left that a terminal obeys. -/
theorem isText_of_mem_strip {sequence : Sequence} {interrupted : Bool} {chars : List Char}
    {char : Char} (kept : char ∈ strip sequence interrupted chars) : isText char := by
  induction chars generalizing sequence interrupted with
  | nil => simp [strip] at kept
  | cons first rest ih =>
      rw [strip] at kept
      split at kept
      · rename_i shown
        rcases List.mem_cons.mp kept with rfl | later
        · exact (Bool.and_eq_true_iff.mp shown).1
        · exact ih later
      · exact ih kept

/-- A text without control characters is shown as it is. -/
theorem strip_eq_self {chars : List Char} (text : ∀ char ∈ chars, isText char)
    (interrupted : Bool) : strip .none interrupted chars = chars := by
  induction chars generalizing interrupted with
  | nil => rfl
  | cons first rest ih =>
      have shown : isText first := text first List.mem_cons_self
      simp [strip, Sequence.shows, shown, ih fun char mem => text char (List.mem_cons_of_mem _ mem)]

end Terminal

end Chip8
