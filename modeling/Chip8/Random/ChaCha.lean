import Chip8.Source

/-!
# Random numbers from a seed

The numbers of a seed are the words of the ChaCha stream cipher with twelve rounds. The key
is drawn from the seed by a linear congruential generator whose output is permuted, one word
at a time; the block counter has sixty-four bits and the nonce is zero.
-/

namespace Chip8

/-- The state of the cipher: four rows of four words. -/
structure ChaCha where
  a : Vector UInt32 4
  b : Vector UInt32 4
  c : Vector UInt32 4
  d : Vector UInt32 4

namespace ChaCha

/-! ## Rows -/

/-- A word turned left by `places` bits. -/
def rotateLeft (places word : UInt32) : UInt32 :=
  word <<< places ||| word >>> (32 - places)

/-- A word turned right by `places` bits. -/
def rotateRight (places word : UInt32) : UInt32 :=
  word >>> places ||| word <<< (32 - places)

/-- The sum of two rows, word by word. -/
def sum (row other : Vector UInt32 4) : Vector UInt32 4 :=
  row.zipWith (fun word other => word + other) other

/-- The exclusive or of two rows, each word then turned left by `places` bits. -/
def blend (places : UInt32) (row other : Vector UInt32 4) : Vector UInt32 4 :=
  row.zipWith (fun word other => rotateLeft places (word ^^^ other)) other

/-- A row whose first word has moved to its end. -/
def shift (row : Vector UInt32 4) : Vector UInt32 4 :=
  #v[row[1], row[2], row[3], row[0]]

/-! ## The block function -/

/-- Half of a round on the four columns, with the two distances that words are turned by. -/
def halfRound (first second : UInt32) (state : ChaCha) : ChaCha :=
  let a := sum state.a state.b
  let d := blend first state.d a
  let c := sum state.c d
  let b := blend second state.b c
  ⟨a, b, c, d⟩

/-- A round on the four columns. -/
def columnRound (state : ChaCha) : ChaCha :=
  halfRound 8 7 (halfRound 16 12 state)

/-- The state with its diagonals moved into columns. -/
def skew (state : ChaCha) : ChaCha :=
  ⟨state.a, shift state.b, shift (shift state.c), shift (shift (shift state.d))⟩

/-- The state with its columns moved back into diagonals. -/
def unskew (state : ChaCha) : ChaCha :=
  ⟨state.a, shift (shift (shift state.b)), shift (shift state.c), shift state.d⟩

/-- A round on the columns and a round on the diagonals. -/
def doubleRound (state : ChaCha) : ChaCha :=
  unskew (columnRound (skew (columnRound state)))

/-- The words of the block that a state stands for. -/
def block (state : ChaCha) : List UInt32 :=
  let mixed := Nat.repeat doubleRound 6 state
  (sum mixed.a state.a).toList ++ (sum mixed.b state.b).toList ++
    (sum mixed.c state.c).toList ++ (sum mixed.d state.d).toList

/-! ## Seeds -/

/-- One step of the generator that expands seeds. -/
def advance (state : UInt64) : UInt64 :=
  state * 6364136223846793005 + 11634580027462260723

/-- The word that a state of that generator puts out. -/
def output (state : UInt64) : UInt32 :=
  rotateRight (state >>> 59).toUInt32 ((state >>> 18 ^^^ state) >>> 27).toUInt32

/-- Word `number` of the key of a seed. -/
def keyWord (seed : UInt64) (number : Nat) : UInt32 :=
  output (Nat.repeat advance (number + 1) seed)

/-- The state that the first block of a seed starts from. -/
def ofSeed (seed : UInt64) : ChaCha where
  a := #v[0x61707865, 0x3320646e, 0x79622d32, 0x6b206574]
  b := Vector.ofFn fun number => keyWord seed number.val
  c := Vector.ofFn fun number => keyWord seed (number.val + 4)
  d := #v[0, 0, 0, 0]

/-- The state that block `counter` starts from. -/
def withCounter (state : ChaCha) (counter : UInt64) : ChaCha :=
  { state with d := #v[counter.toUInt32, (counter >>> 32).toUInt32, 0, 0] }

/-- The random numbers of a seed. -/
def source (seed : UInt64) : Source UInt32 :=
  let start := ofSeed seed
  .ofStream fun number =>
    (block (start.withCounter (UInt64.ofNat (number / 16)))).getD (number % 16) 0

end ChaCha

/-- A source whose values grow by a fixed amount modulo 2 ^ 64, cut to 32 bits. -/
def Source.stepping (start increment : UInt64) : Source UInt32 :=
  .ofStream fun number => (start + increment * UInt64.ofNat number).toUInt32

end Chip8
