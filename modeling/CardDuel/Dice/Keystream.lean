/-!
# The keystream

Random draws read an endless stream of 32-bit words that a seed fixes.  The
stream is the ChaCha keystream with eight rounds: word number `16 k + i` is the
`i`-th word of the block with counter `k`.  Reading it needs no state besides the
key and a position.
-/

namespace CardDuel

/-- The eight key words of a stream. -/
abbrev StreamKey := Vector UInt32 8

namespace StreamKey

def rotateLeft (word : UInt32) (places : UInt32) : UInt32 :=
  (word <<< places) ||| (word >>> (32 - places))

/-- One step of the generator that turns a seed into key words. -/
def advanceSeed (seed : UInt64) : UInt64 :=
  seed * 6364136223846793005 + 11634580027462260723

/-- The key word that a state of that generator gives. -/
def seedWord (state : UInt64) : UInt32 :=
  let mixed := (((state >>> 18) ^^^ state) >>> 27).toUInt32
  let turn := (state >>> 59).toUInt32
  (mixed >>> turn) ||| (mixed <<< ((32 - turn) % 32))

def seedWords : Nat → UInt64 → List UInt32
  | 0, _ => []
  | count + 1, seed =>
    let state := advanceSeed seed
    seedWord state :: seedWords count state

theorem length_seedWords (count : Nat) (seed : UInt64) :
    (seedWords count seed).length = count := by
  induction count generalizing seed with
  | zero => rfl
  | succ count ih => simp [seedWords, ih]

def ofSeed (seed : UInt64) : StreamKey :=
  ⟨(seedWords 8 seed).toArray, by simp [length_seedWords]⟩

/-- The sixteen words of a block. -/
abbrev Block := Vector UInt32 16

def quarterRound (block : Block) (a b c d : Fin 16) : Block :=
  let block := block.set a (block[a] + block[b])
  let block := block.set d (rotateLeft (block[d] ^^^ block[a]) 16)
  let block := block.set c (block[c] + block[d])
  let block := block.set b (rotateLeft (block[b] ^^^ block[c]) 12)
  let block := block.set a (block[a] + block[b])
  let block := block.set d (rotateLeft (block[d] ^^^ block[a]) 8)
  let block := block.set c (block[c] + block[d])
  block.set b (rotateLeft (block[b] ^^^ block[c]) 7)

def doubleRound (block : Block) : Block :=
  let block := quarterRound block 0 4 8 12
  let block := quarterRound block 1 5 9 13
  let block := quarterRound block 2 6 10 14
  let block := quarterRound block 3 7 11 15
  let block := quarterRound block 0 5 10 15
  let block := quarterRound block 1 6 11 12
  let block := quarterRound block 2 7 8 13
  quarterRound block 3 4 9 14

/-- What a block is before it is mixed: constants, key, counter and stream number zero. -/
def start (key : StreamKey) (counter : UInt64) : Block :=
  #v[0x61707865, 0x3320646e, 0x79622d32, 0x6b206574,
    key[0], key[1], key[2], key[3], key[4], key[5], key[6], key[7],
    counter.toUInt32, (counter >>> 32).toUInt32, 0, 0]

/-- What a block is after its eight rounds. -/
def mix (block : Block) : Block :=
  doubleRound (doubleRound (doubleRound (doubleRound block)))

/-- One word of the finished block of a counter: the mixed word plus the unmixed one. -/
def blockWord (key : StreamKey) (counter : UInt64) (place : Fin 16) : UInt32 :=
  let unmixed := start key counter
  (mix unmixed)[place] + unmixed[place]

def word (key : StreamKey) (position : Nat) : UInt32 :=
  blockWord key (UInt64.ofNat (position / 16)) ⟨position % 16, Nat.mod_lt _ (by decide)⟩

end StreamKey

end CardDuel
