import CardDuel.Dice.Keystream

/-!
# Dice

All chance in a duel comes from one pair of a seed and a position in the word
stream of that seed, so equal seeds and equal requests give equal duels.  Draws
below a bound are uniform: a word that would favour some answers is thrown away
and the next one is tried.
-/

namespace CardDuel

structure Dice where
  seed : UInt64
  /-- How many words of the stream have been read. -/
  position : Nat
deriving DecidableEq, Inhabited

namespace Dice

/-- The number of words after which a stream starts over. -/
def period : Nat := Nat.pow 2 68

def ofSeed (seed : UInt64) : Dice := ⟨seed, 0⟩

def resume (seed : UInt64) (position : Nat) : Dice :=
  ⟨seed, position % period⟩

def nextWord (dice : Dice) : Nat × Dice :=
  ((StreamKey.word (StreamKey.ofSeed dice.seed) dice.position).toNat,
    { dice with position := (dice.position + 1) % period })

/-- Read the next two words as one number, the low one first. -/
def nextLong (dice : Dice) : Nat × Dice :=
  let (low, dice) := dice.nextWord
  let (high, dice) := dice.nextWord
  (low + high * Nat.pow 2 32, dice)

/-- The greatest low part of a product with the bound that is kept when draws have the given
width: the bound is shifted as far up as the width allows. -/
def acceptance (width bound : Nat) : Nat :=
  bound * Nat.pow 2 (width - 1 - Nat.log2 bound) - 1

/-- Multiply draws by the bound until the low part of a product is accepted, and answer the high
part.  The stream has a period, so a search as long as the period misses nothing. -/
def search (width bound : Nat) (draw : Dice → Nat × Dice) : Nat → Dice → Nat × Dice
  | 0, dice => (0, dice)
  | tries + 1, dice =>
    let (value, dice) := draw dice
    let product := value * bound
    if product % Nat.pow 2 width ≤ acceptance width bound then (product / Nat.pow 2 width, dice)
    else search width bound draw tries dice

def below (dice : Dice) (bound : Nat) : Nat × Dice :=
  search 32 bound nextWord period dice

def belowLong (dice : Dice) (bound : Nat) : Nat × Dice :=
  search 64 bound nextLong period dice

/-- An integer from `low` up to but without `high`. -/
def between (dice : Dice) (low high : Int) : Int × Dice :=
  let (offset, dice) := dice.below (high - low).toNat
  (low + offset, dice)

/-- One element of a list; nothing is drawn for the empty list. -/
def choose? {α : Type} (dice : Dice) (choices : List α) : Option α × Dice :=
  match choices with
  | [] => (none, dice)
  | _ =>
    let (place, dice) := dice.below choices.length
    (choices[place]?, dice)

/-- From the place `count` down to the place one, swap each element with one at or before it. -/
def shuffleFrom {α : Type} : Nat → Array α → Dice → Array α × Dice
  | 0, elements, dice => (elements, dice)
  | count + 1, elements, dice =>
    let (other, dice) := dice.below (count + 2)
    shuffleFrom count (elements.swapIfInBounds (count + 1) other) dice

def shuffle {α : Type} (dice : Dice) (elements : List α) : List α × Dice :=
  let (shuffled, dice) := shuffleFrom (elements.length - 1) elements.toArray dice
  (shuffled.toList, dice)

end Dice

end CardDuel
