import CardDuel.Dice

/-!
# Samples without repetition

`Dice.sample` draws distinct places below a length.  A small sample of a long
range is built up place by place; a sample that makes up much of its range is
the beginning of a shuffled range.
-/

namespace CardDuel

namespace Dice

/-- Whether a sample of `amount` places below `length` shuffles the whole range: when `amount` is
large enough, in single precision, for that to take fewer draws than avoiding repetitions. -/
def samplesInPlace (length amount : Nat) : Bool :=
  if amount < 163 then
    if amount < 12 then false
    else
      let size := Float32.ofNat amount
      let slope : Float32 := if length < 500000 then 1.6 else 8.0 / 45.0
      let offset : Float32 := if length < 500000 then 10.0 else 70.0 / 9.0
      Float32.ofNat length < (offset + slope * size) * size
  else
    let slope : Float32 := if length < 500000 then 270.0 else 330.0 / 9.0
    Float32.ofNat length < slope * Float32.ofNat amount

/-- Shuffle the places from `place` on, `count` of them. -/
def shuffleHead (length : Nat) : Nat → Nat → Array Nat → Dice → Array Nat × Dice
  | 0, _, places, dice => (places, dice)
  | count + 1, place, places, dice =>
    let (offset, dice) := dice.below (length - place)
    shuffleHead length count (place + 1) (places.swapIfInBounds place (place + offset)) dice

def sampleInPlace (dice : Dice) (length amount : Nat) : List Nat × Dice :=
  let (places, dice) := shuffleHead length amount 0 (Array.range length) dice
  (places.toList.take amount, dice)

/-- Add the place `limit`, or a random one up to it, to the places picked so far.  When the random
place was picked before, `limit` takes its turn: just before it if `ordered`, else at the end. -/
def pickUpTo (ordered : Bool) (limit : Nat) (picked : List Nat) (dice : Dice) :
    List Nat × Dice :=
  let (place, dice) := dice.below (limit + 1)
  match picked.findIdx? fun other => other == place with
  | none => (picked ++ [place], dice)
  | some turn => (if ordered then picked.insertIdx turn limit else picked ++ [limit], dice)

/-- Pick one place for each limit from `limit` on, `count` of them. -/
def pickEach (ordered : Bool) : Nat → Nat → List Nat → Dice → List Nat × Dice
  | 0, _, picked, dice => (picked, dice)
  | count + 1, limit, picked, dice =>
    let (picked, dice) := pickUpTo ordered limit picked dice
    pickEach ordered count (limit + 1) picked dice

/-- Build a sample place by place.  Below fifty places the order of the picks is random by
construction; from fifty on the sample is shuffled at the end. -/
def samplePlaceByPlace (dice : Dice) (length amount : Nat) : List Nat × Dice :=
  let ordered : Bool := amount < 50
  let (picked, dice) := pickEach ordered amount (length - amount) [] dice
  if ordered then (picked, dice) else dice.shuffle picked

/-- Up to `amount` distinct places below `length`, in the order of drawing. -/
def sample (dice : Dice) (length amount : Nat) : List Nat × Dice :=
  let amount := min amount length
  if samplesInPlace length amount then dice.sampleInPlace length amount
  else dice.samplePlaceByPlace length amount

/-- Up to `amount` elements of a list at distinct places, in the order of drawing. -/
def sampleOf {α : Type} (dice : Dice) (elements : List α) (amount : Nat) : List α × Dice :=
  let (places, dice) := dice.sample elements.length amount
  (places.filterMap fun place => elements[place]?, dice)

end Dice

end CardDuel
