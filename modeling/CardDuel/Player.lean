import CardDuel.Enumerated

/-!
# The two players

A duel always has exactly two players.  `PerPlayer` holds one value for each of
them, so that looking a player's value up can never fail.
-/

namespace CardDuel

/-- The two players of a duel, numbered zero and one. -/
inductive Player
  | zero
  | one
deriving DecidableEq, Inhabited

namespace Player

def opponent : Player → Player
  | zero => one
  | one => zero

@[simp]
theorem opponent_opponent (player : Player) : player.opponent.opponent = player := by
  cases player <;> rfl

theorem opponent_ne (player : Player) : player.opponent ≠ player := by
  cases player <;> decide

theorem opponent_eq_iff (player other : Player) :
    player.opponent = other ↔ ¬ player = other := by
  cases player <;> cases other <;> decide

def number : Player → Nat
  | zero => 0
  | one => 1

/-- The player with a number, if that number is zero or one. -/
def ofNumber? : Nat → Option Player
  | 0 => some zero
  | 1 => some one
  | _ => none

@[simp]
theorem ofNumber?_number (player : Player) : ofNumber? player.number = some player := by
  cases player <;> rfl

def both : List Player := [zero, one]

theorem mem_both (player : Player) : player ∈ both := by
  cases player <;> decide

/-- How messages name the player with a given number. -/
def numberedLabel (number : Nat) : String :=
  s!"Player {number}"

def label (player : Player) : String :=
  numberedLabel player.number

end Player

/-- One value for each player. -/
structure PerPlayer (α : Type) where
  zero : α
  one : α
deriving DecidableEq, Inhabited

namespace PerPlayer

variable {α β : Type}

def get (pair : PerPlayer α) : Player → α
  | .zero => pair.zero
  | .one => pair.one

def set (pair : PerPlayer α) (player : Player) (value : α) : PerPlayer α :=
  match player with
  | .zero => { pair with zero := value }
  | .one => { pair with one := value }

def modify (pair : PerPlayer α) (player : Player) (change : α → α) : PerPlayer α :=
  pair.set player (change (pair.get player))

def const (value : α) : PerPlayer α :=
  ⟨value, value⟩

def map (change : α → β) (pair : PerPlayer α) : PerPlayer β :=
  ⟨change pair.zero, change pair.one⟩

@[simp]
theorem get_set_self (pair : PerPlayer α) (player : Player) (value : α) :
    (pair.set player value).get player = value := by
  cases player <;> rfl

theorem get_set (pair : PerPlayer α) (player other : Player) (value : α) :
    (pair.set player value).get other = if other = player then value else pair.get other := by
  cases player <;> cases other <;> rfl

theorem get_modify (pair : PerPlayer α) (player other : Player) (change : α → α) :
    (pair.modify player change).get other =
      if other = player then change (pair.get other) else pair.get other := by
  cases player <;> cases other <;> rfl

@[simp]
theorem get_const (value : α) (player : Player) : (const value).get player = value := by
  cases player <;> rfl

@[simp]
theorem get_map (change : α → β) (pair : PerPlayer α) (player : Player) :
    (pair.map change).get player = change (pair.get player) := by
  cases player <;> rfl

end PerPlayer

end CardDuel
