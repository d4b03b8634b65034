import CardDuel.Card.Requirement
import CardDuel.Modifier
import CardDuel.Trigger

/-!
# Cards

A card record is the printed card: name, class, stats, mechanics and
requirements.  Its behaviour is what playing it does.  Both are templates that a
duel only reads; what changes during a duel lives on entities.
-/

namespace CardDuel

structure Card where
  id : CardId
  /-- The stable code that other cards and decks refer to. -/
  code : String
  name : String
  cardClass : CardClass
  cardType : CardType
  race : Race
  rarity : Rarity
  set : CardSet
  collectible : Bool
  cost : Int
  attack : Int
  health : Option Int
  durability : Option Int
  spellPower : Option Int
  /-- Mechanics, copied onto each instance. -/
  tags : Tags
  requirements : Requirements
  /-- Codes of the family of cards that this card can create. -/
  entourage : List String
  /-- The code of the hero power of a hero card. -/
  heroPower : Option String
deriving DecidableEq

namespace Card

/-- A card with nothing but an identity and a type. -/
def blank (id : CardId) (code name : String) (cardType : CardType) : Card where
  id := id
  code := code
  name := name
  cardClass := .neutral
  cardType := cardType
  race := .unset
  rarity := .free
  set := .test
  collectible := false
  cost := 0
  attack := 0
  health := none
  durability := none
  spellPower := none
  tags := Tags.empty
  requirements := Requirements.empty
  entourage := []
  heroPower := none

instance : Inhabited Card := ⟨blank default "" "" .unset⟩

def minion (id : CardId) (code name : String) (cost attack health : Int) : Card :=
  { blank id code name .minion with cost := cost, attack := attack, health := some health }

def weapon (id : CardId) (code name : String) (cost attack durability : Int) : Card :=
  { blank id code name .weapon with
    cost := cost, attack := attack, durability := some durability }

def spell (id : CardId) (code name : String) (cost : Int) : Card :=
  { blank id code name .spell with cost := cost }

def power (id : CardId) (code name : String) (cost : Int) : Card :=
  { blank id code name .heroPower with cost := cost }

def hero (id : CardId) (code name : String) (cardClass : CardClass) (health : Int)
    (heroPower : String) : Card :=
  { blank id code name .hero with
    cardClass := cardClass, health := some health, heroPower := some heroPower }

def enchantment (id : CardId) (code name : String) : Card :=
  blank id code name .enchantment

def hasTag (card : Card) (tag : Tag) : Bool :=
  card.tags.has tag

end Card

structure Behaviour where
  /-- Battlecry, spell effect or hero power effect. -/
  effects : List Effect
  /-- Replaces `effects` when another card was played earlier in the turn. -/
  combo : List Effect
  deathrattle : List Effect
  trigger : Option TriggerRule
  aura : Option Aura
  /-- What an enchantment card does to its bearer. -/
  enchant : Option Modifier
  /-- Play requirements on top of the printed ones. -/
  requirements : Requirements

namespace Behaviour

def none : Behaviour :=
  ⟨[], [], [], Option.none, Option.none, Option.none, Requirements.empty⟩

instance : Inhabited Behaviour := ⟨none⟩

/-- The effects of a play: the combo list, if there is one and a combo is on. -/
def effectsWhen (behaviour : Behaviour) (comboIsOn : Bool) : List Effect :=
  if comboIsOn && !behaviour.combo.isEmpty then behaviour.combo else behaviour.effects

end Behaviour

end CardDuel
