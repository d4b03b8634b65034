import CardDuel.Enumerated

/-!
# Printed attributes of cards

Class, type, race, rarity and set of a card, and the formats that decide which
sets random generation may draw from.
-/

namespace CardDuel

inductive CardClass
  | unset
  | neutral
  | druid
  | hunter
  | mage
  | paladin
  | priest
  | rogue
  | shaman
  | warlock
  | warrior
deriving DecidableEq, Inhabited

namespace CardClass

def name : CardClass → String
  | unset => "Invalid"
  | neutral => "Neutral"
  | druid => "Druid"
  | hunter => "Hunter"
  | mage => "Mage"
  | paladin => "Paladin"
  | priest => "Priest"
  | rogue => "Rogue"
  | shaman => "Shaman"
  | warlock => "Warlock"
  | warrior => "Warrior"

instance : Enumerated CardClass where
  values := [unset, neutral, druid, hunter, mage, paladin, priest, rogue, shaman, warlock, warrior]
  name := name
  mem_values cardClass := by cases cardClass <;> decide

def isPlayable : CardClass → Bool
  | unset | neutral => false
  | _ => true

end CardClass

inductive CardType
  | unset
  | hero
  | heroPower
  | minion
  | spell
  | weapon
  | enchantment
deriving DecidableEq, Inhabited

namespace CardType

def name : CardType → String
  | unset => "Invalid"
  | hero => "Hero"
  | heroPower => "HeroPower"
  | minion => "Minion"
  | spell => "Spell"
  | weapon => "Weapon"
  | enchantment => "Enchantment"

instance : Enumerated CardType where
  values := [unset, hero, heroPower, minion, spell, weapon, enchantment]
  name := name
  mem_values cardType := by cases cardType <;> decide

/-- The types that a deck is made of. -/
def isDeckable : CardType → Bool
  | minion | spell | weapon => true
  | _ => false

/-- Whether a card of this type passes a wanted type; an unset wish means any deckable type. -/
def meets (cardType wanted : CardType) : Bool :=
  if wanted = unset then cardType.isDeckable else cardType = wanted

end CardType

inductive Race
  | unset
  | beast
  | demon
  | dragon
  | elemental
  | mech
  | murloc
  | pirate
  | totem
  | all
deriving DecidableEq, Inhabited

namespace Race

def name : Race → String
  | unset => "Invalid"
  | beast => "Beast"
  | demon => "Demon"
  | dragon => "Dragon"
  | elemental => "Elemental"
  | mech => "Mech"
  | murloc => "Murloc"
  | pirate => "Pirate"
  | totem => "Totem"
  | all => "All"

instance : Enumerated Race where
  values := [unset, beast, demon, dragon, elemental, mech, murloc, pirate, totem, all]
  name := name
  mem_values race := by cases race <;> decide

/-- Whether a race passes a filter; an unset filter lets every race pass, and the race of all
races passes every filter. -/
def meets (race filter : Race) : Bool :=
  filter = unset || race = filter || race = all

/-- Whether a card of this race counts as a member of the filter's race: as `meets`, but a card
without a race never does. -/
def belongsTo (race filter : Race) : Bool :=
  race ≠ unset && race.meets filter

/-- The race that a requirement's value stands for: its place in the order, and no race for any
other number. -/
def ofValue (value : Int) : Race :=
  if value < 0 then unset else (Enumerated.ofIndex? value.toNat).getD unset

end Race

inductive Rarity
  | free
  | common
  | rare
  | epic
  | legendary
deriving DecidableEq, Inhabited

namespace Rarity

def name : Rarity → String
  | free => "Free"
  | common => "Common"
  | rare => "Rare"
  | epic => "Epic"
  | legendary => "Legendary"

instance : Enumerated Rarity where
  values := [free, common, rare, epic, legendary]
  name := name
  mem_values rarity := by cases rarity <;> decide

end Rarity

inductive CardSet
  | core
  | expert
  | naxx
  | gvg
  | brm
  | tgt
  | loe
  | og
  | kara
  | gangs
  | ungoro
  | hallOfFame
  | test
deriving DecidableEq, Inhabited

namespace CardSet

def name : CardSet → String
  | core => "Core"
  | expert => "Expert1"
  | naxx => "Naxx"
  | gvg => "Gvg"
  | brm => "Brm"
  | tgt => "Tgt"
  | loe => "Loe"
  | og => "Og"
  | kara => "Kara"
  | gangs => "Gangs"
  | ungoro => "Ungoro"
  | hallOfFame => "HallOfFame"
  | test => "Test"

instance : Enumerated CardSet where
  values := [core, expert, naxx, gvg, brm, tgt, loe, og, kara, gangs, ungoro, hallOfFame, test]
  name := name
  mem_values set := by cases set <;> decide

end CardSet

/-- Which sets random generation may draw from. -/
inductive Format
  | standard
  | wild
deriving DecidableEq, Inhabited

namespace Format

def name : Format → String
  | standard => "Standard"
  | wild => "Wild"

instance : Enumerated Format where
  values := [standard, wild]
  name := name
  mem_values format := by cases format <;> decide

def includes : Format → CardSet → Bool
  | wild, _ => true
  | standard, set =>
    match set with
    | .core | .expert | .og | .kara | .gangs | .ungoro | .test => true
    | _ => false

end Format

end CardDuel
