import CardDuel.Enumerated

/-!
# Tags

Every entity and every player carries a table of integer tags.  Stats, keywords,
turn counters and mana all live in it, so a card can touch any property with the
same few effects.  A tag that was never written reads as zero, and writing zero
is the same as never having written: two tables are equal exactly when every tag
reads the same in both.
-/

namespace CardDuel

inductive Tag
  | attack
  | health
  | cost
  | damage
  | durability
  | armor
  | spellPower
  | overload
  | taunt
  | charge
  | rush
  | windfury
  | divineShield
  | stealth
  | frozen
  | immune
  | poisonous
  | lifesteal
  | freeze
  | untargetable
  | battlecry
  | deathrattle
  | secret
  | combo
  | silenced
  | exhausted
  | attacksThisTurn
  | turnsInPlay
  | crystals
  | manaUsed
  | temporaryMana
  | overloadOwed
  | overloadLocked
  | fatigue
  | cardsPlayedThisTurn
  | minionsPlayedThisTurn
  | heroPowerDamage
  | counter
deriving DecidableEq, Inhabited

namespace Tag

def name : Tag → String
  | attack => "Atk"
  | health => "Health"
  | cost => "Cost"
  | damage => "Damage"
  | durability => "Durability"
  | armor => "Armor"
  | spellPower => "SpellPower"
  | overload => "Overload"
  | taunt => "Taunt"
  | charge => "Charge"
  | rush => "Rush"
  | windfury => "Windfury"
  | divineShield => "DivineShield"
  | stealth => "Stealth"
  | frozen => "Frozen"
  | immune => "Immune"
  | poisonous => "Poisonous"
  | lifesteal => "Lifesteal"
  | freeze => "Freeze"
  | untargetable => "CantBeTargetedBySpells"
  | battlecry => "Battlecry"
  | deathrattle => "Deathrattle"
  | secret => "Secret"
  | combo => "Combo"
  | silenced => "Silenced"
  | exhausted => "Exhausted"
  | attacksThisTurn => "NumAttacksThisTurn"
  | turnsInPlay => "NumTurnsInPlay"
  | crystals => "Resources"
  | manaUsed => "ResourcesUsed"
  | temporaryMana => "TempResources"
  | overloadOwed => "OverloadOwed"
  | overloadLocked => "OverloadLocked"
  | fatigue => "Fatigue"
  | cardsPlayedThisTurn => "NumCardsPlayedThisTurn"
  | minionsPlayedThisTurn => "NumMinionsPlayedThisTurn"
  | heroPowerDamage => "HeroPowerDamage"
  | counter => "TagScriptDataNum1"

instance : Enumerated Tag where
  values :=
    [attack, health, cost, damage, durability, armor, spellPower, overload, taunt, charge, rush,
      windfury, divineShield, stealth, frozen, immune, poisonous, lifesteal, freeze, untargetable,
      battlecry, deathrattle, secret, combo, silenced, exhausted, attacksThisTurn, turnsInPlay,
      crystals, manaUsed, temporaryMana, overloadOwed, overloadLocked, fatigue,
      cardsPlayedThisTurn, minionsPlayedThisTurn, heroPowerDamage, counter]
  name := name
  mem_values tag := by cases tag <;> decide

def count : Nat := 38

/-- The column of a tag in a table. -/
def column (tag : Tag) : Fin count :=
  ⟨tag.ctorIdx, by cases tag <;> decide⟩

theorem column_injective {first second : Tag} (same : first.column = second.column) :
    first = second := by
  have lists : ∀ tag : Tag,
      (Enumerated.values : List Tag)[tag.column.val]? = some tag := by
    intro tag
    cases tag <;> rfl
  have := lists first
  rw [same, lists second] at this
  exact (Option.some.inj this).symm

def silenceable : List Tag :=
  [taunt, charge, rush, windfury, divineShield, stealth, frozen, poisonous, lifesteal, freeze,
    untargetable, battlecry, deathrattle, spellPower, overload, combo]

end Tag

structure Tags where
  values : Vector Int Tag.count
deriving DecidableEq

namespace Tags

/-- The table in which every tag reads as zero. -/
def empty : Tags :=
  ⟨Vector.replicate Tag.count 0⟩

instance : Inhabited Tags := ⟨empty⟩

def get (tags : Tags) (tag : Tag) : Int :=
  tags.values[tag.column]

def set (tags : Tags) (tag : Tag) (value : Int) : Tags :=
  ⟨tags.values.set tag.column value⟩

def add (tags : Tags) (tag : Tag) (change : Int) : Tags :=
  tags.set tag (tags.get tag + change)

/-- A tag is on when it is positive. -/
def has (tags : Tags) (tag : Tag) : Bool :=
  0 < tags.get tag

/-- The tags that do not read as zero, with their values, in the order of tags. -/
def toList (tags : Tags) : List (Tag × Int) :=
  (Enumerated.values : List Tag).filterMap fun tag =>
    if tags.get tag = 0 then none else some (tag, tags.get tag)

def size (tags : Tags) : Nat :=
  tags.toList.length

def isEmpty (tags : Tags) : Bool :=
  tags.toList.isEmpty

/-- Write the pairs of a list one after the other; a later pair overrides an earlier one. -/
def ofList (pairs : List (Tag × Int)) : Tags :=
  pairs.foldl (fun tags pair => tags.set pair.1 pair.2) empty

def clear (tags : Tags) (which : List Tag) : Tags :=
  which.foldl (fun tags tag => tags.set tag 0) tags

@[simp]
theorem get_empty (tag : Tag) : empty.get tag = 0 := by
  simp [empty, get]

theorem get_set (tags : Tags) (tag other : Tag) (value : Int) :
    (tags.set tag value).get other = if other = tag then value else tags.get other := by
  by_cases same : other = tag
  · subst same
    simp [get, set]
  · have apart : tag.column.val ≠ other.column.val := fun equal =>
      same (Tag.column_injective (Fin.ext equal.symm))
    simp [get, set, same, Vector.getElem_set_ne _ _ apart]

@[simp]
theorem get_set_self (tags : Tags) (tag : Tag) (value : Int) :
    (tags.set tag value).get tag = value := by
  simp [get_set]

theorem get_add (tags : Tags) (tag other : Tag) (change : Int) :
    (tags.add tag change).get other =
      if other = tag then tags.get tag + change else tags.get other := by
  simp [add, get_set]

theorem get_clear (tags : Tags) {which : List Tag} {tag : Tag} (away : tag ∉ which) :
    (tags.clear which).get tag = tags.get tag := by
  induction which generalizing tags with
  | nil => rfl
  | cons first others ih =>
      have apart := List.ne_of_not_mem_cons away
      exact (ih (tags.set first 0) (List.not_mem_of_not_mem_cons away)).trans
        ((tags.get_set first tag 0).trans (if_neg apart))

end Tags

end CardDuel
