import CardDuel.Enumerated

/-!
# Play requirements

What has to hold before a card or hero power may be played.  Some requirements
say that a target is taken, some filter the characters that may be the target,
and the others gate the play itself.  Each carries a number, whose meaning
depends on the requirement.
-/

namespace CardDuel

inductive Requirement
  | targetToPlay
  | targetIfAvailable
  | minionTarget
  | heroTarget
  | friendlyTarget
  | enemyTarget
  | damagedTarget
  | undamagedTarget
  | frozenTarget
  | nonSelfTarget
  | targetMaxAttack
  | targetMinAttack
  | targetWithRace
  | minimumEnemyMinions
  | minimumTotalMinions
  | minionSlots
  | weaponEquipped
  | entourageNotComplete
deriving DecidableEq, Inhabited

namespace Requirement

def name : Requirement → String
  | targetToPlay => "TargetToPlay"
  | targetIfAvailable => "TargetIfAvailable"
  | minionTarget => "MinionTarget"
  | heroTarget => "HeroTarget"
  | friendlyTarget => "FriendlyTarget"
  | enemyTarget => "EnemyTarget"
  | damagedTarget => "DamagedTarget"
  | undamagedTarget => "UndamagedTarget"
  | frozenTarget => "FrozenTarget"
  | nonSelfTarget => "NonSelfTarget"
  | targetMaxAttack => "TargetMaxAttack"
  | targetMinAttack => "TargetMinAttack"
  | targetWithRace => "TargetWithRace"
  | minimumEnemyMinions => "MinimumEnemyMinions"
  | minimumTotalMinions => "MinimumTotalMinions"
  | minionSlots => "NumMinionSlots"
  | weaponEquipped => "WeaponEquipped"
  | entourageNotComplete => "EntireEntourageNotInPlay"

instance : Enumerated Requirement where
  values :=
    [targetToPlay, targetIfAvailable, minionTarget, heroTarget, friendlyTarget, enemyTarget,
      damagedTarget, undamagedTarget, frozenTarget, nonSelfTarget, targetMaxAttack,
      targetMinAttack, targetWithRace, minimumEnemyMinions, minimumTotalMinions, minionSlots,
      weaponEquipped, entourageNotComplete]
  name := name
  mem_values requirement := by cases requirement <;> decide

def count : Nat := 18

/-- The column of a requirement in a table. -/
def column (requirement : Requirement) : Fin count :=
  ⟨requirement.ctorIdx, by cases requirement <;> decide⟩

theorem column_injective {first second : Requirement} (same : first.column = second.column) :
    first = second := by
  have lists : ∀ requirement : Requirement,
      (Enumerated.values : List Requirement)[requirement.column.val]? = some requirement := by
    intro requirement
    cases requirement <;> rfl
  have := lists first
  rw [same, lists second] at this
  exact (Option.some.inj this).symm

/-- Whether the requirement narrows the characters that may be the target. -/
def isTargetFilter : Requirement → Bool
  | minionTarget | heroTarget | friendlyTarget | enemyTarget | damagedTarget | undamagedTarget
  | frozenTarget | nonSelfTarget | targetMaxAttack | targetMinAttack | targetWithRace => true
  | _ => false

end Requirement

structure Requirements where
  values : Vector (Option Int) Requirement.count
deriving DecidableEq

namespace Requirements

def empty : Requirements :=
  ⟨Vector.replicate Requirement.count none⟩

instance : Inhabited Requirements := ⟨empty⟩

/-- The number of a requirement, if it is asked for. -/
def get? (requirements : Requirements) (requirement : Requirement) : Option Int :=
  requirements.values[requirement.column]

def contains (requirements : Requirements) (requirement : Requirement) : Bool :=
  (requirements.get? requirement).isSome

/-- Ask for a requirement, replacing its number if it was asked for before. -/
def insert (requirements : Requirements) (requirement : Requirement) (value : Int) :
    Requirements :=
  ⟨requirements.values.set requirement.column (some value)⟩

def toList (requirements : Requirements) : List (Requirement × Int) :=
  (Enumerated.values : List Requirement).filterMap fun requirement =>
    (requirements.get? requirement).map fun value => (requirement, value)

def ofList (pairs : List (Requirement × Int)) : Requirements :=
  pairs.foldl (fun requirements pair => requirements.insert pair.1 pair.2) empty

/-- Ask for the requirements of both tables; the second decides a number that they disagree on. -/
def union (first second : Requirements) : Requirements :=
  second.toList.foldl (fun requirements pair => requirements.insert pair.1 pair.2) first

@[simp]
theorem get?_empty (requirement : Requirement) : empty.get? requirement = none := by
  simp [empty, get?]

theorem get?_insert (requirements : Requirements) (requirement other : Requirement) (value : Int) :
    (requirements.insert requirement value).get? other =
      if other = requirement then some value else requirements.get? other := by
  by_cases same : other = requirement
  · subst same
    simp [get?, insert]
  · have apart : requirement.column.val ≠ other.column.val := fun equal =>
      same (Requirement.column_injective (Fin.ext equal.symm))
    simp [get?, insert, same, Vector.getElem_set_ne _ _ apart]

end Requirements

end CardDuel
