import CardDuel.Proofs.Change

/-!
# Mana

What spending, gaining and renewing mana do to the counters of a player, and how they keep
them between none and the cap as long as every sum fits its word.
-/

namespace CardDuel

/-- The counters that make up the mana of a player. -/
def Tag.mana : List Tag :=
  [.crystals, .temporaryMana, .manaUsed, .overloadOwed, .overloadLocked]

theorem Entity.cost_nonneg (entity : Entity) : 0 ≤ entity.cost :=
  Int.le_max_right _ _

namespace PlayerState

variable {state : PlayerState} {cap amount : Int}

/-! ## Counting -/

theorem overflowed_watch {sum : Int} :
    (state.watch sum).overflowed = false ↔ state.overflowed = false ∧ Word.Fits sum := by
  simp [watch]

theorem get_addTag (state : PlayerState) (tag other : Tag) (amount : Int) :
    (state.addTag tag amount).tags.get other =
      if other = tag then Word.signed (state.tags.get tag + amount) else state.tags.get other :=
  Tags.get_set _ _ _ _

theorem overflowed_addTag {tag : Tag} :
    (state.addTag tag amount).overflowed = false ↔
      state.overflowed = false ∧ Word.Fits (state.tags.get tag + amount) :=
  overflowed_watch

/-- A sum that fits is written as it is. -/
theorem addTag_of_fits {tag : Tag} (fits : Word.Fits (state.tags.get tag + amount)) :
    state.addTag tag amount = state.setTag tag (state.tags.get tag + amount) := by
  have sound : state.watch (state.tags.get tag + amount) = state := by
    simp [watch, fits]
  rw [addTag, sound, Word.signed_of_fits fits]

theorem overflowed_spendMana : (state.spendMana amount).overflowed = false ↔
    (state.overflowed = false ∧
      Word.Fits (state.tags.get .temporaryMana - min (state.tags.get .temporaryMana) amount)) ∧
      Word.Fits (state.tags.get .manaUsed + (amount - min (state.tags.get .temporaryMana) amount)) := by
  unfold spendMana
  rw [overflowed_addTag, overflowed_addTag, get_addTag, if_neg (by decide), ← Int.sub_eq_add_neg]

theorem overflowed_payForCard {entity : Entity}
    (sound : (Play.payForCard entity state).overflowed = false) :
    (state.spendMana entity.cost).overflowed = false := by
  unfold Play.payForCard at sound
  dsimp only at sound
  replace sound := (overflowed_addTag.mp sound).1
  split at sound
  · exact (overflowed_addTag.mp sound).1
  · exact sound

/-! ## Payments -/

/-- The mana that is left falls by what is spent, even where a sum wraps round. -/
theorem remainingMana_spendMana (positive : 0 ≤ amount) (covered : amount ≤ state.remainingMana) :
    (state.spendMana amount).remainingMana = state.remainingMana - amount := by
  unfold remainingMana at *
  simp only [spendMana, get_addTag, reduceCtorEq, if_false, if_true, Word.signed] at *
  omega

/-- Spending moves temporary mana and what is used, and nothing else. -/
theorem get_spendMana {tag : Tag} (temporary : tag ≠ .temporaryMana) (used : tag ≠ .manaUsed) :
    (state.spendMana amount).tags.get tag = state.tags.get tag := by
  simp only [spendMana, get_addTag, if_neg temporary, if_neg used]

/-- Paying for a card spends its cost, owes its overload and counts it. -/
theorem get_payForCard {entity : Entity} {tag : Tag} (owed : tag ≠ .overloadOwed)
    (counted : tag ≠ .cardsPlayedThisTurn) :
    (Play.payForCard entity state).tags.get tag = (state.spendMana entity.cost).tags.get tag := by
  unfold Play.payForCard
  dsimp only
  split <;> simp only [get_addTag, if_neg owed, if_neg counted]

/-- What is left after a card that can be paid is its cost less. -/
theorem remainingMana_payForCard {entity : Entity} (covered : entity.cost ≤ state.remainingMana) :
    (Play.payForCard entity state).remainingMana = state.remainingMana - entity.cost := by
  rw [← remainingMana_spendMana entity.cost_nonneg covered]
  simp only [remainingMana, get_payForCard, ne_eq, reduceCtorEq, not_false_eq_true]

theorem remainingMana_addTag :
    (state.addTag .minionsPlayedThisTurn amount).remainingMana = state.remainingMana := by
  simp only [remainingMana, get_addTag, reduceCtorEq, if_false]

/-! ## Bounds -/

/-- Crystals and temporary mana lie between none and the cap, and nothing used, owed or locked is
negative. -/
structure Solvent (cap : Int) (state : PlayerState) : Prop where
  crystals : 0 ≤ state.tags.get .crystals ∧ state.tags.get .crystals ≤ cap
  temporary : 0 ≤ state.tags.get .temporaryMana ∧ state.tags.get .temporaryMana ≤ cap
  used : 0 ≤ state.tags.get .manaUsed
  owed : 0 ≤ state.tags.get .overloadOwed
  locked : 0 ≤ state.tags.get .overloadLocked

namespace Solvent

theorem initial (player : Player) (cardClass : CardClass) (room : 0 ≤ cap) :
    (PlayerState.initial player cardClass).Solvent cap :=
  ⟨⟨Int.le_refl 0, room⟩, ⟨Int.le_refl 0, room⟩, Int.le_refl 0, Int.le_refl 0, Int.le_refl 0⟩

theorem congr {other : PlayerState} (solvent : state.Solvent cap)
    (same : ∀ tag ∈ Tag.mana, other.tags.get tag = state.tags.get tag) : other.Solvent cap := by
  have crystals := same .crystals (by decide)
  have temporary := same .temporaryMana (by decide)
  have used := same .manaUsed (by decide)
  have owed := same .overloadOwed (by decide)
  have locked := same .overloadLocked (by decide)
  constructor
  · rw [crystals]
    exact solvent.crystals
  · rw [temporary]
    exact solvent.temporary
  · rw [used]
    exact solvent.used
  · rw [owed]
    exact solvent.owed
  · rw [locked]
    exact solvent.locked

theorem addTag {tag : Tag} (solvent : state.Solvent cap) (spared : tag ∉ Tag.mana) :
    (state.addTag tag amount).Solvent cap :=
  solvent.congr fun other mana => by
    have away : other ≠ tag := fun same => spared (same ▸ mana)
    rw [get_addTag, if_neg away]

theorem setTag {tag : Tag} {value : Int} (solvent : state.Solvent cap) (spared : tag ∉ Tag.mana) :
    (state.setTag tag value).Solvent cap :=
  solvent.congr fun other mana => by
    have away : other ≠ tag := fun same => spared (same ▸ mana)
    simp only [PlayerState.setTag, Tags.get_set, if_neg away]

theorem spendMana (solvent : state.Solvent cap) (positive : 0 ≤ amount)
    (sound : (state.spendMana amount).overflowed = false) :
    (state.spendMana amount).Solvent cap := by
  obtain ⟨crystals, temporary, used, owed, locked⟩ := solvent
  obtain ⟨⟨-, fromTemporary⟩, fromCrystals⟩ := overflowed_spendMana.mp sound
  have lent := Word.signed_of_fits fromTemporary
  have spent := Word.signed_of_fits fromCrystals
  constructor <;>
    simp only [PlayerState.spendMana, get_addTag, reduceCtorEq, if_false, if_true,
      ← Int.sub_eq_add_neg, lent, spent] <;>
    omega

/-- Owing more overload keeps a player within the cap. -/
theorem owe (solvent : state.Solvent cap) (positive : 0 ≤ amount)
    (sound : (state.addTag .overloadOwed amount).overflowed = false) :
    (state.addTag .overloadOwed amount).Solvent cap := by
  obtain ⟨crystals, temporary, used, owed, locked⟩ := solvent
  have sum := Word.signed_of_fits (overflowed_addTag.mp sound).2
  constructor <;> simp only [get_addTag, reduceCtorEq, if_false, if_true, sum] <;> omega

theorem payForCard (solvent : state.Solvent cap) (entity : Entity)
    (sound : (Play.payForCard entity state).overflowed = false) :
    (Play.payForCard entity state).Solvent cap := by
  have paid := solvent.spendMana entity.cost_nonneg (overflowed_payForCard sound)
  unfold Play.payForCard at sound ⊢
  dsimp only at sound ⊢
  replace sound := (overflowed_addTag.mp sound).1
  apply addTag _ (by decide)
  split
  next overloads =>
    rw [if_pos overloads] at sound
    exact paid.owe (Int.le_of_lt overloads) sound
  · exact paid

theorem gainCrystals (solvent : state.Solvent cap) (amount : Int) (filled : Bool)
    (sound : (state.gainCrystals cap amount filled).overflowed = false) :
    (state.gainCrystals cap amount filled).Solvent cap := by
  obtain ⟨crystals, temporary, used, owed, locked⟩ := solvent
  unfold PlayerState.gainCrystals totalMana at sound ⊢
  dsimp only at sound ⊢
  split at sound
  next grows =>
    rw [if_pos grows]
    have grows := of_decide_eq_true (Bool.and_eq_true _ _ ▸ grows).2
    have count := Word.signed_of_fits (overflowed_addTag.mp sound).2
    constructor <;>
      simp only [PlayerState.setTag, get_addTag, Tags.get_set, reduceCtorEq, if_false, if_true,
        watch] at count ⊢ <;>
      omega
  next grows =>
    rw [if_neg grows]
    constructor <;>
      simp only [PlayerState.setTag, Tags.get_set, reduceCtorEq, if_false, if_true, watch] <;>
      omega

theorem gainTemporaryMana (solvent : state.Solvent cap) (positive : 0 ≤ amount)
    (sound : (state.gainTemporaryMana cap amount).overflowed = false) :
    (state.gainTemporaryMana cap amount).Solvent cap := by
  obtain ⟨crystals, temporary, used, owed, locked⟩ := solvent
  have sum := Word.signed_of_fits (overflowed_watch.mp sound).2
  constructor <;>
    simp only [PlayerState.gainTemporaryMana, PlayerState.setTag, Tags.get_set, reduceCtorEq,
      if_false, if_true, watch, sum] <;>
    omega

theorem dropTemporaryMana (solvent : state.Solvent cap) :
    (state.setTag .temporaryMana 0).Solvent cap := by
  obtain ⟨crystals, temporary, used, owed, locked⟩ := solvent
  constructor <;>
    simp only [PlayerState.setTag, Tags.get_set, reduceCtorEq, if_false, if_true] <;>
    omega

theorem renewMana (solvent : state.Solvent cap) (sound : (state.renewMana cap).overflowed = false) :
    (state.renewMana cap).Solvent cap := by
  obtain ⟨crystals, temporary, used, owed, locked⟩ := solvent
  have sum := Word.signed_of_fits (overflowed_watch.mp sound).2
  unfold totalMana at sum
  constructor <;>
    simp only [PlayerState.renewMana, totalMana, PlayerState.setTag, Tags.get_set, reduceCtorEq,
      if_false, if_true, watch, sum] <;>
    omega

end Solvent

/-- As long as every sum of counters fits its word, a player is within the cap. -/
def Covered (cap : Int) (state : PlayerState) : Prop :=
  state.overflowed = false → state.Solvent cap

theorem Covered.congr {other : PlayerState} (covered : state.Covered cap)
    (same : other.overflowed = state.overflowed)
    (tags : ∀ tag ∈ Tag.mana, other.tags.get tag = state.tags.get tag) : other.Covered cap :=
  fun sound => (covered (same ▸ sound)).congr tags

/-- An adjustment that keeps a player within the cap. -/
def Routine (cap : Int) (change : PlayerState → PlayerState) : Prop :=
  Adjustment change ∧ ∀ state, state.Covered cap → (change state).Covered cap

namespace Routine

theorem add {tag : Tag} (amount : Int) (spared : tag ∉ Tag.mana) :
    Routine cap fun state => state.addTag tag amount :=
  ⟨.add tag amount, fun _ covered sound => (covered (overflowed_addTag.mp sound).1).addTag spared⟩

theorem spend (entity : Entity) : Routine cap fun state => state.spendMana entity.cost :=
  ⟨.spend entity.cost, fun _ covered sound =>
    (covered (overflowed_spendMana.mp sound).1.1).spendMana entity.cost_nonneg sound⟩

theorem pay (entity : Entity) : Routine cap (Play.payForCard entity) :=
  ⟨.pay entity, fun _ covered sound =>
    (covered (overflowed_spendMana.mp (overflowed_payForCard sound)).1.1).payForCard entity sound⟩

theorem crystals (amount : Int) (filled : Bool) :
    Routine cap fun state => state.gainCrystals cap amount filled := by
  refine ⟨.crystals cap amount filled, fun state covered sound => ?_⟩
  have before : state.overflowed = false := by
    have sound := sound
    unfold gainCrystals at sound
    dsimp only at sound
    split at sound
    · exact (overflowed_watch.mp (overflowed_addTag.mp sound).1).1
    · exact (overflowed_watch.mp sound).1
  exact (covered before).gainCrystals amount filled sound

theorem forfeit : Routine cap fun state => state.setTag .temporaryMana 0 :=
  ⟨.write .temporaryMana 0, fun _ covered sound => (covered sound).dropTemporaryMana⟩

theorem renew : Routine cap fun state => state.renewMana cap :=
  ⟨.renew cap, fun _ covered sound => (covered (overflowed_watch.mp sound).1).renewMana sound⟩

theorem restart : Routine cap fun state =>
    (state.setTag .cardsPlayedThisTurn 0).setTag .minionsPlayedThisTurn 0 :=
  ⟨.restart, fun _ covered sound => ((covered sound).setTag (by decide)).setTag (by decide)⟩

theorem enlist (cardClass : CardClass) :
    Routine cap fun state => { state with cardClass := cardClass } :=
  ⟨.enlist cardClass, fun _ covered => covered.congr rfl fun _ _ => rfl⟩

end Routine

end PlayerState

end CardDuel
