import CardDuel.Proofs.Arrivals

/-!
# Blows

A blow touches the one whom it meets and, by lifesteal, the hero of the one who deals it.  Apart
from these two entities it changes nobody, and what it takes from the one who deals it no other
blow takes away.  So two blows come to the same in both orders, except to a hero that one of them
heals and the other wounds.
-/

namespace CardDuel

theorem Tag.exists_column : ∀ place : Fin Tag.count, ∃ tag ∈ (Enumerated.values : List Tag),
    tag.column = place := by
  decide

/-- Two tables are the same if all tags read the same. -/
theorem Tags.ext_get {first second : Tags} (same : ∀ tag, first.get tag = second.get tag) :
    first = second := by
  obtain ⟨first⟩ := first
  obtain ⟨second⟩ := second
  refine congrArg Tags.mk (Vector.ext fun place small => ?_)
  obtain ⟨tag, -, column⟩ := Tag.exists_column ⟨place, small⟩
  obtain rfl : place = tag.column.val := (congrArg Fin.val column).symm
  exact same tag

/-! ## Blows -/

/-- What a blow takes from the one who deals it. -/
structure Edge where
  owner : Player
  poisonous : Bool
  freezing : Bool
  stealing : Bool

/-- A blow that meets somebody. -/
structure Blow where
  target : EntityId
  amount : Int
  edge : Edge
  /-- The hero of the one who deals it. -/
  hero : EntityId
  /-- Whether it heals the hero. -/
  heals : Bool

namespace Entity

def edge (entity : Entity) : Edge where
  owner := entity.owner
  poisonous := entity.has .poisonous
  freezing := entity.has .freeze
  stealing := entity.has .lifesteal

/-- Whether neither immunity nor a divine shield stops a blow. -/
def isOpen (entity : Entity) : Bool :=
  !entity.has .immune && !entity.has .divineShield

/-- What a hit makes of an entity. -/
def struck (entity : Entity) (blow : Blow) : Entity :=
  if blow.amount ≤ 0 ∨ entity.has .immune = true then entity
  else if entity.has .divineShield = true then entity.loseShield
  else entity.takeHit blow.amount blow.edge.poisonous blow.edge.freezing

/-- What healing makes of an entity. -/
def mended (entity : Entity) (amount : Int) : Entity :=
  entity.addTag .damage (-entity.healable amount)

end Entity

/-- What a blow makes of an entity: the target is hit, then the hero is healed. -/
def Blow.on (blow : Blow) (id : EntityId) (entity : Entity) : Entity :=
  let entity := if id = blow.target then entity.struck blow else entity
  if blow.heals = true ∧ id = blow.hero then entity.mended blow.amount else entity

namespace Entity

variable {entity later : Entity} {tag other : Tag} {amount : Int}

/-- An entity without its tags. -/
def untagged (entity : Entity) : Entity :=
  { entity with tags := Tags.empty }

theorem ext_tags {first second : Entity} (rest : first.untagged = second.untagged)
    (same : ∀ tag, first.tags.get tag = second.tags.get tag) : first = second := by
  obtain ⟨owner, card, kind, tags, zone, position, last, destroyed, enchantments, aura⟩ := first
  obtain ⟨owner', card', kind', tags', zone', position', last', destroyed', enchantments', aura'⟩ :=
    second
  obtain rfl : tags = tags' := Tags.ext_get same
  simp only [untagged, mk.injEq] at rest ⊢
  tauto

theorem has_setTag (value : Int) (away : other ≠ tag) :
    (entity.setTag tag value).has other = entity.has other := by
  unfold has Tags.has
  rw [get_setTag entity value away]
  rfl

theorem has_addTag (amount : Int) (away : other ≠ tag) :
    (entity.addTag tag amount).has other = entity.has other :=
  has_setTag _ away

theorem addTag_addTag (entity : Entity) (tag : Tag) (first second : Int) :
    (entity.addTag tag first).addTag tag second = entity.addTag tag (first + second) := by
  refine ext_tags rfl fun other => ?_
  simp only [addTag, Tags.get_add, if_true]
  split <;> omega

theorem addTag_zero (entity : Entity) (tag : Tag) : entity.addTag tag 0 = entity := by
  refine ext_tags rfl fun other => ?_
  rw [addTag, Tags.get_add]
  split
  next same => rw [same, Int.add_zero]
  next => rfl

theorem damage_addTag (entity : Entity) (amount : Int) :
    (entity.addTag .damage amount).damage = entity.damage + amount :=
  (Tags.get_add ..).trans (if_pos rfl)

theorem addTag_damage_inj {first second : Int} :
    entity.addTag .damage first = entity.addTag .damage second ↔ first = second := by
  refine ⟨fun same => ?_, congrArg _⟩
  have damages := congrArg Entity.damage same
  rw [damage_addTag, damage_addTag] at damages
  omega

/-- The tags of an entity that has taken a hit. -/
theorem get_takeHit (entity : Entity) (amount : Int) (poisonous freezing : Bool) (tag : Tag) :
    (entity.takeHit amount poisonous freezing).tags.get tag =
      if tag = .frozen ∧ freezing = true then 1
      else if tag = .damage then entity.damage + max (entity.unabsorbed amount) 0
      else if tag = .armor ∧ entity.kind = .hero then entity.armor - min entity.armor amount
      else entity.tags.get tag := by
  unfold takeHit
  extract_lets remaining armored wounded poisoned
  have atArmor : armored.tags.get tag =
      if tag = .armor ∧ entity.kind = .hero then entity.armor - min entity.armor amount
      else entity.tags.get tag := by
    unfold armored
    split
    next hero => simp only [setTag, Tags.get_set, hero, and_true]
    next other => rw [if_neg fun both => other both.2]
  have atDamage : wounded.tags.get tag =
      if tag = .damage then entity.damage + max remaining 0 else armored.tags.get tag := by
    have untouched : armored.tags.get .damage = entity.damage := by
      unfold armored
      split
      · exact get_setTag entity _ (by decide)
      · rfl
    unfold wounded
    split
    · rw [addTag, Tags.get_add, untouched]
      refine if_congr Iff.rfl ?_ rfl
      omega
    · split
      next same =>
        rw [same, untouched]
        omega
      · rfl
  have atPoison : poisoned.tags = wounded.tags := by
    unfold poisoned
    split <;> rfl
  split
  next freezes => simp only [setTag, Tags.get_set, freezes, and_true, atPoison, atDamage, atArmor,
    remaining]
  next spares =>
    rw [if_neg fun both => spares both.2, atPoison, atDamage, atArmor]

/-- Apart from its tags a hit can only mark an entity for death. -/
theorem untagged_takeHit (entity : Entity) (amount : Int) (poisonous freezing : Bool) :
    (entity.takeHit amount poisonous freezing).untagged =
      { entity.untagged with
        destroyed := entity.destroyed ||
          (poisonous && entity.kind = .minion && 0 < entity.unabsorbed amount) } := by
  unfold takeHit
  extract_lets remaining armored wounded poisoned
  have atArmor : armored.untagged = entity.untagged := by
    unfold armored
    split <;> rfl
  have atDamage : wounded.untagged = entity.untagged := by
    refine Eq.trans ?_ atArmor
    unfold wounded
    split <;> rfl
  have atPoison : poisoned.untagged =
      { entity.untagged with
        destroyed :=
          entity.destroyed || (poisonous && entity.kind = .minion && 0 < remaining) } := by
    unfold poisoned
    split
    next kills =>
      rw [kills, Bool.or_true]
      exact congrArg (fun bare : Entity => { bare with destroyed := true }) atDamage
    next spares =>
      rw [Bool.eq_false_iff.mpr spares, Bool.or_false]
      exact atDamage
  refine Eq.trans ?_ atPoison
  split <;> rfl

/-- It is the same to be hit first or healed first, as far as the hit goes. -/
theorem takeHit_addTag (entity : Entity) (change amount : Int) (poisonous freezing : Bool) :
    (entity.addTag .damage change).takeHit amount poisonous freezing =
      (entity.takeHit amount poisonous freezing).addTag .damage change := by
  have armor : (entity.addTag .damage change).armor = entity.armor :=
    get_addTag entity _ (by decide)
  have unabsorbed :
      (entity.addTag .damage change).unabsorbed amount = entity.unabsorbed amount := by
    unfold Entity.unabsorbed
    rw [armor]
    rfl
  refine ext_tags ?_ fun tag => ?_
  · refine (untagged_takeHit _ amount poisonous freezing).trans ?_
    rw [unabsorbed]
    exact (untagged_takeHit entity amount poisonous freezing).symm
  · have kind : (entity.addTag .damage change).kind = entity.kind := rfl
    rw [get_takeHit, damage_addTag, unabsorbed, armor, kind]
    by_cases same : tag = .damage
    · rw [same, if_neg (by simp), if_pos rfl, addTag, Tags.get_add, if_pos rfl, get_takeHit,
        if_neg (by simp), if_pos rfl]
      omega
    · rw [get_addTag _ _ same, get_addTag _ _ same, get_takeHit, if_neg same, if_neg same]

theorem has_takeHit {poisonous freezing : Bool}
    (away : tag ≠ .damage ∧ tag ≠ .armor ∧ tag ≠ .frozen) :
    (entity.takeHit amount poisonous freezing).has tag = entity.has tag := by
  have rest := untagged_takeHit entity amount poisonous freezing
  have aura : (entity.takeHit amount poisonous freezing).aura = entity.aura :=
    (congrArg Entity.aura rest :)
  have enchantments :
      (entity.takeHit amount poisonous freezing).enchantments = entity.enchantments :=
    (congrArg Entity.enchantments rest :)
  unfold has Tags.has
  rw [aura, enchantments, get_takeHit, if_neg fun both => away.2.2 both.1, if_neg away.1,
    if_neg fun both => away.2.1 both.1]

theorem has_loseShield (away : tag ≠ .divineShield) :
    entity.loseShield.has tag = entity.has tag := by
  have granted (enchantment : Enchantment) :
      (enchantment.effect.grants.filter (· ≠ .divineShield)).contains tag =
        enchantment.effect.grants.contains tag := by
    simp [away]
  unfold has Tags.has loseShield
  dsimp only
  rw [Tags.get_set, if_neg away, List.any_map]
  simp only [Function.comp_def, granted]

theorem edge_eq (owner : later.owner = entity.owner)
    (has : ∀ tag ∈ [Tag.poisonous, .freeze, .lifesteal], later.has tag = entity.has tag) :
    later.edge = entity.edge := by
  unfold edge
  rw [owner, has .poisonous (by decide), has .freeze (by decide), has .lifesteal (by decide)]

theorem edge_mended (entity : Entity) (amount : Int) : (entity.mended amount).edge = entity.edge :=
  edge_eq rfl fun tag member => has_addTag _ (by rintro rfl; simp at member)

theorem isOpen_mended (entity : Entity) (amount : Int) :
    (entity.mended amount).isOpen = entity.isOpen := by
  unfold isOpen mended
  rw [has_addTag _ (by decide), has_addTag _ (by decide)]

theorem edge_struck (entity : Entity) (blow : Blow) : (entity.struck blow).edge = entity.edge := by
  unfold struck
  split
  · rfl
  split
  · exact edge_eq rfl fun tag member => has_loseShield (by rintro rfl; simp at member)
  · have owner := congrArg Seat.owner
      (seat_takeHit entity blow.amount blow.edge.poisonous blow.edge.freezing)
    refine edge_eq owner fun tag member => has_takeHit ⟨?_, ?_, ?_⟩
    all_goals
      rintro rfl
      simp at member

/-- What there is to heal is healed by both, whoever comes first. -/
theorem mended_comm (entity : Entity) {first second : Int} (some : 0 < first) (more : 0 < second) :
    (entity.mended first).mended second = (entity.mended second).mended first := by
  unfold mended
  rw [addTag_addTag, addTag_addTag, addTag_damage_inj]
  unfold healable
  rw [damage_addTag, damage_addTag]
  omega

theorem loseShield_mended (entity : Entity) (amount : Int) :
    (entity.mended amount).loseShield = entity.loseShield.mended amount := by
  have damage : entity.loseShield.damage = entity.damage := get_setTag entity 0 (by decide)
  unfold mended healable
  rw [damage]
  refine ext_tags rfl fun tag => ?_
  change ((entity.tags.add .damage _).set .divineShield 0).get tag =
    ((entity.tags.set .divineShield 0).add .damage _).get tag
  by_cases damaged : tag = .damage
  · subst damaged
    simp [Tags.get_set, Tags.get_add]
  · simp [Tags.get_set, Tags.get_add, damaged]

/-- Whom a blow does not wound is healed as well before as afterwards. -/
theorem struck_mended_of_stopped {blow : Blow} (stopped : blow.amount ≤ 0 ∨ entity.isOpen = false)
    (amount : Int) : (entity.mended amount).struck blow = (entity.struck blow).mended amount := by
  have immune : (entity.mended amount).has .immune = entity.has .immune := has_addTag _ (by decide)
  have shield : (entity.mended amount).has .divineShield = entity.has .divineShield :=
    has_addTag _ (by decide)
  unfold struck
  rw [immune, shield]
  split
  · rfl
  next lands =>
    obtain ⟨strong, mortal⟩ := not_or.mp lands
    have shielded : entity.has .divineShield = true := by
      have closed := stopped.resolve_left strong
      unfold isOpen at closed
      rw [Bool.eq_false_iff.mpr mortal] at closed
      simpa using closed
    rw [if_pos shielded, if_pos shielded]
    exact loseShield_mended entity amount

theorem struck_of_weak {blow : Blow} (weak : blow.amount ≤ 0) : entity.struck blow = entity :=
  if_pos (.inl weak)

theorem struck_of_immune {blow : Blow} (immune : entity.has .immune = true) :
    entity.struck blow = entity :=
  if_pos (.inr immune)

theorem struck_of_shielded {blow : Blow} (strong : ¬ blow.amount ≤ 0)
    (mortal : ¬ entity.has .immune = true) (shielded : entity.has .divineShield = true) :
    entity.struck blow = entity.loseShield := by
  unfold struck
  rw [if_neg (not_or.mpr ⟨strong, mortal⟩), if_pos shielded]

theorem struck_of_isOpen {blow : Blow} (strong : 0 < blow.amount) (isOpen : entity.isOpen = true) :
    entity.struck blow =
      entity.takeHit blow.amount blow.edge.poisonous blow.edge.freezing := by
  unfold Entity.isOpen at isOpen
  obtain ⟨mortal, bare⟩ : entity.has .immune = false ∧ entity.has .divineShield = false := by
    simpa using isOpen
  unfold struck
  rw [if_neg, if_neg]
  · rw [bare]
    nofun
  · rw [mortal]
    exact not_or.mpr ⟨Int.not_le.mpr strong, nofun⟩

/-- Whom a blow wounds has other damage to heal afterwards. -/
theorem struck_mended_of_isOpen {blow : Blow} (strong : 0 < blow.amount)
    (isOpen : entity.isOpen = true) (amount : Int) :
    (entity.mended amount).struck blow =
      (entity.struck blow).addTag .damage (-entity.healable amount) := by
  rw [struck_of_isOpen strong isOpen,
    struck_of_isOpen strong ((isOpen_mended entity amount).trans isOpen)]
  exact takeHit_addTag ..

theorem damage_struck {blow : Blow} (strong : 0 < blow.amount) (isOpen : entity.isOpen = true) :
    (entity.struck blow).damage = entity.damage + max (entity.unabsorbed blow.amount) 0 := by
  rw [struck_of_isOpen strong isOpen, damage, get_takeHit, if_neg (by simp), if_pos rfl]

end Entity

namespace Blow

variable {first second : Blow} {id : EntityId} {entity : Entity}

/-- A blow heals only by what it deals. -/
def Sound (blow : Blow) : Prop :=
  blow.heals = true → 0 < blow.amount

/-- What the second blow gives back to its own target. -/
def payback (blow : Blow) : Int :=
  if blow.heals = true ∧ blow.target = blow.hero then blow.amount else 0

/-- The second blow wounds the hero whom the first one heals, and it wounds it more than the second
heals, so that the first would heal more if it came later. -/
structure Spares (first second : Blow) (entity : Entity) : Prop where
  heals : first.heals = true
  hero : first.hero = second.target
  strong : 0 < second.amount
  isOpen : entity.isOpen = true
  spare : entity.damage < first.amount
  wounds : second.payback < entity.unabsorbed second.amount + min entity.damage 0

theorem edge_on (blow : Blow) (id : EntityId) (entity : Entity) :
    (blow.on id entity).edge = entity.edge := by
  have strikes : (if id = blow.target then entity.struck blow else entity).edge = entity.edge := by
    split
    · exact entity.edge_struck blow
    · rfl
  unfold on
  dsimp only
  split
  · exact (Entity.edge_mended _ _).trans strikes
  · exact strikes

/-- Healing shields nobody. -/
theorem isOpen_on {blow : Blow} (away : id ≠ blow.target) :
    (blow.on id entity).isOpen = entity.isOpen := by
  unfold on
  dsimp only
  rw [if_neg away]
  split
  · exact entity.isOpen_mended blow.amount
  · rfl

/-- Away from the targets two blows only heal. -/
theorem on_comm (sound : first.Sound) (sound' : second.Sound) (away : id ≠ first.target)
    (away' : id ≠ second.target) :
    second.on id (first.on id entity) = first.on id (second.on id entity) := by
  unfold on
  dsimp only
  rw [if_neg away, if_neg away, if_neg away', if_neg away']
  split
  next heals =>
    split
    next heals' => exact entity.mended_comm (sound heals'.1) (sound' heals.1)
    · rfl
  · rfl

theorem on_of_not_heals (away : id ≠ first.target)
    (idle : ¬ (first.heals = true ∧ id = first.hero)) :
    first.on id entity = entity := by
  unfold on
  dsimp only
  rw [if_neg away, if_neg idle]

theorem on_of_heals (away : id ≠ first.target) (heals : first.heals = true)
    (hero : id = first.hero) :
    first.on id entity = entity.mended first.amount := by
  unfold on
  dsimp only
  rw [if_neg away, if_pos ⟨heals, hero⟩]

/-- Healing before a wound comes to the same as healing after it, unless some of it finds nothing to
heal yet. -/
theorem on_mended_of_wounds (wounds : 0 < second.amount ∧ entity.isOpen = true)
    (heals : first.heals = true) (hero : first.hero = second.target)
    (positive : 0 < first.amount) :
    (second.on second.target (entity.mended first.amount) =
        (second.on second.target entity).mended first.amount ↔ ¬ first.Spares second entity) ∧
      (((second.on second.target entity).mended first.amount).damage <
        (second.on second.target (entity.mended first.amount)).damage ↔
          first.Spares second entity) := by
  obtain ⟨strong, isOpen⟩ := wounds
  have spares : first.Spares second entity ↔ entity.damage < first.amount ∧
      second.payback < entity.unabsorbed second.amount + min entity.damage 0 :=
    ⟨fun spares => ⟨spares.spare, spares.wounds⟩, fun both =>
      ⟨heals, hero, strong, isOpen, both.1, both.2⟩⟩
  have damage := Entity.damage_struck strong isOpen
  rw [spares]
  unfold on payback
  rw [if_pos rfl, if_pos rfl, Entity.struck_mended_of_isOpen strong isOpen]
  generalize entity.struck second = hit at *
  split
  next back =>
    simp only [Entity.mended, Entity.addTag_addTag, Entity.addTag_damage_inj,
      Entity.damage_addTag, Entity.healable, damage]
    omega
  next other =>
    simp only [Entity.mended, Entity.addTag_damage_inj, Entity.damage_addTag, Entity.healable,
      damage]
    omega

/-- A blow that does not get through meets the healed as the wounded. -/
theorem on_mended_of_stopped (stopped : second.amount ≤ 0 ∨ entity.isOpen = false)
    (idle : second.heals ≠ true) (amount : Int) :
    second.on second.target (entity.mended amount) =
      (second.on second.target entity).mended amount := by
  unfold on
  dsimp only
  rw [if_pos rfl, if_pos rfl, if_neg fun both => idle both.1, if_neg fun both => idle both.1]
  exact Entity.struck_mended_of_stopped stopped amount

/-- The target of the second blow has less damage when the first comes later, exactly if that
one heals it then with what it could not use before. -/
theorem on_target (sound : first.Sound) (sound' : second.Sound)
    (apart : second.target ≠ first.target)
    (stopped : entity.isOpen = false → second.heals = false) :
    (second.on second.target (first.on second.target entity) =
        first.on second.target (second.on second.target entity) ↔ ¬ first.Spares second entity) ∧
      ((first.on second.target (second.on second.target entity)).damage <
        (second.on second.target (first.on second.target entity)).damage ↔
          first.Spares second entity) := by
  by_cases healing : first.heals = true ∧ second.target = first.hero
  · simp only [on_of_heals apart healing.1 healing.2]
    by_cases wounds : 0 < second.amount ∧ entity.isOpen = true
    · exact on_mended_of_wounds wounds healing.1 healing.2.symm (sound healing.1)
    · have never : ¬ first.Spares second entity := fun spares =>
        wounds ⟨spares.strong, spares.isOpen⟩
      have halted : second.amount ≤ 0 ∨ entity.isOpen = false :=
        (not_and_or.mp wounds).imp Int.not_lt.mp Bool.eq_false_iff.mpr
      have idle : second.heals ≠ true := by
        rcases halted with weak | closed
        · exact fun heals => absurd (sound' heals) (Int.not_lt.mpr weak)
        · rw [stopped closed]
          nofun
      rw [on_mended_of_stopped halted idle]
      simp [never]
  · have never : ¬ first.Spares second entity := fun spares =>
      healing ⟨spares.heals, spares.hero.symm⟩
    simp [on_of_not_heals apart healing, never]

end Blow

namespace Duel

variable {duel before mid after : Duel} {id target : EntityId}
variable {origin entity : Entity} {amount : Int}

/-- The blow that one entity deals to another. -/
def blow (duel : Duel) (origin : Entity) (target : EntityId) (entity : Entity) (amount : Int) :
    Blow where
  target := target
  amount := amount
  edge := origin.edge
  hero := duel.hero origin.owner
  heals := 0 < amount && entity.isOpen && origin.edge.stealing

theorem blow_sound (duel : Duel) (origin : Entity) (target : EntityId) (entity : Entity)
    (amount : Int) : (duel.blow origin target entity amount).Sound := by
  intro heals
  simp only [blow, Bool.and_eq_true, decide_eq_true_eq] at heals
  exact heals.1.1

theorem heals_blow_of_closed (duel : Duel) (target : EntityId)
    (amount : Int) (closed : entity.isOpen = false) :
    (duel.blow origin target entity amount).heals = false := by
  simp [blow, closed]

/-- A blow that does not get through heals nobody. -/
theorem on_blow_of_stopped (stopped : amount ≤ 0 ∨ entity.isOpen = false) (other : Entity) :
    (duel.blow origin target entity amount).on id other =
      if id = target then other.struck (duel.blow origin target entity amount) else other := by
  refine if_neg ?_
  rintro ⟨heals, -⟩
  rcases stopped with weak | closed
  · exact absurd (duel.blow_sound origin target entity amount heals) (Int.not_lt.mpr weak)
  · cases (duel.heals_blow_of_closed target amount closed).symm.trans heals

/-- A blow that gets through hits its target, and lifesteal heals the hero. -/
theorem on_blow_of_isOpen {other : Entity} (strong : 0 < amount) (isOpen : entity.isOpen = true)
    (only : id = target → other = entity) :
    let hit := if id = target then
      other.takeHit amount (origin.has .poisonous) (origin.has .freeze) else other
    (duel.blow origin target entity amount).on id other =
      if origin.has .lifesteal = true ∧ id = duel.hero origin.owner then hit.mended amount
      else hit := by
  have strikes : (if id = target then other.struck (duel.blow origin target entity amount)
      else other) = if id = target then
        other.takeHit amount (origin.has .poisonous) (origin.has .freeze) else other := by
    split
    next same =>
      rw [only same]
      exact Entity.struck_of_isOpen strong isOpen
    next => rfl
  have steals : (duel.blow origin target entity amount).heals = origin.has .lifesteal := by
    simp [blow, isOpen, strong, Entity.edge]
  dsimp only
  rw [← strikes, ← steals]
  rfl

/-- Only the entities have changed, and how. -/
structure Turns (before : Duel) (change : EntityId → Entity → Entity) (after : Duel) : Prop where
  players : after.players = before.players
  entity? : ∀ id, after.entity? id = (before.entity? id).map (change id)

theorem Turns.congr {first second : EntityId → Entity → Entity} (turns : before.Turns first after)
    (same : ∀ id entity, before.entity? id = some entity → second id entity = first id entity) :
    before.Turns second after where
  players := turns.players
  entity? id := by
    rw [turns.entity?]
    cases known : before.entity? id with
    | none => rfl
    | some entity => exact congrArg some (same id entity known).symm

theorem Turns.trans {first second : EntityId → Entity → Entity} (one : before.Turns first mid)
    (two : mid.Turns second after) :
    before.Turns (fun id entity => second id (first id entity)) after where
  players := two.players.trans one.players
  entity? id := by
    rw [two.entity?, one.entity?, Option.map_map]
    rfl

theorem turns_refl (duel : Duel) : duel.Turns (fun _ entity => entity) duel where
  players := rfl
  entity? id := by simp

theorem turns_updateEntity (duel : Duel) (id : EntityId) (change : Entity → Entity) :
    duel.Turns (fun other entity => if other = id then change entity else entity)
      (duel.updateEntity id change) where
  players := rfl
  entity? other := by
    rw [entity?_updateEntity]
    split
    · rfl
    · simp

theorem Turns.hero {change : EntityId → Entity → Entity} (turns : before.Turns change after)
    (player : Player) : after.hero player = before.hero player := by
  unfold Duel.hero Duel.player
  rw [turns.players]

theorem Turns.known {change : EntityId → Entity → Entity} (turns : before.Turns change after)
    (known : before.entity? id = some entity) : after.entity? id = some (change id entity) := by
  rw [turns.entity?, known]
  rfl

/-- The play succeeds and does to the entities what is said. -/
def Does (duel : Duel) (change : EntityId → Entity → Entity) (action : Play Unit) : Prop :=
  action.Yields duel (fun _ left => duel.Turns change left) fun _ => False

end Duel

namespace Play

open Duel

variable {duel : Duel} {source target attacker defender : EntityId} {action rest : Play Unit}
variable {origin entity hero champion foe : Entity} {amount : Int}
variable {first second : EntityId → Entity → Entity}

theorem does_of_congr (does : duel.Does first action)
    (same : ∀ id entity, duel.entity? id = some entity → second id entity = first id entity) :
    duel.Does second action :=
  Yields.mono does (fun _ _ turns => turns.congr same) fun _ => id

theorem does_pure : duel.Does (fun _ entity => entity) (pure ()) :=
  duel.turns_refl

theorem does_bind (one : duel.Does first action)
    (two : ∀ left, duel.Turns first left → left.Does second rest) :
    duel.Does (fun id entity => second id (first id entity)) (action >>= fun _ => rest) :=
  yields_bind.mpr (Yields.mono one (fun _ left turns =>
    Yields.mono (two left turns) (fun _ _ => turns.trans) fun _ => id) fun _ => id)

theorem does_change {id : EntityId} (known : duel.entity? id = some entity)
    (change : Entity → Entity) :
    duel.Does (fun other entity => if other = id then change entity else entity)
      (Play.change id change) := by
  unfold Does Play.change
  rw [yields_bind_of_ok (lookup_of_entity? known), yields_modify]
  exact duel.turns_updateEntity id change

theorem does_announce (event : Event) : duel.Does (fun _ entity => entity) (announce event) :=
  ⟨rfl, fun _ => by simp; rfl⟩

theorem does_heal (known : duel.entity? target = some entity) :
    duel.Does (fun id entity => if id = target then entity.mended amount else entity)
      (heal source target amount) := by
  have healed : duel.Does (fun id other => if id = target then
      other.addTag .damage (-entity.healable amount) else other) (heal source target amount) := by
    unfold Does heal
    rw [yields_bind_of_ok (lookup_of_entity? known)]
    dsimp only
    split
    next nothing =>
      refine does_of_congr does_pure fun id other _ => ?_
      rw [nothing, Int.neg_zero, Entity.addTag_zero, ite_self]
    next => exact does_bind (does_change known _) fun _ _ => does_announce _
  refine does_of_congr healed fun id other knownToo => ?_
  split
  next same =>
    cases known.symm.trans (same ▸ knownToo)
    rfl
  next => rfl

theorem does_stealLife {leader : EntityId} (leads : duel.hero origin.owner = leader)
    (knownHero : duel.entity? leader = some hero) :
    duel.Does (fun id entity => if origin.has .lifesteal = true ∧ id = leader then
      entity.mended amount else entity) (stealLife source (some origin) amount) := by
  subst leads
  unfold stealLife
  dsimp only
  split
  next steals =>
    refine does_of_congr (does_heal knownHero) fun id entity _ => ?_
    exact if_congr (and_iff_right steals) rfl rfl
  next idle =>
    refine does_of_congr does_pure fun id entity _ => ?_
    rw [if_neg fun both => idle both.1]

theorem does_report (events : Prop) [Decidable events] (early late : Event) :
    duel.Does (fun _ entity => entity)
      (if events then do announce early; announce late else pure ()) := by
  split
  · exact does_bind (does_announce early) fun _ _ => does_announce late
  · exact does_pure

/-- A hit that gets through is a blow. -/
theorem does_hit (known : duel.entity? target = some entity)
    (knownHero : duel.entity? (duel.hero origin.owner) = some hero) (strong : 0 < amount)
    (isOpen : entity.isOpen = true) (events : Prop) [Decidable events] (early late : Event) :
    duel.Does (duel.blow origin target entity amount).on (do
      change target fun entity =>
        entity.takeHit amount (origin.has .poisonous) (origin.has .freeze)
      stealLife source (some origin) amount
      if events then do announce early; announce late else pure ()) := by
  refine does_of_congr (does_bind (does_change known _) fun left turns =>
    does_bind (does_stealLife (turns.hero _) (turns.known knownHero)) fun _ _ =>
      does_report events early late) fun id other knownToo => ?_
  exact on_blow_of_isOpen strong isOpen fun same =>
    Option.some.inj (knownToo.symm.trans (same ▸ known))

/-- Damage that is dealt by somebody who is known, and whose hero is, is a blow. -/
theorem does_damage (knownOrigin : duel.entity? source = some origin)
    (known : duel.entity? target = some entity)
    (knownHero : duel.entity? (duel.hero origin.owner) = some hero) :
    duel.Does (duel.blow origin target entity amount).on (damage source target amount) := by
  have only {id : EntityId} {other : Entity} (knownToo : duel.entity? id = some other)
      (same : id = target) : other = entity :=
    Option.some.inj (knownToo.symm.trans (same ▸ known))
  unfold damage
  split
  next weak =>
    refine does_of_congr does_pure fun id other _ => ?_
    rw [on_blow_of_stopped (.inl weak), Entity.struck_of_weak weak, ite_self]
  next strong =>
    unfold Does
    rw [yields_bind, yields_get, knownOrigin, yields_bind_of_ok (lookup_of_entity? known)]
    dsimp only
    split
    next immune =>
      refine does_of_congr does_pure fun id other knownToo => ?_
      rw [on_blow_of_stopped (.inr (by simp [Entity.isOpen, immune]))]
      split
      next same => rw [only knownToo same, Entity.struck_of_immune immune]
      next => rfl
    next mortal =>
      split
      next shielded =>
        refine does_of_congr (does_change known _) fun id other knownToo => ?_
        rw [on_blow_of_stopped (.inr (by simp [Entity.isOpen, shielded]))]
        split
        next same => rw [only knownToo same, Entity.struck_of_shielded strong mortal shielded]
        next => rfl
      next bare =>
        have isOpen : entity.isOpen = true := by
          simp [Entity.isOpen, Bool.eq_false_iff.mpr mortal, Bool.eq_false_iff.mpr bare]
        exact does_hit known knownHero (Int.not_le.mp strong) isOpen _ _ _

end Play

end CardDuel
