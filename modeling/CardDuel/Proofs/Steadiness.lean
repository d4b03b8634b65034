import CardDuel.Proofs.Auras

/-!
# A second aura pass

Conditions of auras are judged on the stats from before the pass, so a second pass can admit other
offers than the first one.  It changes nothing exactly when what it admits comes to the same totals.
That is so whenever no condition is on something that an aura of the catalogue gives: no other gift
ever reaches an entity.
-/

namespace CardDuel

open Relation

/-- What an aura can give and a condition can read. -/
inductive Gift
  | attack
  | health
  | keyword (tag : Tag)

/-- Whether a modifier gives something. -/
def Modifier.Gives (modifier : Modifier) : Gift → Prop
  | .attack => modifier.attack ≠ 0
  | .health => modifier.health ≠ 0
  | .keyword tag => tag ∈ modifier.grants

/-- Whether some aura of the catalogue gives something. -/
def Catalogue.Gives (catalogue : Catalogue) (gift : Gift) : Prop :=
  ∃ entry ∈ catalogue.entries, ∃ aura, entry.behaviour.aura = some aura ∧ aura.effect.Gives gift

/-! ## What conditions read -/

/-- What a trait is read from, of all that auras can give.  Auras that take health away also rewrite
the damage. -/
def Trait.reads : Trait → List Gift
  | .damaged | .undamaged => [.health]
  | .frozen => [.keyword .frozen]
  | _ => []

namespace Condition

mutual

/-- What a condition is read from, of all that auras can give. -/
def reads : Condition → List Gift
  | .is trait => trait.reads
  | .inZone _ | .ofRace _ => []
  | .hasTag tag => .keyword tag :: if tag = .damage then [.health] else []
  | .attackAtLeast _ | .attackAtMost _ => [.attack]
  | .healthAtMost _ => [.health]
  | .all conditions | .any conditions => allRead conditions
  | .not condition => condition.reads

def allRead : List Condition → List Gift
  | [] => []
  | condition :: conditions => condition.reads ++ allRead conditions

end

end Condition

/-- No aura of the catalogue has a condition on something that an aura of the catalogue gives. -/
def Catalogue.Steady (catalogue : Catalogue) : Prop :=
  ∀ entry ∈ catalogue.entries, ∀ aura, entry.behaviour.aura = some aura →
    ∀ condition, aura.condition = some condition →
      ∀ gift ∈ condition.reads, ¬ catalogue.Gives gift

/-! ## What reaches an entity -/

/-- A total that is made of certain gifts only. -/
structure AuraTotal.Within (gives : Gift → Prop) (total : AuraTotal) : Prop where
  attack : ¬ gives .attack → total.attack = 0
  health : ¬ gives .health → total.health = 0
  keyword : ∀ tag, ¬ gives (.keyword tag) → tag ∉ total.grants

namespace AuraTotal

variable {gives : Gift → Prop}

theorem within_zero : zero.Within gives :=
  ⟨fun _ => rfl, fun _ => rfl, fun _ _ => nofun⟩

theorem within_sum {modifiers : List Modifier}
    (given : ∀ modifier ∈ modifiers, ∀ gift, modifier.Gives gift → gives gift) :
    (sum modifiers).Within gives := by
  have nothing (stat : Modifier → Int) (zero : ∀ modifier ∈ modifiers, stat modifier = 0) :
      (modifiers.map stat).sum = 0 := by
    rw [List.map_congr_left zero]
    simp
  have totals := totals_sum modifiers
  refine ⟨fun none' => ?_, fun none' => ?_, fun tag none' held => ?_⟩
  · rw [totals.attack]
    refine nothing Modifier.attack fun modifier member => ?_
    by_contra some'
    exact none' (given modifier member .attack some')
  · rw [totals.health]
    refine nothing Modifier.health fun modifier member => ?_
    by_contra some'
    exact none' (given modifier member .health some')
  · obtain ⟨modifier, member, grants⟩ := (totals.granted tag).mp held
    exact none' (given modifier member (.keyword tag) grants)

end AuraTotal

namespace Entity

variable {gives : Gift → Prop} {entity : Entity} {total : AuraTotal}

theorem aura_keepHealth (entity before : Entity) :
    (entity.keepHealth before).aura = entity.aura := by
  unfold keepHealth
  split <;> rfl

theorem aura_takeHit (entity : Entity) (amount : Int) (poisonous freezing : Bool) :
    (entity.takeHit amount poisonous freezing).aura = entity.aura := by
  unfold takeHit
  simp only [apply_ite Entity.aura, setTag, addTag, ite_self]

theorem Revision.aura {change : Entity → Entity} (revision : Revision change) (entity : Entity) :
    (change entity).aura = entity.aura := by
  cases revision with
  | hit amount poisonous freezing => exact aura_takeHit entity amount poisonous freezing
  | refresh =>
      unfold Entity.refresh
      dsimp only
      split <;> rfl
  | thaw =>
      unfold Entity.thaw
      split <;> rfl
  | enchant enchantment => exact aura_keepHealth _ entity
  | _ => rfl

theorem aura_expire (entity : Entity) : entity.expire.aura = entity.aura := by
  unfold expire
  split
  · exact aura_keepHealth _ entity
  · rfl

theorem enchantments_withAura (entity : Entity) (total : AuraTotal) :
    (entity.withAura total).enchantments = entity.enchantments := by
  unfold withAura keepHealth
  split
  · rfl
  · split <;> rfl

/-- Without a change of health a change of auras rewrites no tag at all. -/
theorem tags_withAura (same : total.health = entity.aura.health) :
    (entity.withAura total).tags = entity.tags := by
  unfold withAura keepHealth
  split
  · rfl
  · rw [if_neg]
    rintro ⟨drops, -⟩
    simp only [maxHealth, enchanted, same] at drops
    omega

theorem attack_withAura (same : total.attack = entity.aura.attack) :
    (entity.withAura total).attack = entity.attack := by
  unfold attack enchanted
  rw [get_withAura _ _ (by decide), enchantments_withAura, aura_withAura, same]

theorem health_withAura (same : total.health = entity.aura.health) :
    (entity.withAura total).health = entity.health := by
  unfold health maxHealth damage enchanted
  rw [tags_withAura same, enchantments_withAura, aura_withAura, same]

theorem has_withAura {tag : Tag} (own : (entity.withAura total).tags.has tag = entity.tags.has tag)
    (same : tag ∈ total.grants ↔ tag ∈ entity.aura.grants) :
    (entity.withAura total).has tag = entity.has tag := by
  have granted : total.grants.contains tag = entity.aura.grants.contains tag := by
    rw [Bool.eq_iff_iff, List.contains_iff_mem, List.contains_iff_mem, same]
  unfold has
  rw [own, enchantments_withAura, aura_withAura, granted]

end Entity

namespace Duel

variable {start duel before after : Duel} {id : EntityId} {gives : Gift → Prop}
variable {settings : Settings} {catalogue : Catalogue}

/-- Whether nothing but certain gifts has reached anybody. -/
def Carries (gives : Gift → Prop) (duel : Duel) : Prop :=
  ∀ id entity, duel.entity? id = some entity → entity.aura.Within gives

/-! ## What conditions judge -/

theorem within_totalFor {entity : Entity} (still : duel.updateAuras.Carries gives)
    (known : duel.entity? id = some entity) : (totalFor duel.contributions id).Within gives := by
  have reached : duel.updateAuras.entity? id = some _ :=
    (entity?_updateAuras duel id).trans (congrArg _ known)
  have within := still id _ reached
  rwa [Entity.aura_withAura] at within

theorem attackOf_updateAuras (carries : duel.Carries gives)
    (still : duel.updateAuras.Carries gives) (none' : ¬ gives .attack) (id : EntityId) :
    duel.updateAuras.attackOf id = duel.attackOf id := by
  have same {id : EntityId} {entity : Entity} (known : duel.entity? id = some entity) :
      (entity.withAura (totalFor duel.contributions id)).attack = entity.attack :=
    Entity.attack_withAura (((within_totalFor still known).attack none').trans
      ((carries id entity known).attack none').symm)
  unfold attackOf
  rw [entity?_updateAuras]
  cases known : duel.entity? id with
  | none => rfl
  | some entity =>
      obtain ⟨owner, kind, -, -⟩ :=
        Seat.mk.inj (entity.seat_withAura (totalFor duel.contributions id))
      have weapon : duel.updateAuras.weapon = duel.weapon := rfl
      simp only [Option.map_some, kind, owner, weapon, same known]
      cases duel.weapon entity.owner with
      | none => rfl
      | some weapon =>
          rw [Option.bind_some, Option.bind_some, entity?_updateAuras]
          cases armed : duel.entity? weapon with
          | none => rfl
          | some held =>
              simp only [Option.map_some, same armed]

/-- An entity before a pass, if nothing but certain gifts reaches anybody before or after it. -/
structure Passing (duel : Duel) (gives : Gift → Prop) (id : EntityId) (entity : Entity) : Prop where
  carries : duel.Carries gives
  still : duel.updateAuras.Carries gives
  known : duel.entity? id = some entity

variable {entity : Entity}

theorem Passing.health_eq (passing : duel.Passing gives id entity) (none' : ¬ gives .health) :
    (totalFor duel.contributions id).health = entity.aura.health :=
  ((within_totalFor passing.still passing.known).health none').trans
    ((passing.carries id entity passing.known).health none').symm

theorem Passing.has (passing : duel.Passing gives id entity) {tag : Tag}
    (none' : ¬ gives (.keyword tag)) (own : tag = .damage → ¬ gives .health) :
    (entity.withAura (totalFor duel.contributions id)).has tag = entity.has tag := by
  have before := (passing.carries id entity passing.known).keyword tag none'
  have after := (within_totalFor passing.still passing.known).keyword tag none'
  refine Entity.has_withAura ?_ (iff_of_false after before)
  by_cases damage : tag = .damage
  · rw [Entity.tags_withAura (passing.health_eq (own damage))]
  · rw [Tags.has, Tags.has, Entity.get_withAura _ _ damage]

theorem Passing.hasTrait (passing : duel.Passing gives id entity) {trait : Trait}
    (view : Viewpoint) (calm : ∀ gift ∈ trait.reads, ¬ gives gift) :
    duel.updateAuras.hasTrait view id (entity.withAura (totalFor duel.contributions id)) trait =
      duel.hasTrait view id entity trait := by
  obtain ⟨owner, kind, -, -⟩ :=
    Seat.mk.inj (entity.seat_withAura (totalFor duel.contributions id))
  cases trait with
  | damaged | undamaged =>
      have tags := Entity.tags_withAura (passing.health_eq (calm .health List.mem_cons_self))
      unfold Duel.hasTrait Entity.isDamaged Entity.damage
      rw [tags]
  | frozen =>
      unfold Duel.hasTrait
      exact passing.has (calm _ List.mem_cons_self) nofun
  | myTurn | source | notSource | always => rfl
  | minion | hero | weapon | spell =>
      unfold Duel.hasTrait
      rw [kind]
  | friendly | enemy =>
      unfold Duel.hasTrait
      rw [owner]
  | handEmpty | handFull | fieldFull | deckEmpty | weaponEquipped =>
      unfold Duel.hasTrait
      rw [owner]
      rfl

mutual

/-- A pass does not change a judgement of what it cannot give. -/
theorem Passing.judge (passing : duel.Passing gives id entity) (view : Viewpoint)
    (condition : Condition) (calm : ∀ gift ∈ condition.reads, ¬ gives gift) :
    duel.updateAuras.judge view id (entity.withAura (totalFor duel.contributions id)) condition =
      duel.judge view id entity condition := by
  cases condition with
  | «is» trait =>
      unfold Duel.judge
      exact passing.hasTrait view calm
  | inZone zone =>
      have same : (entity.withAura (totalFor duel.contributions id)).zone = entity.zone :=
        congrArg Seat.zone (entity.seat_withAura _)
      unfold Duel.judge
      rw [same]
  | ofRace race =>
      have same : (entity.withAura (totalFor duel.contributions id)).card = entity.card :=
        congrArg (fun stance : Stance => stance.card) (entity.stance_withAura _)
      unfold Duel.judge
      rw [same]
      rfl
  | hasTag tag =>
      unfold Duel.judge
      refine passing.has (calm _ List.mem_cons_self) fun damage => ?_
      refine calm .health (List.mem_cons_of_mem _ ?_)
      rw [if_pos damage]
      exact List.mem_cons_self
  | attackAtLeast bound =>
      unfold Duel.judge
      rw [attackOf_updateAuras passing.carries passing.still (calm _ List.mem_cons_self)]
  | attackAtMost bound =>
      unfold Duel.judge
      rw [attackOf_updateAuras passing.carries passing.still (calm _ List.mem_cons_self)]
  | healthAtMost bound =>
      unfold Duel.judge
      rw [Entity.health_withAura (passing.health_eq (calm _ List.mem_cons_self))]
  | all conditions =>
      unfold Duel.judge
      exact passing.judgeAll view conditions calm
  | any conditions =>
      unfold Duel.judge
      exact passing.judgeAny view conditions calm
  | not condition =>
      unfold Duel.judge
      rw [passing.judge view condition calm]

theorem Passing.judgeAll (passing : duel.Passing gives id entity) (view : Viewpoint)
    (conditions : List Condition) (calm : ∀ gift ∈ Condition.allRead conditions, ¬ gives gift) :
    duel.updateAuras.judgeAll view id (entity.withAura (totalFor duel.contributions id))
      conditions = duel.judgeAll view id entity conditions := by
  cases conditions with
  | nil => rfl
  | cons condition conditions =>
      have first := passing.judge view condition fun gift member =>
        calm gift (List.mem_append_left _ member)
      have rest := passing.judgeAll view conditions fun gift member =>
        calm gift (List.mem_append_right _ member)
      unfold Duel.judgeAll
      rw [first, rest]

theorem Passing.judgeAny (passing : duel.Passing gives id entity) (view : Viewpoint)
    (conditions : List Condition) (calm : ∀ gift ∈ Condition.allRead conditions, ¬ gives gift) :
    duel.updateAuras.judgeAny view id (entity.withAura (totalFor duel.contributions id))
      conditions = duel.judgeAny view id entity conditions := by
  cases conditions with
  | nil => rfl
  | cons condition conditions =>
      have first := passing.judge view condition fun gift member =>
        calm gift (List.mem_append_left _ member)
      have rest := passing.judgeAny view conditions fun gift member =>
        calm gift (List.mem_append_right _ member)
      unfold Duel.judgeAny
      rw [first, rest]

end

/-! ## What reaches anybody -/

/-- Whoever has auras in the second duel has the same ones in the first. -/
def Fades (before after : Duel) : Prop :=
  ∀ id entity, after.entity? id = some entity → entity.aura = AuraTotal.zero ∨
    ∃ old, before.entity? id = some old ∧ old.aura = entity.aura

theorem Fades.of_same
    (same : ∀ id, (after.entity? id).map Entity.aura = (before.entity? id).map Entity.aura) :
    Fades before after := by
  intro id entity known
  have auras := same id
  rw [known] at auras
  exact .inr (Option.map_eq_some_iff.mp auras.symm)

theorem Fades.trans {middle : Duel} (first : Fades before middle) (second : Fades middle after) :
    Fades before after := by
  intro id entity known
  obtain none' | ⟨old, knownOld, same⟩ := second id entity known
  · exact .inl none'
  · rw [← same]
    exact first id old knownOld

theorem fades_updateEntity (duel : Duel) (id : EntityId) {change : Entity → Entity}
    (fades : ∀ entity, (change entity).aura = AuraTotal.zero ∨
      (change entity).aura = entity.aura) :
    Fades duel (duel.updateEntity id change) := by
  intro other entity known
  rw [entity?_updateEntity] at known
  split at known
  · obtain ⟨old, knownOld, rfl⟩ := Option.map_eq_some_iff.mp known
    exact (fades old).imp_right fun same => ⟨old, knownOld, same.symm⟩
  · exact .inr ⟨entity, known, rfl⟩

theorem aura_afterPlay (duel : Duel) (goal : ZoneKind) (entity : Entity) :
    (duel.afterPlay goal entity).aura = AuraTotal.zero := by
  unfold afterPlay
  dsimp only
  split
  · split <;> rfl
  · rfl

/-- Who leaves a zone keeps what it carries or loses it, and takes nothing of it from others. -/
theorem fades_of_parted {entity : Entity} {goal : ZoneKind}
    (known : before.entity? id = some entity)
    (bodies : ∀ other, after.body? other = if other = id then some (before.partedBody goal entity)
      else (before.body? other).map (bereave id entity)) : Fades before after := by
  intro other held knownHeld
  have body := bodies other
  rw [body?_of_entity? knownHeld] at body
  split at body
  next itself =>
    have same : held.body = before.partedBody goal entity := Option.some.inj body
    rw [show held.aura = held.body.aura from rfl, same, partedBody]
    split
    · exact .inl (before.aura_afterPlay goal entity)
    · exact .inr ⟨entity, itself ▸ known, rfl⟩
  next =>
    obtain ⟨old, knownOld, same⟩ := Option.map_eq_some_iff.mp body.symm
    obtain ⟨older, knownOlder, rfl⟩ := Option.map_eq_some_iff.mp knownOld
    refine .inr ⟨older, knownOlder, ?_⟩
    rw [show held.aura = held.body.aura from rfl, ← same, bereave]
    split <;> rfl

theorem Stir.fades (stir : Stir before after) :
    after = before.updateAuras ∨ Fades before after := by
  have still : Fades before before := .of_same fun _ => rfl
  cases stir with
  | revise id revision =>
      exact .inr (fades_updateEntity before id fun entity => .inr (revision.aura entity))
  | heal amount known => exact .inr (fades_updateEntity before _ fun _ => .inr rfl)
  | silence id =>
      exact .inr (fades_updateEntity before id fun entity =>
        .inr (Entity.aura_keepHealth _ entity))
  | @transform id entity form card known listed kind =>
      obtain ⟨triggers, started⟩ := startTriggers_eq ((before.dropTriggers id).updateEntity id
        fun entity => entity.replacedBy card) id entity.zone
      rw [started]
      exact .inr (fades_updateEntity (before.dropTriggers id) id fun _ => .inl rfl)
  | auras => exact .inl rfl
  | expire =>
      exact .inr (.of_same fun id => before.map_updateAll id fun _ entity => entity.aura_expire)
  | fall fallen =>
      exact .inr (.of_same fun id => before.map_markFallen fallen id fun _ _ => rfl)
  | _ => exact .inr still

/-- Only a pass gives auras: whatever else happens, an entity keeps them or loses them all. -/
theorem Change.fades (change : Change before after) :
    after = before.updateAuras ∨ Fades before after := by
  have still : Fades before before := .of_same fun _ => rfl
  cases change with
  | shift shift =>
      cases shift with
      | stir stir => exact stir.fades
      | relocate placement known allowed room =>
          exact .inr (fades_of_parted known (body?_relocate known _ placement))
      | handOver known other =>
          exact .inr ((fades_of_parted known (body?_leaveZone known .unplaced)).trans
            (fades_updateEntity _ _ fun _ => .inr rfl))
      | create owner listed instantiable =>
          refine .inr fun id entity known => ?_
          change Arena.get? _ _ = _ at known
          rw [Arena.get?_push] at known
          split at known
          · cases known
            exact .inl rfl
          · exact .inr ⟨entity, known, rfl⟩
      | @shuffle player zone shuffled container reordered =>
          refine .inr (.of_same fun id => ?_)
          have bodies := congrArg (Option.map Entity.aura) (body?_renumber
            { before with zones := before.zones.set player .deck { zone with members := shuffled } }
            player .deck id)
          rw [body?, body?, Option.map_map, Option.map_map] at bodies
          exact bodies
  | _ => exact .inr still

/-- A pass gives what auras of the catalogue give. -/
theorem carries_updateAuras (duel : Duel) : duel.updateAuras.Carries duel.catalogue.Gives := by
  intro id entity reached
  rw [aura_updateAuras reached]
  refine AuraTotal.within_sum fun modifier member gift gives => ?_
  obtain ⟨offer, chosen, rfl⟩ := List.mem_map.mp member
  obtain ⟨entry, listed, aura⟩ := exists_entry_of_offer (List.mem_of_mem_filter chosen)
  exact ⟨entry, listed, offer.aura, aura, gives⟩

/-- Nothing reaches anybody but what auras of the catalogue give. -/
theorem Change.carries (change : Change before after)
    (carries : before.Carries before.catalogue.Gives) :
    after.Carries before.catalogue.Gives := by
  rcases change.fades with rfl | fades
  · exact before.carries_updateAuras
  intro id entity known
  obtain none' | ⟨old, knownOld, same⟩ := fades id entity known
  · rw [none']
    exact AuraTotal.within_zero
  · rw [← same]
    exact carries id old knownOld

theorem carries_of_reaches (created : Duel.create settings catalogue = .ok start)
    (reaches : ReflTransGen Change start duel) : duel.Carries catalogue.Gives := by
  obtain ⟨bare, begun, quiets⟩ := create_quiet created
  -- The bare duel knows no entity, and no change gives it another catalogue.
  have all := (Shift.changes (Quiet.shifts quiets)).trans reaches
  clear reaches
  have listed : bare.catalogue = catalogue := by
    obtain ⟨first, dice, zero, one, rfl⟩ := bare_eq begun
    rfl
  induction all with
  | refl =>
      obtain ⟨first, dice, zero, one, rfl⟩ := bare_eq begun
      intro id entity known
      cases (Arena.get?_empty id).symm.trans known
  | tail reached change ih =>
      have same := (Change.fixed_of_reaches reached).2.trans listed
      rw [← same] at ih ⊢
      exact change.carries ih

end Duel

theorem Entity.withAura_self (entity : Entity) : entity.withAura entity.aura = entity :=
  if_pos rfl

theorem Arena.updateAll_eq_self {arena : Arena} {change : EntityId → Entity → Entity}
    (same : ∀ id entity, arena.get? id = some entity → change id entity = entity) :
    arena.updateAll change = arena := by
  cases arena with
  | mk entities =>
    refine congrArg Arena.mk (Array.ext_getElem? fun place => ?_)
    rw [Array.getElem?_mapIdx]
    cases known : entities[place]? with
    | none => rfl
    | some entity =>
        exact congrArg some (same (idAt place) entity ((get?_idAt ..).trans known))

namespace Duel

variable {duel : Duel} {id : EntityId}

/-! ## The second pass -/

/-- Whether the offers come to the same total for an entity when their conditions are judged again
after a pass. -/
def Stable (duel : Duel) (id : EntityId) : Prop :=
  duel.updateAuras.admitted duel.offers id = duel.admitted duel.offers id

/-- A second pass leaves alone whose total is stable, and nobody else. -/
theorem withAura_again {entity : Entity} (reached : duel.updateAuras.entity? id = some entity) :
    entity.withAura (totalFor duel.updateAuras.contributions id) = entity ↔ duel.Stable id := by
  have aura := aura_updateAuras reached
  have again : totalFor duel.updateAuras.contributions id =
      duel.updateAuras.admitted duel.offers id := by
    rw [totalFor_contributions, offers_updateAuras]
  rw [again]
  constructor
  · intro same
    have total := congrArg Entity.aura same
    rwa [Entity.aura_withAura, aura] at total
  · intro stable
    rw [stable, ← aura]
    exact entity.withAura_self

/-- A second pass changes nothing exactly when all totals are stable. -/
theorem updateAuras_eq_self_iff (duel : Duel) :
    duel.updateAuras.updateAuras = duel.updateAuras ↔
      ∀ id entity, duel.entity? id = some entity → duel.Stable id := by
  constructor
  · intro twice id entity known
    have reached : duel.updateAuras.entity? id = some _ :=
      (entity?_updateAuras duel id).trans (congrArg _ known)
    rw [← withAura_again reached]
    have again := entity?_updateAuras duel.updateAuras id
    rw [twice, reached] at again
    exact (Option.some.inj again).symm
  · intro stable
    have still : (duel.updateAuras.arena.updateAll fun id entity =>
        entity.withAura (totalFor duel.updateAuras.contributions id)) = duel.updateAuras.arena := by
      refine Arena.updateAll_eq_self fun id entity reached => (withAura_again reached).mpr ?_
      have known := (entity?_updateAuras duel id).symm.trans reached
      obtain ⟨old, known, -⟩ := Option.map_eq_some_iff.mp known
      exact stable id old known
    exact congrArg (fun arena => { duel.updateAuras with arena := arena }) still

/-- Offers that a pass does not change the verdict on come to the same total. -/
theorem stable_of_admits
    (same : ∀ offer ∈ duel.offers, duel.updateAuras.admits offer = duel.admits offer) :
    duel.Stable id := by
  unfold Stable admitted
  congr 2
  refine List.filter_congr fun offer member => ?_
  rw [same offer member]

/-- A pass does not change whom a condition admits that is on nothing that auras give. -/
theorem admits_updateAuras {offer : Offer} {gives : Gift → Prop} (carries : duel.Carries gives)
    (still : duel.updateAuras.Carries gives)
    (calm : ∀ condition, offer.aura.condition = some condition →
      ∀ gift ∈ condition.reads, ¬ gives gift) :
    duel.updateAuras.admits offer = duel.admits offer := by
  unfold admits
  split
  · rfl
  next condition conditional =>
    unfold satisfies
    rw [entity?_updateAuras]
    cases known : duel.entity? offer.target with
    | none => rfl
    | some entity =>
        have passing : duel.Passing gives offer.target entity := ⟨carries, still, known⟩
        exact passing.judge offer.view condition (calm condition conditional)

/-- At any time in a match, a second pass changes nothing exactly when the offers come to the same
totals after the first one, and under a steady catalogue they do. -/
theorem updateAuras_updateAuras {settings : Settings} {catalogue : Catalogue} {start : Duel}
    (created : Duel.create settings catalogue = .ok start)
    (reaches : ReflTransGen Change start duel) :
    (duel.updateAuras.updateAuras = duel.updateAuras ↔
        ∀ id entity, duel.entity? id = some entity → duel.Stable id) ∧
      (catalogue.Steady → duel.updateAuras.updateAuras = duel.updateAuras) := by
  refine ⟨duel.updateAuras_eq_self_iff, fun steady => ?_⟩
  have carries := carries_of_reaches created reaches
  have still := carries_of_reaches created (reaches.tail (.shift (.stir (.auras duel))))
  have same : duel.catalogue = catalogue :=
    (Change.fixed_of_reaches reaches).2.trans (fixed_of_created created).2
  refine duel.updateAuras_eq_self_iff.mpr fun id entity _ => ?_
  refine stable_of_admits fun offer offered => ?_
  obtain ⟨entry, listed, aura⟩ := exists_entry_of_offer offered
  rw [same] at listed
  exact admits_updateAuras carries still (steady entry listed offer.aura aura)

end Duel

/-! ## An aura that takes itself away -/

/-- An imp that gives every friendly minion of a kind one more attack, itself included. -/
def Catalogue.imps (condition : Condition) : Catalogue :=
  .ofEntries
    [⟨Card.hero ⟨1⟩ "HERO" "" .mage 30 "POWER", Behaviour.none⟩,
      ⟨Card.power ⟨2⟩ "POWER" "" 2, Behaviour.none⟩,
      ⟨{ Card.minion ⟨3⟩ "IMP" "" 0 1 1 with collectible := true },
        { Behaviour.none with
          aura := some ⟨.field, { Modifier.none with attack := 1 }, some condition⟩ }⟩]
    [(.mage, ⟨1⟩)] (of_decide_eq_true rfl) (of_decide_eq_true rfl)

theorem Catalogue.aura_imps {condition : Condition} {entry : CatalogueEntry} {aura : Aura}
    (listed : entry ∈ (Catalogue.imps condition).entries)
    (projected : entry.behaviour.aura = some aura) :
    aura = ⟨.field, { Modifier.none with attack := 1 }, some condition⟩ := by
  simp only [imps, entries_ofEntries, List.mem_cons, List.not_mem_nil, or_false] at listed
  rcases listed with rfl | rfl | rfl
  · cases projected
  · cases projected
  · exact (Option.some.inj projected).symm

/-- Player zero draws an imp. -/
def Settings.imps : Settings :=
  { Settings.standard with decks := [["IMP"], []], shuffleDecks := false }

/-- If it gives attack to undamaged minions, every pass repeats the one before. -/
theorem Duel.updateAuras_updateAuras_imps :
    ∃ duel after, Duel.create Settings.imps (Catalogue.imps (.is .undamaged)) = .ok duel ∧
      duel.Runs 100 [.start, .take .zero (.play ⟨4⟩)] after ∧
        ReflTransGen Change duel after ∧ (Catalogue.imps (.is .undamaged)).Steady ∧
          after.updateAuras.updateAuras = after.updateAuras := by
  obtain ⟨duel, after, created, runs, -⟩ :=
    exists_of_outcome Settings.imps (Catalogue.imps (.is .undamaged)) 100
      [.start, .take .zero (.play ⟨4⟩)] (fun _ => true) (by decide +kernel)
  have steady : (Catalogue.imps (.is .undamaged)).Steady := by
    intro entry listed aura projected condition conditional gift read gives
    rw [Catalogue.aura_imps listed projected] at conditional
    cases conditional
    rw [List.mem_singleton.mp read] at gives
    obtain ⟨other, listed, given, projected, health⟩ := gives
    rw [Catalogue.aura_imps listed projected] at health
    exact health rfl
  have reaches := reaches_of_runs runs
  exact ⟨duel, after, created, runs, reaches, steady,
    (updateAuras_updateAuras created reaches).2 steady⟩

/-- If it gives attack to minions that have at most one, every pass undoes what the one before it
did. -/
theorem Duel.not_stable_imps :
    ∃ duel after, Duel.create Settings.imps (Catalogue.imps (.attackAtMost 1)) = .ok duel ∧
      duel.Runs 100 [.start, .take .zero (.play ⟨4⟩)] after ∧
        after.updateAuras.updateAuras ≠ after.updateAuras := by
  obtain ⟨duel, after, created, runs, comes⟩ :=
    exists_of_outcome Settings.imps (Catalogue.imps (.attackAtMost 1)) 100
      [.start, .take .zero (.play ⟨4⟩)]
      (fun after => after.updateAuras.updateAuras.attackOf ⟨4⟩ ≠ after.updateAuras.attackOf ⟨4⟩)
      (by decide +kernel)
  refine ⟨duel, after, created, runs, fun twice => ?_⟩
  exact of_decide_eq_true comes (congrArg (fun duel : Duel => duel.attackOf ⟨4⟩) twice)

end CardDuel
