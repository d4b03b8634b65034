import CardDuel.Proofs.Calls
import CardDuel.Proofs.Listeners
import CardDuel.Proofs.Registration
import CardDuel.Proofs.Rounds

/-!
# The aura pass

A source offers its aura to everybody in its reach, and the condition of the aura admits some of
them.  A pass gives every entity the total of the offers that are admitted, and changes no offer.
-/

namespace CardDuel

open Relation

/-! ## Totals -/

namespace AuraTotal

/-- The total of some modifiers: stats add up, and whatever one of them grants is granted once. -/
structure Totals (total : AuraTotal) (modifiers : List Modifier) : Prop where
  attack : total.attack = (modifiers.map Modifier.attack).sum
  health : total.health = (modifiers.map Modifier.health).sum
  cost : total.cost = (modifiers.map Modifier.cost).sum
  granted : ∀ tag, tag ∈ total.grants ↔ ∃ modifier ∈ modifiers, tag ∈ modifier.grants
  once : total.grants.Nodup

theorem mem_grant {granted : List Tag} {tag other : Tag} :
    tag ∈ grant granted other ↔ tag ∈ granted ∨ tag = other := by
  unfold grant
  split
  next held =>
    refine ⟨.inl, fun member => member.elim id ?_⟩
    rintro rfl
    exact List.contains_iff_mem.mp held
  · rw [List.mem_append, List.mem_singleton]

theorem nodup_grant {granted : List Tag} (nodup : granted.Nodup) (tag : Tag) :
    (grant granted tag).Nodup := by
  unfold grant
  split
  · exact nodup
  next missing =>
    refine List.nodup_append.mpr ⟨nodup, List.nodup_singleton tag, ?_⟩
    rintro held member other last rfl
    rw [List.mem_singleton.mp last] at member
    exact missing (List.contains_iff_mem.mpr member)

theorem mem_grants {granted tags : List Tag} {tag : Tag} :
    tag ∈ tags.foldl grant granted ↔ tag ∈ granted ∨ tag ∈ tags := by
  induction tags generalizing granted with
  | nil => simp
  | cons first tags ih => rw [List.foldl_cons, ih, mem_grant, List.mem_cons, or_assoc]

theorem nodup_grants {granted tags : List Tag} (nodup : granted.Nodup) :
    (tags.foldl grant granted).Nodup := by
  induction tags generalizing granted with
  | nil => exact nodup
  | cons first tags ih => exact ih (nodup_grant nodup first)

theorem Totals.add {total : AuraTotal} {modifiers : List Modifier}
    (totals : total.Totals modifiers) (modifier : Modifier) :
    (total.add modifier).Totals (modifiers ++ [modifier]) where
  attack := by simp [AuraTotal.add, totals.attack]
  health := by simp [AuraTotal.add, totals.health]
  cost := by simp [AuraTotal.add, totals.cost]
  granted tag := by
    rw [AuraTotal.add, mem_grants, totals.granted]
    simp [or_and_right, exists_or]
  once := nodup_grants totals.once

theorem totals_sum (modifiers : List Modifier) : (sum modifiers).Totals modifiers := by
  have all (total : AuraTotal) (done rest : List Modifier) (totals : total.Totals done) :
      (rest.foldl AuraTotal.add total).Totals (done ++ rest) := by
    induction rest generalizing total done with
    | nil =>
        rw [List.append_nil]
        exact totals
    | cons modifier rest ih =>
        rw [List.append_cons]
        exact ih _ _ (totals.add modifier)
  exact all zero [] modifiers ⟨rfl, rfl, rfl, by simp [zero], List.nodup_nil⟩

end AuraTotal

/-- An aura and an entity in its reach, whether or not the condition of the aura admits it. -/
structure Offer where
  /-- On whose side the aura has its source, and the source. -/
  view : Viewpoint
  aura : Aura
  target : EntityId

namespace Duel

variable {duel : Duel} {id : EntityId}

/-! ## Offers -/

/-- What one source offers. -/
def offersOf (duel : Duel) (player : Player) (source : EntityId) : List Offer :=
  match duel.projected? source with
  | none => []
  | some aura => (duel.reached source player aura.reach).map fun id => ⟨⟨player, source⟩, aura, id⟩

/-- What all the sources on the table offer. -/
def offers (duel : Duel) : List Offer :=
  Player.both.flatMap fun player =>
    (duel.auraSources player).flatMap fun source => duel.offersOf player source

/-- Whether the condition of the aura admits the entity. -/
def admits (duel : Duel) (offer : Offer) : Bool :=
  match offer.aura.condition with
  | none => true
  | some condition => duel.satisfies offer.view condition offer.target

/-- The auras contribute what is offered and admitted. -/
theorem contributions_eq (duel : Duel) :
    duel.contributions =
      (duel.offers.filter duel.admits).map fun offer => (offer.target, offer.aura.effect) := by
  have one (player : Player) (source : EntityId) : duel.contributionsOf player source =
      ((duel.offersOf player source).filter duel.admits).map
        fun offer => (offer.target, offer.aura.effect) := by
    unfold contributionsOf offersOf
    cases duel.projected? source with
    | none => rfl
    | some aura =>
        dsimp only
        rw [List.filter_map, List.map_map]
        rfl
  simp only [contributions, offers, one, List.filter_flatMap, List.map_flatMap]

/-! ## What a pass leaves alone -/

/-- What an entity projects depends on its stance alone. -/
theorem projection_congr {first second : Entity} (same : first.stance = second.stance) :
    (if first.tags.has .silenced || !first.inPlay then none else (duel.behaviourOf first).aura) =
      if second.tags.has .silenced || !second.inPlay then none
      else (duel.behaviourOf second).aura := by
  have silenced : first.tags.has .silenced = second.tags.has .silenced :=
    congrArg Stance.silenced same
  have inPlay : first.inPlay = second.inPlay :=
    congrArg (fun stance : Stance => decide (stance.zone = .play)) same
  have card : first.card = second.card := congrArg (fun stance : Stance => stance.card) same
  rw [silenced, inPlay, behaviourOf, behaviourOf, card]

theorem projected?_updateAuras (duel : Duel) (source : EntityId) :
    duel.updateAuras.projected? source = duel.projected? source := by
  unfold projected?
  rw [entity?_updateAuras]
  cases duel.entity? source with
  | none => rfl
  | some entity => exact projection_congr (entity.stance_withAura _)

/-- A pass leaves the same auras within the same reach. -/
theorem offers_updateAuras (duel : Duel) : duel.updateAuras.offers = duel.offers := by
  have one (player : Player) (source : EntityId) :
      duel.updateAuras.offersOf player source = duel.offersOf player source := by
    unfold offersOf
    rw [projected?_updateAuras]
    cases duel.projected? source with
    | none => rfl
    | some aura =>
        have reach : duel.updateAuras.reached source player aura.reach =
            duel.reached source player aura.reach := by
          cases aura.reach <;> rfl
        dsimp only
        rw [reach]
  unfold offers
  simp only [one]
  rfl

/-! ## What a pass gives -/

/-- What comes to an entity from the offers that are admitted. -/
def admitted (duel : Duel) (offers : List Offer) (id : EntityId) : AuraTotal :=
  AuraTotal.sum ((offers.filter fun offer => duel.admits offer && offer.target = id).map
    fun offer => offer.aura.effect)

theorem totalFor_contributions (duel : Duel) (id : EntityId) :
    totalFor duel.contributions id = duel.admitted duel.offers id := by
  unfold totalFor admitted
  rw [contributions_eq, List.filter_map, List.filter_filter, List.map_map]
  congr 2
  exact List.filter_congr fun offer _ => Bool.and_comm ..

theorem aura_updateAuras {entity : Entity} (reached : duel.updateAuras.entity? id = some entity) :
    entity.aura = duel.admitted duel.offers id := by
  rw [entity?_updateAuras] at reached
  obtain ⟨old, -, rfl⟩ := Option.map_eq_some_iff.mp reached
  rw [Entity.aura_withAura, totalFor_contributions]

theorem exists_entry_of_offer {offer : Offer} (offered : offer ∈ duel.offers) :
    ∃ entry ∈ duel.catalogue.entries, entry.behaviour.aura = some offer.aura := by
  simp only [offers, List.mem_flatMap] at offered
  obtain ⟨player, -, source, -, offered⟩ := offered
  unfold offersOf at offered
  split at offered
  · cases offered
  next aura projected =>
    obtain ⟨id, -, rfl⟩ := List.mem_map.mp offered
    unfold projected? at projected
    split at projected
    · cases projected
    split at projected
    · cases projected
    next entity _ _ =>
      unfold behaviourOf at projected
      cases found : duel.catalogue.behaviour? entity.card with
      | none =>
          rw [found] at projected
          cases projected
      | some behaviour =>
          rw [found] at projected
          obtain ⟨card, listed⟩ := Catalogue.mem_entries_of_behaviour? found
          exact ⟨_, listed, projected⟩

end Duel

end CardDuel
