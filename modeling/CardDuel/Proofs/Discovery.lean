import CardDuel.Proofs.Making
import CardDuel.Proofs.Recovery

/-!
# Discoveries

A discovery makes different cards of the pool of its player's class and offers the copies, which wait
set aside.  The one that is taken comes to the hand, or to the graveyard if the hand is full.  The
others leave the match, so none is left aside.
-/

namespace CardDuel

namespace Duel

variable {duel before left middle after : Duel} {player : Player} {pick : EntityId}
variable {options earlier later : List EntityId} {goal : ZoneKind}

/-- The cards that a player may discover. -/
def discoverable (duel : Duel) (player : Player) (cardType : CardType) (race : Race) : List CardId :=
  duel.catalogue.classPool duel.settings.format (duel.player player).cardClass cardType race

/-- A card that a player may discover: a collectible one that is legal in the format of the match, of
the class of the player or of none, and of the type and race that are asked for. -/
def MayDiscover (duel : Duel) (player : Player) (cardType : CardType) (race : Race)
    (form : CardId) : Prop :=
  ∃ card, duel.catalogue.card? form = some card ∧ card.collectible = true ∧
    duel.settings.format.includes card.set = true ∧
    (card.cardClass = (duel.player player).cardClass ∨ card.cardClass = .neutral) ∧
    card.cardType.meets cardType = true ∧ (race = .unset ∨ card.race.belongsTo race = true)

theorem mem_discoverable_iff {cardType : CardType} {race : Race} {form : CardId} :
    form ∈ duel.discoverable player cardType race ↔
      duel.MayDiscover player cardType race form :=
  duel.catalogue.agrees.mem_classPool_iff

/-- Where an option goes that is taken. -/
def pickGoal (duel : Duel) (player : Player) : ZoneKind :=
  if duel.zones.isFull player .hand then .graveyard else .hand

theorem pickGoal_cases (duel : Duel) (player : Player) :
    duel.pickGoal player = .graveyard ∨ duel.pickGoal player = .hand := by
  unfold pickGoal
  split <;> simp

/-- One of the options that were set aside has come to the end of a zone, and the others have left
the match.  Nobody else has moved. -/
structure Obtains (player : Player) (pick : EntityId) (options : List EntityId) (goal : ZoneKind)
    (before after : Duel) : Prop where
  taken : after.members player goal = before.members player goal ++ [pick]
  aside : after.members player .setAside =
    (before.members player .setAside).filter fun id => id ∉ options
  elsewhere : ∀ owner zone, ¬ (owner = player ∧ (zone = goal ∨ zone = .setAside)) →
    after.members owner zone = before.members owner zone
  posts : ∀ id, after.table.post? id =
    if id = pick then (before.table.post? id).map fun post => { post with zone := goal }
    else if id ∈ options then (before.table.post? id).map fun post => { post with zone := .removed }
    else before.table.post? id
  rearranges : before.Rearranges after
  sound : after.WellPlaced

/-- Whether a zone is full is told by its members. -/
theorem WellPlaced.isFull_congr {zone : ZoneKind} (sound : before.WellPlaced)
    (soundAfter : after.WellPlaced) (container : zone.IsContainer)
    (settings : after.settings = before.settings)
    (same : after.members player zone = before.members player zone) :
    after.zones.isFull player zone = before.zones.isFull player zone := by
  rw [Bool.eq_iff_iff, ← not_iff_not, Bool.not_eq_true, Bool.not_eq_true,
    soundAfter.isFull_iff player container, sound.isFull_iff player container, settings, same]

/-- The options are filtered out everywhere, and the one that is taken comes back. -/
theorem members_of_phases (afterPick : pick ∉ later) (container : goal.IsContainer)
    (first : Gathers earlier player .removed before left)
    (placed : Transfers pick player goal .top left middle)
    (last : Gathers later player .removed middle after) (owner : Player) (zone : ZoneKind) :
    after.members owner zone =
      (before.members owner zone).filter (fun id => id ∉ earlier ++ pick :: later) ++
        if owner = player ∧ zone = goal then [pick] else [] := by
  have merged : ((before.members owner zone).filter fun id => id ∉ earlier).filter
      (fun id => id ∉ pick :: later) =
        (before.members owner zone).filter fun id => id ∉ earlier ++ pick :: later := by
    rw [List.filter_filter]
    refine List.filter_congr fun id _ => ?_
    simp [Bool.and_comm]
  have swept : left.members owner zone =
      (before.members owner zone).filter fun id => id ∉ earlier := by
    rw [first.members, if_neg fun all => absurd all.2 (by decide), List.append_nil]
  rw [last.members, if_neg fun all => absurd all.2 (by decide), List.append_nil,
    placed.members, ← merged, ← swept, ← first.sound.filter_erase pick later]
  by_cases here : owner = player ∧ zone = goal
  · rw [if_pos ⟨here, container⟩, if_pos here, Placement.among, List.insertIdx_length_self,
      List.filter_append]
    simp [afterPick]
  · rw [if_neg fun all => here all.1, if_neg here, List.append_nil]

/-- Removing the options before the pick, placing the pick and removing the others comes to taking
the pick. -/
theorem obtains_of_phases (sound : before.WellPlaced)
    (aside : earlier ++ pick :: later ⊆ before.members player .setAside)
    (distinct : (earlier ++ pick :: later).Nodup)
    (away : goal ≠ .setAside) (container : goal.IsContainer)
    (first : Gathers earlier player .removed before left)
    (placed : Transfers pick player goal .top left middle)
    (last : Gathers later player .removed middle after) :
    Obtains player pick (earlier ++ pick :: later) goal before after := by
  obtain ⟨-, following, apart⟩ := List.nodup_append.mp distinct
  obtain ⟨afterPick, -⟩ := List.nodup_cons.mp following
  have beforePick : pick ∉ earlier := fun inside =>
    apart pick inside pick List.mem_cons_self rfl
  have members := members_of_phases afterPick container first placed last
  have elsewhere {owner : Player} {zone : ZoneKind}
      (other : ¬ (owner = player ∧ zone = .setAside)) :
      (before.members owner zone).filter (fun id => id ∉ earlier ++ pick :: later) =
        before.members owner zone :=
    filter_of_disjoint fun id member inside => sound.disjoint_members other member (aside inside)
  constructor
  case taken => rw [members, if_pos ⟨rfl, rfl⟩, elsewhere fun both => away both.2]
  case aside =>
    rw [members, if_neg fun both => away both.2.symm, List.append_nil]
  case elsewhere =>
    intro owner zone other
    rw [members, if_neg fun both => other ⟨both.1, .inl both.2⟩, List.append_nil]
    exact elsewhere fun both => other ⟨both.1, .inr both.2⟩
  case posts =>
    intro id
    simp only [last.posts, placed.posts, first.posts]
    by_cases same : id = pick
    · simp [same, afterPick, beforePick]
    · by_cases inFirst : id ∈ earlier
      · have notLater : id ∉ later := fun inLater =>
          apart id inFirst id (List.mem_cons_of_mem pick inLater) rfl
        simp [same, inFirst, notLater]
      · simp [same, inFirst]
  case rearranges => exact (first.rearranges.trans placed.rearranges).trans last.rearranges
  case sound => exact last.sound

end Duel

namespace Play

open Duel

variable {duel : Duel} {resolution : Resolution} {cardType : CardType} {race : Race}
variable {player : Player} {pick : EntityId} {options : List EntityId}

/-! ## The offer -/

/-- A discovery with something to discover makes different cards and offers them. -/
theorem perform_discover (sound : duel.WellPlaced)
    (inhabited : duel.discoverable resolution.context.controller cardType race ≠ [])
    (instantiable : ∀ form ∈ duel.discoverable resolution.context.controller cardType race,
      duel.catalogue.Instantiable form) :
    ∃ forms options made, perform resolution (.discover cardType race) duel =
        .ok (.suspended, resolution)
          (made.setChoice resolution.context.controller (some ⟨.discover, options⟩)) ∧
      duel.Creates resolution.context.controller forms options made ∧
        forms ⊆ duel.discoverable resolution.context.controller cardType race ∧ forms.Nodup ∧
          options.length = min discoverOptions
            (duel.discoverable resolution.context.controller cardType race).length := by
  let pool := duel.discoverable resolution.context.controller cardType race
  have goes : perform resolution (.discover cardType race) duel =
      (if pool.isEmpty then return (.stop, resolution)
      else
        roll (fun dice => dice.sampleOf pool discoverOptions) >>= fun cards =>
          setAsideAll resolution.context.controller cards >>= fun options => do
            modify fun duel =>
              duel.setChoice resolution.context.controller (some ⟨.discover, options⟩)
            return (.suspended, resolution) : Play (Outcome × Resolution)) duel := rfl
  have drawn : (duel.dice.sampleOf pool discoverOptions).1 ⊆ pool := fun form member =>
    Dice.mem_of_mem_sampleOf _ _ _ member
  have distinct : (duel.dice.sampleOf pool discoverOptions).1.Nodup :=
    Dice.nodup_sampleOf _ _ duel.catalogue.agrees.nodup_classPool
  obtain ⟨options, made, creates, on⟩ := exists_rolled resolution.context.controller sound
    (fun dice => dice.sampleOf pool discoverOptions) fun form member =>
      instantiable form (drawn member)
  refine ⟨_, options, made, ?_, creates, drawn, distinct, ?_⟩
  · rw [goes, if_neg (by simpa using inhabited)]
    exact on _
  · rw [creates.copies.length_eq]
    exact Dice.length_sampleOf duel.dice pool discoverOptions

/-! ## The answer -/

/-- A card that is set aside goes to the hand, or to the graveyard if the hand is full. -/
theorem exists_sendOrElse (sound : duel.WellPlaced) (aside : pick ∈ duel.members player .setAside) :
    ∃ after, sendOrElse pick .hand .graveyard duel = .ok () after ∧
      Transfers pick player (duel.pickGoal player) .top duel after := by
  have loose : duel.Loose player pick := sound.loose_of_mem aside (by decide)
  unfold pickGoal sendOrElse
  cases full : duel.zones.isFull player .hand with
  | false =>
      obtain ⟨after, moved, transfers⟩ := exists_move .top sound loose (by decide) full
      exact ⟨after, bind_of_ok moved, transfers⟩
  | true =>
      obtain ⟨after, moved, transfers⟩ := exists_move .top sound loose (by decide)
        (sound.isFull_of_unbounded player (by decide : ZoneKind.graveyard.IsContainer) rfl)
      obtain ⟨kind, posted⟩ := sound.posted_of_mem aside
      obtain ⟨entity, known, owner, -, zone⟩ := exists_of_post? posted
      have unheld : entity.zone ≠ .hand := fun inHand => nomatch zone.symm.trans inHand
      have away : duel.TurnsAway entity .hand := ⟨rfl, unheld, owner.symm ▸ full⟩
      refine ⟨after, (bind_of_ok (move_of_turnsAway known (by simp) away)).trans ?_, transfers⟩
      change send pick .graveyard duel = _
      unfold send
      rw [discard_apply, moved]

/-- Where the pick is not among them, the options are removed. -/
theorem settleOptions_of_not_mem (others : pick ∉ options) :
    settleOptions pick options = options.forM fun id => send id .removed := by
  induction options with
  | nil => rfl
  | cons id ids ih =>
      obtain ⟨differs, others⟩ := not_or.mp (mt List.mem_cons.mpr others)
      change ((if id = pick then _ else _ : Play Unit) >>= fun _ => settleOptions pick ids) =
        (send id .removed >>= fun _ => ids.forM fun id => send id .removed)
      rw [if_neg (Ne.symm differs), ih others]

theorem settleOptions_append (earlier later : List EntityId) :
    settleOptions pick (earlier ++ pick :: later) = (do
      settleOptions pick earlier
      sendOrElse pick .hand .graveyard
      settleOptions pick later) := by
  refine List.forM_append.trans (congrArg _ (funext fun _ => ?_))
  change ((if pick = pick then _ else _ : Play Unit) >>= fun _ => settleOptions pick later) = _
  rw [if_pos rfl]

/-- When an option is taken that waits with the others, it goes where there is room, and the others
leave the match. -/
theorem exists_settleOptions (sound : duel.WellPlaced) (distinct : options.Nodup)
    (aside : options ⊆ duel.members player .setAside) (picked : pick ∈ options) :
    ∃ after, settleOptions pick options duel = .ok () after ∧
      Obtains player pick options (duel.pickGoal player) duel after := by
  obtain ⟨earlier, later, rfl⟩ := List.append_of_mem picked
  obtain ⟨firstDistinct, following, apart⟩ := List.nodup_append.mp distinct
  obtain ⟨afterPick, lastDistinct⟩ := List.nodup_cons.mp following
  have beforePick : pick ∉ earlier := fun inside =>
    apart pick inside pick List.mem_cons_self rfl
  have loose {id : EntityId} (option : id ∈ earlier ++ pick :: later) : duel.Loose player id :=
    sound.loose_of_mem (aside option) (by decide)
  obtain ⟨left, removed, first⟩ := exists_forM_send sound firstDistinct
    (fun id member => loose (List.mem_append_left _ member))
    (by decide : ZoneKind.removed ≠ .play) fun _ => rfl
  have stays {zone : ZoneKind} {id : EntityId} (others : id ∉ earlier)
      (member : id ∈ duel.members player zone) : id ∈ left.members player zone := by
    rw [first.members]
    exact List.mem_append_left _ (List.mem_filter.mpr ⟨member, by simpa using others⟩)
  have hand : left.members player .hand = duel.members player .hand := by
    rw [first.members, if_neg fun all => absurd all.2 (by decide), List.append_nil]
    exact filter_of_disjoint fun id member inside =>
      sound.disjoint_members (by simp) member (aside (List.mem_append_left _ inside))
  have goal : left.pickGoal player = duel.pickGoal player := by
    unfold pickGoal
    rw [sound.isFull_congr first.sound (by decide) first.rearranges.settings hand]
  obtain ⟨middle, sent, placed⟩ := exists_sendOrElse first.sound (stays beforePick (aside picked))
  rw [goal] at placed
  have notSetAside : duel.pickGoal player ≠ .setAside ∧ (duel.pickGoal player).IsContainer := by
    rcases duel.pickGoal_cases player with grave | hand <;> simp only [*] <;> decide
  have looseLater (id : EntityId) (member : id ∈ later) : middle.Loose player id := by
    refine placed.loose (fun same => afterPick (same ▸ member)) ?_
    refine first.sound.loose_of_mem (stays (fun inside => ?_) (aside ?_)) (by decide)
    · exact apart id inside id (List.mem_cons_of_mem pick member) rfl
    · exact List.mem_append_right earlier (List.mem_cons_of_mem pick member)
  obtain ⟨after, removedLater, last⟩ := exists_forM_send placed.sound lastDistinct looseLater
    (by decide : ZoneKind.removed ≠ .play) fun _ => rfl
  refine ⟨after, ?_, obtains_of_phases sound aside distinct notSetAside.1 notSetAside.2 first placed
    last⟩
  rw [settleOptions_append, settleOptions_of_not_mem beforePick,
    settleOptions_of_not_mem afterPick, bind_of_ok removed, bind_of_ok sent, removedLater]

/-- A discovery is answered by one of its options, and nothing but settling the options comes before
the list that waits goes on. -/
theorem exists_choose (sound : duel.WellPlaced)
    (pending : duel.choice? player = some ⟨.discover, options⟩) (distinct : options.Nodup)
    (aside : options ⊆ duel.members player .setAside) (picked : pick ∈ options) :
    duel.check player (.choose pick) = .ok () ∧
      ∃ after, Obtains player pick options (duel.pickGoal player) (duel.setChoice player none) after ∧
        ∀ allowance, choose allowance player pick duel = (do
          resume
          settle allowance
          let duel ← get
          if duel.settings.autoRun && duel.step ≠ .unstarted && !duel.step.isOpening then
            runToDecision allowance : Play Unit) after := by
  refine ⟨(check_answer pending (by simp)).trans (by simp [checkAnswer, picked]), ?_⟩
  have sound' : (duel.setChoice player none).WellPlaced := sound.congr rfl rfl
  obtain ⟨after, settled, obtained⟩ := exists_settleOptions sound' distinct aside picked
  refine ⟨after, obtained, fun allowance => ?_⟩
  unfold choose
  rw [get_bind, pending]
  exact bind_of_ok settled

end Play

end CardDuel
