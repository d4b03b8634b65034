import CardDuel.Proofs.Burials
import CardDuel.Proofs.Coherence
import CardDuel.Proofs.Discovery
import CardDuel.Proofs.Fates
import CardDuel.Proofs.Mulligan
import CardDuel.Proofs.Steering

/-!
# Options that wait

From its offer to its answer, a discovery waits with its options set aside.  Nothing runs in the
meantime but what needs no list of effects: deaths, the rest of the opening and what the other player
replaces.  None of that moves the options.  They are not in play, they are in no deck, and they were
made after the cards that the other player may replace.  A relation that keeps what is so of a duel
serves for all of this: plays follow it as they follow every other one.
-/

namespace CardDuel

open Relation

namespace Duel

variable {holds : Duel → Prop} {duel before after : Duel} {player : Player}
variable {ids options : List EntityId}

/-- What no stir changes is kept by all plays that only stir. -/
theorem stirring_keeping
    (stable : ∀ before after : Duel, Stir before after → holds before → holds after) :
    Stirring (Keeping holds) where
  roll duel dice := stable _ _ (.roll duel dice)
  revise duel id _ peaceful := stable _ _ (.revise duel id peaceful.routine.revision)
  strike duel id _ _ := stable _ _ (.revise duel id .strike)
  heal duel _ _ amount known := stable _ _ (.heal duel amount known)
  silence duel id := stable _ _ (.silence duel id)
  transform duel _ _ _ _ known listed kind := stable _ _ (.transform duel known listed kind)
  auras duel := stable _ _ (.auras duel)
  expire duel := stable _ _ (.expire duel)
  fall duel fallen := stable _ _ (.fall duel fallen)
  adjust duel player _ routine := stable _ _ (.adjust duel player routine.1)
  announce duel event _ := stable _ _ (.announce duel event)
  remind duel _ _ := stable _ _ (.react duel _)

/-! ## What waits and what does not -/

/-- Nobody has a discovery to make, and whatever may be replaced is known. -/
structure Unasked (duel : Duel) : Prop where
  arisen : duel.Arisen
  idle : ∀ player options, duel.choice? player ≠ some ⟨.discover, options⟩
  known : ∀ player choice, duel.choice? player = some choice → ∀ id ∈ choice.options,
    duel.entity? id ≠ none

/-- A player has a discovery to make.  Its options are set aside, and they are apart from what the
other player may replace. -/
structure Waits (player : Player) (options : List EntityId) (duel : Duel) : Prop where
  arisen : duel.Arisen
  pending : duel.choice? player = some ⟨.discover, options⟩
  parked : duel.suspended.isSome = true
  distinct : options.Nodup
  posted : ∀ id ∈ options, ∃ kind, duel.table.post? id = some ⟨player, kind, .setAside⟩
  other : ∀ choice, duel.choice? player.opponent = some choice → choice.kind = .mulligan ∧
    ∀ id ∈ choice.options, duel.entity? id ≠ none ∧ id ∉ options

/-- No discovery is to be made, or one that waits. -/
inductive Poised (duel : Duel) : Prop
  | unasked (unasked : duel.Unasked) : Poised duel
  | waits {player : Player} {options : List EntityId} (waits : Waits player options duel) :
      Poised duel

theorem Poised.arisen (poised : duel.Poised) : duel.Arisen := by
  cases poised with
  | unasked unasked => exact unasked.arisen
  | waits waits => exact waits.arisen

theorem Unasked.later (unasked : before.Unasked) (reaches : ReflTransGen Change before after)
    (choices : after.choices = before.choices) : after.Unasked where
  arisen := unasked.arisen.later reaches
  idle player options := by
    unfold choice?
    rw [choices]
    exact unasked.idle player options
  known player choice pending id member := by
    unfold choice? at pending
    rw [choices] at pending
    exact known_of_reaches reaches (unasked.known player choice pending id member)

theorem Unasked.shifts (unasked : before.Unasked) (shifts : ReflTransGen Shift before after) :
    after.Unasked :=
  unasked.later (Shift.changes shifts) (congrArg Control.choices (Shift.controls shifts))

theorem Waits.later (waits : Waits player options before) (reaches : ReflTransGen Change before after)
    (choices : after.choices = before.choices) (suspended : after.suspended = before.suspended)
    (posts : ∀ id ∈ options, after.table.post? id = before.table.post? id) :
    Waits player options after where
  arisen := waits.arisen.later reaches
  pending := by
    unfold choice?
    rw [choices]
    exact waits.pending
  parked := by
    rw [suspended]
    exact waits.parked
  distinct := waits.distinct
  posted id member := by
    rw [posts id member]
    exact waits.posted id member
  other choice pending := by
    unfold choice? at pending
    rw [choices] at pending
    obtain ⟨mulligan, apart⟩ := waits.other choice pending
    exact ⟨mulligan, fun id member =>
      ⟨known_of_reaches reaches (apart id member).1, (apart id member).2⟩⟩

theorem Waits.shift (waits : Waits player options before) (shift : Shift before after)
    (posts : ∀ id ∈ options, after.table.post? id = before.table.post? id) :
    Waits player options after :=
  waits.later (.single (.shift shift)) (congrArg Control.choices shift.control)
    (congrArg Control.suspended shift.control) posts

/-- What changes neither choices nor places changes nothing here. -/
theorem Poised.later (poised : before.Poised) (reaches : ReflTransGen Change before after)
    (choices : after.choices = before.choices) (suspended : after.suspended = before.suspended)
    (table : after.table = before.table) : after.Poised := by
  cases poised with
  | unasked unasked => exact .unasked (unasked.later reaches choices)
  | waits waits => exact .waits (waits.later reaches choices suspended fun id _ => by rw [table])

theorem Waits.not_mem_of_mem {owner : Player} {zone : ZoneKind} {id : EntityId}
    (waits : Waits player options duel) (member : id ∈ duel.members owner zone)
    (away : zone ≠ .setAside) : id ∉ options := fun option => by
  obtain ⟨kind, posted⟩ := waits.posted id option
  obtain ⟨kind', there⟩ := waits.arisen.sound.posted_of_mem member
  cases posted.symm.trans there
  exact away rfl

theorem Waits.aside (waits : Waits player options duel) :
    options ⊆ duel.members player .setAside := by
  intro id member
  obtain ⟨kind, posted⟩ := waits.posted id member
  obtain ⟨entity, known, owner, -, zone⟩ := exists_of_post? posted
  have contained : entity.seat.InContainer := by
    have there : entity.seat.zone = .setAside := zone
    refine ⟨?_, fun inPlay => nomatch there.symm.trans inPlay⟩
    rw [there]
    decide
  exact (waits.arisen.sound.placed.mem_iff player .setAside id).mpr
    ⟨Option.some_ne_none id, _, seat?_of_entity? known, contained, owner, zone⟩

instance : Stirring (Keeping (Waits player options)) :=
  stirring_keeping fun _ _ stir waits => waits.shift (.stir stir) fun id _ => by rw [stir.table]

theorem Poised.stir (poised : before.Poised) (stir : Stir before after) : after.Poised :=
  poised.later (.single (.shift (.stir stir))) (congrArg Control.choices stir.control)
    (congrArg Control.suspended stir.control) stir.table

instance : Stirring (Keeping Poised) :=
  stirring_keeping fun _ _ stir poised => poised.stir stir

/-- Once the match is over, nothing is to be discovered. -/
theorem unasked_of_clear (arisen : duel.Arisen) (clear : duel.choices = PerPlayer.const none) :
    duel.Unasked where
  arisen := arisen
  idle player options pending := by
    rw [choice?, clear, PerPlayer.get_const] at pending
    cases pending
  known player choice pending := by
    rw [choice?, clear, PerPlayer.get_const] at pending
    cases pending

theorem choice?_setChoice (duel : Duel) (player other : Player) (choice : Option Choice) :
    (duel.setChoice player choice).choice? other =
      if other = player then choice else duel.choice? other :=
  PerPlayer.get_set ..

/-- Without a discovery of a player, what the other one may replace is left. -/
theorem Waits.answered (waits : Waits player options duel) :
    (duel.setChoice player none).Unasked where
  arisen := waits.arisen.later (.single (.choose duel player none))
  idle other others pending := by
    rw [choice?_setChoice] at pending
    split at pending
    · cases pending
    next differs =>
      rw [← (Player.opponent_eq_iff player other).mpr (Ne.symm differs)] at pending
      cases (waits.other _ pending).1
  known other choice pending id member := by
    rw [choice?_setChoice] at pending
    split at pending
    · cases pending
    next differs =>
      rw [← (Player.opponent_eq_iff player other).mpr (Ne.symm differs)] at pending
      exact ((waits.other _ pending).2 id member).1

/-- When an answer is given to a choice, the other choice is as before. -/
theorem Poised.answered (poised : duel.Poised) (player : Player) :
    (duel.setChoice player none).Poised := by
  have arisen : (duel.setChoice player none).Arisen :=
    poised.arisen.later (.single (.choose duel player none))
  have same {other : Player} {choice : Choice}
      (pending : (duel.setChoice player none).choice? other = some choice) :
      duel.choice? other = some choice := by
    rw [choice?_setChoice] at pending
    split at pending
    · cases pending
    · exact pending
  cases poised with
  | unasked unasked =>
      exact .unasked ⟨arisen, fun other options pending => unasked.idle other options (same pending),
        fun other choice pending => unasked.known other choice (same pending)⟩
  | @waits asked options waits =>
      by_cases own : asked = player
      · subst own
        exact .unasked waits.answered
      · have pending : (duel.setChoice player none).choice? asked = some ⟨.discover, options⟩ := by
          rw [choice?_setChoice, if_neg own]
          exact waits.pending
        exact .waits ⟨arisen, pending, waits.parked, waits.distinct, waits.posted,
          fun choice pending => waits.other choice (same pending)⟩

end Duel

namespace Play

open Duel

variable {α β : Type} {action : Play α} {next : α → Play β} {holds : Duel → Prop}
variable {duel : Duel} {player owner : Player} {options ids : List EntityId} {id : EntityId}
variable {allowance : Nat}

/-! ## While options wait -/

theorem follows_move_of_not_mem {goal : ZoneKind} {placement : Placement} (apart : id ∉ options) :
    Follows (Keeping (Waits player options)) (move id goal placement) := by
  intro duel
  refine yields_move.mpr ⟨fun _ => .refl, fun entity known => ⟨fun _ => .refl, fun allowed =>
    ⟨fun _ => .refl, fun stays => .single fun waits => ?_⟩⟩⟩
  have room := not_turnsAway_iff.mp stays
  refine waits.shift (.relocate duel placement known allowed room) fun other member => ?_
  rw [post?_relocate placement waits.arisen.sound known room, if_neg]
  rintro rfl
  exact apart member

theorem follows_send_of_not_mem {goal : ZoneKind} (apart : id ∉ options) :
    Follows (Keeping (Waits player options)) (send id goal) :=
  (follows_move_of_not_mem apart).discard

theorem follows_drawCard_waiting :
    Follows (Keeping (Waits player options)) (drawCard owner) := fun duel =>
  leads_given fun waits => by
    unfold drawCard
    apply leads_get_bind
    split
    next top found =>
      have inDeck : top ∈ duel.members owner .deck := List.mem_of_getLast? found
      have apart := waits.not_mem_of_mem inDeck (by decide)
      refine (follows_move_of_not_mem apart).bind (fun placed => ?_) duel
      split
      · exact follows_announce (by nofun)
      · exact follows_send_of_not_mem apart
    next =>
      exact ((follows_adjust fun _ => .add 1 (by decide)).bind fun _ =>
        follows_get.bind fun _ => follows_damage) duel

theorem follows_shuffleDeck_waiting :
    Follows (Keeping (Waits player options)) (shuffleDeck owner) := fun duel => by
  unfold shuffleDeck
  refine leads_get_bind (leads_roll_bind (Rolling.roll duel _) (leads_modify (.single ?_)))
  intro waits
  let rolled := { duel with dice := (duel.dice.shuffle (duel.deck owner)).2 }
  have reordered := duel.dice.shuffle_perm (duel.deck owner)
  exact waits.shift (.shuffle rolled owner rfl reordered) fun id _ =>
    post?_shuffle waits.arisen.sound rfl reordered

theorem follows_give_waiting {code : String} :
    Follows (Keeping (Waits player options)) (give owner code) := by
  unfold give
  refine follows_lookupCode.bind fun card duel => leads_given fun waits => ?_
  have fresh : duel.arena.nextId ∉ options := fun member => by
    obtain ⟨kind, posted⟩ := waits.posted _ member
    cases posted.symm.trans duel.post?_nextId
  have creates : (create owner card).Yields duel
      (fun id left => id = duel.arena.nextId ∧ Waits player options left)
      (Waits player options) := by
    unfold create
    rw [yields_bind, yields_get]
    split
    · exact waits
    next listed =>
      split
      · exact waits
      next instantiable =>
        refine ⟨rfl, waits.shift (.create duel owner listed instantiable) fun id member => ?_⟩
        refine post?_create.trans (if_neg ?_)
        rintro rfl
        exact fresh member
  unfold Leads
  rw [yields_bind]
  refine Yields.mono creates (fun id left made => ?_) fun _ kept => .single fun _ => kept
  obtain ⟨rfl, kept⟩ := made
  have puts : Follows (Keeping (Waits player options))
      (sendOrElse duel.arena.nextId .hand .graveyard) := by
    refine (follows_move_of_not_mem fresh).bind fun placed => ?_
    split
    · exact follows_pure
    · exact follows_send_of_not_mem fresh
  exact Yields.mono ((puts.bind fun _ => follows_pure) left)
    (fun _ _ reaches => .head (fun _ => kept) reaches) fun _ reaches => .head (fun _ => kept) reaches

theorem follows_dealHands_waiting :
    Follows (Keeping (Waits player options)) dealHands := by
  unfold dealHands
  refine follows_get.bind fun duel => (follows_drawCard_waiting.times _).bind fun _ =>
    (follows_drawCard_waiting.times _).bind fun _ => follows_get.bind fun _ => ?_
  split
  · exact follows_pure
  · exact follows_give_waiting.discard

/-- What the other player replaces is not among the options. -/
theorem follows_exchange_waiting (apart : ∀ id ∈ ids, id ∉ options) :
    Follows (Keeping (Waits player options)) (exchange owner ids) := by
  unfold exchange
  refine (follows_forM_of_mem fun id member => follows_send_of_not_mem (apart id member)).bind
    fun _ => (follows_drawCard_waiting.times _).bind fun _ =>
      follows_forM_of_mem fun id member => ?_
  exact (follows_get.bind fun _ => follows_roll.bind fun _ =>
    follows_move_of_not_mem (apart id member)).discard

/-! ## Plays of a match -/

/-- Nothing that shifts the table makes a discovery come about. -/
theorem Follows.unasked (follows : Follows Shift action) (unasked : duel.Unasked) :
    action.Yields duel (fun _ => Unasked) Unasked :=
  Yields.mono (follows duel) (fun _ _ => unasked.shifts) fun _ => unasked.shifts

/-- A play that shifts the table and leaves options alone that wait. -/
theorem Follows.poised (follows : Follows Shift action)
    (waiting : ∀ player options, Follows (Keeping (Waits player options)) action) :
    Follows (Keeping Poised) action := fun duel => leads_given fun poised => by
  cases poised with
  | unasked unasked =>
      exact leads_of_yields (Yields.mono (follows.unasked unasked) (fun _ _ => .unasked)
        fun _ => .unasked)
  | waits waits =>
      exact leads_of_yields (Yields.mono (waiting _ _ duel)
        (fun _ _ reaches => .waits (keeping_of_reaches reaches waits))
        fun _ reaches => .waits (keeping_of_reaches reaches waits))

/-- While nobody has a discovery to make, the table may shift before something else happens. -/
theorem Follows.thenPoised (first : Follows Shift action) (unasked : duel.Unasked)
    (second : ∀ value left, left.Unasked → Leads (Keeping Poised) left (next value)) :
    Leads (Keeping Poised) duel (action >>= next) :=
  leads_bind_keeping (fun _ => Yields.mono (first.unasked unasked)
    (fun _ _ kept => ⟨kept, .unasked kept⟩) fun _ => .unasked) second

/-- Cards that were made for a discovery wait as its options. -/
theorem waits_of_creates {made : Duel} {forms : List CardId} (unasked : duel.Unasked)
    (reaches : ReflTransGen Change duel made) (choices : made.choices = duel.choices)
    (creates : duel.Creates player forms options made) (rest : Resolution) :
    Waits player options
      { (made.setChoice player (some ⟨.discover, options⟩)).updateAuras with
        suspended := some rest } := by
  let offered := made.setChoice player (some ⟨.discover, options⟩)
  have changes : ReflTransGen Change made { offered.updateAuras with suspended := some rest } :=
    ((ReflTransGen.single (.choose made player _)).tail
      (.shift (.stir (.auras offered)))).tail (.suspend _ _)
  have table : offered.updateAuras.table = made.table := (Stir.auras offered).table
  refine ⟨unasked.arisen.later (reaches.trans changes), ?_, rfl, creates.distinct, fun id made' => ?_,
    fun choice pending => ?_⟩
  · exact (choice?_setChoice made player player _).trans (if_pos rfl)
  · have aside : id ∈ made.members player .setAside := by
      rw [creates.members, if_pos ⟨rfl, rfl⟩]
      exact List.mem_append_right _ made'
    obtain ⟨kind, posted⟩ := creates.sound.posted_of_mem aside
    exact ⟨kind, (congrFun (congrArg Table.post? table) id).trans posted⟩
  · have before : duel.choice? player.opponent = some choice := by
      change (made.choices.set player _).get player.opponent = some choice at pending
      rw [PerPlayer.get_set, if_neg player.opponent_ne, choices] at pending
      exact pending
    obtain ⟨kind, others⟩ := choice
    refine ⟨?_, fun id member => ?_⟩
    · cases kind with
      | mulligan => rfl
      | discover => exact absurd before (unasked.idle _ others)
    · have known := unasked.known _ _ before id member
      exact ⟨known_of_reaches (reaches.trans changes) known,
        fun option => known (creates.fresh id option)⟩

theorem yields_discover_poised {resolution : Resolution} {cardType : CardType} {race : Race}
    (unasked : duel.Unasked) :
    (perform resolution (.discover cardType race)).Yields duel
      (fun answer left => answer.2 = resolution ∧
        (answer.1 = .stop ∧ left = duel ∨ answer.1 = .suspended ∧ ∀ rest,
          { left.updateAuras with suspended := some rest }.Poised))
      Unasked := by
  rw [perform, yields_bind, yields_get]
  dsimp only
  split
  · exact ⟨rfl, .inl ⟨rfl, rfl⟩⟩
  · rw [yields_bind, yields_roll, yields_bind]
    let sampled := duel.dice.sampleOf (duel.catalogue.classPool duel.settings.format
      (duel.player resolution.context.controller).cardClass cardType race) discoverOptions
    let rolled : Duel := { duel with dice := sampled.2 }
    have rolls : Shift duel rolled := .stir (.roll duel sampled.2)
    have unasked' : rolled.Unasked := unasked.shifts (.single rolls)
    have makes : (setAsideAll resolution.context.controller sampled.1).Yields rolled
        (fun options made => (options.length = sampled.1.length ∧ ReflTransGen Shift rolled made) ∧
          rolled.Creates resolution.context.controller sampled.1 options made)
        (ReflTransGen Shift rolled) :=
      (answers_setAsideAll rolled).and (ensures_setAsideAll _ unasked'.arisen.sound)
    refine makes.mono (fun options made both => ?_) fun _ shifts => unasked'.shifts shifts
    obtain ⟨⟨-, shifts⟩, creates⟩ := both
    exact ⟨rfl, .inr ⟨rfl, fun rest => .waits (waits_of_creates unasked' (Shift.changes shifts)
      (congrArg Control.choices (Shift.controls shifts)) creates rest)⟩⟩

/-- Running effects while nobody has a discovery to make comes to a discovery at most. -/
theorem yields_resolveWithin_poised (steps : Nat) (resolution : Resolution)
    (unasked : duel.Unasked) :
    (resolveWithin steps resolution).Yields duel (fun _ => Poised) Poised := by
  induction steps generalizing resolution duel with
  | zero => exact .unasked unasked
  | succ steps ih =>
      rw [resolveWithin, yields_bind, yields_get]
      split
      · exact .unasked unasked
      split
      · exact .unasked unasked
      · exact ih resolution.leave unasked
      next effect rest outer frames =>
        let next : Resolution := { resolution with frames := rest :: outer }
        rw [yields_bind]
        cases plain : effect.isDiscovery with
        | false =>
            refine Yields.mono (answers_perform plain next.fits_true trivial duel)
              (fun answer middle both => ?_) (fun _ shifts => .unasked (unasked.shifts shifts))
            obtain ⟨⟨on, -⟩, shifts⟩ := both
            obtain ⟨outcome, further⟩ := answer
            have tidied := unasked.shifts (shifts.tail (.stir (.auras middle)))
            rw [yields_bind, yields_modify]
            cases outcome with
            | complete => exact ih further tidied
            | stop => exact ih further.leave tidied
            | suspended => exact absurd rfl on.1
        | true =>
            cases effect with
            | discover cardType race =>
                refine Yields.mono (yields_discover_poised unasked) (fun answer middle both => ?_)
                  (fun _ kept => .unasked kept)
                obtain ⟨outcome, further⟩ := answer
                obtain ⟨rfl, ⟨rfl, rfl⟩ | ⟨rfl, offers⟩⟩ := both
                · exact ih next.leave (unasked.shifts (.single (.stir (.auras middle))))
                · exact offers next
            | _ => cases plain

theorem leads_resolve_poised {resolution : Resolution} (unasked : duel.Unasked) :
    Leads (Keeping Poised) duel (discard (resolve resolution)) := by
  refine leads_of_yields (yields_discard.mpr ?_)
  exact yields_resolveWithin_poised _ resolution unasked

theorem leads_fireTrigger_poised {trigger : TriggerId} {event : Event} (unasked : duel.Unasked) :
    Leads (Keeping Poised) duel (fireTrigger trigger event) := by
  unfold fireTrigger
  apply leads_get_bind
  split
  · exact leads_pure
  next live found =>
    have shows (duel : Duel) (unasked : duel.Unasked) : Leads (Keeping Poised) duel (do
        if live.rule.zone = .secret then send live.owner .graveyard
        discard (resolve (Resolution.ofEffects live.rule.effects
          ⟨live.controller, live.owner, event.target, some event⟩))) := by
      dsimp only
      split
      · exact follows_send.thenPoised unasked fun _ left kept => leads_resolve_poised kept
      · exact leads_resolve_poised unasked
    dsimp only at shows ⊢
    split
    · have struck := unasked.shifts (.single (.stir (.unregister duel trigger)))
      exact leads_modify_bind (.single fun _ => .unasked struck) (shows _ struck)
    · exact shows duel unasked

theorem leads_doWork_poised {work : Work} (unasked : duel.Unasked) :
    Leads (Keeping Poised) duel (doWork work) := by
  have shifts {action : Play Unit} (follows : Follows Shift action) :
      Leads (Keeping Poised) duel action :=
    leads_of_yields (Yields.mono (follows.unasked unasked) (fun _ _ => .unasked) fun _ => .unasked)
  cases work with
  | run resolution => exact leads_resolve_poised unasked
  | trigger trigger event => exact leads_fireTrigger_poised unasked
  | announce event => exact shifts follows_announcing
  | bury spell =>
      refine shifts (follows_lookup.bind fun entity => ?_)
      split
      · exact follows_send
      · exact follows_pure

/-- The dead leave options alone that wait, and a match that is over awaits nothing. -/
theorem follows_processDeaths_poised : Follows (Keeping Poised) processDeaths := fun duel =>
  leads_given fun poised => by
    obtain ⟨settings, catalogue, start, created, reached⟩ := poised.arisen
    cases ended : duel.isOver with
    | true =>
        unfold Leads Yields
        rw [processDeaths_of_over ended]
    | false =>
        obtain ⟨mid, ran, -⟩ := exists_pass created reached ended
        unfold Leads Yields
        rw [ran]
        refine .single fun _ => ?_
        have dies : Follows Change processDeaths := follows_processDeaths
        have reaches := dies.ensures.of_ok ran
        rcases ensures_processDeaths.of_ok ran with same | finished
        · have reaps := reaps_of_pass created reached ran ((isOver_congr same).trans ended)
          have choices := congrArg Docket.choices same
          cases poised with
          | unasked unasked => exact .unasked (unasked.later reaches choices)
          | waits waits =>
              refine .waits (waits.later reaches choices (congrArg Docket.suspended same) ?_)
              refine fun id member => (reaps.posts id).trans (if_neg fun fell => ?_)
              obtain ⟨post, posted, inPlay⟩ := reaps.inPlay id fell
              obtain ⟨kind, aside⟩ := waits.posted id member
              cases posted.symm.trans aside
              cases inPlay
        · exact .unasked (unasked_of_clear (poised.arisen.later reaches)
            (congrArg Docket.choices finished.1))

/-- Once both players may replace cards, nobody has a discovery to make. -/
theorem yields_offers_unasked (arisen : duel.Arisen) (coin : Option CardId) :
    Play.Yields (Player.both.forM fun player => modify fun duel : Duel =>
        duel.setChoice player (some ⟨.mulligan, duel.replaceable player coin⟩)) duel
      (fun _ => Unasked) Unasked := by
  let zero := duel.setChoice .zero (some ⟨.mulligan, duel.replaceable .zero coin⟩)
  change Unasked (zero.setChoice .one (some ⟨.mulligan, zero.replaceable .one coin⟩))
  have options (player : Player) : (zero.setChoice .one
      (some ⟨.mulligan, zero.replaceable .one coin⟩)).choice? player =
        some ⟨.mulligan, duel.replaceable player coin⟩ := by
    cases player <;> rfl
  refine ⟨arisen.later ((ReflTransGen.single (.choose duel .zero _)).tail (.choose zero .one _)),
    fun player others pending => ?_, fun player choice pending id member => ?_⟩
  · cases (options player).symm.trans pending
  · cases (options player).symm.trans pending
    have inHand : id ∈ duel.members player .hand := List.mem_of_mem_filter member
    obtain ⟨kind, posted⟩ := arisen.sound.posted_of_mem inHand
    obtain ⟨entity, known, -⟩ := exists_of_post? posted
    exact Option.ne_none_iff_exists'.mpr ⟨entity, known⟩

theorem follows_offerMulligan_poised : Follows (Keeping Poised) offerMulligan := by
  have offers (coin : Option CardId) : Follows (Keeping Poised) (Player.both.forM fun player =>
      modify fun duel =>
        duel.setChoice player (some ⟨.mulligan, duel.replaceable player coin⟩)) :=
    fun duel => leads_given fun poised => leads_of_yields
      (Yields.mono (yields_offers_unasked poised.arisen coin) (fun _ _ => .unasked)
        fun _ => .unasked)
  unfold offerMulligan
  apply follows_get.bind
  intro duel
  dsimp only
  split
  · exact follows_pure
  split
  · exact follows_pure.bind fun _ => offers _
  · exact follows_lookupCode.map.bind fun _ => offers _

theorem follows_stepWork_poised {target : Step} :
    Follows (Keeping Poised) (stepWork player target) :=
  follows_stepWork_of
    (fun duel player poised => poised.later (.single (.pass duel player)) rfl rfl rfl)
    (fun duel poised => poised.later (.single (.count duel)) rfl rfl rfl)
    (fun duel id poised => poised.stir (.revise duel id .refresh))
    (fun _ living => follows_announce living)
    (fun _ => follows_shuffleDeck.poised fun _ _ => follows_shuffleDeck_waiting)
    (follows_drawCard.poised fun _ _ => follows_drawCard_waiting)
    (follows_dealHands.poised fun _ _ => follows_dealHands_waiting) follows_offerMulligan_poised

/-! ## Calls -/

/-- Preparing an action shifts the table and schedules its phases. -/
theorem leads_prepare_poised {action : Action} (poised : duel.Poised)
    (accepted : duel.check player action = .ok ()) :
    Leads (Keeping Poised) duel (prepare player action) := by
  have schedules (phases : List Work) : Follows (Keeping Poised)
      (modify fun duel : Duel => { duel with agenda := duel.agenda.addPhases phases } : Play PUnit) :=
    follows_modify fun duel poised => poised.later (.single (.schedule duel phases)) rfl rfl rfl
  have unasked (other : duel.docket.HasChoice → False) : duel.Unasked := by
    cases poised with
    | unasked unasked => exact unasked
    | waits waits => exact (other ⟨_, _, waits.pending⟩).elim
  rcases check_spec accepted with rfl | ⟨_, _, rfl, _⟩ | ⟨_, _, rfl, _⟩ | ⟨_, _, noChoice, _⟩
  · exact leads_pure
  · exact leads_pure
  · exact leads_pure
  cases action with
  | playCard card target position =>
      unfold prepare
      refine follows_lookup.thenPoised (unasked noChoice) fun entity known kept => ?_
      refine follows_get.thenPoised kept fun _ _ kept => ?_
      have pays : Follows Shift (modify fun duel => duel.updatePlayer player (payForCard entity)) :=
        follows_adjust fun _ => .pay entity
      refine pays.thenPoised kept fun _ paid kept => ?_
      refine follows_get.thenPoised kept fun _ _ kept => ?_
      exact follows_placePlayed.thenPoised kept fun _ placed _ => schedules _ placed
  | attack attacker defender => exact schedules _ duel
  | heroPower target =>
      unfold prepare
      refine follows_get.thenPoised (unasked noChoice) fun power _ kept => ?_
      refine follows_lookup.thenPoised kept fun entity known kept => ?_
      have pays : Follows Shift (modify fun duel => duel.updatePlayer player fun state =>
          state.spendMana entity.cost) := follows_adjust fun _ => .spend entity
      refine pays.thenPoised kept fun _ paid kept => ?_
      have exhausts : Follows Shift (change (power.player player).heroPower fun entity =>
          entity.setTag .exhausted 1) := follows_change (.write 1 (by decide))
      refine exhausts.thenPoised kept fun _ used kept => ?_
      exact follows_get.thenPoised kept fun _ left _ => schedules _ left
  | endTurn | mulligan _ | choose _ | concede => exact leads_pure

theorem leads_exchange_poised {replace : List EntityId} (poised : duel.Poised)
    (pending : duel.choice? player = some ⟨.mulligan, options⟩) (among : replace ⊆ options) :
    Leads (Keeping Poised) duel (exchange player replace) := by
  cases poised with
  | unasked unasked =>
      have follows : Follows Shift (exchange player replace) := follows_exchange
      exact leads_of_yields (Yields.mono (follows.unasked unasked) (fun _ _ => .unasked)
        fun _ => .unasked)
  | @waits asked others waits =>
      have differs : asked ≠ player := by
        rintro rfl
        cases waits.pending.symm.trans pending
      rw [← (Player.opponent_eq_iff asked player).mpr differs] at pending
      have apart (id : EntityId) (member : id ∈ replace) : id ∉ others :=
        ((waits.other _ pending).2 id (among member)).2
      exact leads_of_yields (Yields.mono (follows_exchange_waiting apart duel)
        (fun _ _ reaches => .waits (keeping_of_reaches reaches waits))
        fun _ reaches => .waits (keeping_of_reaches reaches waits))

theorem leads_resume_poised (unasked : duel.Unasked) : Leads (Keeping Poised) duel resume := by
  unfold resume
  apply leads_get_bind
  split
  · exact leads_pure
  · have dropped : Duel.Unasked { duel with suspended := none } :=
      unasked.later (.single (.suspend duel none)) rfl
    exact leads_modify_bind (.single fun _ => .unasked dropped) (leads_resolve_poised dropped)

theorem leads_takeUp_poised {pick : EntityId} (poised : duel.Poised)
    (pending : duel.choice? player = some ⟨.discover, options⟩) :
    Leads (Keeping Poised) duel (takeUp player pick options) := by
  have answered : (duel.setChoice player none).Unasked := by
    cases poised with
    | unasked unasked => exact absurd pending (unasked.idle player options)
    | @waits asked others waits =>
        by_cases own : asked = player
        · subst own
          exact waits.answered
        · rw [← (Player.opponent_eq_iff asked player).mpr own] at pending
          cases (waits.other _ pending).1
  unfold takeUp
  refine leads_modify_bind (.single fun _ => .unasked answered) ?_
  exact follows_settleOptions.thenPoised answered fun _ sorted kept => leads_resume_poised kept

/-- Calls leave options alone that wait. -/
theorem steers_poised : Steers Poised where
  lights duel poised := poised.stir (.auras duel)
  clears duel poised := poised.later (.single (.clear duel)) rfl rfl rfl
  enters duel step poised := poised.later (.single (.enter duel step)) rfl rfl rfl
  records duel player action poised _ :=
    poised.later (.single (.record duel player action)) rfl rfl rfl
  concedes duel player poised :=
    .unasked (unasked_of_clear (poised.arisen.later (.single (.concede duel player))) rfl)
  answers _ player poised := poised.answered player
  refills duel player total poised := poised.stir (.adjust duel player (.refill total))
  buries := follows_processDeaths_poised
  steps _ _ := follows_stepWork_poised
  works := by
    intro duel work rest poised idle next
    have begun : Duel.Unasked { duel with agenda := rest } := by
      cases poised with
      | unasked unasked => exact unasked.later (.single (.begin duel next)) rfl
      | waits waits =>
          have parked := waits.parked
          rw [idle] at parked
          cases parked
    exact (leads_doWork_poised begun).keeps (.unasked begun)
  prepares := leads_prepare_poised
  exchanges := leads_exchange_poised
  takesUp := leads_takeUp_poised
  gives _ _ := follows_give.poised fun _ _ => follows_give_waiting

end Play

/-! ## What hosts do -/

namespace Duel

variable {duel start : Duel} {allowance : Nat}

/-- Effects of its own a host runs only while nobody has a discovery to make. -/
def Patient (allowance : Nat) : List Deed → Duel → Prop
  | [], _ => True
  | deed :: deeds, duel =>
    (∀ resolution, deed = .run resolution → ∀ player options,
      duel.choice? player ≠ some ⟨.discover, options⟩) ∧
      Patient allowance deeds ((deed.play allowance).left duel)

/-- Whoever only calls is patient. -/
theorem patient_calls (calls : List Call) (duel : Duel) :
    Patient allowance (calls.map .call) duel := by
  induction calls generalizing duel with
  | nil => trivial
  | cons call calls ih => exact ⟨fun _ same => (nomatch same), ih _⟩

theorem Poised.deed (poised : duel.Poised) {deed : Deed}
    (patient : ∀ resolution, deed = .run resolution → ∀ player options,
      duel.choice? player ≠ some ⟨.discover, options⟩) :
    ((deed.play allowance).left duel).Poised := by
  cases deed with
  | call asked => exact (Play.steers_poised.follows_play asked).left poised
  | run resolution =>
      have unasked : duel.Unasked := by
        cases poised with
        | unasked unasked => exact unasked
        | waits waits => exact absurd waits.pending (patient resolution rfl _ _)
      exact keeping_of_reaches (Play.leads_resolve_poised unasked).reaches poised
  | auras => exact poised.stir (.auras duel)

theorem Poised.afterDeeds (poised : duel.Poised) {deeds : List Deed}
    (patient : Patient allowance deeds duel) : (duel.afterDeeds allowance deeds).Poised := by
  induction deeds generalizing duel with
  | nil => exact poised
  | cons deed deeds ih => exact ih (poised.deed patient.1) patient.2

theorem poised_of_created {settings : Settings} {catalogue : Catalogue}
    (created : Duel.create settings catalogue = .ok start) : start.Poised :=
  .unasked (unasked_of_clear ⟨settings, catalogue, start, created, .refl⟩
    (congrArg Docket.choices (fresh_of_created created).1))

/-- In a match, the options of a discovery are different and set aside until it is answered. -/
theorem Poised.aside (poised : duel.Poised) {player : Player} {options : List EntityId}
    (pending : duel.choice? player = some ⟨.discover, options⟩) :
    options.Nodup ∧ options ⊆ duel.members player .setAside := by
  cases poised with
  | unasked unasked => exact absurd pending (unasked.idle player options)
  | @waits asked others waits =>
      by_cases own : asked = player
      · subst own
        cases waits.pending.symm.trans pending
        exact ⟨waits.distinct, waits.aside⟩
      · rw [← (Player.opponent_eq_iff asked player).mpr own] at pending
        cases (waits.other _ pending).1

end Duel

namespace Play

open Duel

/-- A discovery that finds cards which can be made offers as many different ones as it may, all of
them legal, as new entities that are set aside.  Whatever is done in between, the option that is
taken goes to the hand or, if it is full, to the graveyard, and the others leave the match, before
the list of effects goes on. -/
theorem exists_discovery {settings : Settings} {catalogue : Catalogue} {start : Duel}
    (created : Duel.create settings catalogue = .ok start) :
    (∀ (duel : Duel) (resolution : Resolution) cardType race, ReflTransGen Change start duel →
      duel.discoverable resolution.context.controller cardType race ≠ [] →
      (∀ form ∈ duel.discoverable resolution.context.controller cardType race,
        catalogue.Instantiable form) →
      ∃ forms options made, perform resolution (.discover cardType race) duel =
          .ok (.suspended, resolution)
            (made.setChoice resolution.context.controller (some ⟨.discover, options⟩)) ∧
        duel.Creates resolution.context.controller forms options made ∧
          options.length = min discoverOptions
            (duel.discoverable resolution.context.controller cardType race).length ∧
            forms.Nodup ∧
              ∀ form ∈ forms, duel.MayDiscover resolution.context.controller cardType race form) ∧
    ∀ allowance deeds, Patient allowance deeds start →
      let now := start.afterDeeds allowance deeds
      ∀ player options pick, now.choice? player = some ⟨.discover, options⟩ → pick ∈ options →
        now.check player (.choose pick) = .ok () ∧
          ∃ after, Obtains player pick options (now.pickGoal player) (now.setChoice player none)
              after ∧
            ∀ granted, choose granted player pick now = (do
              resume
              settle granted
              let duel ← get
              if duel.settings.autoRun && duel.step ≠ .unstarted && !duel.step.isOpening then
                runToDecision granted : Play Unit) after := by
  constructor
  · intro duel resolution cardType race reaches inhabited instantiable
    have same : duel.catalogue = catalogue :=
      (Change.fixed_of_reaches reaches).2.trans (fixed_of_created created).2
    rw [← same] at instantiable
    have sound := Change.wellPlaced_of_reaches reaches (created_wellPlaced created)
    obtain ⟨forms, options, made, offers, creates, among, distinct, count⟩ :=
      perform_discover sound inhabited instantiable
    exact ⟨forms, options, made, offers, creates, count, distinct,
      fun form member => mem_discoverable_iff.mp (among member)⟩
  · intro allowance deeds patient now player options pick pending picked
    have poised : now.Poised := (poised_of_created created).afterDeeds patient
    obtain ⟨distinct, aside⟩ := poised.aside pending
    exact exists_choose poised.arisen.sound pending distinct aside picked

end Play

/-- A mage whose hero power discovers a minion.  Four of the minions are collectible for mages. -/
def Catalogue.scholars : Catalogue :=
  .ofEntries
    [⟨Card.hero ⟨1⟩ "HERO" "" .mage 30 "STUDY", Behaviour.none⟩,
      ⟨Card.power ⟨2⟩ "STUDY" "" 0, { Behaviour.none with effects := [.discover .minion .unset] }⟩,
      ⟨{ Card.minion ⟨3⟩ "WISP" "" 0 1 1 with collectible := true }, Behaviour.none⟩,
      ⟨{ Card.minion ⟨4⟩ "IMP" "" 1 1 1 with collectible := true }, Behaviour.none⟩,
      ⟨{ Card.minion ⟨5⟩ "OWL" "" 2 2 1 with collectible := true, cardClass := .mage },
        Behaviour.none⟩,
      ⟨{ Card.minion ⟨6⟩ "BEAR" "" 3 3 3 with collectible := true, cardClass := .druid },
        Behaviour.none⟩,
      ⟨{ Card.minion ⟨7⟩ "OGRE" "" 4 4 4 with collectible := true }, Behaviour.none⟩,
      ⟨Card.minion ⟨8⟩ "TOKEN" "" 0 1 1, Behaviour.none⟩]
    [(.mage, ⟨1⟩)] (by decide) (by decide)

def Settings.scholars : Settings :=
  { Settings.standard with decks := [["TOKEN"], ["TOKEN"]] }

/-- A scholar is offered three of the four minions and may take the first. -/
theorem Play.exists_discovery_scholars :
    ∃ start, Duel.create Settings.scholars Catalogue.scholars = .ok start ∧
      (∃ forms options made, Play.perform (.ofEffects [] ⟨.zero, ⟨4⟩, none, none⟩)
          (.discover .minion .unset) start = .ok (.suspended, .ofEffects [] ⟨.zero, ⟨4⟩, none, none⟩)
            (made.setChoice .zero (some ⟨.discover, options⟩)) ∧
          start.Creates .zero forms options made ∧ options.length = 3 ∧ forms.Nodup) ∧
        ∃ now pick others, now = start.afterDeeds 100
            ([.start, .take .zero (.heroPower none)].map Deed.call) ∧
          now.choice? .zero = some ⟨.discover, pick :: others⟩ ∧ others.length = 2 ∧
            now.check .zero (.choose pick) = .ok () ∧
              ∃ after, Duel.Obtains .zero pick (pick :: others) .hand (now.setChoice .zero none)
                after := by
  obtain ⟨start, now, created, runs, comes⟩ :=
    Duel.exists_of_outcome Settings.scholars Catalogue.scholars 100
      [.start, .take .zero (.heroPower none)] (fun duel =>
        (duel.choice? .zero).any (fun choice =>
          choice.kind = .discover && choice.options.length = 3) &&
        duel.pickGoal .zero = .hand)
      (by decide +kernel)
  have seen : (Duel.outcome? Settings.scholars Catalogue.scholars 0 []).any (fun duel =>
      duel.discoverable .zero .minion .unset = [⟨3⟩, ⟨4⟩, ⟨5⟩, ⟨7⟩]) = true := by decide +kernel
  have pool : start.discoverable .zero .minion .unset = [⟨3⟩, ⟨4⟩, ⟨5⟩, ⟨7⟩] :=
    of_decide_eq_true (Duel.holds_of_outcome created (Duel.runs_nil.mpr rfl) seen)
  obtain ⟨offers, answers⟩ := Play.exists_discovery created
  have inhabited : start.discoverable .zero .minion .unset ≠ [] := by simp [pool]
  have instantiable : ∀ form ∈ start.discoverable .zero .minion .unset,
      Catalogue.scholars.Instantiable form := by
    rw [pool]
    intro form member
    simp only [List.mem_cons, List.not_mem_nil, or_false] at member
    rcases member with rfl | rfl | rfl | rfl <;> exact ⟨_, .minion, rfl, rfl⟩
  obtain ⟨forms, options, made, ran, creates, count, distinct, -⟩ :=
    offers start (.ofEffects [] ⟨.zero, ⟨4⟩, none, none⟩) .minion .unset .refl inhabited instantiable
  refine ⟨start, created, ⟨forms, options, made, ran, creates, count.trans ?_, distinct⟩, ?_⟩
  · change min discoverOptions (start.discoverable .zero .minion .unset).length = 3
    rw [pool]
    rfl
  · have same : start.afterDeeds 100 ([.start, .take .zero (.heroPower none)].map Deed.call) = now :=
      Duel.afterDeeds_of_runs runs
    have taken := answers 100 _ (Duel.patient_calls [.start, .take .zero (.heroPower none)] start)
    dsimp only at taken
    rw [same] at taken
    rw [Bool.and_eq_true, Option.any_eq_true, decide_eq_true_eq] at comes
    obtain ⟨⟨⟨kind, found⟩, pending, shape⟩, goal⟩ := comes
    simp only [Bool.and_eq_true, decide_eq_true_eq] at shape
    obtain ⟨rfl, length⟩ := shape
    obtain ⟨pick, others, rfl⟩ : ∃ pick others, found = pick :: others :=
      List.exists_cons_of_length_pos (by omega)
    obtain ⟨accepted, after, obtained, -⟩ := taken .zero (pick :: others) pick pending
      List.mem_cons_self
    rw [goal] at obtained
    exact ⟨now, pick, others, same.symm, pending, by simpa using length, accepted, after, obtained⟩

end CardDuel
