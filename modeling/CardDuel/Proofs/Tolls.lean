import CardDuel.Proofs.Lawful
import CardDuel.Proofs.Playing

/-!
# Tolls

Whenever a death is announced, the deathrattle of the dead entity ought to be queued, once and ahead
of the triggers that react to the death.  Burials keep to this.  A weapon that makes room for
another one dies as well, and its deathrattle is left out.
-/

namespace CardDuel

open Relation

/-! ## Deaths -/

namespace Demise

def id : Demise → EntityId
  | burial id _ | replacement _ id _ => id

/-- The entity as it stood when it died. -/
def entity : Demise → Entity
  | burial _ entity | replacement _ _ entity => entity

def IsReplacement : Demise → Prop
  | burial _ _ => False
  | replacement _ _ _ => True

/-- The event by which the death is announced. -/
def event : Demise → Event
  | burial id entity => Event.caused .death entity.owner id
  | replacement player id _ => Event.caused .death player id

/-- The duel in which the death is announced. -/
def scene (duel : Duel) : Demise → Duel
  | burial id entity => duel.mourned id entity
  | replacement _ id entity => duel.interred id entity

/-- The triggers that react to the death, as they wait for their turn. -/
def alerts (duel : Duel) (demise : Demise) : List Work :=
  ((demise.scene duel).reactionsTo demise.event).map fun trigger =>
    .trigger trigger.id demise.event

end Demise

/-- A death in a run, with the duels before and after it. -/
structure Death where
  before : Duel
  demise : Demise
  after : Duel

namespace Death

/-- Whether a deathrattle is due: the card has one, and the entity is not silenced. -/
def Owes (death : Death) : Prop :=
  death.demise.entity.tags.has .silenced = false ∧
    (death.before.behaviourOf death.demise.entity).deathrattle ≠ []

/-- The deathrattle, to be run for the owner of the entity and with the entity as the source. -/
def rattle (death : Death) : Resolution :=
  Resolution.ofEffects (death.before.behaviourOf death.demise.entity).deathrattle
    ⟨death.demise.entity.owner, death.demise.id, none, none⟩

/-- Whether the deathrattle is queued exactly once, right ahead of the triggers that react to the
death. -/
def IsAnswered (death : Death) : Prop :=
  death.after.agenda.reactions =
    death.before.agenda.reactions ++ .run death.rattle :: death.demise.alerts death.before

/-- Whether nothing is queued but the triggers that react to the death. -/
def IsUnanswered (death : Death) : Prop :=
  death.after.agenda.reactions = death.before.agenda.reactions ++ death.demise.alerts death.before

end Death

/-- The deaths of a run, the newest first. -/
abbrev Obituary := List Death

/-- The effect lists that the deaths of a run queue, in the order of the deaths. -/
def Obituary.rattles (deaths : Obituary) : List Resolution :=
  deaths.reverse.flatMap fun death => death.demise.rattles death.before

/-- The effect lists that wait among the reactions. -/
def Agenda.runs (agenda : Agenda) : List Resolution :=
  agenda.reactions.filterMap Work.run?

namespace Duel

/-- A run from a duel to another one, with the deaths on the way. -/
inductive Chronicle (start : Duel) : Obituary → Duel → Prop
  | start : Chronicle start [] start
  | step {deaths : Obituary} {demise : Option Demise} {before after : Duel}
      (chronicle : Chronicle start deaths before) (law : Law (fun _ => True) before demise after) :
      Chronicle start (demise.toList.map (⟨before, ·, after⟩) ++ deaths) after

variable {start before after duel : Duel} {deaths : Obituary} {demise : Demise}
variable {fits : Effect → Prop}

/-- A run goes on along lawful changes. -/
theorem Chronicle.along (chronicle : Chronicle start deaths before)
    (steps : ReflTransGen (Lawful fun _ => True) before after) :
    ∃ later, Chronicle start (later ++ deaths) after := by
  induction steps with
  | refl => exact ⟨[], chronicle⟩
  | tail _ last ih =>
      obtain ⟨later, chronicle⟩ := ih
      obtain ⟨demise, law⟩ := last
      exact ⟨_, List.append_assoc _ later deaths ▸ chronicle.step law⟩

theorem exists_chronicle (steps : ReflTransGen (Lawful fun _ => True) before after) :
    ∃ deaths, Chronicle before deaths after := by
  obtain ⟨deaths, chronicle⟩ := Chronicle.start.along steps
  exact ⟨deaths ++ [], chronicle⟩

theorem Chronicle.tidy (chronicle : Chronicle start deaths after)
    (tidy : start.Tidy fun _ => True) : after.Tidy fun _ => True := by
  induction chronicle with
  | start => exact tidy
  | step _ law ih => exact Lawful.tidy ⟨_, law⟩ ih

/-! ## One death -/

theorem Law.known (law : Law fits before (some demise) after) :
    before.entity? demise.id = some demise.entity := by
  cases law with
  | outlive player known => exact known
  | bury known _ => exact known

theorem lastWords_of_owes {death : Death} (owes : death.Owes) :
    death.before.lastWords death.demise.entity =
      (death.before.behaviourOf death.demise.entity).deathrattle :=
  if_neg (Bool.eq_false_iff.mp owes.1)

theorem lastWords_of_not_owes {death : Death} (free : ¬ death.Owes) :
    death.before.lastWords death.demise.entity = [] := by
  unfold lastWords
  split
  · rfl
  next spoken =>
    by_contra rattles
    exact free ⟨Bool.eq_false_iff.mpr spoken, rattles⟩

/-- What a death queues: the deathrattle that is due, if there is a burial, and the triggers. -/
theorem Law.reactions (law : Law fits before (some demise) after) :
    after.agenda.reactions =
      before.agenda.reactions ++ (demise.rattles before).map .run ++ demise.alerts before := by
  cases law with
  | @outlive id entity player known =>
      change (before.interred id entity).agenda.reactions ++ _ = _
      rw [agenda_interred]
      exact congrArg (· ++ _) (List.append_nil _).symm
  | @bury id entity known _ =>
      change (before.mourned id entity).agenda.reactions ++ _ = _
      refine congrArg (· ++ _) ?_
      rw [mourned, Demise.rattles]
      split
      · rw [agenda_interred]
        exact (List.append_nil _).symm
      · rw [addReaction, agenda_interred]
        rfl

theorem rattles_of_owes {death : Death} (owes : death.Owes)
    (buried : ¬ death.demise.IsReplacement) :
    death.demise.rattles death.before = [death.rattle] := by
  obtain ⟨before, demise, after⟩ := death
  cases demise with
  | replacement player id entity => exact absurd trivial buried
  | burial id entity =>
      have words : before.lastWords entity = (before.behaviourOf entity).deathrattle :=
        lastWords_of_owes owes
      have spoken : (before.lastWords entity).isEmpty = false := by
        rw [words]
        exact List.isEmpty_eq_false_iff.mpr owes.2
      rw [Demise.rattles, if_neg (Bool.eq_false_iff.mp spoken), Duel.rattle, words]
      rfl

theorem rattles_of_not_owes {death : Death}
    (free : ¬ death.Owes ∨ death.demise.IsReplacement) :
    death.demise.rattles death.before = [] := by
  obtain ⟨before, demise, after⟩ := death
  cases demise with
  | replacement player id entity => rfl
  | burial id entity =>
      have words : before.lastWords entity = [] :=
        lastWords_of_not_owes (free.resolve_right not_false)
      rw [Demise.rattles, words]
      rfl

/-- A death that owes nothing, or a weapon that makes room, queues nothing. -/
theorem isUnanswered_of_law {death : Death}
    (law : Law fits death.before (some death.demise) death.after)
    (free : ¬ death.Owes ∨ death.demise.IsReplacement) : death.IsUnanswered := by
  have reactions := law.reactions
  rw [rattles_of_not_owes free, List.map_nil, List.append_nil] at reactions
  exact reactions

theorem isAnswered_of_law {death : Death}
    (law : Law fits death.before (some death.demise) death.after) (owes : death.Owes)
    (buried : ¬ death.demise.IsReplacement) : death.IsAnswered := by
  have reactions := law.reactions
  rw [rattles_of_owes owes buried, List.append_assoc] at reactions
  exact reactions

theorem not_isAnswered_of_isUnanswered {death : Death} (unanswered : death.IsUnanswered) :
    ¬ death.IsAnswered := by
  intro answered
  have lengths := congrArg List.length (unanswered.symm.trans answered)
  simp at lengths

/-- A deathrattle that is due is queued unless the entity is a weapon that makes room. -/
theorem isAnswered_iff {death : Death} (law : Law fits death.before (some death.demise) death.after)
    (owes : death.Owes) : death.IsAnswered ↔ ¬ death.demise.IsReplacement where
  mp answered replaced :=
    not_isAnswered_of_isUnanswered (isUnanswered_of_law law (.inr replaced)) answered
  mpr := isAnswered_of_law law owes

/-! ## A whole run -/

/-- The effect lists among the reactions are those that waited before and the one that a death
queues, less those that have been taken. -/
theorem Law.runs {demise : Option Demise} (law : Law fits before demise after)
    (tidy : before.Tidy fits) :
    after.agenda.runs <:+ before.agenda.runs ++ demise.toList.flatMap (Demise.rattles before) := by
  obtain ⟨kept, murmurs, reactions, ⟨taken, whole⟩, plain⟩ := (law.goes tidy).reactions
  have silent : murmurs.filterMap Work.run? = [] :=
    List.filterMap_eq_nil_iff.mpr fun work member => (plain work member).1
  have owed (rattles : List Resolution) : (rattles.map Work.run).filterMap Work.run? = rattles := by
    rw [List.filterMap_map]
    exact List.filterMap_some
  refine ⟨taken.filterMap Work.run?, ?_⟩
  rw [Agenda.runs, Agenda.runs, reactions, ← whole, List.filterMap_append, List.filterMap_append,
    List.filterMap_append, silent, owed, List.append_nil, List.append_assoc]

theorem rattles_append (later earlier : Obituary) :
    (later ++ earlier : Obituary).rattles = earlier.rattles ++ later.rattles := by
  unfold Obituary.rattles
  rw [List.reverse_append, List.flatMap_append]

/-- Only the burial of an entity whose deathrattle is due queues one. -/
theorem owes_of_mem_rattles {death : Death} {resolution : Resolution}
    (queued : resolution ∈ death.demise.rattles death.before) :
    death.Owes ∧ ¬ death.demise.IsReplacement := by
  by_contra free
  have spared := (Classical.not_and_iff_not_or_not.mp free).imp_right Classical.not_not.mp
  rw [rattles_of_not_owes spared] at queued
  cases queued

/-- Whatever effect list waits among the reactions is a deathrattle that some death queued, and each
of them waits at most once. -/
theorem Chronicle.runs (chronicle : Chronicle start deaths after)
    (tidy : start.Tidy fun _ => True) (silent : start.agenda.runs = []) :
    after.agenda.runs <:+ deaths.rattles := by
  induction chronicle with
  | start =>
      rw [silent]
      exact List.nil_suffix
  | @step deaths demise before after chronicle law ih =>
      have newest : Obituary.rattles (demise.toList.map (⟨before, ·, after⟩)) =
          demise.toList.flatMap (Demise.rattles before) := by
        cases demise with
        | none => rfl
        | some demise => rfl
      rw [rattles_append, newest]
      obtain ⟨taken, whole⟩ := ih
      refine (law.runs (chronicle.tidy tidy)).trans ⟨taken, ?_⟩
      rw [← List.append_assoc, whole]

/-- Every death of a run comes by the law. -/
theorem Chronicle.law (chronicle : Chronicle start deaths after) {death : Death}
    (member : death ∈ deaths) :
    Law (fun _ => True) death.before (some death.demise) death.after := by
  induction chronicle with
  | start => cases member
  | @step deaths demise before after _ law ih =>
      rcases List.mem_append.mp member with newest | earlier
      · obtain ⟨demise, some', rfl⟩ := List.mem_map.mp newest
        rw [Option.mem_toList.mp some'] at law
        exact law
      · exact ih earlier

/-- Whatever is done with a duel that was set up is a run from a bare one.  In every such run a
deathrattle that is due is queued unless it is that of a weapon that makes room for another one, and
nothing else is ever queued as a deathrattle. -/
theorem tolls_afterDeeds {settings : Settings} {catalogue : Catalogue}
    (created : Duel.create settings catalogue = .ok duel) :
    ∃ bare, Duel.bare settings catalogue = .ok bare ∧
      (∀ allowance deeds, ∃ deaths, Chronicle bare deaths (duel.afterDeeds allowance deeds)) ∧
        ∀ deaths after, Chronicle bare deaths after →
          (∀ death ∈ deaths,
            death.before.entity? death.demise.id = some death.demise.entity ∧
              (death.Owes → (death.IsAnswered ↔ ¬ death.demise.IsReplacement)) ∧
                (¬ death.Owes → death.IsUnanswered)) ∧
            after.agenda.runs <:+ deaths.rattles := by
  obtain ⟨bare, begun, placed⟩ : ∃ bare, Duel.bare settings catalogue = .ok bare ∧
      ReflTransGen (Lawful fun _ => True) bare duel := exists_bare created
  have tidy : bare.Tidy fun _ => True := bare_tidy begun fun entry _ =>
    ⟨fun _ _ => trivial, fun _ _ => trivial, fun _ _ => trivial, fun _ _ _ _ => trivial⟩
  have silent : bare.agenda.runs = [] := by
    obtain ⟨first, dice, zero, one, rfl⟩ := bare_eq begun
    rfl
  refine ⟨bare, begun, fun allowance deeds =>
    exists_chronicle (placed.trans (duel.steps_afterDeeds allowance deeds)),
      fun deaths after chronicle => ⟨?_, ?_⟩⟩
  · intro death member
    have law := chronicle.law member
    exact ⟨law.known, isAnswered_iff law, fun free => isUnanswered_of_law law (.inl free)⟩
  · exact chronicle.runs tidy silent

end Duel

/-! ## A weapon that makes room -/

namespace Play

variable {α β : Type} {duel after : Duel} {id old : EntityId} {entity weapon : Entity}
variable {player : Player}

theorem bind_congr {action other : Play α} (next : α → Play β) (same : action duel = other after) :
    (action >>= next) duel = (other >>= next) after := by
  change EStateM.bind action next duel = EStateM.bind other next after
  unfold EStateM.bind
  rw [same]

theorem send_graveyard_eq (known : duel.entity? id = some entity) :
    send id .graveyard duel = .ok () (duel.interred id entity) := by
  have sends : (send id .graveyard).Yields duel (fun _ left => left = duel.interred id entity)
      fun _ => False := by
    rw [yields_sendToGraveyard]
    refine ⟨fun absent => absurd (absent.symm.trans known) nofun, fun held knownHeld => ?_⟩
    cases known.symm.trans knownHeld
    rfl
  obtain ⟨value, left, ran, same⟩ := sends.exists_ok
  rw [ran, same]

/-- When a weapon is equipped, the one before it makes room first. -/
theorem equip_eq (armed : duel.weapon player = some old) (held : duel.entity? old = some weapon) :
    equip player id duel =
      (do giveTo id player; send id .play : Play Unit) (duel.outlived player old weapon) := by
  unfold equip
  rw [get_bind, armed]
  dsimp only
  rw [bind_of_ok (send_graveyard_eq held)]
  rfl

end Play

namespace Duel

variable {start duel : Duel} {deaths : Obituary} {player : Player} {card old : EntityId}
variable {entity weapon : Entity} {target : Option EntityId} {position : Option Nat}

/-- An accepted play of a weapon goes through the death of the one before it. -/
theorem exists_chronicle_take (chronicle : Chronicle start deaths duel) (allowance : Nat)
    (accepted : duel.check player (.playCard card target position) = .ok ())
    (known : duel.entity? card = some entity) (kind : entity.kind = .weapon)
    (armed : duel.weapon player = some old) (held : duel.entity? old = some weapon) :
    ∃ later before after, before.catalogue = duel.catalogue ∧
      Chronicle start (later ++ ⟨before, .replacement player old weapon, after⟩ :: deaths)
        ((Play.take allowance player (.playCard card target position)).left duel) := by
  obtain ⟨turn, -⟩ := check_playCard accepted
  let action : Action := .playCard card target position
  let paid := duel.paidFor player action entity
  have slots : paid.table = duel.table := duel.table_paidFor player action entity
  have armedPaid : paid.weapon player = some old := by
    rw [← armed]
    exact congrArg (fun table => (table.slots player).weapon) slots
  have heldPaid : paid.entity? old = some weapon := held
  have charged : Chronicle start deaths paid :=
    (chronicle.step (.record duel player action)).step (.adjust _ player (.pay entity))
  have outlived := charged.step (.outlive paid player heldPaid)
  -- What is left of the play once the old weapon is gone.
  let rest : Play Unit := Play.onFault
    (do Play.giveTo card player
        Play.send card .play
        Play.runPhases allowance (duel.phasesFor player card target entity)) clearAgenda
  have goesOn : Play.take allowance player action duel =
      rest (paid.outlived player old weapon) := by
    rw [take_playCard_eq allowance known accepted (running_of_checkTurn turn)]
    refine Play.onFault_congr ?_
    unfold Play.placePlayed
    rw [kind]
    refine (Play.bind_congr _ (Play.equip_eq armedPaid heldPaid)).trans ?_
    rw [bind_assoc]
  have follows : Play.Follows (Lawful fun _ => True) rest := by
    refine Play.Follows.onFault (Play.follows_giveTo.bind fun _ => Play.follows_send.bind fun _ =>
      Play.follows_runPhases ?_) fun duel => Working.clear duel
    unfold phasesFor
    exact Play.isPhase_phasesOf (fun _ => rfl) (Resolution.fits_true _)
  obtain ⟨later, ends⟩ := outlived.along (follows (paid.outlived player old weapon)).reaches
  refine ⟨later, paid, paid.outlived player old weapon, rfl, ?_⟩
  have same : (Play.take allowance player action).left duel =
      rest.left (paid.outlived player old weapon) := by
    unfold Play.left
    rw [goesOn]
  rw [same]
  exact ends

end Duel

/-- A minion that dies of its own battlecry, which then waits for a choice, and an axe; both leave
their player armor. -/
def Catalogue.mourners : Catalogue :=
  .ofEntries
    [⟨Card.hero ⟨1⟩ "HERO" "" .mage 30 "POWER", Behaviour.none⟩,
      ⟨Card.power ⟨2⟩ "POWER" "" 2, Behaviour.none⟩,
      ⟨{ Card.minion ⟨3⟩ "SEER" "" 0 1 1 with collectible := true },
        { Behaviour.none with
          effects := [.destroy .source, .discover .minion .unset]
          deathrattle := [.gainArmor 1] }⟩,
      ⟨Card.weapon ⟨4⟩ "AXE" "" 0 1 2, { Behaviour.none with deathrattle := [.gainArmor 1] }⟩]
    [(.mage, ⟨1⟩)] (by decide) (by decide)

/-- Player zero draws two seers and two axes. -/
def Settings.mourners : Settings :=
  { Settings.standard with
    decks := [["SEER", "AXE", "AXE", "SEER"], []]
    shuffleDecks := false }

namespace Duel

/-- The seer is buried, and its deathrattle waits until the choice is made. -/
theorem tolls_afterDeeds_mourners :
    ∃ duel bare deaths death, Duel.create Settings.mourners Catalogue.mourners = .ok duel ∧
      Duel.bare Settings.mourners Catalogue.mourners = .ok bare ∧
        Chronicle bare deaths (duel.afterDeeds 100
          [.call .start, .call (.take .zero (.play ⟨4⟩))]) ∧
          death ∈ deaths ∧ death.Owes ∧ death.IsAnswered ∧
            (duel.afterDeeds 100 [.call .start, .call (.take .zero (.play ⟨4⟩))]).agenda.runs <:+
              deaths.rattles := by
  obtain ⟨duel, after, created, runs, comes⟩ := exists_of_outcome Settings.mourners
    Catalogue.mourners 100 [.start, .take .zero (.play ⟨4⟩)]
    (fun after => !after.agenda.runs.isEmpty) (by decide +kernel)
  have did : duel.afterDeeds 100 [.call .start, .call (.take .zero (.play ⟨4⟩))] = after :=
    afterDeeds_of_runs runs
  obtain ⟨bare, begun, reaches, tolls⟩ := tolls_afterDeeds created
  obtain ⟨deaths, chronicle⟩ := reaches 100 [.call .start, .call (.take .zero (.play ⟨4⟩))]
  obtain ⟨each, waits⟩ := tolls deaths _ chronicle
  obtain ⟨resolution, waiting⟩ : ∃ resolution, resolution ∈ after.agenda.runs :=
    List.exists_mem_of_ne_nil _ (by simpa using comes)
  rw [← did] at waiting
  obtain ⟨death, member, queued⟩ := List.mem_flatMap.mp (waits.mem waiting)
  obtain ⟨owes, buried⟩ := owes_of_mem_rattles queued
  have died : death ∈ deaths := List.mem_reverse.mp member
  exact ⟨duel, bare, deaths, death, created, begun, chronicle, died, owes,
    ((each death died).2.1 owes).mpr buried, waits⟩

/-- Whether one axe is in the slot of player zero and the next one can be played. -/
def holdsAxes (duel : Duel) : Bool :=
  duel.accepts .zero (.play ⟨6⟩) && duel.weapon .zero = some ⟨5⟩ &&
    ((duel.entity? ⟨6⟩).any fun entity => entity.kind = .weapon) &&
      (duel.entity? ⟨5⟩).any fun weapon =>
        !weapon.tags.has .silenced && !(duel.behaviourOf weapon).deathrattle.isEmpty

/-- The second axe makes the first one leave: its death is announced, and its deathrattle, which is
due, is not queued. -/
theorem not_isAnswered_mourners :
    ∃ duel bare deaths death, Duel.create Settings.mourners Catalogue.mourners = .ok duel ∧
      Duel.bare Settings.mourners Catalogue.mourners = .ok bare ∧
        Chronicle bare deaths (duel.afterDeeds 100
          [.call .start, .call (.take .zero (.play ⟨5⟩)), .call (.take .zero (.play ⟨6⟩))]) ∧
          death ∈ deaths ∧ death.Owes ∧ ¬ death.IsAnswered ∧ death.IsUnanswered := by
  obtain ⟨duel, middle, created, runs, comes⟩ := exists_of_outcome Settings.mourners
    Catalogue.mourners 100 [.start, .take .zero (.play ⟨5⟩)] holdsAxes (by decide +kernel)
  have did : duel.afterDeeds 100 [.call .start, .call (.take .zero (.play ⟨5⟩))] = middle :=
    afterDeeds_of_runs runs
  unfold holdsAxes at comes
  simp only [Bool.and_eq_true, decide_eq_true_eq, Option.any_eq_true, Bool.not_eq_true',
    List.isEmpty_eq_false_iff] at comes
  obtain ⟨⟨⟨accepts, armed⟩, entity, known, kind⟩, weapon, held, spoken, rattles⟩ := comes
  obtain ⟨bare, begun, placed⟩ : ∃ bare, Duel.bare Settings.mourners Catalogue.mourners = .ok bare ∧
      ReflTransGen (Lawful fun _ => True) bare duel := exists_bare created
  obtain ⟨deaths, chronicle⟩ := exists_chronicle (placed.trans (duel.steps_afterDeeds 100
    [.call .start, .call (.take .zero (.play ⟨5⟩))]))
  rw [did] at chronicle
  obtain ⟨later, before, after, catalogue, goes⟩ :=
    exists_chronicle_take chronicle 100 (accepts_iff.mp accepts) known kind armed held
  have ends : duel.afterDeeds 100
      [.call .start, .call (.take .zero (.play ⟨5⟩)), .call (.take .zero (.play ⟨6⟩))] =
        (Play.take 100 .zero (.playCard ⟨6⟩ none none)).left middle := by
    rw [← did]
    rfl
  rw [← ends] at goes
  let death : Death := ⟨before, .replacement .zero ⟨5⟩ weapon, after⟩
  have died : death ∈ later ++ death :: deaths :=
    List.mem_append_right later List.mem_cons_self
  have owes : death.Owes := by
    refine ⟨spoken, ?_⟩
    change (before.behaviourOf weapon).deathrattle ≠ []
    rw [behaviourOf, catalogue]
    exact rattles
  have silent : death.IsUnanswered := isUnanswered_of_law (goes.law died) (.inr trivial)
  exact ⟨duel, bare, _, death, created, begun, goes, died, owes,
    not_isAnswered_of_isUnanswered silent, silent⟩

end Duel

end CardDuel
