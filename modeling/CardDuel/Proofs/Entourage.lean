import CardDuel.Proofs.Calls
import CardDuel.Proofs.Fates
import CardDuel.Proofs.Making

/-!
# The gate of the entourage and the effect

A card may require that its entourage is not complete on the field of its player, and an effect makes
cards of the entourage that are missing there.  The gate compares codes and the effect compares
handles.  Since every code names one card, they see the same cards on the field, so the gate is open
exactly when the effect has something to make.
-/

namespace CardDuel

open Relation

namespace Duel

variable {duel start : Duel} {settings : Settings} {catalogue : Catalogue} {player : Player}
variable {code : String} {codes : List String} {card member : Card} {id : EntityId}

/-- An entity is a copy of the card of a code exactly when it has the handle of that card. -/
theorem code_cardOf?_iff (listed : duel.catalogue.cardByCode? code = some member)
    (id : EntityId) :
    (duel.cardOf? id).map Card.code = some code ↔
      (duel.entity? id).map Entity.card = some member.id := by
  have agrees := duel.catalogue.agrees
  obtain ⟨registered, named⟩ := agrees.cardByCode?_eq_some_iff.mp listed
  unfold cardOf?
  cases duel.entity? id with
  | none => simp
  | some entity =>
      change (duel.catalogue.card? entity.card).map Card.code = some code ↔
        some entity.card = some member.id
      constructor
      · intro same
        obtain ⟨printed, found, sameCode⟩ := Option.map_eq_some_iff.mp same
        obtain ⟨printedToo, handle⟩ := agrees.card?_eq_some_iff.mp found
        rw [← handle, (agrees.code_eq_iff printedToo registered).mp (sameCode.trans named.symm)]
      · intro same
        rw [Option.some.inj same, agrees.card?_eq_some_iff.mpr ⟨registered, rfl⟩, Option.map_some,
          named]

/-- Codes and handles tell the same about the field. -/
theorem hasOnField_eq (listed : duel.catalogue.cardByCode? code = some member)
    (player : Player) :
    duel.hasOnField player code =
      (duel.field player).any fun id => (duel.entity? id).map Entity.card = some member.id := by
  unfold hasOnField
  exact List.any_congr rfl fun id => decide_eq_decide.mpr (code_cardOf?_iff listed id)

/-- Nobody on the field of a player is a copy of a card. -/
def Lacks (duel : Duel) (player : Player) (form : CardId) : Prop :=
  ∀ id ∈ duel.field player, (duel.entity? id).map Entity.card ≠ some form

theorem lacks_iff {form : CardId} : duel.Lacks player form ↔
    ((duel.field player).any fun id => (duel.entity? id).map Entity.card = some form) = false := by
  rw [List.any_eq_false]
  simp only [decide_eq_true_eq]
  rfl

/-- A card of the entourage of which a player has no copy on the field. -/
structure Missing (duel : Duel) (player : Player) (codes : List String) (form : CardId) : Prop where
  member : ∃ code ∈ codes, (duel.catalogue.cardByCode? code).map Card.id = some form
  absent : duel.Lacks player form

/-- What is missing is the first card, if nobody on the field is a copy of it, or one of the others. -/
theorem missing_cons_iff {form : CardId}
    (listed : duel.catalogue.cardByCode? code = some member) :
    duel.Missing player (code :: codes) form ↔
      (member.id = form ∧ duel.Lacks player member.id) ∨ duel.Missing player codes form := by
  constructor
  · rintro ⟨⟨other, inside, same⟩, absent⟩
    rcases List.mem_cons.mp inside with rfl | later
    · rw [listed] at same
      obtain rfl : member.id = form := Option.some.inj same
      exact .inl ⟨rfl, absent⟩
    · exact .inr ⟨⟨other, later, same⟩, absent⟩
  · rintro (⟨rfl, absent⟩ | ⟨⟨other, inside, same⟩, absent⟩)
    · exact ⟨⟨code, List.mem_cons_self, by rw [listed]; rfl⟩, absent⟩
    · exact ⟨⟨other, .tail _ inside, same⟩, absent⟩

/-- The gate is open exactly when a card of the entourage is missing. -/
theorem passesGate_iff (printed : duel.cardOf? id = some card)
    (listed : ∀ code ∈ card.entourage, ∃ member, duel.catalogue.cardByCode? code = some member)
    (value : Int) :
    duel.passesGate player id .entourageNotComplete value = true ↔
      ∃ form, duel.Missing player card.entourage form := by
  have absent {code : String} {member : Card}
      (known : duel.catalogue.cardByCode? code = some member) :
      duel.hasOnField player code = false ↔ duel.Lacks player member.id := by
    rw [hasOnField_eq known, lacks_iff]
  unfold passesGate
  dsimp only
  rw [printed]
  simp only [List.any_eq_true, Bool.not_eq_true']
  constructor
  · rintro ⟨code, inside, nobody⟩
    obtain ⟨member, known⟩ := listed code inside
    exact ⟨member.id, ⟨code, inside, by rw [known]; rfl⟩, (absent known).mp nobody⟩
  · rintro ⟨form, ⟨code, inside, same⟩, nobody⟩
    obtain ⟨member, known⟩ := listed code inside
    rw [known] at same
    obtain rfl : member.id = form := Option.some.inj same
    exact ⟨code, inside, (absent known).mpr nobody⟩

end Duel

namespace Play

open Duel

variable {duel : Duel} {codes : List String}

/-- The pool of the effect consists of the cards that are missing. -/
theorem exists_entouragePool (player : Player)
    (listed : ∀ code ∈ codes, ∃ member, duel.catalogue.cardByCode? code = some member) :
    ∃ pool, entouragePool player true codes duel = .ok pool duel ∧
      ∀ form, form ∈ pool ↔ duel.Missing player codes form := by
  induction codes with
  | nil => exact ⟨[], rfl, fun form => ⟨nofun, fun missing => by simpa using missing.member⟩⟩
  | cons code codes ih =>
      obtain ⟨member, known⟩ := listed code List.mem_cons_self
      obtain ⟨pool, ran, pooled⟩ := ih fun other inside => listed other (.tail _ inside)
      let present := (duel.field player).any fun id =>
        (duel.entity? id).map Entity.card = some member.id
      have pools : entouragePool player true (code :: codes) duel =
          .ok (if present then pool else member.id :: pool) duel := by
        unfold entouragePool
        rw [bind_of_ok (lookupCode_of_card known), get_bind, bind_of_ok ran]
        rfl
      have absent : duel.Lacks player member.id ↔ present = false := lacks_iff
      refine ⟨_, pools, fun form => ?_⟩
      rw [missing_cons_iff known, absent, ← pooled]
      cases present with
      | true => simp
      | false => simp [eq_comm]

variable {resolution : Resolution} {entity : Entity} {card : Card} {count : Nat}

/-- When cards of the entourage are missing, the effect makes some of them; else it gives up. -/
theorem perform_makeEntourage (sound : duel.WellPlaced)
    (known : duel.entity? resolution.context.source = some entity)
    (printed : duel.catalogue.card? entity.card = some card)
    (instantiable : ∀ code ∈ card.entourage, ∃ member,
      duel.catalogue.cardByCode? code = some member ∧ duel.catalogue.Instantiable member.id)
    (positive : 1 ≤ count) :
    (¬ (∃ form, duel.Missing resolution.context.controller card.entourage form) ∧
      perform resolution (.makeEntourage count true) duel = .ok (.stop, resolution) duel) ∨
    ∃ forms ids after, perform resolution (.makeEntourage count true) duel =
        .ok (goOn resolution { resolution.scratch with made := resolution.scratch.made ++ ids })
          after ∧
      ids ≠ [] ∧ duel.Creates resolution.context.controller forms ids after ∧
        ∀ form ∈ forms, duel.Missing resolution.context.controller card.entourage form := by
  obtain ⟨pool, ran, pooled⟩ := exists_entouragePool resolution.context.controller
    fun code inside => (instantiable code inside).imp fun _ both => both.1
  have goes : perform resolution (.makeEntourage count true) duel =
      (if pool.isEmpty then return (.stop, resolution)
      else
        roll (fun dice => dice.sampleOf pool count) >>= fun cards =>
          setAsideAll resolution.context.controller cards >>= fun ids =>
            return goOn resolution
              { resolution.scratch with made := resolution.scratch.made ++ ids } :
        Play (Outcome × Resolution)) duel := by
    refine (bind_of_ok (lookup_of_entity? known)).trans ?_
    rw [get_bind, printed]
    exact bind_of_ok ran
  by_cases empty : pool = []
  · refine .inl ⟨?_, ?_⟩
    · rintro ⟨form, missing⟩
      simpa [empty] using (pooled form).mpr missing
    · rw [goes, empty]
      rfl
  · have fits (form : CardId) (drawn : form ∈ (duel.dice.sampleOf pool count).1) :
        duel.Missing resolution.context.controller card.entourage form :=
      (pooled form).mp (Dice.mem_of_mem_sampleOf _ _ _ drawn)
    have formed (form : CardId) (drawn : form ∈ (duel.dice.sampleOf pool count).1) :
        duel.catalogue.Instantiable form := by
      obtain ⟨code, inside, same⟩ := (fits form drawn).member
      obtain ⟨member, listed, instantiable⟩ := instantiable code inside
      rw [listed] at same
      rwa [Option.some.inj same] at instantiable
    obtain ⟨ids, after, creates, on⟩ := exists_rolled resolution.context.controller sound
      (fun dice => dice.sampleOf pool count) formed
    refine .inr ⟨_, ids, after, ?_, fun none => ?_, creates, fits⟩
    · rw [goes, if_neg (by simpa using empty)]
      exact on _
    · have drawn := creates.copies.length_eq
      rw [none] at drawn
      exact Dice.sampleOf_ne_nil duel.dice empty positive (List.length_eq_zero_iff.mp drawn.symm)

/-- The gate is open exactly when the effect does not give up, and then the effect makes copies of
cards of the entourage that the player had no copy of on the field. -/
theorem passesGate_iff_not_stops {settings : Settings} {catalogue : Catalogue} {start : Duel}
    (created : Duel.create settings catalogue = .ok start)
    (reaches : ReflTransGen Change start duel) (resolution : Resolution)
    (known : duel.entity? resolution.context.source = some entity)
    (instantiable : ∀ card, catalogue.card? entity.card = some card → ∀ code ∈ card.entourage,
      ∃ member, catalogue.cardByCode? code = some member ∧
        (EntityKind.ofCardType? member.cardType).isSome)
    (positive : 1 ≤ count) (value : Int) :
    (duel.passesGate resolution.context.controller resolution.context.source .entourageNotComplete
        value = true ↔
      ¬ ∃ after, perform resolution (.makeEntourage count true) duel =
        .ok (.stop, resolution) after) ∧
    (duel.passesGate resolution.context.controller resolution.context.source .entourageNotComplete
        value = true →
      ∃ card forms ids after, catalogue.card? entity.card = some card ∧
        perform resolution (.makeEntourage count true) duel =
          .ok (goOn resolution { resolution.scratch with made := resolution.scratch.made ++ ids })
            after ∧
        ids ≠ [] ∧ duel.Creates resolution.context.controller forms ids after ∧
          ∀ form ∈ forms, duel.Missing resolution.context.controller card.entourage form) := by
  have same : duel.catalogue = catalogue :=
    (Change.fixed_of_reaches reaches).2.trans (fixed_of_created created).2
  have sound := Change.wellPlaced_of_reaches reaches (created_wellPlaced created)
  obtain ⟨card, printed⟩ := catalogued_of_reaches created reaches _ entity known
  rw [← same] at instantiable ⊢
  have copy : duel.cardOf? resolution.context.source = some card := by
    unfold cardOf?
    rw [known]
    exact printed
  have entourage (code : String) (inside : code ∈ card.entourage) : ∃ member,
      duel.catalogue.cardByCode? code = some member ∧ duel.catalogue.Instantiable member.id := by
    obtain ⟨member, listed, kind⟩ := instantiable card printed code inside
    obtain ⟨kind, formed⟩ := Option.isSome_iff_exists.mp kind
    exact ⟨member, listed, member, kind,
      duel.catalogue.agrees.card?_eq_some_iff.mpr
        ⟨(duel.catalogue.agrees.cardByCode?_eq_some_iff.mp listed).1, rfl⟩, formed⟩
  rw [passesGate_iff copy
    (fun code inside => (entourage code inside).imp fun _ both => both.1) value]
  rcases perform_makeEntourage sound known printed entourage positive with
    ⟨complete, stops⟩ | ⟨forms, ids, after, makes, some, creates, missing⟩
  · exact ⟨⟨fun open' => absurd open' complete, fun goes => absurd ⟨duel, stops⟩ goes⟩,
      fun open' => absurd open' complete⟩
  · have goes : ¬ ∃ left, perform resolution (.makeEntourage count true) duel =
        .ok (.stop, resolution) left := by
      rintro ⟨left, stops⟩
      cases makes.symm.trans stops
    have first : ∃ form, form ∈ forms := by
      cases creates.copies with
      | nil => exact absurd rfl some
      | cons => exact ⟨_, List.mem_cons_self⟩
    obtain ⟨form, member⟩ := first
    exact ⟨⟨fun _ => goes, fun _ => ⟨form, missing form member⟩⟩,
      fun _ => ⟨card, forms, ids, after, printed, makes, some, creates, missing⟩⟩

end Play

/-- Mages whose catalogue has a spell that calls a wisp or an imp. -/
def Catalogue.callers : Catalogue :=
  .ofEntries
    [⟨Card.hero ⟨1⟩ "MAGE" "Mage" .mage 30 "FIREBLAST", Behaviour.none⟩,
      ⟨Card.power ⟨2⟩ "FIREBLAST" "Fireblast" 2, Behaviour.none⟩,
      ⟨Card.minion ⟨3⟩ "WISP" "Wisp" 0 1 1, Behaviour.none⟩,
      ⟨Card.minion ⟨4⟩ "IMP" "Imp" 0 1 1, Behaviour.none⟩,
      ⟨{ Card.spell ⟨5⟩ "CALL" "Call" 1 with entourage := ["WISP", "IMP"] }, Behaviour.none⟩]
    [(.mage, ⟨1⟩)] (by decide) (by decide)

/-- One mage has the spell and a wisp in the deck. -/
def Settings.callers : Settings :=
  { Settings.standard with decks := [["CALL", "WISP"], ["WISP"]] }

/-- With a wisp on the field, the spell may be played and calls imps only. -/
theorem Play.passesGate_iff_not_stops_callers :
    ∃ start duel, Duel.create Settings.callers Catalogue.callers = .ok start ∧
      start.Runs 100 [.start, .take .zero (.play ⟨5⟩)] duel ∧ duel.field .zero = [⟨5⟩] ∧
        duel.passesGate .zero ⟨4⟩ .entourageNotComplete 1 = true ∧
          ∃ forms ids after, Play.perform (.ofEffects [] ⟨.zero, ⟨4⟩, none, none⟩)
              (.makeEntourage 1 true) duel =
                .ok (Play.goOn (.ofEffects [] ⟨.zero, ⟨4⟩, none, none⟩)
                  { Scratch.initial with made := ids }) after ∧
            ids ≠ [] ∧ duel.Creates .zero forms ids after ∧ ∀ form ∈ forms, form = ⟨4⟩ := by
  obtain ⟨start, duel, created, runs, comes⟩ :=
    Duel.exists_of_outcome Settings.callers Catalogue.callers 100
      [.start, .take .zero (.play ⟨5⟩)] (fun duel =>
        (duel.entity? ⟨4⟩).map Entity.card = some ⟨5⟩ && duel.field .zero = [⟨5⟩] &&
          (duel.entity? ⟨5⟩).map Entity.card = some ⟨3⟩ &&
            duel.passesGate .zero ⟨4⟩ .entourageNotComplete 1)
      (by decide +kernel)
  simp only [Bool.and_eq_true, decide_eq_true_eq] at comes
  obtain ⟨⟨⟨copy, field⟩, wisp⟩, open'⟩ := comes
  obtain ⟨entity, known, card⟩ := Option.map_eq_some_iff.mp copy
  have call {printed : Card} (listed : Catalogue.callers.card? entity.card = some printed) :
      printed.entourage = ["WISP", "IMP"] := by
    rw [card] at listed
    cases listed
    rfl
  have instantiable : ∀ card, Catalogue.callers.card? entity.card = some card →
      ∀ code ∈ card.entourage, ∃ member, Catalogue.callers.cardByCode? code = some member ∧
        (EntityKind.ofCardType? member.cardType).isSome := by
    intro printed listed code inside
    rw [call listed] at inside
    simp only [List.mem_cons, List.not_mem_nil, or_false] at inside
    rcases inside with rfl | rfl <;> exact ⟨_, rfl, rfl⟩
  have reaches := Duel.reaches_of_runs runs
  obtain ⟨-, makes⟩ := Play.passesGate_iff_not_stops created reaches
    (.ofEffects [] ⟨.zero, ⟨4⟩, none, none⟩) known instantiable (Nat.le_refl 1) 1
  obtain ⟨printed, forms, ids, after, listed, ran, some, creates, missing⟩ := makes open'
  refine ⟨start, duel, created, runs, field, open', forms, ids, after, ran, some, creates,
    fun form member => ?_⟩
  obtain ⟨⟨code, inside, same⟩, absent⟩ := missing form member
  have catalogue : duel.catalogue = Catalogue.callers :=
    (Duel.Change.fixed_of_reaches reaches).2.trans (Duel.fixed_of_created created).2
  rw [call listed] at inside
  rw [catalogue] at same
  simp only [List.mem_cons, List.not_mem_nil, or_false] at inside
  rcases inside with rfl | rfl
  · cases same
    exact absurd wisp (absent ⟨5⟩ (field ▸ List.mem_singleton_self _))
  · cases same
    rfl

end CardDuel
