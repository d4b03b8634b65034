import CardDuel.Proofs.Registration
import Mathlib.Data.List.Induction

/-!
# Requests to a registry

Registering a card or choosing a starting hero may fail, and then the registry stays as it is.
Whatever the requests and however many of them fail, the collections of a registry that was empty
come to hold the cards that were registered, in this order, with a handle and a code of their own.
Each class starts with the hero that was chosen for it last.
-/

namespace CardDuel

/-- What may be asked of a registry. -/
inductive RegistryCall
  | register (card : Card) (behaviour : Behaviour)
  | setDefaultHero (code : String)

def RegistryCall.request : RegistryCall → EStateM SetupError Registry Unit
  | .register card behaviour => Registry.register card behaviour
  | .setDefaultHero code => Registry.setDefaultHero code

namespace Registry

variable {registry after : Registry} {entries : List CatalogueEntry} {card : Card}
variable {behaviour : Behaviour} {id : CardId} {code : String} {cardClass : CardClass}
variable {call : RegistryCall}

/-! ## One request -/

/-- The registry that a request leaves behind, whether or not it failed. -/
def obey (registry : Registry) (call : RegistryCall) : Registry :=
  match call.request registry with
  | .ok _ after | .error _ after => after

/-- The entry that a request writes, if it registers a card. -/
def entered? (registry : Registry) (call : RegistryCall) : Option CatalogueEntry :=
  match call, call.request registry with
  | .register card behaviour, .ok _ _ => some ⟨card, behaviour⟩
  | _, _ => none

/-- The card that a request makes a starting hero. -/
def chosen? (registry : Registry) (call : RegistryCall) : Option Card :=
  match call, call.request registry with
  | .setDefaultHero code, .ok _ _ => registry.cardByCode? code
  | _, _ => none

/-- What a request to a registry with these entries does, and leaves alone. -/
structure Obeys (registry : Registry) (entries : List CatalogueEntry) (call : RegistryCall)
    (after : Registry) : Prop where
  files : after.Files (entries ++ (registry.entered? call).toList)
  heroes : after.heroes = (registry.chosen? call).elim registry.heroes fun hero =>
    registry.heroes.insert hero.cardClass hero.id
  /-- The card that is made a starting hero is a registered hero. -/
  chosen : ∀ hero, registry.chosen? call = some hero →
    hero ∈ registry.cards ∧ hero.cardType = .hero
  failed : ∀ cause left, call.request registry = .error cause left → left = registry

theorem Files.obeys_of_error (files : registry.Files entries) {cause : SetupError}
    (failed : call.request registry = .error cause registry) :
    registry.Obeys entries call (registry.obey call) := by
  have unentered : registry.entered? call = none := by
    unfold entered?
    rw [failed]
    cases call <;> rfl
  have unchosen : registry.chosen? call = none := by
    unfold chosen?
    rw [failed]
    cases call <;> rfl
  have stays : registry.obey call = registry := by rw [obey, failed]
  rw [stays]
  constructor
  case files =>
    rw [unentered, Option.toList_none, List.append_nil]
    exact files
  case heroes => rw [unchosen, Option.elim_none]
  case chosen => exact fun hero chosen => nomatch unchosen.symm.trans chosen
  case failed =>
    intro cause left again
    cases failed.symm.trans again
    rfl

theorem Files.obeys (files : registry.Files entries) (call : RegistryCall) :
    registry.Obeys entries call (registry.obey call) := by
  cases ran : call.request registry with
  | error cause left =>
      have stays : left = registry := by
        cases call with
        | register card behaviour =>
            have result := (files.register_eq card behaviour).symm.trans ran
            split at result
            · cases result
              rfl
            split at result
            · cases result
              rfl
            · cases result
        | setDefaultHero code =>
            have result := (setDefaultHero_eq code registry).symm.trans ran
            split at result
            · cases result
              rfl
            split at result
            · cases result
              rfl
            · cases result
      rw [stays] at ran
      exact files.obeys_of_error ran
  | ok value after =>
      have written : registry.obey call = after := by rw [obey, ran]
      rw [written]
      cases call with
      | register card behaviour =>
          have entered :
              registry.entered? (.register card behaviour) = some ⟨card, behaviour⟩ := by
            unfold entered?
            rw [ran]
          obtain ⟨filed, kept⟩ := files.register ran
          refine ⟨?_, kept, fun _ => nofun, fun _ _ failed => nomatch ran.symm.trans failed⟩
          rw [entered]
          exact filed
      | setDefaultHero code =>
          have result := (setDefaultHero_eq code registry).symm.trans ran
          split at result
          · cases result
          next hero found =>
            split at result
            · cases result
            next type =>
              have unentered : registry.entered? (.setDefaultHero code) = none := rfl
              have chosen : registry.chosen? (.setDefaultHero code) = some hero := by
                unfold chosen?
                rw [ran]
                exact found
              have filed : after.Files entries := files.setDefaultHero ran
              cases result
              refine ⟨?_, ?_, fun other again => ?_,
                fun _ _ failed => nomatch ran.symm.trans failed⟩
              · rw [unentered, Option.toList_none, List.append_nil]
                exact filed
              · rw [chosen, Option.elim_some]
              · cases chosen.symm.trans again
                have agrees : registry.Agrees := ⟨entries, files⟩
                exact ⟨(agrees.cardByCode?_eq_some_iff.mp found).1, not_not.mp type⟩

/-! ## Requests one after the other -/

/-- The registry after some requests. -/
def afterCalls (registry : Registry) (calls : List RegistryCall) : Registry :=
  calls.foldl obey registry

/-- What some requests contribute, in their order. -/
def gathered {α : Type} (contribution? : Registry → RegistryCall → Option α)
    (registry : Registry) : List RegistryCall → List α
  | [] => []
  | call :: calls =>
      (contribution? registry call).toList ++ gathered contribution? (registry.obey call) calls

theorem afterCalls_concat (registry : Registry) (calls : List RegistryCall)
    (call : RegistryCall) :
    registry.afterCalls (calls ++ [call]) = (registry.afterCalls calls).obey call :=
  List.foldl_concat obey registry call calls

theorem gathered_concat {α : Type} (contribution? : Registry → RegistryCall → Option α)
    (registry : Registry) (calls : List RegistryCall) (call : RegistryCall) :
    registry.gathered contribution? (calls ++ [call]) =
      registry.gathered contribution? calls ++
        (contribution? (registry.afterCalls calls) call).toList := by
  induction calls generalizing registry with
  | nil => exact List.append_nil _
  | cons first calls ih =>
      change _ ++ gathered _ _ (calls ++ [call]) = _
      rw [ih, ← List.append_assoc]
      rfl

/-- An empty registry files what is registered. -/
theorem files_afterCalls (calls : List RegistryCall) :
    (empty.afterCalls calls).Files (empty.gathered entered? calls) := by
  induction calls using List.reverseRecOn with
  | nil => exact files_empty
  | append_singleton calls call ih =>
      rw [afterCalls_concat, gathered_concat]
      exact (ih.obeys call).files

/-- Whoever was chosen is a registered hero. -/
theorem registered_of_gathered {hero : Card} (calls : List RegistryCall)
    (chosen : hero ∈ empty.gathered chosen? calls) :
    hero ∈ (empty.afterCalls calls).cards ∧ hero.cardType = .hero := by
  induction calls using List.reverseRecOn with
  | nil => cases chosen
  | append_singleton calls call ih =>
      have files := files_afterCalls calls
      have obeys := files.obeys call
      rw [gathered_concat] at chosen
      have known : hero ∈ (empty.afterCalls calls).cards ∧ hero.cardType = .hero := by
        rcases List.mem_append.mp chosen with before | last
        · exact ih before
        · exact obeys.chosen hero (Option.mem_toList.mp last)
      refine ⟨?_, known.2⟩
      rw [afterCalls_concat, obeys.files.cards_eq, List.map_append, ← files.cards_eq]
      exact List.mem_append_left _ known.1

/-- The starting hero of a class is the last one that was chosen for it. -/
theorem lookup_heroes_afterCalls (calls : List RegistryCall) (cardClass : CardClass) :
    (empty.afterCalls calls).heroes.lookup cardClass =
      ((empty.gathered chosen? calls).filter fun hero =>
        hero.cardClass == cardClass).getLast?.map Card.id := by
  induction calls using List.reverseRecOn with
  | nil => rfl
  | append_singleton calls call ih =>
      rw [afterCalls_concat, gathered_concat, ((files_afterCalls calls).obeys call).heroes,
        List.filter_append, List.getLast?_append, Option.map_or]
      cases chosen : (empty.afterCalls calls).chosen? call with
      | none => rw [Option.elim_none, ih]; rfl
      | some hero =>
          rw [Option.elim_some, Dictionary.lookup_insert, ih]
          by_cases own : hero.cardClass = cardClass
          · simp [own]
          · simp [own, Ne.symm own]

theorem nodup_classes_afterCalls (calls : List RegistryCall) :
    (empty.afterCalls calls).heroes.keys.Nodup := by
  induction calls using List.reverseRecOn with
  | nil => exact List.nodup_nil
  | append_singleton calls call ih =>
      rw [afterCalls_concat, ((files_afterCalls calls).obeys call).heroes]
      cases (empty.afterCalls calls).chosen? call with
      | none => exact ih
      | some hero => exact Dictionary.nodup_keys_insert ih _ _

theorem agrees_afterCalls (calls : List RegistryCall) : (empty.afterCalls calls).Agrees :=
  ⟨_, files_afterCalls calls⟩

/-- A class starts with the hero that was chosen for it last. -/
theorem defaultHero?_afterCalls (calls : List RegistryCall) (cardClass : CardClass) :
    (empty.afterCalls calls).defaultHero? cardClass =
      ((empty.gathered chosen? calls).filter fun hero =>
        hero.cardClass == cardClass).getLast? := by
  change ((empty.afterCalls calls).heroes.lookup cardClass).bind _ = _
  rw [lookup_heroes_afterCalls]
  cases last : ((empty.gathered chosen? calls).filter fun hero =>
      hero.cardClass == cardClass).getLast? with
  | none => rfl
  | some hero =>
      have chosen := (List.mem_filter.mp (List.mem_of_getLast? last)).1
      exact (agrees_afterCalls calls).card?_eq_some_iff.mpr
        ⟨(registered_of_gathered calls chosen).1, rfl⟩

/-- Every starting hero is registered, and it is a hero of its own class. -/
theorem registered_of_mem_heroes {calls : List RegistryCall} {row : CardClass × CardId}
    (member : row ∈ (empty.afterCalls calls).heroes) :
    ∃ hero, (empty.afterCalls calls).card? row.2 = some hero ∧ hero.cardType = .hero ∧
      hero.cardClass = row.1 := by
  have found := (Dictionary.lookup_eq_some_iff (nodup_classes_afterCalls calls)).mpr member
  rw [lookup_heroes_afterCalls] at found
  obtain ⟨hero, last, same⟩ := Option.map_eq_some_iff.mp found
  obtain ⟨chosen, own⟩ := List.mem_filter.mp (List.mem_of_getLast? last)
  obtain ⟨listed, type⟩ := registered_of_gathered calls chosen
  exact ⟨hero, (agrees_afterCalls calls).card?_eq_some_iff.mpr ⟨listed, same⟩, type,
    eq_of_beq own⟩

/-! ## Asking for the next request -/

/-- A card is registered unless its handle or its code is taken. -/
theorem Agrees.register_ok_iff (agrees : registry.Agrees) (card : Card) (behaviour : Behaviour) :
    (∃ after, Registry.register card behaviour registry = .ok () after) ↔
      card.id ∉ registry.cards.map Card.id ∧ card.code ∉ registry.cards.map Card.code := by
  rw [agrees.files.register_eq, agrees.files.cards_eq, List.map_map, List.map_map]
  constructor
  · rintro ⟨after, ran⟩
    split at ran
    · cases ran
    next newId =>
      split at ran
      · cases ran
      next newCode => exact ⟨newId, newCode⟩
  · rintro ⟨newId, newCode⟩
    exact ⟨_, (if_neg newId).trans (if_neg newCode)⟩

/-- A registered hero can be chosen as a starting hero, and no other card. -/
theorem Agrees.setDefaultHero_ok_iff (agrees : registry.Agrees) (code : String) :
    (∃ after, Registry.setDefaultHero code registry = .ok () after) ↔
      ∃ hero ∈ registry.cards, hero.code = code ∧ hero.cardType = .hero := by
  rw [setDefaultHero_eq]
  constructor
  · rintro ⟨after, ran⟩
    split at ran
    · cases ran
    next hero found =>
      obtain ⟨member, same⟩ := agrees.cardByCode?_eq_some_iff.mp found
      split at ran
      · cases ran
      next type => exact ⟨hero, member, same, not_not.mp type⟩
  · rintro ⟨hero, member, same, type⟩
    rw [agrees.cardByCode?_eq_some_iff.mpr ⟨member, same⟩]
    exact ⟨_, if_neg (not_not.mpr type)⟩

/-- A handle and a code belong together in both directions. -/
theorem Agrees.code_of_id_iff (agrees : registry.Agrees) :
    (registry.card? id).map Card.code = some code ↔
      (registry.cardByCode? code).map Card.id = some id := by
  simp only [Option.map_eq_some_iff, agrees.card?_eq_some_iff, agrees.cardByCode?_eq_some_iff]
  exact exists_congr fun card => by rw [and_assoc, and_assoc, and_comm (a := card.id = id)]

/-! ## The next handle -/

theorem Files.nextId_eq (files : registry.Files entries) :
    registry.nextId = if entries = [] then ⟨1⟩
      else ⟨(registry.cards.map fun card => Word.unsigned (card.id.number + 1)).foldl max 0⟩ := by
  have keys : registry.records.keys = entries.map fun entry => entry.card.id := by
    rw [files.collections]
    exact keys_records entries registry.heroes
  have empty : registry.isEmpty = true ↔ entries = [] := by
    rw [isEmpty, List.isEmpty_iff, ← List.map_eq_nil_iff (f := Prod.fst), ← Dictionary.keys, keys,
      List.map_eq_nil_iff]
  rw [nextId, keys, files.cards_eq, List.map_map, List.map_map]
  exact if_congr empty rfl rfl

/-- The next handle is one more than the largest, as long as there is a larger one. -/
theorem Agrees.nextId_eq (agrees : registry.Agrees)
    (bounded : ∀ card ∈ registry.cards, card.id.number < 0xffffffff) :
    registry.cards = [] ∧ registry.nextId = ⟨1⟩ ∨
      ∃ card ∈ registry.cards, registry.nextId = ⟨card.id.number + 1⟩ ∧
        ∀ other ∈ registry.cards, other.id.number ≤ card.id.number := by
  have numbers : (registry.cards.map fun card => Word.unsigned (card.id.number + 1)) =
      registry.cards.map fun card => card.id.number + 1 :=
    List.map_congr_left fun card member =>
      Word.unsigned_of_lt (Nat.succ_lt_succ (bounded card member))
  rw [agrees.files.nextId_eq, numbers]
  by_cases none : registry.entries = []
  · exact .inl ⟨by rw [agrees.files.cards_eq, none]; rfl, if_pos none⟩
  · refine .inr ?_
    have some : registry.cards.map (fun card => card.id.number + 1) ≠ [] := by
      simpa [agrees.files.cards_eq] using none
    obtain ⟨top, largest⟩ := Option.ne_none_iff_exists'.mp (List.max?_eq_none_iff.not.mpr some)
    obtain ⟨member, above⟩ := List.max?_eq_some_iff.mp largest
    obtain ⟨card, listed, rfl⟩ := List.mem_map.mp member
    refine ⟨card, listed, ?_, fun other listedToo =>
      Nat.le_of_succ_le_succ (above _ (List.mem_map_of_mem listedToo))⟩
    rw [if_neg none, List.foldl_max, largest, Option.getD_some, Nat.max_eq_right (Nat.zero_le _)]

theorem Agrees.lt_nextId (agrees : registry.Agrees)
    (bounded : ∀ card ∈ registry.cards, card.id.number < 0xffffffff)
    (member : card ∈ registry.cards) : card.id.number < registry.nextId.number := by
  rcases agrees.nextId_eq bounded with ⟨none, -⟩ | ⟨top, -, next, below⟩
  · rw [none] at member
    cases member
  · rw [next]
    exact Nat.lt_succ_of_le (below card member)

/-! ## What a registry lists -/

/-- What the collections of a registry are after some requests to an empty one. -/
structure Lists (registry : Registry) (calls : List RegistryCall) : Prop where
  /-- A request that fails leaves every collection as it is. -/
  failed : ∀ (call : RegistryCall) cause left,
    call.request registry = .error cause left → left = registry
  /-- A card is registered unless its handle or its code is taken. -/
  registers : ∀ card behaviour, (∃ after, register card behaviour registry = .ok () after) ↔
    card.id ∉ registry.cards.map Card.id ∧ card.code ∉ registry.cards.map Card.code
  /-- A registered hero can be chosen, and no other card. -/
  chooses : ∀ code, (∃ after, setDefaultHero code registry = .ok () after) ↔
    ∃ hero ∈ registry.cards, hero.code = code ∧ hero.cardType = .hero
  /-- The cards that were registered, with their behaviours and in this order. -/
  entries : registry.entries = empty.gathered entered? calls
  /-- The cards are listed in the order of registration, and each of them once. -/
  cards : registry.cards = registry.entries.map CatalogueEntry.card
  order : registry.order = registry.cards.map Card.id
  ids : (registry.cards.map Card.id).Nodup
  codes : (registry.cards.map Card.code).Nodup
  /-- The collections have rows for the listed cards only, one for each. -/
  records : registry.records.keys = registry.order
  behaviours : registry.behaviours.keys = registry.order
  named : registry.codes = registry.cards.map fun card => (card.code, card.id)
  card? : ∀ id card, registry.card? id = some card ↔ card ∈ registry.cards ∧ card.id = id
  cardByCode? : ∀ code card, registry.cardByCode? code = some card ↔
    card ∈ registry.cards ∧ card.code = code
  /-- A handle and a code belong together in both directions. -/
  paired : ∀ id code, (registry.card? id).map Card.code = some code ↔
    (registry.cardByCode? code).map Card.id = some id
  behaviour? : ∀ id behaviour, registry.behaviour? id = some behaviour ↔
    ∃ card, ⟨card, behaviour⟩ ∈ registry.entries ∧ card.id = id
  /-- Exactly the registered handles have a behaviour. -/
  behaves : ∀ id, (registry.behaviour? id).isSome = (registry.card? id).isSome
  /-- No class has two starting heroes. -/
  classes : registry.heroes.keys.Nodup
  /-- A starting hero is a registered hero of its own class. -/
  heroes : ∀ row ∈ registry.heroes, ∃ hero,
    registry.card? row.2 = some hero ∧ hero.cardType = .hero ∧ hero.cardClass = row.1
  /-- It is the last one that was chosen for the class. -/
  defaultHero? : ∀ cardClass, registry.defaultHero? cardClass =
    ((empty.gathered chosen? calls).filter fun hero => hero.cardClass == cardClass).getLast?
  /-- The next handle is above all others unless the largest handle of all is taken. -/
  next : (∀ card ∈ registry.cards, card.id.number < 0xffffffff) →
    (∀ card ∈ registry.cards, card.id.number < registry.nextId.number) ∧
      ∀ card behaviour, card.id = registry.nextId → card.code ∉ registry.cards.map Card.code →
        ∃ after, register card behaviour registry = .ok () after
  /-- It is then the least such handle, or one if there are no cards. -/
  least : (∀ card ∈ registry.cards, card.id.number < 0xffffffff) →
    registry.cards = [] ∧ registry.nextId = ⟨1⟩ ∨
      ∃ card ∈ registry.cards, registry.nextId = ⟨card.id.number + 1⟩
  /-- The pool of a format takes some of the cards and keeps their order. -/
  pool : ∀ format, (registry.pool format).Sublist registry.cards ∧
    ∀ card, card ∈ registry.pool format ↔
      card ∈ registry.cards ∧ card.collectible = true ∧ format.includes card.set = true

/-- Two cards with the last handles that a word holds. -/
def lastHandles : List RegistryCall :=
  [.register (.spell ⟨0xfffffffe⟩ "LAST_BUT_ONE" "Last But One" 0) .none,
    .register (.spell ⟨0xffffffff⟩ "LAST" "Last" 0) .none]

end Registry

end CardDuel
