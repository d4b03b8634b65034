import CardDuel.Catalogue
import Mathlib.Data.List.Nodup

/-!
# Registered cards

The collections of a registry agree, since registering a card writes to all of them and refuses a
handle and a code that are taken.  So handles and codes name the same cards, one each, and no pool
has a card twice.
-/

namespace CardDuel

namespace Dictionary

variable {κ α : Type} [DecidableEq κ] {dictionary : Dictionary κ α} {key other : κ} {value : α}

/-- Where no key comes twice, looking for a key finds exactly its row. -/
theorem lookup_eq_some_iff (distinct : dictionary.keys.Nodup) :
    dictionary.lookup key = some value ↔ (key, value) ∈ dictionary := by
  refine ⟨mem_of_lookup, fun member => ?_⟩
  cases found : dictionary.lookup key with
  | none => exact absurd (List.mem_map_of_mem member) (lookup_eq_none_iff.mp found)
  | some first =>
      have same := List.inj_on_of_nodup_map distinct (mem_of_lookup found) member rfl
      exact congrArg some (Prod.mk.inj same).2

theorem lookup_insert (dictionary : Dictionary κ α) (key other : κ) (value : α) :
    (dictionary.insert key value).lookup other =
      if other = key then some value else dictionary.lookup other := by
  have spared : (dictionary.filter fun row => row.1 ≠ key).lookup other =
      if other = key then none else dictionary.lookup other := by
    induction dictionary with
    | nil => simp
    | cons row rows ih =>
        obtain ⟨first, entry⟩ := row
        by_cases removed : first = key
        · rw [List.filter_cons_of_neg (by simpa using removed), ih, List.lookup_cons]
          by_cases same : other = key
          · rw [if_pos same, if_pos same]
          · rw [if_neg same, if_neg same, beq_eq_false_iff_ne.mpr (removed ▸ same)]
        · rw [List.filter_cons_of_pos (by simpa using removed), List.lookup_cons, List.lookup_cons,
            ih]
          by_cases here : other = first
          · have away : other ≠ key := here ▸ removed
            rw [beq_iff_eq.mpr here, if_neg away, if_neg away]
          · rw [beq_eq_false_iff_ne.mpr here]
  rw [insert, List.lookup_append, spared]
  by_cases same : other = key
  · simp [same]
  · have missed : (other == key) = false := beq_eq_false_iff_ne.mpr same
    simp [same, missed, List.lookup_cons]

theorem nodup_keys_insert (distinct : dictionary.keys.Nodup) (key : κ) (value : α) :
    (dictionary.insert key value).keys.Nodup := by
  unfold insert keys
  rw [List.map_append]
  refine (distinct.sublist (List.filter_sublist.map _)).append (List.nodup_singleton key)
    fun taken kept last => ?_
  obtain ⟨row, member, rfl⟩ := List.mem_map.mp kept
  exact of_decide_eq_true (List.mem_filter.mp member).2 (List.mem_singleton.mp last)

end Dictionary

namespace Registry

variable {registry after : Registry} {entries : List CatalogueEntry} {card other : Card}
variable {behaviour : Behaviour} {id : CardId} {code : String}

/-! ## Looking up cards -/

theorem Files.card?_eq_some_iff (files : registry.Files entries) :
    registry.card? id = some card ↔
      ∃ behaviour, ⟨card, behaviour⟩ ∈ entries ∧ card.id = id := by
  rw [files.collections, card?,
    Dictionary.lookup_eq_some_iff (by rw [keys_records]; exact files.ids)]
  constructor
  · intro filed
    obtain ⟨entry, member, same⟩ := List.mem_map.mp filed
    cases same
    exact ⟨entry.behaviour, member, rfl⟩
  · rintro ⟨behaviour, member, rfl⟩
    exact List.mem_map.mpr ⟨_, member, rfl⟩

theorem Files.behaviour?_eq_some_iff (files : registry.Files entries) :
    registry.behaviour? id = some behaviour ↔
      ∃ card, ⟨card, behaviour⟩ ∈ entries ∧ card.id = id := by
  rw [files.collections, behaviour?,
    Dictionary.lookup_eq_some_iff (by rw [keys_behaviours]; exact files.ids)]
  constructor
  · intro filed
    obtain ⟨entry, member, same⟩ := List.mem_map.mp filed
    cases same
    exact ⟨entry.card, member, rfl⟩
  · rintro ⟨card, member, rfl⟩
    exact List.mem_map.mpr ⟨_, member, rfl⟩

theorem Files.lookup_codes_iff (files : registry.Files entries) :
    registry.codes.lookup code = some id ↔
      ∃ entry ∈ entries, entry.card.code = code ∧ entry.card.id = id := by
  rw [files.collections, Dictionary.lookup_eq_some_iff (by rw [keys_codes]; exact files.codes)]
  exact List.mem_map.trans
    (exists_congr fun entry => and_congr_right fun _ => by rw [Prod.mk.injEq])

/-- The entries can be read off the collections. -/
theorem Files.entries_eq (files : registry.Files entries) : registry.entries = entries := by
  have order : registry.order = entries.map fun entry => entry.card.id :=
    congrArg Registry.order files.collections
  unfold Registry.entries
  rw [order, List.filterMap_map]
  refine (List.filterMap_congr fun entry member => ?_).trans List.filterMap_some
  have card := files.card?_eq_some_iff.mpr ⟨entry.behaviour, member, rfl⟩
  have behaviour := files.behaviour?_eq_some_iff.mpr ⟨entry.card, member, rfl⟩
  simp [card, behaviour]

theorem Files.cards_eq (files : registry.Files entries) :
    registry.cards = entries.map CatalogueEntry.card := by
  have order : registry.order = entries.map fun entry => entry.card.id :=
    congrArg Registry.order files.collections
  unfold Registry.cards
  rw [order, List.filterMap_map, ← List.filterMap_eq_map]
  exact List.filterMap_congr fun entry member =>
    files.card?_eq_some_iff.mpr ⟨entry.behaviour, member, rfl⟩

theorem Files.order_eq (files : registry.Files entries) :
    registry.order = registry.cards.map Card.id := by
  rw [files.cards_eq, List.map_map]
  exact congrArg Registry.order files.collections

theorem Files.keys_records_eq (files : registry.Files entries) :
    registry.records.keys = registry.cards.map Card.id := by
  rw [files.cards_eq, List.map_map, files.collections]
  exact keys_records entries registry.heroes

theorem Files.keys_behaviours_eq (files : registry.Files entries) :
    registry.behaviours.keys = registry.cards.map Card.id := by
  rw [files.cards_eq, List.map_map, files.collections]
  exact keys_behaviours entries registry.heroes

theorem Files.codes_eq (files : registry.Files entries) :
    registry.codes = registry.cards.map fun card => (card.code, card.id) := by
  rw [files.cards_eq, List.map_map]
  exact congrArg Registry.codes files.collections

namespace Agrees

theorem files (agrees : registry.Agrees) : registry.Files registry.entries := by
  obtain ⟨entries, files⟩ := agrees
  rwa [files.entries_eq]

theorem nodup_ids (agrees : registry.Agrees) : (registry.cards.map Card.id).Nodup := by
  rw [agrees.files.cards_eq, List.map_map]
  exact agrees.files.ids

theorem nodup_codes (agrees : registry.Agrees) : (registry.cards.map Card.code).Nodup := by
  rw [agrees.files.cards_eq, List.map_map]
  exact agrees.files.codes

/-- The card of a handle is the one that was registered under it. -/
theorem card?_eq_some_iff (agrees : registry.Agrees) :
    registry.card? id = some card ↔ card ∈ registry.cards ∧ card.id = id := by
  rw [agrees.files.card?_eq_some_iff, agrees.files.cards_eq, List.mem_map]
  constructor
  · rintro ⟨behaviour, member, same⟩
    exact ⟨⟨_, member, rfl⟩, same⟩
  · rintro ⟨⟨entry, member, rfl⟩, same⟩
    exact ⟨entry.behaviour, member, same⟩

theorem lookup_codes_iff (agrees : registry.Agrees) :
    registry.codes.lookup code = some id ↔
      ∃ card ∈ registry.cards, card.code = code ∧ card.id = id := by
  rw [agrees.files.lookup_codes_iff, agrees.files.cards_eq]
  simp

/-- The card of a code is the one that was registered under it. -/
theorem cardByCode?_eq_some_iff (agrees : registry.Agrees) :
    registry.cardByCode? code = some card ↔ card ∈ registry.cards ∧ card.code = code := by
  change (registry.codes.lookup code).bind registry.card? = some card ↔ _
  simp only [Option.bind_eq_some_iff, agrees.lookup_codes_iff, agrees.card?_eq_some_iff]
  constructor
  · rintro ⟨id, ⟨other, listed, named, rfl⟩, member, same⟩
    obtain rfl := List.inj_on_of_nodup_map agrees.nodup_ids member listed same
    exact ⟨member, named⟩
  · rintro ⟨member, named⟩
    exact ⟨card.id, ⟨card, member, named, rfl⟩, member, rfl⟩

/-- Two registered cards have the same code exactly when they have the same handle. -/
theorem code_eq_iff (agrees : registry.Agrees) (member : card ∈ registry.cards)
    (memberToo : other ∈ registry.cards) : card.code = other.code ↔ card.id = other.id := by
  constructor
  · exact fun same => congrArg Card.id
      (List.inj_on_of_nodup_map agrees.nodup_codes member memberToo same)
  · exact fun same => congrArg Card.code
      (List.inj_on_of_nodup_map agrees.nodup_ids member memberToo same)

/-! ## Pools -/

variable {format : Format} {cardClass : CardClass} {cardType : CardType} {race : Race}

theorem nodup_classPool (agrees : registry.Agrees) :
    (registry.classPool format cardClass cardType race).Nodup :=
  agrees.nodup_ids.sublist
    ((List.filter_sublist.trans List.filter_sublist).map Card.id)

/-- The cards of a pool for a class. -/
theorem mem_classPool_iff (agrees : registry.Agrees) :
    id ∈ registry.classPool format cardClass cardType race ↔
      ∃ card, registry.card? id = some card ∧ card.collectible = true ∧
        format.includes card.set = true ∧
        (card.cardClass = cardClass ∨ card.cardClass = .neutral) ∧
        card.cardType.meets cardType = true ∧
        (race = .unset ∨ card.race.belongsTo race = true) := by
  simp only [agrees.card?_eq_some_iff, classPool, pool, List.mem_map, List.mem_filter,
    Bool.and_eq_true, Bool.or_eq_true, decide_eq_true_eq]
  constructor
  · rintro ⟨card, ⟨⟨member, collectible, included⟩, ⟨own, typed⟩, kin⟩, rfl⟩
    exact ⟨card, ⟨member, rfl⟩, collectible, included, own, typed, kin⟩
  · rintro ⟨card, ⟨member, rfl⟩, collectible, included, own, typed, kin⟩
    exact ⟨card, ⟨⟨member, collectible, included⟩, ⟨own, typed⟩, kin⟩, rfl⟩

end Agrees

end Registry

namespace Catalogue

variable {catalogue : Catalogue} {card : Card} {behaviour : Behaviour} {id : CardId}

theorem mem_entries_of_card? (listed : catalogue.card? id = some card) :
    ∃ behaviour, ⟨card, behaviour⟩ ∈ catalogue.entries := by
  obtain ⟨behaviour, member, -⟩ := catalogue.agrees.files.card?_eq_some_iff.mp listed
  exact ⟨behaviour, member⟩

theorem mem_entries_of_behaviour? (listed : catalogue.behaviour? id = some behaviour) :
    ∃ card, ⟨card, behaviour⟩ ∈ catalogue.entries := by
  obtain ⟨card, member, -⟩ := catalogue.agrees.files.behaviour?_eq_some_iff.mp listed
  exact ⟨card, member⟩

@[simp]
theorem entries_ofEntries (entries : List CatalogueEntry) (heroes : Dictionary CardClass CardId)
    (ids : (entries.map fun entry => entry.card.id).Nodup)
    (codes : (entries.map fun entry => entry.card.code).Nodup) :
    (ofEntries entries heroes ids codes).entries = entries :=
  (Registry.files_ofEntries heroes ids codes).entries_eq

end Catalogue

end CardDuel
