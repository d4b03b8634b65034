import CardDuel.Fault
import CardDuel.Word

/-!
# The registry of cards

A registry keeps the registered cards and their behaviour by handle, the handles by
code, the order of registration and the starting heroes, each in a collection of its
own.  Cards are registered and heroes chosen by requests that may be refused.
-/

namespace CardDuel

/-- Rows with a key and a value, in no particular order. -/
abbrev Dictionary (κ α : Type) := List (κ × α)

namespace Dictionary

variable {κ α : Type} [DecidableEq κ] {dictionary : Dictionary κ α} {key : κ} {value : α}

def keys (dictionary : Dictionary κ α) : List κ :=
  dictionary.map Prod.fst

/-- Write the row of a key, in the place of the one that was there. -/
def insert (dictionary : Dictionary κ α) (key : κ) (value : α) : Dictionary κ α :=
  dictionary.filter (fun row => row.1 ≠ key) ++ [(key, value)]

theorem mem_of_lookup (found : dictionary.lookup key = some value) :
    (key, value) ∈ dictionary := by
  obtain ⟨front, back, rfl, -⟩ := List.lookup_eq_some_iff.mp found
  exact List.mem_append_right front List.mem_cons_self

theorem lookup_eq_none_iff : dictionary.lookup key = none ↔ key ∉ dictionary.keys := by
  simp only [List.lookup_eq_none_iff, keys, List.mem_map, bne_iff_ne, not_exists, not_and]
  exact ⟨fun absent row member same => absent row member same.symm,
    fun absent row member same => absent row member same.symm⟩

/-- A row with a new key comes behind the others. -/
theorem insert_of_not_mem (fresh : key ∉ dictionary.keys) :
    dictionary.insert key value = dictionary ++ [(key, value)] := by
  have spared : dictionary.filter (fun row => row.1 ≠ key) = dictionary :=
    List.filter_eq_self.mpr fun row member =>
      decide_eq_true fun same => fresh (List.mem_map.mpr ⟨row, member, same⟩)
  rw [insert, spared]

end Dictionary

structure CatalogueEntry where
  card : Card
  behaviour : Behaviour

/-- The registered cards and the starting heroes. -/
structure Registry where
  records : Dictionary CardId Card
  behaviours : Dictionary CardId Behaviour
  /-- The handle of each code. -/
  codes : Dictionary String CardId
  /-- The handles in the order of registration. -/
  order : List CardId
  /-- The starting hero of each class that has one. -/
  heroes : Dictionary CardClass CardId

namespace Registry

def empty : Registry := ⟨[], [], [], [], []⟩

instance : Inhabited Registry := ⟨empty⟩

/-! ## Reading -/

def card? (registry : Registry) (id : CardId) : Option Card :=
  registry.records.lookup id

def behaviour? (registry : Registry) (id : CardId) : Option Behaviour :=
  registry.behaviours.lookup id

def cardByCode? (registry : Registry) (code : String) : Option Card := do
  registry.card? (← registry.codes.lookup code)

/-- The cards in the order of registration. -/
def cards (registry : Registry) : List Card :=
  registry.order.filterMap registry.card?

/-- The cards with their behaviour in the order of registration. -/
def entries (registry : Registry) : List CatalogueEntry :=
  registry.order.filterMap fun id => do
    return ⟨← registry.card? id, ← registry.behaviour? id⟩

def cardByName? (registry : Registry) (name : String) : Option Card :=
  registry.cards.find? fun card => card.name == name

def contains (registry : Registry) (id : CardId) : Bool :=
  (registry.card? id).isSome

def size (registry : Registry) : Nat :=
  registry.records.length

def isEmpty (registry : Registry) : Bool :=
  registry.records.isEmpty

/-- The largest number that comes after a handle, as a word holds it. -/
def nextId (registry : Registry) : CardId :=
  if registry.isEmpty then ⟨1⟩
  else ⟨(registry.records.keys.map fun id => Word.unsigned (id.number + 1)).foldl max 0⟩

def defaultHero? (registry : Registry) (cardClass : CardClass) : Option Card := do
  registry.card? (← registry.heroes.lookup cardClass)

/-- The collectible cards that are legal in a format, in the order of registration. -/
def pool (registry : Registry) (format : Format) : List Card :=
  registry.cards.filter fun card => card.collectible && format.includes card.set

/-- The cards of a pool for a class: its own cards and the neutral ones, of a type and a race. -/
def classPool (registry : Registry) (format : Format) (cardClass : CardClass)
    (cardType : CardType) (race : Race) : List CardId :=
  ((registry.pool format).filter fun card =>
    (card.cardClass = cardClass || card.cardClass = .neutral) &&
      card.cardType.meets cardType &&
      (race = .unset || card.race.belongsTo race)).map Card.id

/-- The cards of a pool with exactly this class and race, of a type. -/
def exactPool (registry : Registry) (format : Format) (cardClass : CardClass)
    (cardType : CardType) (race : Race) : List CardId :=
  ((registry.pool format).filter fun card =>
    card.cardClass = cardClass && card.cardType.meets cardType &&
      (race = .unset || card.race = race)).map Card.id

/-! ## Requests -/

/-- Register a card under a new handle and a new code. -/
def register (card : Card) (behaviour : Behaviour) : EStateM SetupError Registry Unit := do
  let registry ← get
  if registry.contains card.id then
    throw (.idTaken card.id)
  else if (registry.codes.lookup card.code).isSome then
    throw (.codeTaken card.code)
  else
    modify fun registry => { registry with codes := registry.codes.insert card.code card.id }
    modify fun registry => { registry with records := registry.records.insert card.id card }
    modify fun registry =>
      { registry with behaviours := registry.behaviours.insert card.id behaviour }
    modify fun registry => { registry with order := registry.order ++ [card.id] }

/-- Make a registered hero the one that its class starts with. -/
def setDefaultHero (code : String) : EStateM SetupError Registry Unit := do
  match (← get).cardByCode? code with
  | none => throw (.unknownHero code)
  | some card =>
    if card.cardType ≠ .hero then
      throw (.notAHero code)
    else
      modify fun registry =>
        { registry with heroes := registry.heroes.insert card.cardClass card.id }

/-! ## Agreement of the collections -/

/-- The registry of cards that stand in a row, with starting heroes. -/
def ofEntries (entries : List CatalogueEntry) (heroes : Dictionary CardClass CardId) :
    Registry where
  records := entries.map fun entry => (entry.card.id, entry.card)
  behaviours := entries.map fun entry => (entry.card.id, entry.behaviour)
  codes := entries.map fun entry => (entry.card.code, entry.card.id)
  order := entries.map fun entry => entry.card.id
  heroes := heroes

/-- The collections of a registry hold these entries, of which no two share a handle or a code, and
nothing else. -/
structure Files (registry : Registry) (entries : List CatalogueEntry) : Prop where
  collections : registry = ofEntries entries registry.heroes
  ids : (entries.map fun entry => entry.card.id).Nodup
  codes : (entries.map fun entry => entry.card.code).Nodup

/-- The collections of a registry hold the same cards. -/
def Agrees (registry : Registry) : Prop :=
  ∃ entries, registry.Files entries

variable {registry after : Registry} {entries : List CatalogueEntry} {card : Card} {id : CardId}
variable {behaviour : Behaviour} {code : String}

theorem files_empty : empty.Files [] :=
  ⟨rfl, List.nodup_nil, List.nodup_nil⟩

theorem files_ofEntries (heroes : Dictionary CardClass CardId)
    (ids : (entries.map fun entry => entry.card.id).Nodup)
    (codes : (entries.map fun entry => entry.card.code).Nodup) :
    (ofEntries entries heroes).Files entries :=
  ⟨rfl, ids, codes⟩

theorem keys_records (entries : List CatalogueEntry) (heroes : Dictionary CardClass CardId) :
    (ofEntries entries heroes).records.keys = entries.map fun entry => entry.card.id :=
  List.map_map

theorem keys_behaviours (entries : List CatalogueEntry) (heroes : Dictionary CardClass CardId) :
    (ofEntries entries heroes).behaviours.keys = entries.map fun entry => entry.card.id :=
  List.map_map

theorem keys_codes (entries : List CatalogueEntry) (heroes : Dictionary CardClass CardId) :
    (ofEntries entries heroes).codes.keys = entries.map fun entry => entry.card.code :=
  List.map_map

/-- A registered card has the handle under which it is found. -/
theorem Agrees.id_of_card? (agrees : registry.Agrees) (listed : registry.card? id = some card) :
    card.id = id := by
  obtain ⟨entries, files⟩ := agrees
  rw [files.collections] at listed
  obtain ⟨entry, -, same⟩ := List.mem_map.mp (Dictionary.mem_of_lookup listed)
  cases same
  rfl

/-- A card is registered unless an entry has its handle or its code, and it comes behind the
others. -/
theorem Files.register_eq (files : registry.Files entries) (card : Card) (behaviour : Behaviour) :
    register card behaviour registry =
      if card.id ∈ entries.map fun entry => entry.card.id then
        .error (.idTaken card.id) registry
      else if card.code ∈ entries.map fun entry => entry.card.code then
        .error (.codeTaken card.code) registry
      else .ok () (ofEntries (entries ++ [⟨card, behaviour⟩]) registry.heroes) := by
  have taken : registry.contains card.id = true ↔
      card.id ∈ entries.map fun entry => entry.card.id := by
    rw [← Decidable.not_iff_not, ← keys_records entries registry.heroes, ← files.collections,
      ← Dictionary.lookup_eq_none_iff]
    exact Option.not_isSome_iff_eq_none
  have named : (registry.codes.lookup card.code).isSome = true ↔
      card.code ∈ entries.map fun entry => entry.card.code := by
    rw [← Decidable.not_iff_not, ← keys_codes entries registry.heroes, ← files.collections,
      ← Dictionary.lookup_eq_none_iff]
    exact Option.not_isSome_iff_eq_none
  unfold register
  change (if registry.contains card.id = true then _ else _ : EStateM _ _ _) registry = _
  by_cases known : card.id ∈ entries.map fun entry => entry.card.id
  · rw [if_pos known, if_pos (taken.mpr known)]
    rfl
  rw [if_neg known, if_neg (not_congr taken |>.mpr known)]
  by_cases used : card.code ∈ entries.map fun entry => entry.card.code
  · rw [if_pos used, if_pos (named.mpr used)]
    rfl
  rw [if_neg used, if_neg (not_congr named |>.mpr used)]
  change EStateM.Result.ok () (Registry.mk (registry.records.insert card.id card)
    (registry.behaviours.insert card.id behaviour) (registry.codes.insert card.code card.id)
    (registry.order ++ [card.id]) registry.heroes) = _
  rw [files.collections, Dictionary.insert_of_not_mem (by rwa [keys_records]),
    Dictionary.insert_of_not_mem (by rwa [keys_behaviours]),
    Dictionary.insert_of_not_mem (by rwa [keys_codes])]
  simp only [ofEntries, List.map_append, List.map_cons, List.map_nil]

theorem nodup_concat {α : Type} {items : List α} {item : α} (distinct : items.Nodup)
    (fresh : item ∉ items) : (items ++ [item]).Nodup := by
  refine List.nodup_append.mpr ⟨distinct, List.pairwise_singleton _ _,
    fun other member last here => ?_⟩
  rw [List.mem_singleton.mp here]
  rintro rfl
  exact fresh member

theorem Files.register (files : registry.Files entries)
    (ran : register card behaviour registry = .ok () after) :
    after.Files (entries ++ [⟨card, behaviour⟩]) ∧ after.heroes = registry.heroes := by
  rw [files.register_eq] at ran
  split at ran
  next => cases ran
  next newId =>
    split at ran
    next => cases ran
    next newCode =>
      cases ran
      refine ⟨⟨rfl, ?_, ?_⟩, rfl⟩
      · rw [List.map_append]
        exact nodup_concat files.ids newId
      · rw [List.map_append]
        exact nodup_concat files.codes newCode

theorem Agrees.register (agrees : registry.Agrees)
    (ran : register card behaviour registry = .ok () after) : after.Agrees := by
  obtain ⟨entries, files⟩ := agrees
  exact ⟨_, (files.register ran).1⟩

/-- Choosing a starting hero writes a row of the starting heroes, or fails and changes nothing. -/
theorem setDefaultHero_eq (code : String) (registry : Registry) :
    setDefaultHero code registry =
      match registry.cardByCode? code with
      | none => .error (.unknownHero code) registry
      | some card =>
        if card.cardType ≠ .hero then .error (.notAHero code) registry
        else .ok () { registry with
          heroes := registry.heroes.insert card.cardClass card.id } := by
  unfold setDefaultHero
  change (match registry.cardByCode? code with | none => _ | some card => _ :
    EStateM _ _ _) registry = _
  cases registry.cardByCode? code with
  | none => rfl
  | some card =>
      dsimp only
      split <;> rfl

theorem Files.setDefaultHero (files : registry.Files entries)
    (ran : setDefaultHero code registry = .ok () after) : after.Files entries := by
  rw [setDefaultHero_eq] at ran
  split at ran
  next => cases ran
  next hero found =>
    split at ran
    next => cases ran
    next =>
      cases ran
      exact ⟨by rw [files.collections]; rfl, files.ids, files.codes⟩

theorem Agrees.setDefaultHero (agrees : registry.Agrees)
    (ran : setDefaultHero code registry = .ok () after) : after.Agrees := by
  obtain ⟨entries, files⟩ := agrees
  exact ⟨_, files.setDefaultHero ran⟩

end Registry

end CardDuel
