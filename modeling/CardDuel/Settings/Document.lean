import CardDuel.Json
import CardDuel.Settings

/-!
# Settings in documents

Settings are written as a JSON record.  Every field has to be there except the
coin; fields of other names do not matter.
-/

namespace CardDuel.Settings

/-- A value of an enumerated type, written as its name. -/
def named? {α : Type} [Enumerated α] (json : Json) : Option α :=
  match json.asVariant? with
  | some (name, .null) => Enumerated.ofName? name
  | _ => none

def startPlayer? (json : Json) : Option StartPlayer :=
  match json.asVariant? with
  | some ("Random", .null) => some .random
  | some ("Fixed", .integer number) =>
    if 0 ≤ number ∧ number < 256 then some (.fixed number.toNat) else none
  | _ => none

def perPlayer? {α : Type} (item? : Json → Option α) (json : Json) : Option (List α) :=
  match json.asFields? ["data"] with
  | some [some data] => data.asList? item?
  | _ => none

def size? (json : Json) : Option Nat :=
  json.asNatural? (Nat.pow 2 64)

/-- The fields of a settings record, in order. -/
def fieldNames : List String :=
  ["format", "classes", "decks", "fill_decks", "start_player", "seed", "skip_mulligan",
    "auto_run", "shuffle_decks", "deck_size", "hand_size", "field_size", "secret_size",
    "max_mana", "coin"]

def ofJson? (json : Json) : Option Settings := do
  match ← json.asFields? fieldNames with
  | [format, classes, decks, fillDecks, startPlayer, seed, skipMulligan, autoRun, shuffleDecks,
      deckSize, handSize, fieldSize, secretSize, maxMana, coin] =>
    return {
      format := ← named? (← format)
      classes := ← perPlayer? named? (← classes)
      decks := ← perPlayer? (Json.asList? Json.asText?) (← decks)
      fillDecks := ← (← fillDecks).asBool?
      startPlayer := ← startPlayer? (← startPlayer)
      seed := UInt64.ofNat (← size? (← seed))
      skipMulligan := ← (← skipMulligan).asBool?
      autoRun := ← (← autoRun).asBool?
      shuffleDecks := ← (← shuffleDecks).asBool?
      deckSize := ← size? (← deckSize)
      handSize := ← size? (← handSize)
      fieldSize := ← size? (← fieldSize)
      secretSize := ← size? (← secretSize)
      maxMana := ← (← maxMana).asInteger? (-0x80000000) 0x7fffffff
      coin := ← (coin.getD .null).asOptionalText? }
  | _ => none

def parse? (document : String) : Option Settings := do
  ofJson? (← Json.parse? document)

end CardDuel.Settings
