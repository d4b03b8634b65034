import CardDuel.Snapshot
import CardDuel.Snapshot.Codec

/-!
# Snapshots as bytes

The fields of a snapshot are written in their order.  Handles and turns take four
bytes, players one, places and counts eight, stats and tags four with sign, and
the position of the dice sixteen.
-/

namespace CardDuel.Snapshot

open Codec

def handleCodec : Codec Nat := natural 4

def playerCodec : Codec Nat := natural 1

def tagsCodec : Codec (List (Tag × Int)) :=
  list (pair (enumerated Tag) (integer 4))

def entityCodec : Codec EntitySnapshot :=
  (pair handleCodec <| pair playerCodec <| pair text <| pair (enumerated EntityKind) <|
    pair (enumerated ZoneKind) <| pair (natural 8) <| pair (integer 4) <| pair (integer 4) <|
    pair (integer 4) <| pair (integer 4) <| pair tagsCodec (list text)).imap
    (fun (id, owner, code, kind, zone, position, attack, health, maxHealth, cost, tags,
        enchantments) =>
      ⟨id, owner, code, kind, zone, position, attack, health, maxHealth, cost, tags,
        enchantments⟩)
    (fun entity => (entity.id, entity.owner, entity.code, entity.kind, entity.zone,
      entity.position, entity.attack, entity.health, entity.maxHealth, entity.cost, entity.tags,
      entity.enchantments))

def playerStateCodec : Codec PlayerSnapshot :=
  (pair playerCodec <| pair (enumerated CardClass) <| pair (enumerated Standing) <|
    pair handleCodec <| pair handleCodec <| pair (optional handleCodec) <| pair (integer 4) <|
    pair tagsCodec <| pair (list handleCodec) <| pair (list handleCodec) <|
    pair (list handleCodec) <| pair (list handleCodec) (list handleCodec)).imap
    (fun (id, cardClass, standing, hero, heroPower, weapon, remainingMana, tags, hand, deck,
        field, graveyard, secrets) =>
      ⟨id, cardClass, standing, hero, heroPower, weapon, remainingMana, tags, hand, deck, field,
        graveyard, secrets⟩)
    (fun player => (player.id, player.cardClass, player.standing, player.hero, player.heroPower,
      player.weapon, player.remainingMana, player.tags, player.hand, player.deck, player.field,
      player.graveyard, player.secrets))

def choiceCodec : Codec ChoiceSnapshot :=
  (pair playerCodec <| pair (enumerated ChoiceKind) (list handleCodec)).imap
    (fun (player, kind, options) => ⟨player, kind, options⟩)
    (fun choice => (choice.player, choice.kind, choice.options))

def codec : Codec Snapshot :=
  (pair (natural 4) <| pair (enumerated Step) <| pair playerCodec <| pair (natural 8) <|
    pair (natural 16) <| pair (list playerStateCodec) <| pair (list entityCodec) <|
    pair (list choiceCodec) (natural 8)).imap
    (fun (turn, step, current, seed, position, players, entities, choices, actions) =>
      ⟨turn, step, current, seed, position, players, entities, choices, actions⟩)
    (fun snapshot => (snapshot.turn, snapshot.step, snapshot.current, snapshot.seed,
      snapshot.position, snapshot.players, snapshot.entities, snapshot.choices,
      snapshot.actions))

def toBytes (snapshot : Snapshot) : List UInt8 :=
  codec.encode snapshot

/-- Read a snapshot; whatever follows it is ignored. -/
def ofBytes? (bytes : List UInt8) : Option Snapshot :=
  (codec.decode bytes).map Prod.fst

end CardDuel.Snapshot
