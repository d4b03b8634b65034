import CardDuel.Action
import CardDuel.Agenda
import CardDuel.Card
import CardDuel.Card.Attribute
import CardDuel.Card.Requirement
import CardDuel.Catalogue
import CardDuel.Condition
import CardDuel.Dice
import CardDuel.Dice.Keystream
import CardDuel.Dice.Sample
import CardDuel.Duel
import CardDuel.Duel.Acting
import CardDuel.Duel.Announcement
import CardDuel.Duel.Attacks
import CardDuel.Duel.Auras
import CardDuel.Duel.CardPlay
import CardDuel.Duel.Deaths
import CardDuel.Duel.Effects
import CardDuel.Duel.Harm
import CardDuel.Duel.Inspection
import CardDuel.Duel.Judgement
import CardDuel.Duel.Legality
import CardDuel.Duel.Movement
import CardDuel.Duel.Opening
import CardDuel.Duel.Selection
import CardDuel.Duel.Settling
import CardDuel.Duel.Targets
import CardDuel.Duel.Turns
import CardDuel.Effect
import CardDuel.Entity
import CardDuel.Enumerated
import CardDuel.Event
import CardDuel.Fault
import CardDuel.Json
import CardDuel.Modifier
import CardDuel.Player
import CardDuel.PlayerState
import CardDuel.Proofs.Alerts
import CardDuel.Proofs.Allegiance
import CardDuel.Proofs.Arrivals
import CardDuel.Proofs.Auras
import CardDuel.Proofs.Blows
import CardDuel.Proofs.BoardAuras
import CardDuel.Proofs.Bodies
import CardDuel.Proofs.Bonuses
import CardDuel.Proofs.Book
import CardDuel.Proofs.Bookkeeping
import CardDuel.Proofs.Budget
import CardDuel.Proofs.Burials
import CardDuel.Proofs.Calls
import CardDuel.Proofs.Cataloguing
import CardDuel.Proofs.Change
import CardDuel.Proofs.Closure
import CardDuel.Proofs.Coherence
import CardDuel.Proofs.Consistency
import CardDuel.Proofs.Course
import CardDuel.Proofs.Cycle
import CardDuel.Proofs.Discovery
import CardDuel.Proofs.Dispatch
import CardDuel.Proofs.Displacements
import CardDuel.Proofs.Docket
import CardDuel.Proofs.Drawing
import CardDuel.Proofs.Draws
import CardDuel.Proofs.Endings
import CardDuel.Proofs.Entourage
import CardDuel.Proofs.Enumeration
import CardDuel.Proofs.Exchange
import CardDuel.Proofs.Expiry
import CardDuel.Proofs.Fates
import CardDuel.Proofs.Feats
import CardDuel.Proofs.Finality
import CardDuel.Proofs.Firings
import CardDuel.Proofs.Frame
import CardDuel.Proofs.Guarding
import CardDuel.Proofs.Heroes
import CardDuel.Proofs.History
import CardDuel.Proofs.Interpretation
import CardDuel.Proofs.Interruptions
import CardDuel.Proofs.Keywords
import CardDuel.Proofs.Lawful
import CardDuel.Proofs.Listeners
import CardDuel.Proofs.Liveness
import CardDuel.Proofs.Making
import CardDuel.Proofs.Mana
import CardDuel.Proofs.Moves
import CardDuel.Proofs.Mulligan
import CardDuel.Proofs.Performance
import CardDuel.Proofs.Placement
import CardDuel.Proofs.Playing
import CardDuel.Proofs.Posts
import CardDuel.Proofs.Progress
import CardDuel.Proofs.Quiescence
import CardDuel.Proofs.Reasoning
import CardDuel.Proofs.Recovery
import CardDuel.Proofs.Registration
import CardDuel.Proofs.Relations
import CardDuel.Proofs.Requests
import CardDuel.Proofs.Returns
import CardDuel.Proofs.RoundTrip
import CardDuel.Proofs.Rounds
import CardDuel.Proofs.Runs
import CardDuel.Proofs.Selections
import CardDuel.Proofs.Settlement
import CardDuel.Proofs.Shifts
import CardDuel.Proofs.Silence
import CardDuel.Proofs.Slots
import CardDuel.Proofs.Sorties
import CardDuel.Proofs.Steadiness
import CardDuel.Proofs.Steering
import CardDuel.Proofs.Successors
import CardDuel.Proofs.Tolls
import CardDuel.Proofs.Transfers
import CardDuel.Proofs.Underway
import CardDuel.Proofs.Waiting
import CardDuel.Proofs.WellPlaced
import CardDuel.Proofs.Wounds
import CardDuel.Registry
import CardDuel.Resolution
import CardDuel.Settings
import CardDuel.Settings.Document
import CardDuel.Snapshot
import CardDuel.Snapshot.Bytes
import CardDuel.Snapshot.Codec
import CardDuel.Step
import CardDuel.Tag
import CardDuel.Trigger
import CardDuel.Trigger.Book
import CardDuel.Word
import CardDuel.Zone
