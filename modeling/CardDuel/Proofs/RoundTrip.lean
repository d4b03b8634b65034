import CardDuel.Proofs.Tolls
import CardDuel.Snapshot.Bytes
import Mathlib.Algebra.Group.Nat.Defs
import Mathlib.Tactic.MkIffOfInductiveProp

/-!
# Snapshots survive their bytes

A codec carries the values that come back from their bytes, whatever follows them.  The codecs
of records carry what the codecs of their fields carry, so a snapshot comes back exactly when each
of its numbers fits the width of its field.
-/

namespace CardDuel

namespace Codec

variable {α β : Type} {codec : Codec α} {other : Codec β} {fits : α → Prop} {fitsToo : β → Prop}

/-- The codec reads back the values that fit, whatever follows them, and reads nothing else. -/
structure Carries (codec : Codec α) (fits : α → Prop) : Prop where
  roundTrips : codec.RoundTrips fits
  fits_of_decode : ∀ {bytes value rest}, codec.decode bytes = some (value, rest) → fits value

theorem Carries.congr {fits' : α → Prop} (carries : codec.Carries fits)
    (same : ∀ value, fits' value ↔ fits value) : codec.Carries fits' where
  roundTrips value rest admitted := carries.roundTrips value rest ((same value).mp admitted)
  fits_of_decode read := (same _).mpr (carries.fits_of_decode read)

/-- Different values have different bytes, also when more bytes follow. -/
theorem Carries.encode_inj (carries : codec.Carries fits) {value other : α}
    {rest more : List UInt8} (fit : fits value) (fitOther : fits other)
    (same : codec.encode value ++ rest = codec.encode other ++ more) : value = other := by
  have first := carries.roundTrips value rest fit
  rw [same, carries.roundTrips other more fitOther] at first
  exact (congrArg Prod.fst (Option.some.inj first)).symm

/-! ## Numbers -/

theorem readBytes_bytesOf {width number : Nat} (fit : number < 256 ^ width) (rest : List UInt8) :
    readBytes width (bytesOf width number ++ rest) = some (number, rest) := by
  induction width generalizing number with
  | zero =>
      obtain rfl : number = 0 := by simpa using fit
      rfl
  | succ width ih =>
      have high : number / 256 < 256 ^ width :=
        Nat.div_lt_of_lt_mul (by rwa [Nat.pow_succ, Nat.mul_comm] at fit)
      have low : (UInt8.ofNat (number % 256)).toNat = number % 256 := by simp
      simp only [bytesOf, List.cons_append, readBytes, ih high, Option.bind_eq_bind,
        Option.bind_some, low, Nat.mod_add_div]
      rfl

theorem lt_of_readBytes {width number : Nat} {bytes rest : List UInt8}
    (read : readBytes width bytes = some (number, rest)) : number < 256 ^ width := by
  induction width generalizing bytes number rest with
  | zero =>
      cases read
      exact Nat.one_pos
  | succ width ih =>
      cases bytes with
      | nil => cases read
      | cons byte bytes =>
          obtain ⟨⟨high, left⟩, readHigh, made⟩ := Option.bind_eq_some_iff.mp read
          cases made
          have bound := ih readHigh
          have digit := byte.toNat_lt
          rw [Nat.pow_succ]
          omega

theorem carries_natural (width : Nat) : (natural width).Carries (· < 256 ^ width) where
  roundTrips _ rest fit := readBytes_bytesOf fit rest
  fits_of_decode read := lt_of_readBytes read

theorem Carries.imap {wrap : α → β} {unwrap : β → α} (carries : codec.Carries fits)
    (inverse : ∀ value, fits (unwrap value) → wrap (unwrap value) = value)
    (within : ∀ value, fits value → fits (unwrap (wrap value))) :
    (codec.imap wrap unwrap).Carries fun value => fits (unwrap value) where
  roundTrips value rest fit := by
    have read := carries.roundTrips (unwrap value) rest fit
    simp only [Codec.imap, read, Option.map_some, inverse value fit]
  fits_of_decode read := by
    obtain ⟨⟨value, left⟩, readValue, made⟩ := Option.map_eq_some_iff.mp read
    cases made
    exact within value (carries.fits_of_decode readValue)

/-- A record is carried like the list of its fields. -/
theorem Carries.record {wrap : α → β} {unwrap : β → α} (carries : codec.Carries fits)
    (inverse : ∀ value, wrap (unwrap value) = value)
    (fields : ∀ value, unwrap (wrap value) = value) :
    (codec.imap wrap unwrap).Carries fun value => fits (unwrap value) :=
  carries.imap (fun value _ => inverse value) fun value fit => (fields value).symm ▸ fit

/-- Whether a number can be written in two's complement of a width in bytes. -/
def Signed (width : Nat) (number : Int) : Prop :=
  -(256 ^ width : Nat) ≤ 2 * number ∧ 2 * number < (256 ^ width : Nat)

instance (width : Nat) (number : Int) : Decidable (Signed width number) :=
  inferInstanceAs (Decidable (_ ∧ _))

theorem carries_integer (width : Nat) : (integer width).Carries (Signed width) where
  roundTrips number rest fit := by
    have positive : 0 < (256 ^ width : Nat) := Nat.pow_pos (by decide)
    obtain ⟨least, greatest⟩ := fit
    have bound : (number % ((256 ^ width : Nat) : Int)).toNat < 256 ^ width := by
      have upper := Int.emod_lt_of_pos number (Int.natCast_pos.mpr positive)
      omega
    have back : Int.bmod (number % ((256 ^ width : Nat) : Int)).toNat (256 ^ width) = number := by
      rw [Int.toNat_of_nonneg (Int.emod_nonneg number (by omega)), Int.emod_bmod]
      apply Int.bmod_eq_of_le_mul_two <;> omega
    have read := readBytes_bytesOf bound rest
    change (readBytes width (bytesOf width _ ++ rest)).map _ = _
    rw [show Nat.pow 256 width = 256 ^ width from rfl, read, Option.map_some]
    exact congrArg (fun number => some (number, rest)) back
  fits_of_decode read := by
    have positive : 0 < (256 ^ width : Nat) := Nat.pow_pos (by decide)
    obtain ⟨⟨number, left⟩, -, made⟩ := Option.map_eq_some_iff.mp read
    cases made
    have least : -(((256 ^ width : Nat) : Int) / 2) ≤ Int.bmod number (256 ^ width) :=
      Int.le_bmod positive
    have greatest : Int.bmod number (256 ^ width) < (((256 ^ width : Nat) : Int) + 1) / 2 :=
      Int.bmod_lt positive
    change Signed width (Int.bmod number (256 ^ width))
    unfold Signed
    omega

/-! ## Values of enumerated types -/

theorem carries_enumerated (γ : Type) [Enumerated γ] [DecidableEq γ]
    (few : (Enumerated.values : List γ).length ≤ 256 ^ 4) :
    (enumerated γ).Carries fun _ => True where
  roundTrips value rest _ := by
    have place := Nat.lt_of_lt_of_le (Enumerated.index_lt value) few
    simp [enumerated, readBytes_bytesOf place]
  fits_of_decode _ := trivial

/-! ## Pairs, options and lists -/

theorem Carries.pair (first : codec.Carries fits) (second : other.Carries fitsToo) :
    (codec.pair other).Carries fun values => fits values.1 ∧ fitsToo values.2 where
  roundTrips values rest fit := by
    simp [Codec.pair, first.roundTrips values.1 _ fit.1, second.roundTrips values.2 rest fit.2]
  fits_of_decode read := by
    obtain ⟨⟨one, left⟩, readOne, read⟩ := Option.bind_eq_some_iff.mp read
    obtain ⟨⟨two, left⟩, readTwo, made⟩ := Option.bind_eq_some_iff.mp read
    cases made
    exact ⟨first.fits_of_decode readOne, second.fits_of_decode readTwo⟩

theorem Carries.optional (carries : codec.Carries fits) :
    codec.optional.Carries fun value => ∀ content ∈ value, fits content where
  roundTrips value rest fit := by
    cases value with
    | none => simp [Codec.optional]
    | some content => simp [Codec.optional, carries.roundTrips content rest (fit content rfl)]
  fits_of_decode {bytes value rest} read := by
    intro content present
    cases bytes with
    | nil => cases read
    | cons mark bytes =>
        simp only [Codec.optional] at read
        split at read
        · cases read
          cases present
        split at read
        · obtain ⟨⟨held, left⟩, readHeld, made⟩ := Option.map_eq_some_iff.mp read
          cases made
          cases present
          exact carries.fits_of_decode readHeld
        · cases read

theorem readMany_flatMap (carries : codec.Carries fits) {values : List α}
    (fit : ∀ value ∈ values, fits value) (rest : List UInt8) :
    readMany codec values.length (values.flatMap codec.encode ++ rest) = some (values, rest) := by
  induction values with
  | nil => rfl
  | cons value values ih =>
      obtain ⟨first, others⟩ := List.forall_mem_cons.mp fit
      simp [readMany, carries.roundTrips value _ first, ih others]

theorem fits_of_readMany (carries : codec.Carries fits) {count : Nat} {values : List α}
    {bytes rest : List UInt8} (read : readMany codec count bytes = some (values, rest)) :
    values.length = count ∧ ∀ value ∈ values, fits value := by
  induction count generalizing bytes values with
  | zero =>
      cases read
      exact ⟨rfl, List.forall_mem_nil _⟩
  | succ count ih =>
      obtain ⟨⟨value, left⟩, readValue, read⟩ := Option.bind_eq_some_iff.mp read
      obtain ⟨⟨others, left⟩, readOthers, made⟩ := Option.bind_eq_some_iff.mp read
      cases made
      obtain ⟨length, fit⟩ := ih readOthers
      exact ⟨congrArg (· + 1) length,
        List.forall_mem_cons.mpr ⟨carries.fits_of_decode readValue, fit⟩⟩

theorem Carries.list (carries : codec.Carries fits) :
    codec.list.Carries fun values => values.length < 256 ^ 8 ∧ ∀ value ∈ values, fits value where
  roundTrips values rest fit := by
    simp [Codec.list, readBytes_bytesOf fit.1, readMany_flatMap carries fit.2]
  fits_of_decode read := by
    obtain ⟨⟨count, left⟩, readCount, read⟩ := Option.bind_eq_some_iff.mp read
    obtain ⟨length, fit⟩ := fits_of_readMany carries read
    exact ⟨length ▸ lt_of_readBytes readCount, fit⟩

/-! ## Texts -/

theorem fromUTF8?_textBytes (written : String) :
    String.fromUTF8? ⟨(textBytes written).toArray⟩ = some written := by
  have bytes : (⟨(textBytes written).toArray⟩ : ByteArray) = written.toByteArray := rfl
  rw [bytes, String.fromUTF8?, dif_pos written.isValidUTF8]
  rfl

theorem textBytes_of_fromUTF8? {bytes : List UInt8} {written : String}
    (read : String.fromUTF8? ⟨bytes.toArray⟩ = some written) : textBytes written = bytes := by
  unfold String.fromUTF8? at read
  split at read
  · cases read
    rfl
  · cases read

theorem carries_text : text.Carries fun written => (textBytes written).length < 256 ^ 8 where
  roundTrips written rest fit := by
    simp [text, readBytes_bytesOf fit, fromUTF8?_textBytes]
  fits_of_decode {bytes written rest} read := by
    obtain ⟨⟨size, left⟩, readSize, read⟩ := Option.bind_eq_some_iff.mp read
    dsimp only at read
    split at read
    · cases read
    next enough =>
      obtain ⟨found, readText, made⟩ := Option.bind_eq_some_iff.mp read
      cases made
      rw [textBytes_of_fromUTF8? readText, List.length_take_of_le (Nat.not_lt.mp enough)]
      exact lt_of_readBytes readSize

end Codec

/-! ## Snapshots -/

namespace Snapshot

open Codec

/-- Whether the length of a text fits its field. -/
def TextFits (written : String) : Prop :=
  (textBytes written).length < 256 ^ 8

/-- Whether handles and their number fit their fields. -/
def HandlesFit (ids : List Nat) : Prop :=
  ids.length < 256 ^ 8 ∧ ∀ id ∈ ids, id < 256 ^ 4

/-- Whether the values of tags and their number fit their fields. -/
def TagsFit (tags : List (Tag × Int)) : Prop :=
  tags.length < 256 ^ 8 ∧ ∀ entry ∈ tags, Signed 4 entry.2

instance (written : String) : Decidable (TextFits written) :=
  inferInstanceAs (Decidable (_ < _))

instance (ids : List Nat) : Decidable (HandlesFit ids) :=
  inferInstanceAs (Decidable (_ ∧ _))

instance (tags : List (Tag × Int)) : Decidable (TagsFit tags) :=
  inferInstanceAs (Decidable (_ ∧ _))

end Snapshot

open Snapshot Codec

/-- Whether every number of the record fits the width of its field. -/
@[mk_iff]
structure EntitySnapshot.Fits (entity : EntitySnapshot) : Prop where
  id : entity.id < 256 ^ 4
  owner : entity.owner < 256
  code : TextFits entity.code
  position : entity.position < 256 ^ 8
  attack : Signed 4 entity.attack
  health : Signed 4 entity.health
  maxHealth : Signed 4 entity.maxHealth
  cost : Signed 4 entity.cost
  tags : TagsFit entity.tags
  enchantments : entity.enchantments.length < 256 ^ 8 ∧
    ∀ code ∈ entity.enchantments, TextFits code

/-- Whether every number of the record fits the width of its field. -/
@[mk_iff]
structure PlayerSnapshot.Fits (player : PlayerSnapshot) : Prop where
  id : player.id < 256
  hero : player.hero < 256 ^ 4
  heroPower : player.heroPower < 256 ^ 4
  weapon : ∀ weapon ∈ player.weapon, weapon < 256 ^ 4
  remainingMana : Signed 4 player.remainingMana
  tags : TagsFit player.tags
  hand : HandlesFit player.hand
  deck : HandlesFit player.deck
  field : HandlesFit player.field
  graveyard : HandlesFit player.graveyard
  secrets : HandlesFit player.secrets

/-- Whether every number of the record fits the width of its field. -/
@[mk_iff]
structure ChoiceSnapshot.Fits (choice : ChoiceSnapshot) : Prop where
  player : choice.player < 256
  options : HandlesFit choice.options

/-- Whether every number of the snapshot fits the width of its field. -/
@[mk_iff]
structure Snapshot.Fits (snapshot : Snapshot) : Prop where
  turn : snapshot.turn < 256 ^ 4
  current : snapshot.current < 256
  seed : snapshot.seed < 256 ^ 8
  position : snapshot.position < 256 ^ 16
  players : snapshot.players.length < 256 ^ 8 ∧ ∀ player ∈ snapshot.players, player.Fits
  entities : snapshot.entities.length < 256 ^ 8 ∧ ∀ entity ∈ snapshot.entities, entity.Fits
  choices : snapshot.choices.length < 256 ^ 8 ∧ ∀ choice ∈ snapshot.choices, choice.Fits
  actions : snapshot.actions < 256 ^ 8

instance : DecidablePred EntitySnapshot.Fits := fun entity =>
  decidable_of_iff' _ entity.fits_iff

instance : DecidablePred PlayerSnapshot.Fits := fun player =>
  decidable_of_iff' _ player.fits_iff

instance : DecidablePred ChoiceSnapshot.Fits := fun choice =>
  decidable_of_iff' _ choice.fits_iff

instance : DecidablePred Snapshot.Fits := fun snapshot =>
  decidable_of_iff' _ snapshot.fits_iff

namespace Snapshot

theorem carries_handle : handleCodec.Carries (· < 256 ^ 4) :=
  carries_natural 4

theorem carries_player : playerCodec.Carries (· < 256) :=
  carries_natural 1

theorem carries_handles : (Codec.list handleCodec).Carries HandlesFit :=
  carries_handle.list

theorem carries_tags : tagsCodec.Carries TagsFit :=
  ((carries_enumerated Tag (by decide)).pair (carries_integer 4)).list.congr fun _ => by
    simp [TagsFit]

theorem carries_texts : (Codec.list text).Carries fun written =>
    written.length < 256 ^ 8 ∧ ∀ code ∈ written, TextFits code :=
  carries_text.list

theorem carries_entity : entityCodec.Carries EntitySnapshot.Fits :=
  (Carries.record
    (carries_handle.pair <| carries_player.pair <| carries_text.pair <|
      (carries_enumerated EntityKind (by decide)).pair <|
      (carries_enumerated ZoneKind (by decide)).pair <| (carries_natural 8).pair <|
      (carries_integer 4).pair <| (carries_integer 4).pair <| (carries_integer 4).pair <|
      (carries_integer 4).pair <| carries_tags.pair carries_texts)
    (fun _ => rfl) fun _ => rfl).congr fun entity => by
      simp [entity.fits_iff, TextFits]

theorem carries_playerState : playerStateCodec.Carries PlayerSnapshot.Fits :=
  (Carries.record
    (carries_player.pair <| (carries_enumerated CardClass (by decide)).pair <|
      (carries_enumerated Standing (by decide)).pair <| carries_handle.pair <|
      carries_handle.pair <| carries_handle.optional.pair <| (carries_integer 4).pair <|
      carries_tags.pair <| carries_handles.pair <| carries_handles.pair <|
      carries_handles.pair <| carries_handles.pair carries_handles)
    (fun _ => rfl) fun _ => rfl).congr fun player => by
      simp [player.fits_iff]

theorem carries_choice : choiceCodec.Carries ChoiceSnapshot.Fits :=
  (Carries.record
    (carries_player.pair <| (carries_enumerated ChoiceKind (by decide)).pair carries_handles)
    (fun _ => rfl) fun _ => rfl).congr fun choice => by
      simp [choice.fits_iff]

theorem carries_snapshot : codec.Carries Snapshot.Fits :=
  (Carries.record
    ((carries_natural 4).pair <| (carries_enumerated Step (by decide)).pair <|
      carries_player.pair <| (carries_natural 8).pair <| (carries_natural 16).pair <|
      carries_playerState.list.pair <| carries_entity.list.pair <|
      carries_choice.list.pair (carries_natural 8))
    (fun _ => rfl) fun _ => rfl).congr fun snapshot => by
      simp [snapshot.fits_iff]

variable {snapshot : Snapshot}

/-- Whatever is read from bytes fits. -/
theorem fits_of_ofBytes? {bytes : List UInt8} (read : ofBytes? bytes = some snapshot) :
    snapshot.Fits := by
  obtain ⟨⟨found, rest⟩, decoded, rfl⟩ := Option.map_eq_some_iff.mp read
  exact carries_snapshot.fits_of_decode decoded

theorem ofBytes?_append (fits : snapshot.Fits) (rest : List UInt8) :
    ofBytes? (snapshot.toBytes ++ rest) = some snapshot := by
  unfold ofBytes? toBytes
  rw [carries_snapshot.roundTrips snapshot rest fits]
  rfl

/-- A snapshot comes back from its bytes exactly when its numbers fit. -/
theorem ofBytes?_toBytes_iff : ofBytes? snapshot.toBytes = some snapshot ↔ snapshot.Fits where
  mp := fits_of_ofBytes?
  mpr fits := by
    have read := ofBytes?_append fits []
    rwa [List.append_nil] at read

/-- A snapshot whose numbers fit comes back from its bytes, and no other one has the same bytes. -/
theorem ofBytes?_toBytes (fits : snapshot.Fits) :
    ofBytes? snapshot.toBytes = some snapshot ∧
      ∀ other : Snapshot, other.Fits → other.toBytes = snapshot.toBytes → other = snapshot := by
  refine ⟨ofBytes?_toBytes_iff.mpr fits, fun other fitsToo same => ?_⟩
  exact carries_snapshot.encode_inj fitsToo fits (congrArg (· ++ []) same)

/-- A table with a weapon in its slot, a dead minion and a choice to make. -/
theorem ofBytes?_toBytes_mourners :
    ∃ duel after, Duel.create Settings.mourners Catalogue.mourners = .ok duel ∧
      duel.Runs 100 [.start, .take .zero (.play ⟨5⟩), .take .zero (.play ⟨4⟩)] after ∧
        after.hasChoice = true ∧ after.snapshot.Fits ∧
          ofBytes? after.snapshot.toBytes = some after.snapshot ∧
            ∀ other : Snapshot, other.Fits → other.toBytes = after.snapshot.toBytes →
              other = after.snapshot := by
  obtain ⟨duel, after, created, runs, comes⟩ := Duel.exists_of_outcome Settings.mourners
    Catalogue.mourners 100 [.start, .take .zero (.play ⟨5⟩), .take .zero (.play ⟨4⟩)]
    (fun after => after.hasChoice && after.snapshot.Fits) (by decide +kernel)
  simp only [Bool.and_eq_true, decide_eq_true_eq] at comes
  exact ⟨duel, after, created, runs, comes.1, comes.2, ofBytes?_toBytes comes.2⟩

/-- Places take four bytes, counts eight, and the low byte comes first. -/
example : choiceCodec.encode ⟨1, .discover, [7, 258]⟩ =
    [1, 1, 0, 0, 0, 2, 0, 0, 0, 0, 0, 0, 0, 7, 0, 0, 0, 2, 1, 0, 0] := by decide

end Snapshot

end CardDuel
