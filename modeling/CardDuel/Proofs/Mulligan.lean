import CardDuel.Proofs.Closure
import CardDuel.Proofs.Drawing
import CardDuel.Proofs.Recovery
import Mathlib.Data.List.Dedup

/-!
# The exchange of opening cards

Cards that are replaced leave the hand, the deck deals as many, and then they go back into the
deck.  They are neither in the hand nor in the deck while the deck deals, so none of them is drawn;
and as many have left the hand as are dealt, so none is burnt.
-/

namespace CardDuel

namespace Play

/-! ## The distinct cards of a request -/

theorem nodup_distinct {seen : List EntityId} (ids : List EntityId) (nodup : seen.Nodup) :
    (distinct seen ids).Nodup := by
  induction ids generalizing seen with
  | nil => exact nodup
  | cons other ids ih =>
      rw [distinct]
      by_cases known : other ∈ seen
      · rw [if_pos (List.contains_iff_mem.mpr known)]
        exact ih nodup
      · rw [if_neg (by simpa using known)]
        refine ih (List.nodup_append_comm.mp ?_)
        exact List.nodup_cons.mpr ⟨known, nodup⟩

/-- However often cards are named, each of them is exchanged once. -/
theorem distinct_perm (ids : List EntityId) : (distinct [] ids).Perm ids.dedup := by
  refine (List.perm_ext_iff_of_nodup (nodup_distinct ids List.nodup_nil) ids.nodup_dedup).mpr ?_
  intro id
  rw [mem_distinct, List.mem_dedup]
  simp

end Play

namespace Duel

variable {duel before apart dealt after : Duel} {player : Player}
variable {ids replace options : List EntityId}

/-- Cards of a player's hand, each named once, were exchanged for cards of the deck. -/
structure Exchanges (player : Player) (replaced : List EntityId) (before after : Duel) :
    Prop where
  /-- The cards that are kept stay in order, and the top cards of the deck come behind them. -/
  hand : after.hand player = (before.hand player).filter (fun id => id ∉ replaced) ++
    before.topCards player replaced.length
  /-- Nothing that is replaced is drawn. -/
  undrawn : (before.topCards player replaced.length).Disjoint replaced
  /-- The other cards of the deck keep their order. -/
  order : (after.deck player).filter (fun id => id ∉ replaced) =
    (before.deck player).take ((before.deck player).length - replaced.length)
  /-- The deck holds these and what is replaced, and nothing else. -/
  deck : (after.deck player).Perm
    ((before.deck player).take ((before.deck player).length - replaced.length) ++ replaced)
  elsewhere : ∀ owner zone, ¬ (owner = player ∧ (zone = .hand ∨ zone = .deck)) →
    after.members owner zone = before.members owner zone
  /-- Nobody else is anywhere else than before, in a container or not. -/
  posts : ∀ id, id ∉ before.hand player → id ∉ before.deck player →
    after.table.post? id = before.table.post? id
  bodies : ∀ id, after.body? id = before.body? id
  /-- Slots and tags of the players are as before, fatigue among them. -/
  players : after.players = before.players
  control : after.control = before.control
  /-- Draws are announced for the cards that come to the hand, and nothing else is. -/
  announces : before.Announces
    ((before.topCards player replaced.length).map (Event.caused .drawCard player)) after

/-- It does not matter in which order the cards are named. -/
theorem Exchanges.perm (exchanges : before.Exchanges player ids after) (same : ids.Perm replace) :
    before.Exchanges player replace after := by
  obtain ⟨hand, undrawn, order, deck, elsewhere, posts, bodies, players, control, announces⟩ :=
    exchanges
  simp only [same.mem_iff, same.length_eq] at hand order deck undrawn announces
  exact ⟨hand, fun id drawn inside => undrawn drawn (same.mem_iff.mpr inside), order,
    deck.trans (same.append_left _), elsewhere, posts, bodies, players, control, announces⟩

/-- Distinct members of a row and the others are the row. -/
theorem perm_filter_append {row : List EntityId} (distinct : ids.Nodup) (nodup : row.Nodup)
    (held : ids ⊆ row) : (row.filter (fun id => id ∉ ids) ++ ids).Perm row := by
  have apart : (row.filter fun id => id ∉ ids).Disjoint ids := fun id here there => by
    simp [there] at here
  refine (List.perm_ext_iff_of_nodup ((nodup.filter _).append distinct apart) nodup).mpr ?_
  intro id
  by_cases inside : id ∈ ids
  · simp [inside, held inside]
  · simp [inside]

/-- As many cards fit into a hand as have left it. -/
theorem WellPlaced.length_le_handRoom (sound : before.WellPlaced)
    (settings : after.settings = before.settings)
    (left : (after.hand player).length + ids.length = (before.hand player).length) :
    ids.length ≤ after.handRoom player := by
  obtain ⟨content, found⟩ := before.zones.exists_get? player (by decide : ZoneKind.hand.IsContainer)
  have members : before.hand player = content.members := members_eq_of_get? found
  have capacity := (sound.within player .hand content found).1
  have fits := (sound.within player .hand content found).2 _ capacity
  rw [← members] at fits
  unfold handRoom
  rw [settings]
  omega

/-- When no card is lost, cards are dealt from the deck to the hand and nowhere else. -/
theorem Deals.members_of_kept {kept : List EntityId} {owner : Player} {zone : ZoneKind}
    (deals : Deals player kept [] before after)
    (other : ¬ (owner = player ∧ (zone = .hand ∨ zone = .deck))) :
    after.members owner zone = before.members owner zone := by
  by_cases grave : owner = player ∧ zone = .graveyard
  · rw [grave.1, grave.2, deals.graveyard, List.append_nil]
  · refine deals.elsewhere owner zone fun all => ?_
    have among := all.2
    simp only [List.mem_cons, List.not_mem_nil, or_false] at among
    rcases among with inDeck | inHand | inGrave
    · exact other ⟨all.1, .inr inDeck⟩
    · exact other ⟨all.1, .inl inHand⟩
    · exact grave ⟨all.1, inGrave⟩

/-- Setting cards of the hand aside, dealing as many and shuffling the former into the deck comes to
an exchange. -/
theorem exchanges_of_phases (sound : before.WellPlaced) (held : ids ⊆ before.hand player)
    (gathers : Gathers ids player .setAside before apart)
    (deals : Deals player (before.topCards player ids.length) [] apart dealt)
    (scatters : Scatters ids player dealt after) (control : after.control = before.control) :
    before.Exchanges player ids after := by
  let rest := (before.deck player).take ((before.deck player).length - ids.length)
  have inHand {owner : Player} {zone : ZoneKind} (other : ¬ (owner = player ∧ zone = .hand)) :
      (before.members owner zone).Disjoint ids :=
    fun id member inside => sound.disjoint_members other member (held inside)
  have drawnInDeck : before.topCards player ids.length ⊆ before.deck player := fun id member =>
    List.mem_reverse.mp (List.mem_of_mem_take member)
  have deckApart : (before.deck player).Disjoint ids := inHand (by simp)
  have undrawn : (before.topCards player ids.length).Disjoint ids :=
    fun id member => deckApart (drawnInDeck member)
  have undealt : rest.Disjoint ids := fun id member => deckApart (List.mem_of_mem_take member)
  have deck : apart.deck player = before.deck player := by
    refine (gathers.members player .deck).trans ?_
    rw [if_neg (by simp), List.append_nil]
    exact filter_of_disjoint deckApart
  have remains : dealt.deck player = rest := by
    refine deals.rest ?_
    rw [deck, List.append_nil]
    exact deck_eq_append_topCards before player ids.length
  constructor
  case hand =>
    have kept : apart.hand player = (before.hand player).filter fun id => id ∉ ids := by
      refine (gathers.members player .hand).trans ?_
      rw [if_neg (by simp), List.append_nil]
      rfl
    have stays : ((before.hand player).filter fun id => id ∉ ids).Disjoint ids :=
      fun id member inside => by simp [inside] at member
    refine (scatters.elsewhere player .hand (by simp)).trans ?_
    change (dealt.hand player).filter _ = _
    rw [deals.hand, kept, List.filter_append, filter_of_disjoint stays, filter_of_disjoint undrawn]
  case undrawn => exact undrawn
  case order => rw [scatters.order, remains, filter_of_disjoint undealt]
  case deck =>
    have scattered := scatters.deck
    rwa [remains, filter_of_disjoint undealt] at scattered
  case elsewhere =>
    intro owner zone other
    have alike := deals.members_of_kept other
    have apart' := inHand fun both => other ⟨both.1, .inl both.2⟩
    rw [scatters.elsewhere owner zone fun both => other ⟨both.1, .inr both.2⟩, alike,
      gathers.members, filter_of_disjoint apart']
    by_cases aside : owner = player ∧ zone = .setAside
    · rw [if_pos ⟨aside, by decide⟩, List.filter_append, filter_of_disjoint apart']
      simp
    · rw [if_neg fun all => aside all.1, List.append_nil, filter_of_disjoint apart']
  case posts =>
    intro id unheld undecked
    have unasked : id ∉ ids := fun inside => unheld (held inside)
    have undealt' : id ∉ before.topCards player ids.length ++ [] := by
      rw [List.append_nil]
      exact fun drawn => undecked (drawnInDeck drawn)
    rw [scatters.posts, if_neg unasked, Table.post?, deals.seats id undealt']
    exact (gathers.posts id).trans (if_neg unasked)
  case bodies =>
    intro id
    rw [scatters.rearranges.bodies, deals.bodies, gathers.rearranges.bodies]
  case players => rw [scatters.rearranges.players, deals.players, gathers.rearranges.players]
  case control => exact control
  case announces =>
    have announced := (deals.announces.congr gathers.rearranges.agenda).trans
      (.nothing scatters.rearranges.agenda)
    rwa [List.append_nil] at announced

end Duel

namespace Play

open Duel

variable {duel : Duel} {player : Player} {ids replace options : List EntityId}

/-- Distinct cards of a hand are exchanged for as many cards of the deck. -/
theorem exists_exchange (sound : duel.WellPlaced) (distinct : ids.Nodup)
    (held : ids ⊆ duel.hand player) (enough : ids.length ≤ (duel.deck player).length) :
    ∃ after, exchange player ids duel = .ok () after ∧ duel.Exchanges player ids after := by
  let cards := duel.topCards player ids.length
  have count : cards.length = ids.length := by
    have length := length_topCards duel player ids.length
    change cards.length + _ = _ at length
    omega
  obtain ⟨apart, sent, gathers⟩ := exists_forM_send sound distinct
    (fun id member => sound.loose_of_mem (held member) (by decide))
    (by decide : ZoneKind.setAside ≠ .play) fun _ => rfl
  have hand : apart.hand player = (duel.hand player).filter fun id => id ∉ ids := by
    refine (gathers.members player .hand).trans ?_
    simp [hand]
  have deck : apart.deck player = duel.deck player := by
    refine (gathers.members player .deck).trans ?_
    rw [if_neg (by simp), List.append_nil]
    exact filter_of_disjoint fun id member inside =>
      sound.disjoint_members (by simp) member (held inside)
  have room : cards.length ≤ apart.handRoom player := by
    have whole := (perm_filter_append distinct (sound.placed.nodup player .hand) held).length_eq
    rw [List.length_append] at whole
    rw [count]
    exact sound.length_le_handRoom gathers.rearranges.settings (by rw [hand]; exact whole)
  obtain ⟨ran, deals, placed⟩ := times_drawCard_dealt cards gathers.sound
    (deck.trans (deck_eq_append_topCards duel player ids.length))
  rw [List.take_of_length_le room, List.drop_eq_nil_of_le room] at deals
  have apartStill (id : EntityId) (member : id ∈ ids) :
      id ∈ (apart.dealt player cards).members player .setAside := by
    rw [deals.elsewhere player .setAside (by simp), gathers.members,
      if_pos ⟨⟨rfl, rfl⟩, by decide⟩]
    exact List.mem_append_right _ member
  obtain ⟨after, shuffled, scatters⟩ := exists_forM_shuffleIn placed distinct fun id member =>
    placed.loose_of_mem (apartStill id member) (by decide)
  have exchanged : exchange player ids duel = .ok () after := by
    unfold exchange
    rw [bind_of_ok sent, ← count, bind_of_ok ran]
    exact shuffled
  have controls : (exchange player ids).Ensures duel fun _ left => left.control = duel.control :=
    Yields.mono (follows_exchange duel) (fun _ _ shifts => Shift.controls shifts)
      fun _ _ => trivial
  exact ⟨after, exchanged,
    exchanges_of_phases sound held gathers deals scatters (controls.of_ok exchanged)⟩

/-- An accepted answer to the opening choice, whose options are in the hand, exchanges the cards that
it names if the deck has as many; then the match settles. -/
theorem exists_exchange_of_accepted (sound : duel.WellPlaced)
    (pending : duel.choice? player = some ⟨.mulligan, options⟩)
    (held : options ⊆ duel.hand player) (accepted : duel.check player (.mulligan replace) = .ok ())
    (enough : replace.dedup.length ≤ (duel.deck player).length) :
    ∃ after, exchange player (distinct [] replace) duel = .ok () after ∧
      duel.Exchanges player replace.dedup after ∧
        ∀ allowance, mulligan allowance player replace duel = (do
          settle allowance
          let left ← get
          if !left.hasChoice && left.step = .beginMulligan then
            beginTurns allowance : Play Unit) (after.setChoice player none) := by
  have named : distinct [] replace ⊆ duel.hand player :=
    List.Subset.trans (distinct_subset (subset_of_accepted pending accepted)) held
  have same := distinct_perm replace
  obtain ⟨after, exchanged, exchanges⟩ := exists_exchange sound
    (nodup_distinct replace List.nodup_nil) named (same.length_eq ▸ enough)
  exact ⟨after, exchanged, exchanges.perm same, fun allowance => bind_of_ok exchanged⟩

end Play

/-- Player zero chooses among the first three of five wisps. -/
def Settings.choosers : Settings :=
  { Settings.mages with
    decks := [List.replicate 5 "WISP", []], skipMulligan := false, shuffleDecks := false }

/-- Asked twice to replace the second wisp, the match deals one card for it. -/
theorem Play.exists_exchange_choosers :
    ∃ duel after, duel.WellPlaced ∧
      duel.choice? .zero = some ⟨.mulligan, [⟨8⟩, ⟨7⟩, ⟨6⟩]⟩ ∧
        [⟨8⟩, ⟨7⟩, ⟨6⟩] ⊆ duel.hand .zero ∧
          duel.check .zero (.mulligan [⟨7⟩, ⟨7⟩]) = .ok () ∧
            ([⟨7⟩, ⟨7⟩] : List EntityId).dedup.length ≤ (duel.deck .zero).length ∧
              Play.exchange .zero (Play.distinct [] [⟨7⟩, ⟨7⟩]) duel = .ok () after ∧
                duel.Exchanges .zero ([⟨7⟩, ⟨7⟩] : List EntityId).dedup after ∧
                  after.hand .zero = [⟨8⟩, ⟨6⟩, ⟨5⟩] := by
  obtain ⟨start, duel, created, runs, comes⟩ :=
    Duel.exists_of_outcome Settings.choosers Catalogue.mages 100 [.start] (fun duel =>
      duel.choice? .zero = some ⟨.mulligan, [⟨8⟩, ⟨7⟩, ⟨6⟩]⟩ && duel.hand .zero = [⟨8⟩, ⟨7⟩, ⟨6⟩] &&
        duel.deck .zero = [⟨4⟩, ⟨5⟩])
      (by decide +kernel)
  simp only [Bool.and_eq_true, decide_eq_true_eq] at comes
  obtain ⟨⟨pending, hand⟩, deck⟩ := comes
  have sound : duel.WellPlaced :=
    Duel.Change.wellPlaced_of_reaches (Duel.reaches_of_runs runs) (Duel.created_wellPlaced created)
  have held : [⟨8⟩, ⟨7⟩, ⟨6⟩] ⊆ duel.hand .zero := by simp [hand]
  have accepted : duel.check .zero (.mulligan [⟨7⟩, ⟨7⟩]) = .ok () :=
    (Duel.check_answer pending (by simp)).trans (by decide)
  have enough : ([⟨7⟩, ⟨7⟩] : List EntityId).dedup.length ≤ (duel.deck .zero).length := by
    rw [deck]
    decide
  obtain ⟨after, exchanged, exchanges, -⟩ :=
    Play.exists_exchange_of_accepted sound pending held accepted enough
  refine ⟨duel, after, sound, pending, held, accepted, enough, exchanged, exchanges, ?_⟩
  rw [exchanges.hand, Duel.topCards, hand, deck]
  decide

end CardDuel
