import Pytitect.Aio.Uncertainty
import Pytitect.Outbox.Custody

namespace Pytitect.AsyncOutboxStore
variable {P : Type} {s : AsyncOutboxStore P} {size : P → Except PyError Int} {now limit claimTtl maxBytes retained : Int}
  {claimIds : Nat → Uuid} {store : OutboxStore P} {claims rest : List (OutboxClaim P)} {claim : OutboxClaim P}
  {weight : OutboxEnvelope P → Int} {issues : List (OutboxClaim P)} {drawn : Uuid → Prop}
open OutboxStore (Sound eligible eligible_iff handed)

/-- A call of `claim` at this time would claim the message, if its limit reached that far. -/
def Claimable (s : AsyncOutboxStore P) (at_ : Int) (messageId : OpaqueId) : Prop :=
  ∃ item, s.certain.items.get? messageId = some item ∧ eligible at_ (messageId, item) = true

/-- The claims are valid, each for a message of its own. -/
structure Held (claims : List (OutboxClaim P)) (store : OutboxStore P) : Prop where
  valid : ∀ claim ∈ claims, (store.valid claim).isSome
  separate : (claims.map (·.envelope.messageId)).Nodup

theorem Held.tail (held : Held (claim :: rest) store) : Held rest store :=
  ⟨fun other member => held.valid other (List.mem_cons_of_mem _ member), (List.nodup_cons.mp held.separate).2⟩

theorem valid_set {messageId : OpaqueId} {next : StoredMessage P} (different : claim.envelope.messageId ≠ messageId) :
    ({ store with items := store.items.set messageId next } : OutboxStore P).valid claim = store.valid claim := by
  unfold OutboxStore.valid
  rw [Dict.get?_set_of_ne different]

/-- Releasing the first claim leaves the others valid. -/
theorem Held.release (held : Held (claim :: rest) store) (next : StoredMessage P) :
    Held rest { store with items := store.items.set claim.envelope.messageId next } := by
  refine ⟨fun other member => ?_, held.tail.separate⟩
  have different : other.envelope.messageId ≠ claim.envelope.messageId := by
    intro same
    exact (List.nodup_cons.mp held.separate).1 (List.mem_map.mpr ⟨other, member, same⟩)
  rw [valid_set different]
  exact held.tail.valid other member

/-- A payload of this size. -/
def Sized (size : P → Except PyError Int) (weight : OutboxEnvelope P → Int) (envelope : OutboxEnvelope P) : Prop :=
  size envelope.payload = .ok (weight envelope) ∧ 0 ≤ weight envelope

/-- The loop touches no other message. -/
theorem bounded_frame (size : P → Except PyError Int) (maxBytes retained : Int) (claims : List (OutboxClaim P)) (store : OutboxStore P)
    {messageId : OpaqueId} (other : messageId ∉ claims.map (·.envelope.messageId)) :
    (bounded size maxBytes claims retained store).2.items.get? messageId = store.items.get? messageId := by
  induction claims generalizing store retained with
  | nil => rfl
  | cons claim rest ih =>
    rw [List.map_cons, List.mem_cons, not_or] at other
    unfold bounded
    split
    · rfl
    rename_i size' _
    split
    · rfl
    split
    · have later := ih (retained + size') store other.2
      split
      · rename_i error after looped
        rw [looped] at later
        exact later
      · rename_i selected after looped
        rw [looped] at later
        exact later
    split
    · rfl
    · exact (ih retained _ other.2).trans (Dict.get?_set_of_ne other.1)

/-- With all sizes known the loop selects greedily, and releases the rest. -/
theorem bounded_selects (maxBytes retained : Int) (held : Held claims store) (sized : ∀ claim ∈ claims, Sized size weight claim.envelope) :
    let selected := claims.greedy (fun claim => weight claim.envelope) maxBytes retained
    ∃ after, bounded size maxBytes claims retained store = (.ok selected, after) ∧
      (∀ claim ∈ selected, after.items.get? claim.envelope.messageId = store.items.get? claim.envelope.messageId) ∧
      ∀ claim ∈ claims, claim.envelope.messageId ∉ selected.map (·.envelope.messageId) →
        ∃ item, store.items.get? claim.envelope.messageId = some item ∧
          after.items.get? claim.envelope.messageId = some (released item) := by
  induction claims generalizing store retained with
  | nil => exact ⟨store, rfl, fun _ _ => rfl, fun _ member => nomatch member⟩
  | cons claim rest ih =>
    obtain ⟨isSize, nonnegative⟩ := sized claim List.mem_cons_self
    have others := fun other member => sized other (List.mem_cons_of_mem claim member)
    obtain ⟨item, valid⟩ := Option.isSome_iff_exists.mp (held.valid claim List.mem_cons_self)
    obtain ⟨found, -⟩ := OutboxStore.valid_some valid
    have fresh := (List.nodup_cons.mp held.separate).1
    intro selected
    by_cases fits : retained + weight claim.envelope ≤ maxBytes
    · have isSelected : selected = claim :: rest.greedy (fun claim => weight claim.envelope) maxBytes (retained + weight claim.envelope) :=
        if_pos fits
      obtain ⟨after, looped, kept, left⟩ := ih (retained + weight claim.envelope) held.tail others
      have frame := bounded_frame size maxBytes (retained + weight claim.envelope) rest store fresh
      rw [looped] at frame
      refine ⟨after, ?_, fun other member => ?_, fun other member absent => ?_⟩
      · unfold bounded
        rw [isSize]
        dsimp only
        rw [if_neg (by omega), if_pos fits, looped, isSelected]
      · rw [isSelected] at member
        rcases List.mem_cons.mp member with rfl | later
        · exact frame
        · exact kept other later
      · rw [isSelected, List.map_cons, List.mem_cons, not_or] at absent
        rcases List.mem_cons.mp member with rfl | later
        · exact absurd rfl absent.1
        · exact left other later absent.2
    · have isSelected : selected = rest.greedy (fun claim => weight claim.envelope) maxBytes retained := if_neg fits
      obtain ⟨after, looped, kept, left⟩ := ih retained (held.release (released item)) others
      have frame := bounded_frame size maxBytes retained rest { store with
        items := store.items.set claim.envelope.messageId (released item) } fresh
      rw [looped] at frame
      have untouched : ∀ other ∈ rest, (store.items.set claim.envelope.messageId (released item)).get? other.envelope.messageId =
          store.items.get? other.envelope.messageId := fun other member =>
        Dict.get?_set_of_ne fun same => fresh (List.mem_map.mpr ⟨other, member, same⟩)
      refine ⟨after, ?_, fun other member => ?_, fun other member absent => ?_⟩
      · unfold bounded
        rw [isSize]
        dsimp only
        rw [if_neg (by omega), if_neg fits, valid]
        dsimp only
        rw [looped, isSelected]
      · rw [isSelected] at member
        exact (kept other member).trans (untouched other ((List.greedy_sublist ..).mem member))
      · rw [isSelected] at absent
        rcases List.mem_cons.mp member with rfl | later
        · exact ⟨item, found, frame.trans (Dict.get?_set_self ..)⟩
        · obtain ⟨before, was, now⟩ := left other later absent
          exact ⟨before, (untouched other later).symm.trans was, now⟩

/-- A size that fails leaves at least its own message claimed. -/
theorem bounded_raises (maxBytes retained : Int) (held : Held claims store)
    (failing : ∃ claim ∈ claims, ¬∃ n, size claim.envelope.payload = .ok n ∧ 0 ≤ n) :
    ∃ error after, bounded size maxBytes claims retained store = (.error error, after) ∧
      ∃ claim ∈ claims, after.items.get? claim.envelope.messageId = store.items.get? claim.envelope.messageId := by
  induction claims generalizing store retained with
  | nil =>
    obtain ⟨_, member, -⟩ := failing
    cases member
  | cons claim rest ih =>
    have fresh := (List.nodup_cons.mp held.separate).1
    obtain ⟨item, valid⟩ := Option.isSome_iff_exists.mp (held.valid claim List.mem_cons_self)
    unfold bounded
    cases isSize : size claim.envelope.payload with
    | error error => exact ⟨error, store, rfl, claim, List.mem_cons_self, rfl⟩
    | ok n =>
      dsimp only
      by_cases negative : n < 0
      · rw [if_pos negative]
        exact ⟨_, store, rfl, claim, List.mem_cons_self, rfl⟩
      rw [if_neg negative]
      have later : ∃ claim ∈ rest, ¬∃ n, size claim.envelope.payload = .ok n ∧ 0 ≤ n := by
        obtain ⟨other, member, fails⟩ := failing
        rcases List.mem_cons.mp member with rfl | inRest
        · exact absurd ⟨n, isSize, by omega⟩ fails
        · exact ⟨other, inRest, fails⟩
      by_cases fits : retained + n ≤ maxBytes
      · obtain ⟨error, after, looped, other, member, same⟩ := ih (retained + n) held.tail later
        rw [if_pos fits, looped]
        exact ⟨error, after, rfl, other, List.mem_cons_of_mem _ member, same⟩
      · obtain ⟨error, after, looped, other, member, same⟩ := ih retained (held.release (released item)) later
        rw [if_neg fits, valid]
        dsimp only
        rw [looped]
        have different : other.envelope.messageId ≠ claim.envelope.messageId :=
          fun mine => fresh (List.mem_map.mpr ⟨other, member, mine⟩)
        exact ⟨error, after, rfl, other, List.mem_cons_of_mem _ member, same.trans (Dict.get?_set_of_ne different)⟩

section Calls
variable {t : AsyncOutboxStore P} {messageId : OpaqueId} {at_ : Int}

/-- A message is as claimable as before if at most its claim id has changed. -/
theorem claimable_congr (marks : t.uncertainAt = s.uncertainAt)
    (alike : t.store.items.get? messageId = s.store.items.get? messageId ∨ ∃ item claimId,
      s.store.items.get? messageId = some item ∧ t.store.items.get? messageId = some { item with claimId }) :
    t.Claimable at_ messageId ↔ s.Claimable at_ messageId := by
  unfold Claimable
  rw [certain_get?, certain_get?, marks]
  split
  · exact Iff.rfl
  rcases alike with same | ⟨item, claimId, was, now⟩
  · rw [same]
  · rw [was, now]
    constructor
    · rintro ⟨_, ⟨rfl⟩, may⟩
      exact ⟨item, rfl, may⟩
    · rintro ⟨_, ⟨rfl⟩, may⟩
      exact ⟨_, rfl, may⟩

/-- A call whose claims keep to the byte bound. -/
structure Selects (s : AsyncOutboxStore P) (size : P → Except PyError Int) (now limit claimTtl maxBytes : Int)
    (claims : List (OutboxClaim P)) (t : AsyncOutboxStore P) : Prop where
  greedy : ∃ weight, (∀ entry ∈ s.certain.ready now limit, Sized size weight entry.2.envelope) ∧
    claims.map (·.envelope) = ((s.certain.ready now limit).map (·.2.envelope)).greedy weight maxBytes 0
  held : ∀ claim ∈ claims, claim.claimedUntil = now + claimTtl ∧ ∃ item, t.store.items.get? claim.envelope.messageId = some item ∧
    item.claimId = some claim.claimId ∧ item.claimedUntil = some claim.claimedUntil
  others : ∀ messageId, messageId ∉ claims.map (·.envelope.messageId) →
    t.store.items.get? messageId = s.store.items.get? messageId ∨
      ∃ item, s.store.items.get? messageId = some item ∧ t.store.items.get? messageId = some (released item)
  marks : t.uncertainAt = s.uncertainAt

/-- A bounded call is all or nothing: what it raises leaves every message as claimable as before, and what it
returns is the greedy selection. -/
def Atomic (s : AsyncOutboxStore P) (size : P → Except PyError Int) (now limit claimTtl maxBytes : Int) (claimIds : Nat → Uuid) :
    Prop :=
  match s.claim size now limit claimTtl (some maxBytes) claimIds with
  | (.error _, t) => ∀ at_ messageId, t.Claimable at_ messageId ↔ s.Claimable at_ messageId
  | (.ok claims, t) => Selects s size now limit claimTtl maxBytes claims t

/-- Each of the first `limit` messages that are eligible has a size that is no error and not negative. -/
def Measured (s : AsyncOutboxStore P) (size : P → Except PyError Int) (now limit : Int) : Prop :=
  ∀ entry ∈ s.certain.ready now limit, ∃ n, size entry.2.envelope.payload = .ok n ∧ 0 ≤ n

/-- The store with the uncertain messages put back. -/
def restored (held : List (OpaqueId × StoredMessage P)) (store : OutboxStore P) : OutboxStore P :=
  { store with items := store.items.setAll held }

/-- What `claim` does once the uncertain messages are out of the store. -/
structure Holding (s : AsyncOutboxStore P) (held : List (OpaqueId × StoredMessage P)) : Prop where
  claim : ∀ (size : P → Except PyError Int) (now limit claimTtl maxBytes : Int) (claimIds : Nat → Uuid), ¬maxBytes ≤ 0 →
    s.claim size now limit claimTtl (some maxBytes) claimIds =
      let claimed := s.certain.claim now limit claimTtl claimIds
      let limited := limited size (some maxBytes) claimed.1 (restored held claimed.2)
      (limited.1, { s with store := limited.2 })
  put : ∀ (store : OutboxStore P) (messageId : OpaqueId), (restored held store).items.get? messageId =
    if (s.uncertainAt.get? messageId).isSome then s.store.items.get? messageId else store.items.get? messageId

theorem Retained.holding (retained : Retained s) : ∃ held, Holding s held := by
  obtain ⟨held, isHeld, keys, stored⟩ := retained.hold_ok
  refine ⟨held, fun size now limit claimTtl maxBytes claimIds positive => ?_, fun store messageId => get?_restored keys stored messageId⟩
  unfold AsyncOutboxStore.claim
  rw [Option.any_some, if_neg (by simpa using positive), isHeld]
  rfl

/-- Putting the messages back undoes nothing but their removal. -/
theorem Holding.unchanged {held : List (OpaqueId × StoredMessage P)} (holding : Holding s held) (messageId : OpaqueId) :
    (restored held s.certain).items.get? messageId = s.store.items.get? messageId := by
  rw [holding.put, certain_get?]
  split <;> rfl

/-- The messages that a call claims before it measures them. -/
structure Marked (s : AsyncOutboxStore P) (now limit claimTtl : Int) (claimIds : Nat → Uuid) (store : OutboxStore P) : Prop where
  claimed : ∀ (i : Nat) (entry : OpaqueId × StoredMessage P), (s.certain.ready now limit)[i]? = some entry →
    s.store.items.get? entry.1 = some entry.2 ∧ entry.2.envelope.messageId = entry.1 ∧ store.items.get? entry.1 =
      some { entry.2 with claimId := some (claimIds i), claimedUntil := some (now + claimTtl) }
  others : ∀ messageId, messageId ∉ (s.certain.ready now limit).map Prod.fst →
    store.items.get? messageId = s.store.items.get? messageId

theorem Holding.marks {held : List (OpaqueId × StoredMessage P)} (holding : Holding s held) (sound : Sound issues drawn s.store.items)
    (now limit claimTtl : Int) (claimIds : Nat → Uuid) : Marked s now limit claimTtl claimIds (restored held { s.certain with
      items := s.certain.items.setAll (OutboxStore.marked claimIds (now + claimTtl) (s.certain.ready now limit)) }) := by
  constructor
  · intro i entry isEntry
    obtain ⟨found, -⟩ := OutboxStore.mem_ready (List.mem_of_getElem? isEntry)
    have own := (certain_sound sound).own _ _ found
    have marked := OutboxStore.get?_marked s.certain.items claimIds (now + claimTtl) OutboxStore.ready_distinct isEntry
    rw [certain_get?] at found
    rw [holding.put]
    split at found
    · cases found
    · rename_i unmarked
      rw [if_neg unmarked]
      exact ⟨found, own, marked⟩
  · intro messageId other
    have same : (s.certain.items.setAll (OutboxStore.marked claimIds (now + claimTtl) (s.certain.ready now limit))).get? messageId =
        s.certain.items.get? messageId := by
      rcases OutboxStore.get?_marked_cases s.certain.items claimIds (now + claimTtl) OutboxStore.ready_distinct messageId with
        ⟨i, entry, isEntry, mine, -⟩ | ⟨-, same⟩
      · exact absurd (mine ▸ List.mem_map_of_mem (List.mem_of_getElem? isEntry)) other
      · exact same
    rw [holding.put]
    dsimp only
    rw [same, certain_get?]
    split <;> rfl

theorem Marked.held (marked : Marked s now limit claimTtl claimIds store) :
    Held (handed claimIds (now + claimTtl) (s.certain.ready now limit)) store := by
  constructor
  · intro claim member
    obtain ⟨i, bound, rfl⟩ := List.mem_mapIdx.mp member
    obtain ⟨-, own, found⟩ := marked.claimed i _ (List.getElem?_eq_getElem bound)
    obtain ⟨-, may⟩ := OutboxStore.mem_ready (List.getElem_mem bound)
    have running := eligible_iff.mp may
    have valid : store.valid ⟨claimIds i, (s.certain.ready now limit)[i].2.envelope, now + claimTtl⟩ = some _ :=
      OutboxStore.valid_iff.mpr ⟨(congrArg store.items.get? own).trans found, rfl, running.2.1, running.2.2.1⟩
    exact Option.isSome_iff_exists.mpr ⟨_, valid⟩
  · have keys : (handed claimIds (now + claimTtl) (s.certain.ready now limit)).map (·.envelope.messageId) =
        (s.certain.ready now limit).map Prod.fst := by
      refine List.ext_getElem? fun i => ?_
      cases isEntry : (s.certain.ready now limit)[i]? with
      | none => simp [handed, isEntry]
      | some entry => simp [handed, isEntry, (marked.claimed i entry isEntry).2.1]
    rw [keys]
    exact OutboxStore.ready_distinct

theorem Marked.released_entry (marked : Marked s now limit claimTtl claimIds store) {i : Nat} {entry : OpaqueId × StoredMessage P}
    {item : StoredMessage P} (isEntry : (s.certain.ready now limit)[i]? = some entry) (found : store.items.get? entry.1 = some item) :
    released item = released entry.2 := by
  cases (marked.claimed i entry isEntry).2.2.symm.trans found
  rfl

/-- With the sizes known, what the loop makes of the claims is the selection. -/
theorem Marked.selects (marked : Marked s now limit claimTtl claimIds store) (maxBytes : Int) (measured : Measured s size now limit) :
    ∃ claims after, bounded size maxBytes (handed claimIds (now + claimTtl) (s.certain.ready now limit)) 0 store = (.ok claims, after) ∧
      Selects s size now limit claimTtl maxBytes claims { s with store := after } := by
  have weight : ∃ weight : OutboxEnvelope P → Int, ∀ entry ∈ s.certain.ready now limit, Sized size weight entry.2.envelope := by
    refine ⟨fun envelope => match size envelope.payload with
      | .ok n => n
      | .error _ => 0, fun entry member => ?_⟩
    obtain ⟨n, isSize, nonnegative⟩ := measured entry member
    simp only [Sized, isSize]
    exact ⟨trivial, nonnegative⟩
  obtain ⟨weight, sized⟩ := weight
  have sizedClaims : ∀ claim ∈ handed claimIds (now + claimTtl) (s.certain.ready now limit), Sized size weight claim.envelope := by
    intro claim member
    obtain ⟨i, bound, rfl⟩ := List.mem_mapIdx.mp member
    exact sized _ (List.getElem_mem bound)
  obtain ⟨after, looped, kept, left⟩ := bounded_selects maxBytes 0 marked.held sizedClaims
  have sub := List.greedy_sublist (fun claim : OutboxClaim P => weight claim.envelope) maxBytes 0
    (handed claimIds (now + claimTtl) (s.certain.ready now limit))
  have frame : ∀ messageId,
      messageId ∉ (handed claimIds (now + claimTtl) (s.certain.ready now limit)).map (·.envelope.messageId) →
      after.items.get? messageId = store.items.get? messageId := by
    intro messageId other
    have same := bounded_frame size maxBytes 0 (handed claimIds (now + claimTtl) (s.certain.ready now limit)) store other
    rw [looped] at same
    exact same
  refine ⟨_, after, looped, ⟨weight, sized, ?_⟩, fun claim member => ?_, fun messageId absent => ?_, rfl⟩
  · rw [← List.greedy_map (fun claim : OutboxClaim P => claim.envelope), OutboxStore.handed_envelopes]
  · obtain ⟨i, bound, rfl⟩ := List.mem_mapIdx.mp (sub.mem member)
    obtain ⟨-, own, found⟩ := marked.claimed i _ (List.getElem?_eq_getElem bound)
    exact ⟨rfl, _, (kept _ member).trans ((congrArg store.items.get? own).trans found), rfl, rfl⟩
  · by_cases among : messageId ∈ (handed claimIds (now + claimTtl) (s.certain.ready now limit)).map (·.envelope.messageId)
    · obtain ⟨claim, member, rfl⟩ := List.mem_map.mp among
      obtain ⟨item, was, now_⟩ := left claim member absent
      obtain ⟨i, bound, rfl⟩ := List.mem_mapIdx.mp member
      have isEntry := List.getElem?_eq_getElem bound
      obtain ⟨stored, own, found⟩ := marked.claimed i _ isEntry
      refine Or.inr ⟨_, (congrArg s.store.items.get? own).trans stored, ?_⟩
      rw [← marked.released_entry isEntry ((congrArg store.items.get? own).symm.trans was)]
      exact now_
    · refine Or.inl ((frame messageId among).trans (marked.others messageId fun ready => among ?_))
      obtain ⟨entry, inReady, rfl⟩ := List.mem_map.mp ready
      obtain ⟨i, isEntry⟩ := List.mem_iff_getElem?.mp inReady
      obtain ⟨bound, same⟩ := List.getElem?_eq_some_iff.mp isEntry
      refine List.mem_map.mpr ⟨_, List.mem_mapIdx.mpr ⟨i, bound, rfl⟩, ?_⟩
      rw [same]
      exact (marked.claimed i entry isEntry).2.1

/-- If some size is not known, the call raises, and a message that was claimable is claimed. -/
theorem Marked.raises (marked : Marked s now limit claimTtl claimIds store) (maxBytes : Int) (lasting : 0 < claimTtl)
    (unmeasured : ¬Measured s size now limit) :
    ∃ error after, bounded size maxBytes (handed claimIds (now + claimTtl) (s.certain.ready now limit)) 0 store = (.error error, after) ∧
      ∃ messageId, s.Claimable now messageId ∧ ¬Claimable { s with store := after } now messageId := by
  unfold Measured at unmeasured
  push Not at unmeasured
  obtain ⟨entry, member, fails⟩ := unmeasured
  obtain ⟨j, isEntry⟩ := List.mem_iff_getElem?.mp member
  have failing : ∃ claim ∈ handed claimIds (now + claimTtl) (s.certain.ready now limit),
      ¬∃ n, size claim.envelope.payload = .ok n ∧ 0 ≤ n := by
    obtain ⟨bound, same⟩ := List.getElem?_eq_some_iff.mp isEntry
    refine ⟨_, List.mem_mapIdx.mpr ⟨j, bound, rfl⟩, ?_⟩
    rw [same]
    rintro ⟨n, isSize, nonnegative⟩
    have negative := fails n isSize
    omega
  obtain ⟨error, after, looped, claim, among, same⟩ := bounded_raises maxBytes 0 marked.held failing
  obtain ⟨i, bound, rfl⟩ := List.mem_mapIdx.mp among
  obtain ⟨stored, own, found⟩ := marked.claimed i _ (List.getElem?_eq_getElem bound)
  obtain ⟨certain, may⟩ := OutboxStore.mem_ready (List.getElem_mem bound)
  refine ⟨error, after, looped, _, ⟨_, certain, may⟩, ?_⟩
  rintro ⟨item, isItem, mayStill⟩
  rw [certain_get?] at isItem
  split at isItem
  · cases isItem
  · have now_ : after.items.get? ((s.certain.ready now limit)[i]).1 = _ :=
      (congrArg after.items.get? own.symm).trans (same.trans ((congrArg store.items.get? own).trans found))
    cases now_.symm.trans isItem
    have expired := (eligible_iff.mp mayStill).2.2.2 _ rfl
    omega

/-- The call gets as far as measuring what it has claimed. -/
def Measures (now limit claimTtl maxBytes : Int) : Prop := 0 < maxBytes ∧ 0 < limit ∧ 0 < claimTtl ∧ Fits now claimTtl

/-- A call that does not get to the sizes leaves every message as claimable as before. -/
theorem atomic_early (retained : Retained s) (early : ¬Measures now limit claimTtl maxBytes)
    (size : P → Except PyError Int) (claimIds : Nat → Uuid) : Atomic s size now limit claimTtl maxBytes claimIds := by
  unfold Atomic
  by_cases positive : maxBytes ≤ 0
  · have refused : s.claim size now limit claimTtl (some maxBytes) claimIds = (.error (.valueError "max_bytes must be positive"), s) := by
      unfold AsyncOutboxStore.claim
      rw [Option.any_some, if_pos (decide_eq_true positive)]
    rw [refused]
    exact fun _ _ => Iff.rfl
  obtain ⟨held, holding⟩ := retained.holding
  rw [holding.claim size now limit claimTtl maxBytes claimIds positive]
  dsimp only
  have claimed := s.certain.claim_claimed now limit claimTtl claimIds
  generalize (s.certain.claim now limit claimTtl claimIds).1 = result at claimed
  generalize (s.certain.claim now limit claimTtl claimIds).2 = store at claimed
  cases claimed with
  | refused error => exact fun at_ messageId => claimable_congr rfl (Or.inl (holding.unchanged messageId))
  | spoiled error spoiledId item found =>
    intro at_ messageId
    refine claimable_congr rfl ?_
    change (restored held _).items.get? messageId = _ ∨ ∃ item claimId, _ ∧ (restored held _).items.get? messageId = _
    rw [holding.put]
    split
    · exact Or.inl rfl
    · rename_i unmarked
      by_cases mine : messageId = spoiledId
      · subst mine
        rw [certain_get?, if_neg unmarked] at found
        exact Or.inr ⟨item, _, found, Dict.get?_set_self ..⟩
      · dsimp only
        rw [Dict.get?_set_of_ne mine, certain_get?, if_neg unmarked]
        exact Or.inl rfl
  | allReady lasting fits =>
    have nothing : s.certain.ready now limit = [] := by
      rcases fits with fits | nothing
      · have none_ : limit.toNat = 0 := by
          unfold Measures at early
          push Not at early
          by_contra some_
          exact early (by omega) (by omega) lasting fits
        unfold OutboxStore.ready Dict.picked
        rw [none_, List.take_zero]
      · exact nothing
    rw [nothing]
    change Selects s size now limit claimTtl maxBytes [] _
    refine ⟨⟨fun _ => 0, ?_, ?_⟩, (fun _ member => absurd member List.not_mem_nil), fun messageId _ => Or.inl ?_, rfl⟩
    · rw [nothing]
      exact fun _ member => absurd member List.not_mem_nil
    · rw [nothing]
      rfl
    · exact holding.unchanged messageId

/-- A bounded call is all or nothing exactly if it raises before it claims anything for good, or if no size that it
has to ask for is an error or negative. -/
theorem bounded_claim_atomic_iff {capacity : Nat} {past : List (Call P × Answer P)} (history : Run capacity past s)
    (size : P → Except PyError Int) (now limit claimTtl maxBytes : Int) (claimIds : Nat → Uuid) :
    Atomic s size now limit claimTtl maxBytes claimIds ↔ ¬Measures now limit claimTtl maxBytes ∨ Measured s size now limit := by
  have agrees := Agrees.run history
  by_cases measures : Measures now limit claimTtl maxBytes
  · obtain ⟨positive, some_, lasting, fits⟩ := measures
    obtain ⟨held, holding⟩ := agrees.retained.holding
    have marked := holding.marks agrees.sound now limit claimTtl claimIds
    unfold Atomic
    rw [holding.claim size now limit claimTtl maxBytes claimIds (by omega), OutboxStore.claim_fits (by omega) (by omega) fits]
    dsimp only [limited]
    constructor
    · intro atomic
      right
      by_contra unmeasured
      obtain ⟨error, after, looped, messageId, before, gone⟩ := marked.raises maxBytes lasting unmeasured
      rw [looped] at atomic
      exact gone ((atomic now messageId).mpr before)
    · rintro (early | measured)
      · exact absurd ⟨positive, some_, lasting, fits⟩ early
      · obtain ⟨claims, after, looped, selects⟩ := marked.selects maxBytes measured
        rw [looped]
        exact selects
  · exact iff_of_true (atomic_early agrees.retained measures size claimIds) (Or.inl measures)

end Calls

theorem sample_added : Run 9 (History.transcript answer (empty 9) [.add sampleEnvelope]) (History.after answer (empty 9) [.add sampleEnvelope]) :=
  History.ofInputs ⟨⟨fun _ _ _ _ _ _ other => (nomatch other), fun _ _ other => (nomatch other)⟩, trivial⟩

/-- The one message is as large as the bound. -/
theorem measured_atomic : Atomic (History.after answer (empty 9) [.add sampleEnvelope]) (fun _ => .ok 7) 0 5 10 7 (Uuid.series 'a') := by
  refine (bounded_claim_atomic_iff sample_added (fun _ => .ok 7) 0 5 10 7 (Uuid.series 'a')).mpr (Or.inr ?_)
  exact fun _ _ => ⟨7, rfl, by decide⟩

/-- The size of the one message cannot be told: the call raises, and the message is claimed for ten seconds. -/
theorem unmeasured_claimed : ∃ (past : List (Call Unit × Answer Unit)) (s : AsyncOutboxStore Unit), Run 9 past s ∧
    ¬Atomic s (fun _ => .error (.valueError "bounded claims require a payload_size callback")) 0 5 10 7 (Uuid.series 'a') := by
  refine ⟨_, _, sample_added, fun atomic => ?_⟩
  obtain ⟨item, found, may⟩ := (atomic 0 sampleEnvelope.messageId).mpr ⟨_, rfl, rfl⟩
  cases found
  cases may

end Pytitect.AsyncOutboxStore
