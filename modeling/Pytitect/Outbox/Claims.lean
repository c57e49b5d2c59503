import Pytitect.Outbox.Store

namespace Pytitect.OutboxStore
variable {P : Type} {issues claims : List (OutboxClaim P)} {drawn more : Uuid → Prop}
  {items after : Dict OpaqueId (StoredMessage P)} {s : OutboxStore P}

/-- The claims issued for one message, oldest first. -/
def issuedFor (messageId : OpaqueId) (issues : List (OutboxClaim P)) : List (OutboxClaim P) :=
  issues.filter (·.envelope.messageId = messageId)

theorem issuedFor_append (messageId : OpaqueId) :
    issuedFor messageId (issues ++ claims) = issuedFor messageId issues ++ issuedFor messageId claims :=
  List.filter_append ..

/-- Of claims on different messages, one is for each. -/
theorem issuedFor_of_separate (separate : (claims.map (·.envelope.messageId)).Nodup) {claim : OutboxClaim P}
    (member : claim ∈ claims) : issuedFor claim.envelope.messageId claims = [claim] := by
  induction claims with
  | nil => cases member
  | cons first rest ih =>
    obtain ⟨fresh, separateRest⟩ := List.nodup_cons.mp separate
    rcases List.mem_cons.mp member with rfl | later
    · have none : issuedFor claim.envelope.messageId rest = [] := by
        refine List.filter_eq_nil_iff.mpr fun other inRest => ?_
        rw [decide_eq_true_iff]
        exact fun same => fresh (List.mem_map.mpr ⟨other, inRest, same⟩)
      unfold issuedFor at none ⊢
      rw [List.filter_cons_of_pos (by simp), none]
    · have different : first.envelope.messageId ≠ claim.envelope.messageId :=
        fun same => fresh (List.mem_map.mpr ⟨claim, later, same.symm⟩)
      have rest := ih separateRest later
      unfold issuedFor at rest ⊢
      rw [List.filter_cons_of_neg (by simpa using different), rest]

/-- How the stored messages agree with the claims issued so far and with the ids
that `uuid4` has supplied. A message may hold an id that was never issued. -/
structure Sound (issues : List (OutboxClaim P)) (drawn : Uuid → Prop) (items : Dict OpaqueId (StoredMessage P)) : Prop where
  own : ∀ messageId item, items.get? messageId = some item → item.envelope.messageId = messageId
  supplied : ∀ claim ∈ issues, drawn claim.claimId
  distinct : (issues.map (·.claimId)).Nodup
  taken : ∀ messageId item claimId, items.get? messageId = some item → item.claimId = some claimId → drawn claimId
  apart : ∀ first second a b claimId, items.get? first = some a → items.get? second = some b →
    a.claimId = some claimId → b.claimId = some claimId → first = second
  latest : ∀ messageId item claim, items.get? messageId = some item → claim ∈ issues → item.claimId = some claim.claimId →
    (issuedFor messageId issues).getLast? = some claim ∧ item.claimedUntil = some claim.claimedUntil

/-- The messages hold claims that were never issued. -/
structure Holds (issues claims : List (OutboxClaim P)) (items : Dict OpaqueId (StoredMessage P)) : Prop where
  held : ∀ claim ∈ claims, ∃ item, items.get? claim.envelope.messageId = some item ∧ item.claimId = some claim.claimId ∧
    item.claimedUntil = some claim.claimedUntil
  unissued : ∀ claim ∈ claims, ∀ earlier ∈ issues, earlier.claimId ≠ claim.claimId
  separate : (claims.map (·.envelope.messageId)).Nodup

theorem Holds.sublist {fewer : List (OutboxClaim P)} (holds : Holds issues claims items) (sub : fewer.Sublist claims) :
    Holds issues fewer items where
  held := fun claim member => holds.held claim (sub.mem member)
  unissued := fun claim member => holds.unissued claim (sub.mem member)
  separate := holds.separate.sublist (sub.map _)

namespace Sound

theorem start : Sound (P := P) [] (fun _ => False) .empty where
  own := by simp
  supplied := by simp
  distinct := List.nodup_nil
  taken := by simp
  apart := by simp
  latest := by simp

/-- Messages may lose their claims and get new ones with ids that are fresh. -/
theorem change (sound : Sound issues drawn items) (grown : ∀ claimId, drawn claimId → more claimId)
    (changed : ∀ messageId item, after.get? messageId = some item → item.envelope.messageId = messageId ∧
      (item.claimId = none ∨
        (∃ old, items.get? messageId = some old ∧ old.claimId = item.claimId ∧ old.claimedUntil = item.claimedUntil) ∨
        ∃ claimId, item.claimId = some claimId ∧ ¬drawn claimId ∧ more claimId))
    (single : ∀ first second a b claimId, after.get? first = some a → after.get? second = some b →
      a.claimId = some claimId → b.claimId = some claimId → ¬drawn claimId → first = second) :
    Sound issues more after := by
  -- An id that was drawn before is held by the message that already held it.
  have old : ∀ messageId item claimId, after.get? messageId = some item → item.claimId = some claimId → drawn claimId →
      ∃ old, items.get? messageId = some old ∧ old.claimId = some claimId ∧ old.claimedUntil = item.claimedUntil := by
    intro messageId item claimId found held known
    rcases (changed messageId item found).2 with none | ⟨old, foundOld, sameId, sameUntil⟩ | ⟨other, isOther, fresh, -⟩
    · cases none.symm.trans held
    · exact ⟨old, foundOld, sameId.trans held, sameUntil⟩
    · cases isOther.symm.trans held
      exact absurd known fresh
  constructor
  · exact fun messageId item found => (changed messageId item found).1
  · exact fun claim member => grown _ (sound.supplied claim member)
  · exact sound.distinct
  · intro messageId item claimId found held
    rcases (changed messageId item found).2 with none | ⟨old, foundOld, sameId, -⟩ | ⟨other, isOther, -, isMore⟩
    · cases none.symm.trans held
    · exact grown _ (sound.taken messageId old claimId foundOld (sameId.trans held))
    · cases isOther.symm.trans held
      exact isMore
  · intro first second a b claimId foundA foundB heldA heldB
    by_cases known : drawn claimId
    · obtain ⟨oldA, wasA, holdsA, -⟩ := old first a claimId foundA heldA known
      obtain ⟨oldB, wasB, holdsB, -⟩ := old second b claimId foundB heldB known
      exact sound.apart first second oldA oldB claimId wasA wasB holdsA holdsB
    · exact single first second a b claimId foundA foundB heldA heldB known
  · intro messageId item claim found member held
    obtain ⟨before, was, holds, sameUntil⟩ := old messageId item _ found held (sound.supplied claim member)
    obtain ⟨last, until_⟩ := sound.latest messageId before claim was member holds
    exact ⟨last, sameUntil ▸ until_⟩

theorem drawMore (sound : Sound issues drawn items) (grown : ∀ claimId, drawn claimId → more claimId) :
    Sound issues more items :=
  { sound with
    supplied := fun claim member => grown _ (sound.supplied claim member)
    taken := fun messageId item claimId found held => grown _ (sound.taken messageId item claimId found held) }

/-- Messages lose their claims or keep them. -/
theorem keep (sound : Sound issues drawn items)
    (changed : ∀ messageId item, after.get? messageId = some item → item.envelope.messageId = messageId ∧
      (item.claimId = none ∨
        ∃ old, items.get? messageId = some old ∧ old.claimId = item.claimId ∧ old.claimedUntil = item.claimedUntil)) :
    Sound issues drawn after := by
  refine sound.change (fun _ => id) (fun messageId item found => ?_) fun first second a b claimId foundA _ heldA _ unknown => ?_
  · exact (changed messageId item found).imp_right fun kept => kept.imp_right Or.inl
  · rcases (changed first a foundA).2 with none | ⟨old, wasA, sameId, -⟩
    · cases none.symm.trans heldA
    · exact absurd (sound.taken first old claimId wasA (sameId.trans heldA)) unknown

/-- One message is put in place, without a claim or with the claim that it had. -/
theorem put (sound : Sound issues drawn items) {messageId : OpaqueId} {next : StoredMessage P}
    (own : next.envelope.messageId = messageId)
    (claimed : next.claimId = none ∨ ∃ old, items.get? messageId = some old ∧ old.claimId = next.claimId ∧
      old.claimedUntil = next.claimedUntil) : Sound issues drawn (items.set messageId next) := by
  refine sound.keep fun other value found => ?_
  rcases Dict.get?_set_cases found with ⟨rfl, rfl⟩ | ⟨-, before⟩
  · exact ⟨own, claimed⟩
  · exact ⟨sound.own other value before, Or.inr ⟨value, before, rfl, rfl⟩⟩

/-- Claims that the messages already hold are handed out. -/
theorem report (sound : Sound issues drawn items) (holds : Holds issues claims items) : Sound (issues ++ claims) drawn items := by
  obtain ⟨held, unissued, separate⟩ := holds
  constructor
  · exact sound.own
  · intro claim member
    rcases List.mem_append.mp member with old | new
    · exact sound.supplied claim old
    · obtain ⟨item, found, holds, -⟩ := held claim new
      exact sound.taken _ item _ found holds
  · rw [List.map_append, List.nodup_append]
    refine ⟨sound.distinct, ?_, fun first old second new same => ?_⟩
    · refine (List.Nodup.of_map _ separate).map_on fun a inA b inB same => ?_
      obtain ⟨itemA, foundA, holdsA, -⟩ := held a inA
      obtain ⟨itemB, foundB, holdsB, -⟩ := held b inB
      rw [← same] at holdsB
      exact List.inj_on_of_nodup_map separate inA inB (sound.apart _ _ itemA itemB _ foundA foundB holdsA holdsB)
    · obtain ⟨earlier, member, rfl⟩ := List.mem_map.mp old
      obtain ⟨claim, inClaims, rfl⟩ := List.mem_map.mp new
      exact unissued claim inClaims earlier member same
  · exact sound.taken
  · exact sound.apart
  · intro messageId item claim found member holds
    rcases List.mem_append.mp member with old | new
    · -- A claim that was issued before is still the last: the message holds no new one.
      have none : issuedFor messageId claims = [] := by
        refine List.filter_eq_nil_iff.mpr fun newer inClaims => ?_
        rw [decide_eq_true_iff]
        intro mine
        obtain ⟨other, foundOther, holdsOther, -⟩ := held newer inClaims
        rw [mine] at foundOther
        cases found.symm.trans foundOther
        rw [holds] at holdsOther
        exact unissued newer inClaims claim old (Option.some.inj holdsOther)
      obtain ⟨last, until_⟩ := sound.latest messageId item claim found old holds
      refine ⟨?_, until_⟩
      rw [issuedFor_append, none, List.append_nil]
      exact last
    · obtain ⟨other, foundOther, holdsOther, until_⟩ := held claim new
      have mine := sound.apart _ _ other item _ foundOther found holdsOther holds
      subst mine
      cases found.symm.trans foundOther
      refine ⟨?_, until_⟩
      rw [issuedFor_append, issuedFor_of_separate separate new]
      simp

end Sound

/-- The messages that a call at `now` claims, in the order in which it looks at them. -/
def ready (s : OutboxStore P) (now limit : Int) : List (OpaqueId × StoredMessage P) :=
  Dict.picked (eligible now) limit.toNat (s.items.items.insertionSort Before)

/-- The claims on these messages. -/
def handed (claimIds : Nat → Uuid) (claimedUntil : Int) (entries : List (OpaqueId × StoredMessage P)) : List (OutboxClaim P) :=
  entries.mapIdx fun i entry => ⟨claimIds i, entry.2.envelope, claimedUntil⟩

def marked (claimIds : Nat → Uuid) (claimedUntil : Int) (entries : List (OpaqueId × StoredMessage P)) :
    List (OpaqueId × StoredMessage P) :=
  entries.mapIdx fun i entry => (entry.1, { entry.2 with claimId := some (claimIds i), claimedUntil := some claimedUntil })

variable {now limit claimTtl claimedUntil : Int} {claimIds : Nat → Uuid} {entries : List (OpaqueId × StoredMessage P)}
  {result : Except PyError (List (OutboxClaim P))} {t : OutboxStore P}

/-- What `claim` can do: nothing, spoil the claim of one message, or claim all that
are ready. -/
inductive Claimed (s : OutboxStore P) (now limit claimTtl : Int) (claimIds : Nat → Uuid) :
    Except PyError (List (OutboxClaim P)) → OutboxStore P → Prop
  | refused (error : PyError) : ¬(0 < limit ∧ 0 < claimTtl) → Claimed s now limit claimTtl claimIds (.error error) s
  | spoiled (error : PyError) (messageId : OpaqueId) (item : StoredMessage P) : s.items.get? messageId = some item →
      eligible now (messageId, item) = true → ¬Fits now claimTtl → Claimed s now limit claimTtl claimIds (.error error)
        { s with items := s.items.set messageId { item with claimId := some (claimIds 0) } }
  | allReady : 0 < claimTtl → Fits now claimTtl ∨ s.ready now limit = [] →
      Claimed s now limit claimTtl claimIds (.ok (handed claimIds (now + claimTtl) (s.ready now limit)))
        { s with items := s.items.setAll (marked claimIds (now + claimTtl) (s.ready now limit)) }

theorem mem_ready {entry : OpaqueId × StoredMessage P} (member : entry ∈ s.ready now limit) :
    s.items.get? entry.1 = some entry.2 ∧ eligible now entry = true := by
  obtain ⟨inSorted, may⟩ := List.mem_filter.mp (List.mem_of_mem_take member)
  exact ⟨Dict.mem_items.mp (List.mem_insertionSort _ |>.mp inSorted), may⟩

theorem ready_distinct : ((s.ready now limit).map Prod.fst).Nodup := by
  have sorted : ((s.items.items.insertionSort Before).map Prod.fst).Nodup :=
    ((List.perm_insertionSort _ _).map Prod.fst).nodup_iff.mpr s.items.nodup
  exact sorted.sublist (((List.take_sublist _ _).trans List.filter_sublist).map Prod.fst)

instance : Std.Total (Before (P := P)) :=
  inferInstanceAs (Std.Total (EarlierThen (fun entry : OpaqueId × StoredMessage P => entry.2.envelope.availableAt)
    fun entry => entry.2.envelope.messageId.value))

instance : IsTrans (OpaqueId × StoredMessage P) Before :=
  inferInstanceAs (IsTrans _ (EarlierThen (fun entry : OpaqueId × StoredMessage P => entry.2.envelope.availableAt)
    fun entry => entry.2.envelope.messageId.value))

/-- The messages are claimed in order, -/
theorem ready_ordered : (s.ready now limit).Pairwise Before :=
  Dict.picked_pairwise (List.pairwise_insertionSort Before _)

/-- and nothing eligible is passed over. -/
theorem ready_first {messageId : OpaqueId} {item : StoredMessage P} (found : s.items.get? messageId = some item)
    (may : eligible now (messageId, item) = true) :
    (messageId, item) ∈ s.ready now limit ∨
      (s.ready now limit).length = limit.toNat ∧ ∀ chosen ∈ s.ready now limit, Before chosen (messageId, item) :=
  Dict.picked_first (List.pairwise_insertionSort Before _)
    ((List.mem_insertionSort _).mpr (Dict.mem_items.mpr found)) may

/-- A deadline within the calendar claims all that are ready. -/
theorem claim_fits (positive : ¬limit ≤ 0) (lasting : ¬claimTtl ≤ 0) (fits : Fits now claimTtl) :
    s.claim now limit claimTtl claimIds = (.ok (handed claimIds (now + claimTtl) (s.ready now limit)),
      { s with items := s.items.setAll (marked claimIds (now + claimTtl) (s.ready now limit)) }) := by
  have claims : ∀ count (entry : OpaqueId × StoredMessage P), claimMessage (.ok (now + claimTtl)) (claimIds count) entry.2 =
      (.ok ⟨claimIds count, entry.2.envelope, now + claimTtl⟩,
        { entry.2 with claimId := some (claimIds count), claimedUntil := some (now + claimTtl) }) := fun _ _ => rfl
  unfold claim
  rw [if_neg positive, if_neg lasting, datetimeAdd_fits fits, Dict.walk_ok claims]
  simp only [Nat.zero_add, Nat.sub_zero]
  rfl

/-- A deadline beyond the calendar spoils the first message that is ready. -/
theorem claim_overflows (positive : ¬limit ≤ 0) (lasting : ¬claimTtl ≤ 0) (beyond : ¬Fits now claimTtl) :
    s.claim now limit claimTtl claimIds =
      match (s.ready now limit).head? with
      | none => (.ok [], s)
      | some entry => (.error (.overflowError "date value out of range"),
          { s with items := s.items.set entry.1 { entry.2 with claimId := some (claimIds 0) } }) := by
  have raises : ∀ count (entry : OpaqueId × StoredMessage P),
      claimMessage (.error (.overflowError "date value out of range")) (claimIds count) entry.2 =
        (.error (.overflowError "date value out of range"), { entry.2 with claimId := some (claimIds count) }) :=
    fun _ _ => rfl
  unfold claim
  rw [if_neg positive, if_neg lasting, datetimeAdd_overflows beyond, Dict.walk_error raises]
  simp only [Nat.sub_zero]
  rw [show Dict.picked (eligible now) limit.toNat (s.items.items.insertionSort Before) = s.ready now limit from rfl]
  cases (s.ready now limit).head? with
  | none => rfl
  | some entry => rfl

theorem claim_claimed (s : OutboxStore P) (now limit claimTtl : Int) (claimIds : Nat → Uuid) :
    Claimed s now limit claimTtl claimIds (s.claim now limit claimTtl claimIds).1 (s.claim now limit claimTtl claimIds).2 := by
  by_cases positive : limit ≤ 0
  · rw [claim, if_pos positive]
    exact .refused _ (by omega)
  by_cases lasting : claimTtl ≤ 0
  · rw [claim, if_neg positive, if_pos lasting]
    exact .refused _ (by omega)
  by_cases fits : Fits now claimTtl
  · rw [claim_fits positive lasting fits]
    exact .allReady (by omega) (Or.inl fits)
  · rw [claim_overflows positive lasting fits]
    cases nothing : s.ready now limit with
    | nil =>
      have idle : Claimed s now limit claimTtl claimIds _ _ := .allReady (by omega) (Or.inr nothing)
      rw [nothing] at idle
      exact idle
    | cons entry rest =>
      obtain ⟨found, may⟩ := mem_ready (nothing ▸ List.mem_cons_self)
      exact .spoiled _ _ _ found may fits

theorem marked_keys : (marked claimIds claimedUntil entries).map Prod.fst = entries.map Prod.fst := by
  refine List.ext_getElem? fun i => ?_
  simp [marked, Function.comp_def]

theorem get?_marked (items : Dict OpaqueId (StoredMessage P)) (claimIds : Nat → Uuid) (claimedUntil : Int) {i : Nat}
    {entry : OpaqueId × StoredMessage P} (distinct : (entries.map Prod.fst).Nodup) (isEntry : entries[i]? = some entry) :
    (items.setAll (marked claimIds claimedUntil entries)).get? entry.1 =
      some { entry.2 with claimId := some (claimIds i), claimedUntil := some claimedUntil } := by
  obtain ⟨bound, same⟩ := List.getElem?_eq_some_iff.mp isEntry
  refine Dict.get?_setAll_of_mem (by rw [marked_keys]; exact distinct) (List.mem_mapIdx.mpr ⟨i, bound, ?_⟩)
  rw [same]

/-- Marking entries with claims leaves the others as they are. -/
theorem get?_marked_cases (items : Dict OpaqueId (StoredMessage P)) (claimIds : Nat → Uuid) (claimedUntil : Int)
    (distinct : (entries.map Prod.fst).Nodup) (messageId : OpaqueId) :
    (∃ (i : Nat) (entry : OpaqueId × StoredMessage P), entries[i]? = some entry ∧ entry.1 = messageId ∧
      (items.setAll (marked claimIds claimedUntil entries)).get? messageId =
        some { entry.2 with claimId := some (claimIds i), claimedUntil := some claimedUntil }) ∨
    messageId ∉ entries.map Prod.fst ∧ (items.setAll (marked claimIds claimedUntil entries)).get? messageId = items.get? messageId := by
  by_cases among : messageId ∈ entries.map Prod.fst
  · obtain ⟨entry, member, rfl⟩ := List.mem_map.mp among
    obtain ⟨i, isEntry⟩ := List.mem_iff_getElem?.mp member
    exact Or.inl ⟨i, entry, isEntry, rfl, get?_marked items claimIds claimedUntil distinct isEntry⟩
  · exact Or.inr ⟨among, Dict.get?_setAll_of_not_mem (by rw [marked_keys]; exact among)⟩

theorem Sound.ready_own (sound : Sound issues drawn s.items) {entry : OpaqueId × StoredMessage P}
    (member : entry ∈ s.ready now limit) : entry.2.envelope.messageId = entry.1 :=
  sound.own _ _ (mem_ready member).1

/-- Marking messages with fresh claims leaves them sound. -/
theorem Sound.mark (sound : Sound issues drawn s.items) (injective : Function.Injective claimIds)
    (unused : ∀ i, ¬drawn (claimIds i)) (claimedUntil : Int) :
    Sound issues (fun claimId => drawn claimId ∨ ∃ i, claimIds i = claimId)
      (s.items.setAll (marked claimIds claimedUntil (s.ready now limit))) := by
  refine sound.change (fun _ => Or.inl) (fun messageId item found => ?_) ?_
  · rcases get?_marked_cases s.items claimIds claimedUntil ready_distinct messageId with ⟨i, entry, isEntry, rfl, now⟩ | ⟨-, same⟩
    · cases now.symm.trans found
      exact ⟨sound.ready_own (List.mem_of_getElem? isEntry), Or.inr (Or.inr ⟨_, rfl, unused i, Or.inr ⟨i, rfl⟩⟩)⟩
    · rw [same] at found
      exact ⟨sound.own _ _ found, Or.inr (Or.inl ⟨item, found, rfl, rfl⟩)⟩
  · have marks : ∀ messageId item claimId,
        (s.items.setAll (marked claimIds claimedUntil (s.ready now limit))).get? messageId = some item →
        item.claimId = some claimId → ¬drawn claimId →
        ∃ (i : Nat) (entry : OpaqueId × StoredMessage P), (s.ready now limit)[i]? = some entry ∧ entry.1 = messageId ∧
          claimIds i = claimId := by
      intro messageId item claimId found holds fresh
      rcases get?_marked_cases s.items claimIds claimedUntil ready_distinct messageId with ⟨i, entry, isEntry, mine, now⟩ | ⟨-, same⟩
      · cases now.symm.trans found
        exact ⟨i, entry, isEntry, mine, Option.some.inj holds⟩
      · rw [same] at found
        exact absurd (sound.taken messageId item claimId found holds) fresh
    intro first second a b claimId foundA foundB holdsA holdsB fresh
    obtain ⟨i, entryA, isA, rfl, idA⟩ := marks first a claimId foundA holdsA fresh
    obtain ⟨j, entryB, isB, rfl, idB⟩ := marks second b claimId foundB holdsB fresh
    have same := injective (idA.trans idB.symm)
    subst same
    cases isA.symm.trans isB
    rfl

theorem handed_messages (sound : Sound issues drawn s.items) :
    (handed claimIds claimedUntil (s.ready now limit)).map (·.envelope.messageId) = (s.ready now limit).map Prod.fst := by
  refine List.ext_getElem? fun i => ?_
  cases isEntry : (s.ready now limit)[i]? with
  | none => simp [handed, isEntry]
  | some entry => simp [handed, isEntry, sound.ready_own (List.mem_of_getElem? isEntry)]

/-- The marked messages hold the claims on them. -/
theorem Sound.holds_handed (sound : Sound issues drawn s.items) (unused : ∀ i, ¬drawn (claimIds i)) :
    Holds issues (handed claimIds claimedUntil (s.ready now limit))
      (s.items.setAll (marked claimIds claimedUntil (s.ready now limit))) where
  held := by
    intro claim member
    obtain ⟨i, bound, rfl⟩ := List.mem_mapIdx.mp member
    have isEntry := List.getElem?_eq_getElem bound
    have found := get?_marked s.items claimIds claimedUntil ready_distinct isEntry
    rw [← sound.ready_own (List.mem_of_getElem? isEntry)] at found
    exact ⟨_, found, rfl, rfl⟩
  unissued := by
    intro claim member earlier old same
    obtain ⟨i, bound, rfl⟩ := List.mem_mapIdx.mp member
    dsimp only at same
    exact unused i (same ▸ sound.supplied earlier old)
  separate := by
    rw [handed_messages sound]
    exact ready_distinct

/-- After a claim call the messages are sound, and they hold what was handed out. -/
theorem Sound.claimed (sound : Sound issues drawn s.items) (injective : Function.Injective claimIds)
    (unused : ∀ i, ¬drawn (claimIds i)) (claimed : Claimed s now limit claimTtl claimIds result t) :
    Sound issues (fun claimId => drawn claimId ∨ ∃ i, claimIds i = claimId) t.items ∧
      ∀ claims, result = .ok claims → Holds issues claims t.items := by
  cases claimed with
  | refused => exact ⟨sound.drawMore fun _ => Or.inl, by simp⟩
  | spoiled error messageId item found may =>
    refine ⟨sound.change (fun _ => Or.inl) (fun other value foundOther => ?_) ?_, by simp⟩
    · rcases Dict.get?_set_cases foundOther with ⟨rfl, rfl⟩ | ⟨-, before⟩
      · exact ⟨sound.own _ item found, Or.inr (Or.inr ⟨_, rfl, unused 0, Or.inr ⟨0, rfl⟩⟩)⟩
      · exact ⟨sound.own _ _ before, Or.inr (Or.inl ⟨value, before, rfl, rfl⟩)⟩
    · -- Only the spoiled message holds an id that was not drawn before.
      have only : ∀ other value claimId, (s.items.set messageId { item with claimId := some (claimIds 0) }).get? other = some value →
          value.claimId = some claimId → ¬drawn claimId → other = messageId := by
        intro other value claimId foundOther holds fresh
        by_contra different
        rw [Dict.get?_set_of_ne different] at foundOther
        exact fresh (sound.taken other value claimId foundOther holds)
      intro first second a b claimId foundA foundB holdsA holdsB fresh
      exact (only first a claimId foundA holdsA fresh).trans (only second b claimId foundB holdsB fresh).symm
  | allReady positive fits =>
    refine ⟨sound.mark injective unused _, fun claims returned => ?_⟩
    cases returned
    exact sound.holds_handed unused

theorem eligible_iff {messageId : OpaqueId} {item : StoredMessage P} : eligible now (messageId, item) = true ↔
    item.envelope.availableAt ≤ now ∧ item.deliveredAt = none ∧ item.failureReason = none ∧
      ∀ claimedUntil, item.claimedUntil = some claimedUntil → claimedUntil ≤ now := by
  unfold eligible
  cases item.claimedUntil with
  | none => simp [and_assoc]
  | some claimedUntil => simp [and_assoc]

theorem claim_returned (returned : (s.claim now limit claimTtl claimIds).1 = .ok claims) :
    claims = handed claimIds (now + claimTtl) (s.ready now limit) := by
  have claimed := s.claim_claimed now limit claimTtl claimIds
  rw [returned] at claimed
  generalize (s.claim now limit claimTtl claimIds).2 = after at claimed
  cases claimed
  rfl

theorem claim_returns (positive : 0 < limit) (lasting : 0 < claimTtl) (fits : Fits now claimTtl) :
    (s.claim now limit claimTtl claimIds).1 = .ok (handed claimIds (now + claimTtl) (s.ready now limit)) := by
  have claimed := s.claim_claimed now limit claimTtl claimIds
  generalize (s.claim now limit claimTtl claimIds).1 = result at claimed ⊢
  generalize (s.claim now limit claimTtl claimIds).2 = after at claimed
  cases claimed with
  | refused _ invalid => exact absurd ⟨positive, lasting⟩ invalid
  | spoiled _ _ _ _ _ beyond => exact absurd fits beyond
  | allReady => rfl

section Operations
variable {claim : OutboxClaim P} {change : StoredMessage P → StoredMessage P} {success : Bool}

/-- What a settlement can do: nothing, or change the message of a claim that it
holds. -/
inductive Settled (s : OutboxStore P) (claim : OutboxClaim P) (change : StoredMessage P → StoredMessage P) :
    Bool → OutboxStore P → Prop
  | stale : Settled s claim change false s
  | done (item : StoredMessage P) : s.items.get? claim.envelope.messageId = some item → item.claimId = some claim.claimId →
      item.deliveredAt = none → item.failureReason = none → Settled s claim change true
        { s with items := s.items.set claim.envelope.messageId { change item with claimId := none, claimedUntil := none } }

theorem valid_some {item : StoredMessage P} (valid : s.valid claim = some item) :
    s.items.get? claim.envelope.messageId = some item ∧ item.claimId = some claim.claimId ∧ item.deliveredAt = none ∧
      item.failureReason = none := by
  unfold OutboxStore.valid at valid
  split at valid
  · cases valid
  rename_i stored found
  split at valid
  · cases valid
  rename_i current
  cases valid
  push Not at current
  exact ⟨found, current⟩

theorem settle_settled (s : OutboxStore P) (claim : OutboxClaim P) (change : StoredMessage P → StoredMessage P) :
    Settled s claim change (s.settle claim change).1 (s.settle claim change).2 := by
  unfold settle
  split
  · exact .stale
  · rename_i item valid
    obtain ⟨found, holds, undelivered, unfailed⟩ := valid_some valid
    exact .done item found holds undelivered unfailed

/-- `failed` raises or settles. -/
theorem failed_settled (s : OutboxStore P) (claim : OutboxClaim P) (reason : String) (at_ : Int) :
    (∃ error, s.failed claim reason at_ = (.error error, s)) ∨
    reason ≠ "" ∧ ∃ success after, s.failed claim reason at_ = (.ok success, after) ∧
      Settled s claim (markFailed reason at_) success after := by
  unfold failed
  split
  · exact Or.inl ⟨_, rfl⟩
  · rename_i named
    exact Or.inr ⟨named, _, _, rfl, s.settle_settled claim _⟩

theorem Sound.settled (sound : Sound issues drawn s.items)
    (settled : Settled s claim change success t) (own : ∀ item, (change item).envelope.messageId = item.envelope.messageId) :
    Sound issues drawn t.items := by
  cases settled with
  | stale => exact sound
  | done item found =>
    exact sound.put ((own item).trans (sound.own _ item found)) (Or.inl rfl)

theorem Settled.held (settled : Settled s claim change success t) (succeeded : success = true) :
    ∃ item, s.items.get? claim.envelope.messageId = some item ∧ item.claimId = some claim.claimId ∧
      item.deliveredAt = none ∧ item.failureReason = none := by
  cases settled with
  | stale => cases succeeded
  | done item found holds undelivered unfailed => exact ⟨item, found, holds, undelivered, unfailed⟩

/-- What `add` can do: nothing, or store a message with a new id. -/
inductive Added (s : OutboxStore P) (envelope : OutboxEnvelope P) : Except PyError OutboxAddResult → OutboxStore P → Prop
  | refused {outcome : Except PyError OutboxAddResult} : outcome ≠ .ok .added → Added s envelope outcome s
  | stored : s.items.get? envelope.messageId = none → Added s envelope (.ok .added)
      { s with items := s.items.set envelope.messageId ⟨envelope, none, none, none, none, none⟩ }

theorem add_added (s : OutboxStore P) (envelope : OutboxEnvelope P) : Added s envelope (s.add envelope).1 (s.add envelope).2 := by
  unfold add
  split
  · exact .refused (by simp)
  split
  · exact .refused (by simp)
  · rename_i absent _
    exact .stored (Dict.get?_eq_none.mpr absent)

theorem Sound.added {envelope : OutboxEnvelope P}
    {outcome : Except PyError OutboxAddResult} (sound : Sound issues drawn s.items) (added : Added s envelope outcome t) :
    Sound issues drawn t.items := by
  cases added with
  | refused => exact sound
  | stored absent =>
    exact sound.put rfl (Or.inl rfl)

/-- Whatever a claim call returns was eligible. -/
theorem Sound.claimed_eligible (sound : Sound issues drawn s.items)
    (returned : (s.claim now limit claimTtl claimIds).1 = .ok claims) (member : claim ∈ claims) :
    ∃ item, s.items.get? claim.envelope.messageId = some item ∧ eligible now (claim.envelope.messageId, item) = true := by
  have inReady : claim.envelope.messageId ∈ (s.ready now limit).map Prod.fst := by
    rw [← handed_messages sound, ← claim_returned returned]
    exact List.mem_map.mpr ⟨claim, member, rfl⟩
  obtain ⟨entry, isReady, same⟩ := List.mem_map.mp inReady
  obtain ⟨found, may⟩ := mem_ready isReady
  rw [← same]
  exact ⟨entry.2, found, may⟩

end Operations

end Pytitect.OutboxStore
