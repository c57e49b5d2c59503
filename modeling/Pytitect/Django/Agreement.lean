import Pytitect.Django.Idempotency
import Pytitect.Idempotency.Fencing

namespace Pytitect

section
variable {T : Type} (encodeValue : T → JsonValue)

/-- The row that stands for an entry. -/
def Entry.row (entry : Entry T) : ReservationRow :=
  match entry.state with
  | .reserved => ⟨entry.fingerprint.value, entry.token.value, .reserved, entry.expiresAt, .null, none⟩
  | .completed value =>
    ⟨entry.fingerprint.value, entry.token.value, .completed, entry.expiresAt, encodeValue value, none⟩
  | .uncertain reason =>
    ⟨entry.fingerprint.value, entry.token.value, .uncertain, entry.expiresAt, .null, some reason⟩

/-- Of what is not over at `now`, the row is that of the entry. -/
def Corresponds (now : Int) (row : Option ReservationRow) (entry : Option (Entry T)) : Prop :=
  row.filter (fun row => !row.dead now) = (entry.filter fun entry => !entry.expired now).map (Entry.row encodeValue)

/-- The table and the entries correspond, dead rows and expired entries apart. -/
def Simulates (now : Int) (s : IdempotencyStore T) (store : DjangoIdempotencyStore) : Prop :=
  ∀ identity, Corresponds encodeValue now (store.rows.get? identity) (s.entries.get? identity)

end

/-- The answers are equal. Where both stores refuse a reservation for its
arguments, both raise `ValueError`, in words of their own. -/
def Agree {T : Type} (memory django : IdempotencyStore.Answer T) : Prop :=
  memory = django ∨
    ∃ text other, memory = .decision (.error (.valueError text)) ∧ django = .decision (.error (.valueError other))

section
variable {T : Type} {encodeValue : T → JsonValue} {decodeValue : JsonValue → T} {entry : Entry T} {now : Int}

theorem Entry.row_dead : (entry.row encodeValue).dead now = entry.expired now := by
  cases state : entry.state <;> simp [Entry.row, ReservationRow.dead, Entry.expired, EntryState.isUncertain, state]

theorem Entry.row_held {token : ReservationToken} :
    (entry.row encodeValue).held token now = true ↔
      entry.token = token ∧ entry.state = .reserved ∧ now < entry.expiresAt := by
  have sameToken : entry.token.value = token.value ↔ entry.token = token := by
    cases entry.token
    cases token
    simp
  cases state : entry.state <;> simp [Entry.row, ReservationRow.held, state, sameToken]

theorem Entry.row_decide (inverse : ∀ value, decodeValue (encodeValue value) = value) (fingerprint : RequestFingerprint) :
    (entry.row encodeValue).decide decodeValue fingerprint = entry.decide fingerprint := by
  have sameFingerprint : entry.fingerprint.value = fingerprint.value ↔ entry.fingerprint = fingerprint := by
    cases entry.fingerprint
    cases fingerprint
    simp
  cases state : entry.state <;> simp [Entry.row, ReservationRow.decide, Entry.decide, state, sameFingerprint, inverse]

theorem ReservationRow.held_alive {row : ReservationRow} {token : ReservationToken} (held : row.held token now = true) :
    row.dead now = false := by
  simp only [ReservationRow.held, Bool.and_eq_true, decide_eq_true_eq] at held
  simp only [ReservationRow.dead, Bool.and_eq_false_iff, decide_eq_false_iff_not]
  exact Or.inl (by omega)

theorem Corresponds.row (now : Int) (entry : Entry T) :
    Corresponds encodeValue now (some (entry.row encodeValue)) (some entry) := by
  simp only [Corresponds, Option.filter, Entry.row_dead]
  split <;> rfl

theorem Corresponds.none (now : Int) : Corresponds encodeValue now none none := rfl

/-- What is over at an instant is over at every later one. -/
theorem Corresponds.later {later : Int} {row : Option ReservationRow} {entry : Option (Entry T)}
    (corresponds : Corresponds encodeValue now row entry) (after : now ≤ later) :
    Corresponds encodeValue later row entry := by
  have deadLater : ∀ row : ReservationRow, row.dead now = true → row.dead later = true := by
    intro row dead
    simp only [ReservationRow.dead, Bool.and_eq_true, decide_eq_true_eq] at dead ⊢
    exact ⟨by omega, dead.2⟩
  have rows : row.filter (fun row => !row.dead later) =
      (row.filter fun row => !row.dead now).filter (fun row => !row.dead later) := by
    cases row with
    | none => rfl
    | some row =>
      cases dead : row.dead now with
      | false => simp [Option.filter, dead]
      | true => simp [Option.filter, dead, deadLater row dead]
  have entries : (entry.filter fun entry => !entry.expired later) =
      (entry.filter fun entry => !entry.expired now).filter (fun entry => !entry.expired later) := by
    cases entry with
    | none => rfl
    | some entry =>
      cases dead : entry.expired now with
      | false => simp [Option.filter, dead]
      | true =>
        have gone := deadLater (entry.row encodeValue) (by rw [Entry.row_dead, dead])
        rw [Entry.row_dead] at gone
        simp [Option.filter, dead, gone]
  unfold Corresponds at corresponds ⊢
  rw [rows, entries, corresponds]
  cases entry.filter fun entry => !entry.expired now with
  | none => rfl
  | some entry =>
    simp only [Option.map_some, Option.filter, Entry.row_dead]
    split <;> rfl

/-- An entry that is not over has its row in the table. -/
theorem Corresponds.present {row : Option ReservationRow} (corresponds : Corresponds encodeValue now row (some entry))
    (alive : entry.expired now = false) : row = some (entry.row encodeValue) := by
  simp only [Corresponds, Option.filter, alive, Bool.not_false, if_true, Option.map_some] at corresponds
  exact (Option.filter_eq_some_iff.mp corresponds).1

/-- A row that is not over is the row of an entry. -/
theorem Corresponds.stored {row : ReservationRow} {entry : Option (Entry T)}
    (corresponds : Corresponds encodeValue now (some row) entry) (alive : row.dead now = false) :
    ∃ stored, entry = some stored ∧ row = stored.row encodeValue := by
  simp only [Corresponds, Option.filter, alive, Bool.not_false, if_true] at corresponds
  obtain ⟨stored, kept, same⟩ := Option.map_eq_some_iff.mp corresponds.symm
  exact ⟨stored, (Option.filter_eq_some_iff.mp kept).1, same.symm⟩

end

namespace Simulates
open IdempotencyStore
variable {T : Type} {encodeValue : T → JsonValue} {decodeValue : JsonValue → T} {now : Int} {s : IdempotencyStore T}
  {store : DjangoIdempotencyStore} {issues : List (ReservationToken × IdempotencyIdentity)} {token : ReservationToken}

theorem start (encodeValue : T → JsonValue) (now : Int) (capacity : Nat) :
    Simulates encodeValue now (.empty capacity) .empty :=
  fun _ => .none now

theorem later {later : Int} (simulates : Simulates encodeValue now s store) (after : now ≤ later) :
    Simulates encodeValue later s store :=
  fun identity => (simulates identity).later after

/-- The entry a token is authoritative for has its row in the table. -/
theorem executing (simulates : Simulates encodeValue now s store) {identity : IdempotencyIdentity} {entry : Entry T}
    (held : s.executing token now = some (identity, entry)) :
    store.rows.get? identity = some (entry.row encodeValue) ∧ (entry.row encodeValue).held token now = true := by
  obtain ⟨-, found, owned, reserved, alive⟩ := executing_some.mp held
  have holds : (entry.row encodeValue).held token now = true := Entry.row_held.mpr ⟨owned, reserved, alive⟩
  have corresponds := simulates identity
  rw [found] at corresponds
  have running : entry.expired now = false := by
    rw [← Entry.row_dead]
    exact ReservationRow.held_alive holds
  exact ⟨corresponds.present running, holds⟩

/-- A row that a token holds stands for the entry the token is authoritative for. -/
theorem holder (simulates : Simulates encodeValue now s store) (fenced : Fenced issues s) {identity : IdempotencyIdentity}
    {row : ReservationRow} (found : store.rows.get? identity = some row) (holds : row.held token now = true) :
    ∃ entry, s.executing token now = some (identity, entry) := by
  have corresponds := simulates identity
  rw [found] at corresponds
  obtain ⟨entry, atIdentity, same⟩ := corresponds.stored (ReservationRow.held_alive holds)
  subst same
  obtain ⟨owned, reserved, alive⟩ := Entry.row_held.mp holds
  have index := (fenced.indexed token identity).mpr ⟨entry, atIdentity, owned⟩
  exact ⟨entry, executing_some.mpr ⟨index, atIdentity, owned, reserved, alive⟩⟩

/-- The table finds a row for the token exactly when the token is authoritative. -/
theorem count_held (simulates : Simulates encodeValue now s store) (fenced : Fenced issues s) :
    store.rows.count (ReservationRow.held token now) = 0 ↔ s.executing token now = none := by
  rw [Dict.count_eq_zero]
  constructor
  · intro unheld
    by_contra authority
    obtain ⟨⟨identity, entry⟩, held⟩ := Option.ne_none_iff_exists'.mp authority
    obtain ⟨found, holds⟩ := simulates.executing held
    rw [unheld identity _ found] at holds
    cases holds
  · intro stale identity row found
    by_contra holds
    obtain ⟨entry, held⟩ := simulates.holder fenced found (by simpa using holds : row.held token now = true)
    cases stale.symm.trans held

/-- No other row is held by the token. -/
theorem other_unheld (simulates : Simulates encodeValue now s store) (fenced : Fenced issues s)
    {identity other : IdempotencyIdentity} {entry : Entry T} (held : s.executing token now = some (identity, entry))
    (different : other ≠ identity) {row : ReservationRow} (found : store.rows.get? other = some row) :
    row.held token now = false := by
  by_contra holds
  obtain ⟨stored, again⟩ := simulates.holder fenced found (by simpa using holds : row.held token now = true)
  exact different (congrArg Prod.fst (Option.some.inj (again.symm.trans held)))

/-- Both stores settle a reservation alike when the deadline is an instant of
the calendar. -/
theorem settle {R : Type} (simulates : Simulates encodeValue now s store) (fenced : Fenced issues s)
    (state : Entry T → EntryState T) {change : ReservationRow → ReservationRow} {expiresAt : Int} {result : Int → R} {stale : R}
    (alike : ∀ entry : Entry T, entry.state = .reserved →
      change (entry.row encodeValue) = Entry.row encodeValue { entry with expiresAt, state := state entry }) :
    (s.updateExecuting token now stale fun entry =>
        Entry.expireAt { entry with state := state entry } (.ok expiresAt) result).1 =
      (store.updateHeld token now change (result expiresAt) stale).1 ∧
    Simulates encodeValue now
      (s.updateExecuting token now stale fun entry =>
        Entry.expireAt { entry with state := state entry } (.ok expiresAt) result).2
      (store.updateHeld token now change (result expiresAt) stale).2 := by
  unfold updateExecuting DjangoIdempotencyStore.updateHeld
  cases held : s.executing token now with
  | none =>
    have unheld := (simulates.count_held fenced).mpr held
    refine ⟨by simp [unheld], fun identity => ?_⟩
    have corresponds := simulates identity
    rw [Dict.get?_mapValues]
    cases found : store.rows.get? identity with
    | none => simpa [found] using corresponds
    | some row => simpa [found, Dict.count_eq_zero.mp unheld identity row found] using corresponds
  | some pair =>
    obtain ⟨identity, entry⟩ := pair
    have present : store.rows.count (ReservationRow.held token now) ≠ 0 := by
      rw [Ne, simulates.count_held fenced, held]
      simp
    obtain ⟨found, holds⟩ := simulates.executing held
    refine ⟨by simp [present, Entry.expireAt], fun other => ?_⟩
    simp only [Entry.expireAt, Dict.get?_mapValues, Dict.get?_set]
    by_cases mine : other = identity
    · subst mine
      have reserved := (executing_some.mp held).2.2.2.1
      rw [if_pos rfl, found, Option.map_some, if_pos holds, alike entry reserved]
      exact .row now _
    · rw [if_neg mine]
      have corresponds := simulates other
      cases atOther : store.rows.get? other with
      | none => simpa [atOther] using corresponds
      | some row => simpa [atOther, simulates.other_unheld fenced held mine atOther] using corresponds

theorem abandon (simulates : Simulates encodeValue now s store) (fenced : Fenced issues s) (token : ReservationToken) :
    (s.abandon token now).1 = (store.abandon token now).1 ∧
      Simulates encodeValue now (s.abandon token now).2 (store.abandon token now).2 := by
  unfold IdempotencyStore.abandon DjangoIdempotencyStore.abandon
  cases held : s.executing token now with
  | none =>
    have unheld := (simulates.count_held fenced).mpr held
    refine ⟨by simp [unheld], fun identity => ?_⟩
    have corresponds := simulates identity
    rw [Dict.get?_filter]
    cases found : store.rows.get? identity with
    | none => simpa [found] using corresponds
    | some row => simpa [found, Option.filter, Dict.count_eq_zero.mp unheld identity row found] using corresponds
  | some pair =>
    obtain ⟨identity, entry⟩ := pair
    have present : store.rows.count (ReservationRow.held token now) ≠ 0 := by
      rw [Ne, simulates.count_held fenced, held]
      simp
    obtain ⟨found, holds⟩ := simulates.executing held
    refine ⟨by simp [present], fun other => ?_⟩
    simp only [Dict.get?_filter, Dict.get?_pop]
    by_cases mine : other = identity
    · subst mine
      simp [found, Option.filter, holds, Corresponds]
    · rw [if_neg mine]
      have corresponds := simulates other
      cases atOther : store.rows.get? other with
      | none => simpa [atOther] using corresponds
      | some row => simpa [atOther, Option.filter, simulates.other_unheld fenced held mine atOther] using corresponds

theorem purgeExpired_dropDead (simulates : Simulates encodeValue now s store) (identity : IdempotencyIdentity) :
    Simulates encodeValue now (s.purgeExpired now) (store.dropDead identity now) := by
  intro other
  have corresponds := simulates other
  rw [purgeExpired_get?, DjangoIdempotencyStore.dropDead_get?]
  unfold Corresponds at corresponds ⊢
  split
  · simpa using corresponds
  · simpa using corresponds

theorem purgeExpired (simulates : Simulates encodeValue now s store) :
    Simulates encodeValue now (s.purgeExpired now) store := by
  intro other
  have corresponds := simulates other
  rw [purgeExpired_get?]
  unfold Corresponds at corresponds ⊢
  simpa using corresponds

theorem set (simulates : Simulates encodeValue now s store) (identity : IdempotencyIdentity) (entry : Entry T)
    (tokens : Dict ReservationToken IdempotencyIdentity) :
    Simulates encodeValue now { s with entries := s.entries.set identity entry, tokens }
      ⟨store.rows.set identity (entry.row encodeValue)⟩ := by
  intro other
  simp only [Dict.get?_set]
  split
  · exact .row now entry
  · exact simulates other

/-- Where the entries have room for one more, both stores decide alike. -/
theorem reserve (simulates : Simulates encodeValue now s store)
    (inverse : ∀ value, decodeValue (encodeValue value) = value) {scope : IdempotencyScope} {key : String}
    (fingerprint : RequestFingerprint) (leaseTtl : Int) (token : ReservationToken)
    (room : (s.purgeExpired now).entries.size < s.capacity) :
    Agree (.decision (s.reserve scope key fingerprint now leaseTtl token).1)
        (.decision (store.reserve decodeValue scope key fingerprint now leaseTtl token).1) ∧
      Simulates encodeValue now (s.reserve scope key fingerprint now leaseTtl token).2
        (store.reserve decodeValue scope key fingerprint now leaseTtl token).2 := by
  unfold IdempotencyStore.reserve DjangoIdempotencyStore.reserve
  by_cases keyless : key = ""
  · simp only [keyless, true_or, if_true]
    exact ⟨.inr ⟨_, _, rfl, rfl⟩, simulates⟩
  by_cases spent : leaseTtl ≤ 0
  · simp only [keyless, spent, or_true, if_true, if_false]
    exact ⟨.inr ⟨_, _, rfl, rfl⟩, simulates⟩
  have cleared := simulates.purgeExpired_dropDead ⟨scope, key⟩
  have looked : (store.dropDead ⟨scope, key⟩ now).lockedFirst ⟨scope, key⟩ =
      ((s.purgeExpired now).entries.get? ⟨scope, key⟩).map (Entry.row encodeValue) := by
    rw [DjangoIdempotencyStore.lockedFirst, DjangoIdempotencyStore.dropDead_get?, if_pos rfl, purgeExpired_get?]
    exact simulates ⟨scope, key⟩
  simp only [keyless, spent, or_self, if_false, looked]
  cases found : (s.purgeExpired now).entries.get? ⟨scope, key⟩ with
  | some current =>
    simp only [Option.map_some, DjangoIdempotencyStore.atomic, Entry.row_decide inverse]
    refine ⟨.inl rfl, fun other => ?_⟩
    rw [Dict.get?_moveToEnd]
    exact cleared other
  | none =>
    have free : ¬(s.purgeExpired now).capacity ≤ (s.purgeExpired now).entries.size := Nat.not_le.mpr room
    simp only [Option.map_none, free, if_false]
    cases datetimeAdd now leaseTtl with
    | error error => exact ⟨.inl rfl, simulates.purgeExpired⟩
    | ok expiresAt =>
      have vacant : (store.dropDead ⟨scope, key⟩ now).lockedFirst ⟨scope, key⟩ = none := by rw [looked, found]; rfl
      simp only [DjangoIdempotencyStore.createOrLocked, vacant, DjangoIdempotencyStore.atomic]
      exact ⟨.inl rfl, cleared.set ⟨scope, key⟩ ⟨token, fingerprint, expiresAt, .reserved⟩ _⟩

/-- Both stores renew alike, but for a deadline beyond the calendar that is
asked for without authority. -/
theorem renew (simulates : Simulates encodeValue now s store) (fenced : Fenced issues s) (token : ReservationToken) {leaseTtl : Int}
    (fits : 0 < leaseTtl → Fits now leaseTtl ∨ s.executing token now ≠ none) :
    (s.renew token now leaseTtl).1 = (store.renew token now leaseTtl).1 ∧
      Simulates encodeValue now (s.renew token now leaseTtl).2 (store.renew token now leaseTtl).2 := by
  unfold IdempotencyStore.renew DjangoIdempotencyStore.renew
  by_cases spent : leaseTtl ≤ 0
  · simp only [spent, if_true]
    exact ⟨trivial, simulates⟩
  simp only [spent, if_false]
  cases deadline : datetimeAdd now leaseTtl with
  | ok expiresAt =>
    refine simulates.settle fenced Entry.state fun entry reserved => ?_
    simp [Entry.row, reserved]
  | error error =>
    have beyond : ¬Fits now leaseTtl := by
      intro inside
      cases (datetimeAdd_fits inside).symm.trans deadline
    obtain ⟨⟨identity, entry⟩, held⟩ :=
      Option.ne_none_iff_exists'.mp ((fits (by omega)).resolve_left beyond)
    have found := (executing_some.mp held).2.1
    simp only [updateExecuting, held, Entry.expireAt]
    refine ⟨trivial, fun other => ?_⟩
    -- the entry is written back as it was
    have same : (s.entries.set identity entry).get? other = s.entries.get? other := by
      rw [Dict.get?_set]
      split
      · rename_i mine
        rw [mine, found]
      · rfl
    rw [same]
    exact simulates other

theorem complete (simulates : Simulates encodeValue now s store) (fenced : Fenced issues s) (token : ReservationToken)
    (valid : ∀ value, validateJson (encodeValue value) .default = .ok ()) (value : T) {retentionTtl : Int}
    (fits : 0 < retentionTtl → Fits now retentionTtl) :
    (s.complete token value now retentionTtl).1 = (store.complete encodeValue token value now retentionTtl).1 ∧
      Simulates encodeValue now (s.complete token value now retentionTtl).2
        (store.complete encodeValue token value now retentionTtl).2 := by
  unfold IdempotencyStore.complete DjangoIdempotencyStore.complete
  by_cases spent : retentionTtl ≤ 0
  · simp only [spent, if_true]
    exact ⟨trivial, simulates⟩
  simp only [spent, if_false, valid, datetimeAdd_fits (fits (by omega))]
  refine simulates.settle fenced (fun _ => .completed value) fun entry reserved => ?_
  simp [Entry.row, reserved]

theorem markUncertain (simulates : Simulates encodeValue now s store) (fenced : Fenced issues s) (token : ReservationToken) {reason : String}
    {retentionTtl : Int} (fits : reason ≠ "" → 0 < retentionTtl → Fits now retentionTtl) :
    (s.markUncertain token reason now retentionTtl).1 = (store.markUncertain token reason now retentionTtl).1 ∧
      Simulates encodeValue now (s.markUncertain token reason now retentionTtl).2
        (store.markUncertain token reason now retentionTtl).2 := by
  unfold IdempotencyStore.markUncertain DjangoIdempotencyStore.markUncertain
  by_cases unstated : reason = ""
  · simp only [unstated, if_true]
    exact ⟨trivial, simulates⟩
  by_cases spent : retentionTtl ≤ 0
  · simp only [unstated, spent, if_true, if_false]
    exact ⟨trivial, simulates⟩
  simp only [unstated, spent, if_false, datetimeAdd_fits (fits unstated (by omega))]
  refine simulates.settle fenced (fun _ => .uncertain reason) fun entry reserved => ?_
  simp [Entry.row, reserved]

end Simulates

/-- A call that either store can answer. A `reserve` also carries the token
that `uuid4` would supply to it. -/
inductive ReservationCall (T : Type)
  | reserve (scope : IdempotencyScope) (key : String) (fingerprint : RequestFingerprint) (now : Int)
      (leaseTtl : Int) (token : ReservationToken)
  | renew (token : ReservationToken) (now : Int) (leaseTtl : Int)
  | complete (token : ReservationToken) (value : T) (now : Int) (retentionTtl : Int)
  | markUncertain (token : ReservationToken) (reason : String) (now : Int) (retentionTtl : Int)
  | abandon (token : ReservationToken) (now : Int)

namespace ReservationCall
variable {T : Type}

def now : ReservationCall T → Int
  | .reserve _ _ _ now _ _ => now
  | .renew _ now _ => now
  | .complete _ _ now _ => now
  | .markUncertain _ _ now _ => now
  | .abandon _ now => now

def toCall : ReservationCall T → IdempotencyStore.Call T
  | .reserve scope key fingerprint now leaseTtl token => .reserve scope key fingerprint now leaseTtl token
  | .renew token now leaseTtl => .renew token now leaseTtl
  | .complete token value now retentionTtl => .complete token value now retentionTtl
  | .markUncertain token reason now retentionTtl => .markUncertain token reason now retentionTtl
  | .abandon token now => .abandon token now

/-- A reservation finds the in-memory store below its capacity. -/
def HasRoom (s : IdempotencyStore T) : ReservationCall T → Prop
  | .reserve _ _ _ now _ _ => (s.purgeExpired now).entries.size < s.capacity
  | _ => True

/-- The deadline a call computes is an instant of the calendar. A renewal may
overflow as long as its token is authoritative. -/
def DeadlineFits (s : IdempotencyStore T) : ReservationCall T → Prop
  | .renew token now leaseTtl => 0 < leaseTtl → Fits now leaseTtl ∨ s.executing token now ≠ none
  | .complete _ _ now retentionTtl => 0 < retentionTtl → Fits now retentionTtl
  | .markUncertain _ reason now retentionTtl => reason ≠ "" → 0 < retentionTtl → Fits now retentionTtl
  | _ => True

end ReservationCall

namespace DjangoIdempotencyStore
variable {T : Type} (encodeValue : T → JsonValue) (decodeValue : JsonValue → T)

def answer (store : DjangoIdempotencyStore) : ReservationCall T → IdempotencyStore.Answer T × DjangoIdempotencyStore
  | .reserve scope key fingerprint now leaseTtl token =>
    (store.reserve decodeValue scope key fingerprint now leaseTtl token).map .decision id
  | .renew token now leaseTtl => (store.renew token now leaseTtl).map .renewal id
  | .complete token value now retentionTtl =>
    (store.complete encodeValue token value now retentionTtl).map .completion id
  | .markUncertain token reason now retentionTtl =>
    (store.markUncertain token reason now retentionTtl).map .marking id
  | .abandon token now => (store.abandon token now).map .abandonment id

end DjangoIdempotencyStore

section
open IdempotencyStore
variable {T : Type} (encodeValue : T → JsonValue) (decodeValue : JsonValue → T)

/-- Both stores answer the same call. -/
def answerBoth (stores : IdempotencyStore T × DjangoIdempotencyStore) (call : ReservationCall T) :
    (Answer T × Answer T) × (IdempotencyStore T × DjangoIdempotencyStore) :=
  (((stores.1.answer call.toCall).1, (stores.2.answer encodeValue decodeValue call).1),
    ((stores.1.answer call.toCall).2, (stores.2.answer encodeValue decodeValue call).2))

/-- What the in-memory store has answered. -/
def memoryPast (past : List (ReservationCall T × (Answer T × Answer T))) : List (Call T × Answer T) :=
  past.map fun event => (event.1.toCall, event.2.1)

/-- The calls come in the order of their times, `uuid4` supplies no token twice
and the capacity of the in-memory store is never reached. -/
structure Admissible (stores : IdempotencyStore T × DjangoIdempotencyStore)
    (past : List (ReservationCall T × (Answer T × Answer T))) (call : ReservationCall T) : Prop where
  ordered : ∀ event ∈ past, event.1.now ≤ call.now
  fresh : FreshToken (memoryPast past) call.toCall
  room : call.HasRoom stores.1

variable {encodeValue decodeValue} {s : IdempotencyStore T} {store : DjangoIdempotencyStore}
  {issues : List (ReservationToken × IdempotencyIdentity)}

/-- One call: the answers agree and the stores still correspond. -/
theorem Simulates.answer {call : ReservationCall T} (simulates : Simulates encodeValue call.now s store)
    (fenced : Fenced issues s) (inverse : ∀ value, decodeValue (encodeValue value) = value)
    (valid : ∀ value, validateJson (encodeValue value) .default = .ok ()) (room : call.HasRoom s)
    (fits : call.DeadlineFits s) :
    Agree (s.answer call.toCall).1 (store.answer encodeValue decodeValue call).1 ∧
      Simulates encodeValue call.now (s.answer call.toCall).2 (store.answer encodeValue decodeValue call).2 := by
  cases call with
  | reserve scope key fingerprint now leaseTtl token =>
    exact simulates.reserve inverse fingerprint leaseTtl token room
  | renew token now leaseTtl =>
    have settled := simulates.renew fenced token fits
    exact ⟨.inl (congrArg Answer.renewal settled.1), settled.2⟩
  | complete token value now retentionTtl =>
    have settled := simulates.complete fenced token valid value fits
    exact ⟨.inl (congrArg Answer.completion settled.1), settled.2⟩
  | markUncertain token reason now retentionTtl =>
    have settled := simulates.markUncertain fenced token fits
    exact ⟨.inl (congrArg Answer.marking settled.1), settled.2⟩
  | abandon token now =>
    have settled := simulates.abandon fenced token
    exact ⟨.inl (congrArg Answer.abandonment settled.1), settled.2⟩

/-- In every run whose deadlines stay within the calendar the two stores give
the same answer to every call. -/
theorem idempotency_stores_agree (inverse : ∀ value, decodeValue (encodeValue value) = value)
    (valid : ∀ value, validateJson (encodeValue value) .default = .ok ()) {capacity : Nat}
    {past : List (ReservationCall T × (Answer T × Answer T))} {stores : IdempotencyStore T × DjangoIdempotencyStore}
    (run : History (answerBoth encodeValue decodeValue)
      (fun stores past call => Admissible stores past call ∧ call.DeadlineFits stores.1) (.empty capacity, .empty) past stores) :
    ∀ event ∈ past, Agree event.2.1 event.2.2 := by
  refine (run.invariant (P := fun past stores => Fenced (issued (memoryPast past)) stores.1 ∧
    (∀ now, (∀ event ∈ past, event.1.now ≤ now) → Simulates encodeValue now stores.1 stores.2) ∧
    ∀ event ∈ past, Agree event.2.1 event.2.2) ?_ ?_).2.2
  · exact ⟨.start capacity, fun now _ => .start encodeValue now capacity, by simp⟩
  · rintro past ⟨s, store⟩ call ⟨fenced, simulates, agreed⟩ ⟨admissible, fits⟩
    have step := (simulates call.now admissible.ordered).answer fenced inverse valid admissible.room fits
    refine ⟨?_, fun now latest => ?_, fun event member => ?_⟩
    · rw [memoryPast, List.map_append]
      exact fenced.answer admissible.fresh
    · exact step.2.later (latest _ (List.mem_append_right _ (List.mem_singleton_self _)))
    · rcases List.mem_append.mp member with earlier | last
      · exact agreed event earlier
      · cases List.mem_singleton.mp last
        exact step.1

/-- Integers as JSON, to run both stores on. -/
def intOf : JsonValue → Int
  | .int value => value
  | _ => 0

def exampleScope : IdempotencyScope := ⟨"shop", "customer", "order", Sample.scope_named⟩

def exampleToken (i : Nat) : ReservationToken := ⟨(Uuid.series 'a' i).hex, (Uuid.series 'a' i).nonempty⟩

/-- A reservation is completed and its key presented again. -/
def completedCalls (retentionTtl : Int) : List (ReservationCall Int) :=
  [.reserve exampleScope "key" ⟨"f"⟩ 0 10 (exampleToken 0), .complete (exampleToken 0) 7 1 retentionTtl,
    .reserve exampleScope "key" ⟨"f"⟩ 2 10 (exampleToken 1)]

instance (past : List (Call T × Answer T)) (call : Call T) : Decidable (FreshToken past call) :=
  match call with
  | .reserve _ _ _ _ _ token => inferInstanceAs (Decidable (token ∉ (issued past).map Prod.fst))
  | .renew .. | .complete .. | .markUncertain .. | .abandon .. | .purge _ => isTrue trivial

instance (s : IdempotencyStore T) (call : ReservationCall T) : Decidable (call.HasRoom s) :=
  match call with
  | .reserve _ _ _ now _ _ => inferInstanceAs (Decidable ((s.purgeExpired now).entries.size < s.capacity))
  | .renew .. | .complete .. | .markUncertain .. | .abandon .. => isTrue trivial

theorem idempotency_stores_agree_on_replay :
    ∃ past stores, History (answerBoth JsonValue.int intOf)
        (fun stores past call => Admissible stores past call ∧ call.DeadlineFits stores.1) (.empty 2, .empty) past stores ∧
      (∀ event ∈ past, Agree event.2.1 event.2.2) ∧ past.map (·.2.1) =
        [.decision (.ok (.execute (exampleToken 0))), .completion (.ok (.completed 11)), .decision (.ok (.replay 7))] := by
  have permitted : History.Permitted (answerBoth JsonValue.int intOf)
      (fun stores past call => Admissible stores past call ∧ call.DeadlineFits stores.1) [] (.empty 2, .empty)
      (completedCalls 10) := by
    refine ⟨⟨⟨by decide, by decide, by decide⟩, trivial⟩, ⟨⟨by decide, by decide, by decide⟩, fun _ => ?_⟩,
      ⟨⟨by decide +kernel, by decide +kernel, by decide +kernel⟩, trivial⟩, trivial⟩
    exact ⟨by decide, by decide⟩
  have run := History.ofInputs permitted
  exact ⟨_, _, run, idempotency_stores_agree (fun _ => rfl) (fun _ => rfl) run, by decide +kernel⟩

/-- A completion whose deadline overflows raises in both stores, and the key is
presented again: the in-memory store has kept the value, the table has not. -/
theorem idempotency_stores_disagree_after_overflow :
    (∀ value, intOf (.int value) = value) ∧ (∀ value, validateJson (.int value) .default = .ok ()) ∧
    ∃ past stores, History (answerBoth JsonValue.int intOf) Admissible (.empty 2, .empty) past stores ∧
      past.map Prod.snd =
        [(.decision (.ok (.execute (exampleToken 0))), .decision (.ok (.execute (exampleToken 0)))),
          (.completion (.error (.overflowError "date value out of range")),
            .completion (.error (.overflowError "date value out of range"))),
          (.decision (.ok (.replay 7)), .decision (.ok (.inProgress 10)))] ∧
      ¬∀ event ∈ past, Agree event.2.1 event.2.2 := by
  have permitted : History.Permitted (answerBoth JsonValue.int intOf) Admissible [] (.empty 2, .empty)
      (completedCalls maxDatetime) := by
    refine ⟨⟨by decide, by decide, by decide⟩, ⟨by decide, by decide, by decide⟩,
      ⟨by decide +kernel, by decide +kernel, by decide +kernel⟩, trivial⟩
  refine ⟨fun _ => rfl, fun _ => rfl, _, _, History.ofInputs permitted, by decide +kernel, fun agreed => ?_⟩
  have last := agreed _ (List.mem_of_getLast? rfl)
  rcases last with same | ⟨text, other, refused, -⟩
  · exact absurd same (by decide +kernel)
  · cases refused

end

end Pytitect
