import Pytitect.Consumer.Process

namespace Pytitect

namespace AsyncConsumer
variable {δ D α : Type}

/-- The record is about the same consumer, source and message as the delivery. -/
def Own (delivery : Delivery δ) (record : RejectedDelivery) : Prop :=
  record.consumer = delivery.consumer.consumer ∧ record.source = delivery.message.source ∧
    record.messageId = delivery.message.id

/-- The quarantine holds a record of the delivery. -/
def Quarantined (delivery : Delivery δ) (s : Shared D) : Prop :=
  ∃ key record, s.quarantine.items.get? key = some record ∧ Own delivery record

/-- The record that is about to be presented to the quarantine. -/
def presented : Operation → Option RejectedDelivery
  | .add record => some record
  | _ => none

/-- A record is only presented when the quarantine holds no record of another
consumer, source or message under the same id. -/
def Unclashed (operation : Operation) (s : Shared D) : Prop :=
  ∀ record ∈ presented operation, ∀ held ∈ s.quarantine.items.get? record.quarantineId,
    held.consumer = record.consumer ∧ held.source = record.source ∧ held.messageId = record.messageId

instance (operation : Operation) (s : Shared D) : Decidable (Unclashed operation s) :=
  inferInstanceAs (Decidable (∀ record ∈ presented operation, ∀ held ∈ s.quarantine.items.get? record.quarantineId,
    held.consumer = record.consumer ∧ held.source = record.source ∧ held.messageId = record.messageId))

/-- The quarantine keeps every record it has. -/
def KeepsRecords (s t : Shared D) : Prop :=
  ∀ key record, s.quarantine.items.get? key = some record → t.quarantine.items.get? key = some record

variable (D) in
/-- What the calls promise each other about the quarantine. -/
def quarantineProtocol (deliveries : Nat → Delivery δ) : Protocol (Shared D) Operation where
  permits := Unclashed
  inv s := ∀ i ∈ s.terminated, Quarantined (deliveries i) s
  does _ := KeepsRecords
  sees _ := KeepsRecords
  outside := Maintained
  refl _ _ found := found
  trans first second key record found := second key record (first key record found)
  seen _ kept := kept
  seenOutside := by
    rintro i s t _ ⟨plan, rfl⟩ key record found
    exact found
  keptOutside := by
    rintro s t holds ⟨plan, rfl⟩
    exact holds

variable {deliveries : Nat → Delivery δ} {i : Nat} {s t : Shared D}

theorem Quarantined.mono {delivery : Delivery δ} (held : Quarantined delivery s) (kept : KeepsRecords s t) :
    Quarantined delivery t := by
  obtain ⟨key, record, found, own⟩ := held
  exact ⟨key, record, kept key record found, own⟩

/-- An operation that touches neither the quarantine nor the terminations. -/
theorem elsewhere_harmless {operation : Operation} {enabled : Outside D → Shared D → Bool}
    {f : Outside D → Shared D → Except Failure α × Shared D}
    (same : ∀ input s, (f input s).2.quarantine = s.quarantine ∧ (f input s).2.terminated = s.terminated) :
    (quarantineProtocol D deliveries).Harmless i (Coroutine.when operation enabled f) := by
  refine Protocol.Harmless.when fun input s holds => ?_
  obtain ⟨quarantine, terminated⟩ := same input s
  have kept : KeepsRecords s (f input s).2 := by
    intro key record found
    rw [quarantine]
    exact found
  refine ⟨fun j ended => ?_, kept⟩
  rw [terminated] at ended
  exact (holds j ended).mono kept

theorem withUnit_harmless {operation : Operation}
    {f : Outside D → UnitOfWorkFactory D → UnitOfWork D → Except PyError α × UnitOfWork D} :
    (quarantineProtocol D deliveries).Harmless i (withUnit i operation f) :=
  elsewhere_harmless fun _ _ => ⟨rfl, rfl⟩

theorem commit_harmless : (quarantineProtocol D deliveries).Harmless i (commit i) := by
  refine elsewhere_harmless fun input s => ?_
  unfold commitUnit
  split <;> exact ⟨rfl, rfl⟩

theorem enter_harmless : (quarantineProtocol D deliveries).Harmless i (enter i) := by
  refine elsewhere_harmless fun input s => ?_
  split
  · exact ⟨rfl, rfl⟩
  split <;> exact ⟨rfl, rfl⟩

variable {sha256 : List UInt8 → String} {c : AsyncConsumer δ} {message : Message δ}

theorem transact_harmless {token : Uuid} :
    (quarantineProtocol D deliveries).Harmless i (transact i c message token) := by
  have acknowledged : (quarantineProtocol D deliveries).Harmless i
      (do during true (commit i); pure Outcome.acknowledged) :=
    commit_harmless.mapError.bind fun _ => .done
  have waits : ∀ {β : Type} {operation : Operation} {answer : Outside D → Except Failure β},
      (quarantineProtocol D deliveries).Harmless i (during false (.act operation fun input s => (answer input, s))) :=
    (elsewhere_harmless fun _ _ => ⟨rfl, rfl⟩).mapError
  have refused : (quarantineProtocol D deliveries).Harmless i
      (do during false (rollback i); pure Outcome.retried) :=
    withUnit_harmless.mapError.bind fun _ => .done
  refine Protocol.Harmless.mapError (enter_harmless.mapError.bind fun _ => ?_)
  refine Protocol.Harmless.ensure (withUnit_harmless.mapError.bind fun answer => ?_)
    (elsewhere_harmless fun _ _ => ⟨rfl, rfl⟩).mapError
  cases answer with
  | duplicate completedAt => exact acknowledged
  | inProgress retryAfter => exact refused
  | capacityExceeded capacity => exact refused
  | accepted granted =>
    refine waits.bind fun decision => withUnit_harmless.mapError.bind fun _ => waits.bind fun authority => ?_
    cases authority with
    | false => exact .done
    | true =>
      refine withUnit_harmless.mapError.bind fun completed => ?_
      cases completed with
      | false => exact .done
      | true => exact acknowledged

theorem retryDelivery_harmless : (quarantineProtocol D deliveries).Harmless i (retryDelivery i) :=
  (elsewhere_harmless fun _ _ => ⟨rfl, rfl⟩).bind fun _ => .done

/-- A presented record is held afterwards, unless the store refused it with an error. -/
theorem add_safe {record : RejectedDelivery} (own : Own (deliveries i) record) :
    (quarantineProtocol D deliveries).Safe i
      (fun result t => ∀ added, result = .ok added → Quarantined (deliveries i) t) (add record) s := by
  have anywhere : (fun _ : Shared D => True) s := trivial
  refine Protocol.Safe.when (fun _ _ _ _ _ => trivial)
    (fun _ _ _ kept _ held added success => (held added success).mono kept) (fun input s holds _ _ unclashed => ?_) anywhere
  cases interrupt : input.interrupt with
  | some cause => exact ⟨holds, fun _ _ found => found, fun _ success => nomatch success⟩
  | none =>
    have kept : KeepsRecords s { s with quarantine := (s.quarantine.add record).2 } :=
      fun _ _ found => RejectedDeliveryStore.add_keeps found
    refine ⟨fun j ended => (holds j ended).mono kept, kept, fun added success => ?_⟩
    cases answer : (s.quarantine.add record).1 with
    | error error =>
      rw [answer] at success
      cases success
    | ok value =>
      obtain ⟨held, found, same | before⟩ := RejectedDeliveryStore.add_holds answer
      · exact ⟨_, held, found, same ▸ own⟩
      · obtain ⟨consumer, source, messageId⟩ := unclashed record rfl held before
        exact ⟨_, held, found, consumer.trans own.1, source.trans own.2.1, messageId.trans own.2.2⟩

theorem terminate_safe (quarantined : Quarantined (deliveries i) s) :
    (quarantineProtocol D deliveries).Safe i (fun _ _ => True) (terminate i) s := by
  refine Protocol.Safe.when (fun _ _ kept _ held => Quarantined.mono held kept) (fun _ _ _ _ _ _ => trivial)
    (fun input s holds held _ _ => ⟨fun j ended => ?_, fun _ _ found => found, trivial⟩) quarantined
  rcases List.mem_append.mp ended with before | now
  · exact holds j before
  · rw [List.mem_singleton.mp now]
    exact held

theorem quarantineDelivery_harmless {reason : String} {failedAt : Int} {queued : Bool}
    (mine : deliveries i = ⟨c, message, queued⟩) :
    (quarantineProtocol D deliveries).Harmless i (quarantineDelivery sha256 i c message reason failedAt) := by
  intro s holds
  unfold quarantineDelivery
  split
  · exact fun _ _ _ => trivial
  split
  · exact retryDelivery_harmless s holds
  · rename_i record made
    obtain ⟨-, messageId, source, consumer⟩ := rejectedDelivery_fields made
    have own : Own (deliveries i) record := by
      rw [mine]
      exact ⟨consumer, source, messageId⟩
    refine Protocol.Safe.andThen (add_safe own) holds fun result u holds after => ?_
    split
    · exact fun _ _ _ => trivial
    · exact retryDelivery_harmless u holds
    · have held := after u (fun _ _ found => found) holds _ rfl
      exact (terminate_safe held).bind holds (fun _ _ _ _ _ _ _ => trivial) fun _ _ _ _ => trivial

theorem processDelivery_harmless {queued : Bool} (mine : deliveries i = ⟨c, message, queued⟩) :
    (quarantineProtocol D deliveries).Harmless i (processDelivery sha256 i c message) := by
  refine Protocol.Harmless.bind (elsewhere_harmless fun _ _ => ⟨rfl, rfl⟩) fun token => ?_
  refine transact_harmless.andThen fun result => ?_
  split
  · exact Protocol.Harmless.bind (elsewhere_harmless fun _ _ => ⟨rfl, rfl⟩) fun _ => .done
  · exact retryDelivery_harmless
  · exact Protocol.Harmless.bind (elsewhere_harmless fun _ _ => ⟨rfl, rfl⟩) fun failedAt =>
      quarantineDelivery_harmless mine
  · exact retryDelivery_harmless
  · exact retryDelivery_harmless
  · exact .done

theorem run_harmless (sha256 : List UInt8 → String) :
    (quarantineProtocol D deliveries).Harmless i ((deliveries i).run sha256 i) := by
  have mine : deliveries i = ⟨(deliveries i).consumer, (deliveries i).message, (deliveries i).queued⟩ := rfl
  unfold Delivery.run
  split
  · refine Protocol.Harmless.bind (elsewhere_harmless fun _ _ => ⟨rfl, rfl⟩) fun late => ?_
    split
    · exact retryDelivery_harmless
    · exact (processDelivery_harmless mine).mapError
  · refine Protocol.Harmless.bind (elsewhere_harmless fun _ _ => ⟨rfl, rfl⟩) fun busy => ?_
    split
    · exact .done
    split
    · exact .done
    split
    · exact .done
    · exact processDelivery_harmless mine

/-- In every run in which no record is presented under an id that the
quarantine already uses for another consumer, source or message, a delivery is
terminated only when the quarantine holds its own record. -/
theorem quarantined_when_terminated (sha256 : List UInt8 → String) (capacity quarantineCapacity : Nat)
    (deliveries : Nat → Delivery δ) {s : EventLoop (Shared D) (Outside D) Operation Failure DeliveryDisposition}
    (run : Relation.ReflTransGen (EventLoop.Step Maintained Unclashed)
      (start D sha256 capacity quarantineCapacity deliveries) s) :
    ∀ i ∈ s.shared.terminated, Quarantined (deliveries i) s.shared := by
  have safe : Protocol.AllSafe (quarantineProtocol D deliveries) (fun _ _ _ => True)
      (start D sha256 capacity quarantineCapacity deliveries) :=
    ⟨by simp [start, Shared.start, quarantineProtocol], fun i => run_harmless sha256 _
      (by simp [start, Shared.start, quarantineProtocol])⟩
  exact (safe.run run).1

/-- A message that every handler of the example refuses for good. -/
def refusedMessage (source : String) (named : source ≠ "" ∧ trimmed source) : Message Unit :=
  ⟨"m", source, "made", "sub", 0, "schema", (), none, none, ⟨by decide, named⟩, by decide, by decide, by decide, by decide⟩

/-- A consumer whose codec encodes every message as the empty text. -/
def plainConsumer (consumer : String) (named : consumer ≠ "") : AsyncConsumer Unit :=
  ⟨consumer, "ns", 10, ⟨false, 9, 9, 9, by decide⟩, fun _ => .ok [], 9, ⟨named, by decide⟩⟩

/-- The digest of the empty payload, the only one these consumers produce. -/
def emptyDigest : List UInt8 → String := fun _ => "e3b0c44298fc1c149afbf4c8996fb92427ae41e4649b934ca495991b7852b855"

/-- All the turns of a delivery that the handler refuses for good. -/
def refusal (i : Nat) : List (Nat × Outside Nat) :=
  List.replicate 4 (i, .calm 7) ++ [(i, { Outside.calm 7 with handled := .error (.permanent "bad") })] ++
    List.replicate 4 (i, .calm 7)

theorem quarantined_single_refusal :
    ∃ (deliveries : Nat → Delivery Unit)
      (s : EventLoop (Shared Nat) (Outside Nat) Operation Failure DeliveryDisposition),
      Relation.ReflTransGen (EventLoop.Step Maintained Unclashed) (start Nat emptyDigest 4 4 deliveries) s ∧
      s.shared.terminated = [0] ∧ Quarantined (deliveries 0) s.shared := by
  let deliveries : Nat → Delivery Unit :=
    fun _ => ⟨plainConsumer "c" (by decide), refusedMessage "src" (by decide), true⟩
  obtain ⟨s, played⟩ : ∃ s, s = (start Nat emptyDigest 4 4 deliveries).play (refusal 0) := ⟨_, rfl⟩
  have reached : Relation.ReflTransGen (EventLoop.Step Maintained Unclashed) (start Nat emptyDigest 4 4 deliveries) s :=
    played ▸ EventLoop.run_of_plays (fun operation s => decide (Unclashed operation s))
      (fun _ _ passed => of_decide_eq_true passed) (by decide +kernel)
  have ended : s.shared.terminated = [0] := by
    rw [played]
    decide +kernel
  exact ⟨deliveries, s, reached, ended, quarantined_when_terminated emptyDigest 4 4 deliveries reached 0 (by simp [ended])⟩

/-- Consumer `a:b` refuses a message from source `c`, then consumer `a` one
with the same id from source `b:c`. Both deliveries are terminated, but the
quarantine only has a record of the first. -/
theorem terminated_without_record :
    ¬∀ (deliveries : Nat → Delivery Unit)
      (s : EventLoop (Shared Nat) (Outside Nat) Operation Failure DeliveryDisposition),
      Relation.ReflTransGen (EventLoop.Step Maintained fun _ _ => True) (start Nat emptyDigest 4 4 deliveries) s →
      ∀ i ∈ s.shared.terminated, Quarantined (deliveries i) s.shared := by
  intro always
  let deliveries : Nat → Delivery Unit := fun
    | 0 => ⟨plainConsumer "a:b" (by decide), refusedMessage "c" (by decide), true⟩
    | _ => ⟨plainConsumer "a" (by decide), refusedMessage "b:c" (by decide), true⟩
  obtain ⟨s, played⟩ : ∃ s, s = (start Nat emptyDigest 4 4 deliveries).play (refusal 0 ++ refusal 1) := ⟨_, rfl⟩
  have reached : Relation.ReflTransGen (EventLoop.Step Maintained fun _ _ => True) (start Nat emptyDigest 4 4 deliveries) s :=
    played ▸ EventLoop.run_of_plays (fun _ _ => true) (fun _ _ _ => trivial) (by decide +kernel)
  have ended : s.shared.terminated = [0, 1] := by
    rw [played]
    decide +kernel
  have records : s.shared.quarantine.items.items.map (fun item => item.2.consumer) = ["a:b"] := by
    rw [played]
    decide +kernel
  obtain ⟨key, record, found, consumer, -, -⟩ := always deliveries s reached 1 (by simp [ended])
  have member : record.consumer ∈ s.shared.quarantine.items.items.map (fun item => item.2.consumer) :=
    List.mem_map.mpr ⟨(key, record), Dict.mem_items.mpr found, rfl⟩
  rw [records, consumer] at member
  exact absurd member (by decide)

end AsyncConsumer

end Pytitect
