import Pytitect.Consumer.Transaction

namespace Pytitect

namespace AsyncConsumer
variable {δ D : Type} {who : Nat → InboxIdentity} {identity : InboxIdentity}

/-- At the start no call has begun, and all of them are safe. -/
theorem start_safe (sha256 : List UInt8 → String) (capacity quarantineCapacity : Nat) (deliveries : Nat → Delivery δ) :
    Protocol.AllSafe (protocol D fun i => (deliveries i).identity) Settled
      (start D sha256 capacity quarantineCapacity deliveries) := by
  have sound : Sound (fun i => (deliveries i).identity) (Shared.start D capacity quarantineCapacity) :=
    ⟨rfl, by simp [Shared.start, UnitOfWorkFactory.empty, InboxStore.empty], by simp [Shared.start]⟩
  refine ⟨sound, fun i => delivery_safe rfl sound ⟨by simp [start, Shared.start], ⟨capacity, rfl⟩, ?_⟩⟩
  simp [start, Shared.start, Uncommitted]

/-- How many decisions the calls for a message have committed. -/
def committed (who : Nat → InboxIdentity) (identity : InboxIdentity) (s : Shared D) : Nat :=
  ((s.commits.filter (who ·.call = identity)).flatMap Commit.decisions).length

/-- A turn of a call or a clean-up of the inbox. -/
abbrev Step (s t : EventLoop (Shared D) (Outside D) Operation Failure DeliveryDisposition) : Prop :=
  EventLoop.Step Maintained (fun _ _ => True) s t

/-- A step that does not remove the inbox entry of the message. -/
def RetainingStep (identity : InboxIdentity) (s t : EventLoop (Shared D) (Outside D) Operation Failure DeliveryDisposition) :
    Prop :=
  Step s t ∧ ((s.shared.factory.inbox.entries.get? identity).isSome →
    (t.shared.factory.inbox.entries.get? identity).isSome)

/-- What one step adds to the decisions of a message: nothing if it has an
entry, and at most one otherwise, with which the entry comes. -/
theorem committed_step {s t : EventLoop (Shared D) (Outside D) Operation Failure DeliveryDisposition}
    (step : (∃ i, Does who i s.shared t.shared) ∨ Maintained s.shared t.shared) (identity : InboxIdentity) :
    committed who identity t.shared = committed who identity s.shared ∨
      committed who identity t.shared = committed who identity s.shared + 1 ∧
        s.shared.factory.inbox.entries.get? identity = none ∧
        (t.shared.factory.inbox.entries.get? identity).isSome := by
  rcases step with ⟨i, done⟩ | ⟨plan, maintained⟩
  · rcases done.commits with ⟨-, same⟩ | ⟨-, -, record, call, grown, decisions⟩
    · exact Or.inl (by simp [committed, same])
    · by_cases mine : who i = identity
      · rcases decisions with nothing | ⟨⟨decision, one⟩, absent, present⟩
        · exact Or.inl (by simp [committed, grown, call, mine, nothing])
        · exact Or.inr ⟨by simp [committed, grown, call, mine, one], mine ▸ absent, mine ▸ present⟩
      · exact Or.inl (by simp [committed, grown, call, mine])
  · exact Or.inl (by simp [committed, maintained])

theorem committed_while_retained {post : Nat → Except Failure DeliveryDisposition → Shared D → Prop}
    {s t : EventLoop (Shared D) (Outside D) Operation Failure DeliveryDisposition}
    (safe : Protocol.AllSafe (protocol D who) post s)
    (run : Relation.ReflTransGen (RetainingStep identity) s t)
    (present : (s.shared.factory.inbox.entries.get? identity).isSome) :
    committed who identity t.shared = committed who identity s.shared := by
  have carried : Protocol.AllSafe (protocol D who) post t ∧ (t.shared.factory.inbox.entries.get? identity).isSome ∧
      committed who identity t.shared = committed who identity s.shared := by
    induction run with
    | refl => exact ⟨safe, present, rfl⟩
    | tail _ step ih =>
      obtain ⟨safeBefore, presentBefore, same⟩ := ih
      obtain ⟨safeAfter, allowed⟩ := safeBefore.step step.1
      refine ⟨safeAfter, step.2 presentBefore, ?_⟩
      rcases committed_step allowed identity with unchanged | ⟨-, absent, -⟩
      · exact unchanged.trans same
      · simp [absent] at presentBefore
  exact carried.2.2

/-- Whatever the calls, the handlers, the clocks and the interruptions do: all
decisions and inbox entries are on record, an acknowledged delivery has a
committed decision, a call that answers with a retry has committed nothing, and
while the inbox entry of a message is not removed at most one decision is
committed for it, none if the entry is already there. -/
theorem message_at_most_once (sha256 : List UInt8 → String) (capacity quarantineCapacity : Nat)
    (deliveries : Nat → Delivery δ) {s : EventLoop (Shared D) (Outside D) Operation Failure DeliveryDisposition}
    (run : Relation.ReflTransGen Step (start D sha256 capacity quarantineCapacity deliveries) s) :
    s.shared.factory.decisions = s.shared.commits.flatMap Commit.decisions ∧
    (∀ identity, (s.shared.factory.inbox.entries.get? identity).isSome →
      ∃ record ∈ s.shared.commits, identity ∈ record.completed) ∧
    (∀ i ∈ s.shared.acked, 0 < committed (fun i => (deliveries i).identity) (deliveries i).identity s.shared) ∧
    (∀ i, (s.task i).result? = some (.ok .retry) → ∀ record ∈ s.shared.commits, record.call ≠ i) ∧
    ∀ identity t, Relation.ReflTransGen (RetainingStep identity) s t →
      committed (fun i => (deliveries i).identity) identity t.shared ≤
        committed (fun i => (deliveries i).identity) identity s.shared + 1 ∧
      ((s.shared.factory.inbox.entries.get? identity).isSome →
        committed (fun i => (deliveries i).identity) identity t.shared =
          committed (fun i => (deliveries i).identity) identity s.shared) := by
  have safe := (start_safe (D := D) sha256 capacity quarantineCapacity deliveries).run run
  have sound : Sound (fun i => (deliveries i).identity) s.shared := safe.1
  refine ⟨sound.accounted, fun identity present => ?_, fun i acked => ?_, fun i finished => safe.ended finished,
    fun identity t retaining => ⟨?_, committed_while_retained safe retaining⟩⟩
  · obtain ⟨entry, found⟩ := Option.isSome_iff_exists.mp present
    obtain ⟨-, record, member, -, -, completed⟩ := sound.entry identity entry found
    exact ⟨record, member, by simp [completed]⟩
  · obtain ⟨record, member, mine, ⟨decision, one⟩, -⟩ := sound.acked i acked
    refine List.length_pos_of_mem (a := decision) (List.mem_flatMap.mpr ⟨record, ?_, by simp [one]⟩)
    exact List.mem_filter.mpr ⟨member, by simpa using mine⟩
  · clear run sound
    -- The first decision comes with the entry; from there on none is added.
    induction retaining using Relation.ReflTransGen.head_induction_on with
    | refl => exact Nat.le_succ _
    | head step rest ih =>
      obtain ⟨safeAfter, allowed⟩ := safe.step step.1
      rcases committed_step allowed identity with unchanged | ⟨more, -, present⟩
      · rw [← unchanged]
        exact ih safeAfter
      · have rest := committed_while_retained safeAfter rest present
        omega

/-- A message is first retried, then handled, then delivered once more: the
last delivery is found to be a duplicate and commits no decision. -/
theorem redelivery_after_retry :
    ∃ (sha256 : List UInt8 → String) (deliveries : Nat → Delivery Unit)
      (s t : EventLoop (Shared Nat) (Outside Nat) Operation Failure DeliveryDisposition),
      Relation.ReflTransGen Step (start Nat sha256 4 4 deliveries) s ∧
      Relation.ReflTransGen (RetainingStep (deliveries 0).identity) s t ∧
      (s.task 2).result? = some (.ok .retry) ∧ s.shared.acked = [0] ∧ t.shared.factory.decisions = [7] ∧
      t.shared.commits.map Commit.call = [0, 1] ∧
      (∀ record ∈ s.shared.commits, record.call ≠ 2) ∧
      0 < committed (fun i => (deliveries i).identity) (deliveries 0).identity s.shared ∧
      committed (fun i => (deliveries i).identity) (deliveries 0).identity t.shared =
        committed (fun i => (deliveries i).identity) (deliveries 0).identity s.shared := by
  let message : Message Unit := ⟨"m", "src", "made", "sub", 0, "schema", (), none, none,
    by decide, by decide, by decide, by decide, by decide⟩
  let consumer : AsyncConsumer Unit :=
    ⟨"c", "ns", 10, ⟨false, 9, 9, 9, by decide⟩, fun _ => .ok [], 9, by decide⟩
  let deliveries : Nat → Delivery Unit := fun i => ⟨consumer, message, i = 2⟩
  let calm : Outside Nat := Outside.calm 7
  let schedule : List (Nat × Outside Nat) :=
    [(2, calm), (2, calm), (2, calm), (2, calm), (2, { calm with handled := .error (.retryable "later") }), (2, calm), (2, calm)] ++
      List.replicate 11 (0, calm) ++ List.replicate 4 (1, calm)
  let first := start Nat (fun _ => "") 4 4 deliveries
  obtain ⟨s, played⟩ : ∃ s, s = first.play schedule := ⟨_, rfl⟩
  obtain ⟨t, next⟩ : ∃ t, t = (s.turn 1 calm).getD s := ⟨_, rfl⟩
  have reached : Relation.ReflTransGen Step first s :=
    played ▸ EventLoop.run_of_plays (fun _ _ => true) (fun _ _ _ => trivial) (by decide +kernel)
  have taken : s.turn 1 calm = some t := by
    rw [next]
    exact EventLoop.turn_getD (by rw [played]; decide +kernel)
  have present : (s.shared.factory.inbox.entries.get? (deliveries 0).identity).isSome := by
    rw [played]
    decide +kernel
  have retained : Relation.ReflTransGen (RetainingStep (deliveries 0).identity) s t :=
    .single ⟨.turn 1 calm taken fun _ _ => trivial, fun _ => by rw [next, played]; decide +kernel⟩
  have finished : (s.task 2).result? = some (.ok .retry) := by
    rw [played]
    decide +kernel
  have settled : s.shared.acked = [0] := by
    rw [played]
    decide +kernel
  have decided : t.shared.factory.decisions = [7] ∧ t.shared.commits.map Commit.call = [0, 1] := by
    rw [next, played]
    decide +kernel
  obtain ⟨-, -, acked, retried, once⟩ := message_at_most_once (fun _ => "") 4 4 deliveries reached
  exact ⟨fun _ => "", deliveries, s, t, reached, retained, finished, settled, decided.1, decided.2, retried 2 finished,
    acked 0 (by simp [settled]), (once _ _ retained).2 present⟩

end AsyncConsumer

end Pytitect
