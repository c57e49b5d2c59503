import Pytitect.Batches.Store
import Pytitect.Idempotency.Store
import Pytitect.Inbox.Store
import Pytitect.Maintenance
import Pytitect.Outbox.Lifecycle
import Pytitect.Receipts.Lifecycle
import Pytitect.Security.Replay

namespace Pytitect
variable {T R P M : Type}

theorem IdempotencyStore.purgeOrder_sorts : List.Sorts (IdempotencyStore.purgeOrder (T := T)) := List.sorts_of_cmp _

theorem InboxStore.purgeOrder_sorts : List.Sorts InboxStore.purgeOrder := List.sorts_of_cmp _

theorem MutationBatchStore.purgeOrder_sorts : List.Sorts (MutationBatchStore.purgeOrder (R := R)) := List.sorts_of_cmp _

theorem ReplayStore.purgeOrder_sorts : List.Sorts ReplayStore.purgeOrder := List.sorts_of_cmp _

theorem ReceiptStore.purgeOrder_sorts [MetadataMapping M] :
    List.Sorts fun a b : OpaqueId × Receipt T M => ReceiptStore.purgeOrder a.2 b.2 := List.sorts_of_cmp _

theorem OutboxStore.settledOrder_sorts (settledAt : StoredMessage P → Option Int) :
    List.Sorts fun a b : OpaqueId × StoredMessage P => OutboxStore.settledOrder settledAt a.2 b.2 := List.sorts_of_cmp _

theorem IdempotencyStore.purge_law (s : IdempotencyStore T) (plan : PurgeIdempotencyPlan) :
    RetentionLaw id (fun s : IdempotencyStore T => s.entries.items) IdempotencyStore.purgeOrder (fun item => item.2.purgeable plan) plan.batchSize
      (fun s => s.purge { plan with dryRun := true }) (fun s => s.purge { plan with dryRun := false }) s :=
  .of_rest purgeOrder_sorts (fun _ => True) trivial (fun s _ => s.entries.nodup) rfl fun _ _ => ⟨trivial, Dict.items_popAll _ _, rfl⟩

theorem InboxStore.purge_law (s : InboxStore) (plan : PurgeInboxPlan) :
    RetentionLaw id (fun s : InboxStore => s.entries.items) InboxStore.purgeOrder (fun item => item.2.eligibleAt ≤ plan.cutoff) plan.batchSize
      (fun s => s.purge { plan with dryRun := true }) (fun s => s.purge { plan with dryRun := false }) s :=
  .of_rest purgeOrder_sorts (fun _ => True) trivial (fun s _ => s.entries.nodup) rfl fun _ _ => ⟨trivial, Dict.items_popAll _ _, rfl⟩

theorem MutationBatchStore.purge_law (s : MutationBatchStore R) (plan : PurgeIdempotencyPlan) :
    RetentionLaw id (fun s : MutationBatchStore R => s.entries.items) MutationBatchStore.purgeOrder (fun item => item.2.purgeable plan) plan.batchSize
      (fun s => s.purge { plan with dryRun := true }) (fun s => s.purge { plan with dryRun := false }) s :=
  .of_rest purgeOrder_sorts (fun _ => True) trivial (fun s _ => s.entries.nodup) rfl fun _ _ => ⟨trivial, Dict.items_popAll _ _, rfl⟩

theorem ReplayStore.purge_law (s : ReplayStore) (plan : PurgeReplayPlan) :
    RetentionLaw id (fun s : ReplayStore => s.entries.items) ReplayStore.purgeOrder (fun item => item.2 ≤ plan.cutoff) plan.batchSize
      (fun s => s.purge { plan with dryRun := true }) (fun s => s.purge { plan with dryRun := false }) s :=
  .of_rest purgeOrder_sorts (fun _ => True) trivial (fun s _ => s.entries.nodup) rfl fun _ _ => ⟨trivial, Dict.items_popAll _ _, rfl⟩

section
variable [MetadataMapping M]

theorem ReceiptStore.Keyed.purge {s : ReceiptStore T M} (keyed : Keyed s) (plan : PurgeReceiptsPlan) : Keyed (s.purge plan).2 :=
  fun receiptId receipt found => keyed receiptId receipt (purge_shrinks s plan found)

/-- The entries that a plan may remove. -/
def ReceiptStore.purgeable (plan : PurgeReceiptsPlan) (item : OpaqueId × Receipt T M) : Bool :=
  plan.terminal item.2.state && item.2.updatedAt ≤ plan.cutoff

theorem ReceiptStore.purgeSelected_page (s : ReceiptStore T M) (plan : PurgeReceiptsPlan) :
    s.purgeSelected plan =
      (Retention.page (fun a b => purgeOrder a.2 b.2) (purgeable plan) plan.batchSize s.receipts.items).map Prod.snd := by
  rw [purgeSelected, List.filter_map, List.firstBy_map]
  rfl

theorem ReceiptStore.purge_law {s : ReceiptStore T M} (keyed : Keyed s) (plan : PurgeReceiptsPlan) :
    RetentionLaw id (fun s : ReceiptStore T M => s.receipts.items) (fun a b => purgeOrder a.2 b.2) (purgeable plan) plan.batchSize
      (fun s => s.purge { plan with dryRun := true }) (fun s => s.purge { plan with dryRun := false }) s := by
  refine .of_rest purgeOrder_sorts Keyed keyed (fun s _ => s.receipts.nodup) ?_ fun s keyed => ⟨keyed.purge _, ?_, ?_⟩
  · have selected := s.purgeSelected_page { plan with dryRun := true }
    simp only [ReceiptStore.purge, selected, List.length_map, if_true]
    rfl
  · have selected := s.purgeSelected_page { plan with dryRun := false }
    have ids := Retention.map_page (fun item => item.2.receiptId) Prod.fst (fun a b => purgeOrder a.2 b.2)
      (purgeable { plan with dryRun := false }) plan.batchSize fun item member => keyed item.1 item.2 (Dict.mem_items.mp member)
    simp only [ReceiptStore.purge, selected, List.map_map]
    exact (congrArg (fun ids => (s.receipts.popAll ids).items) ids).trans (Dict.items_popAll _ _)
  · have selected := s.purgeSelected_page { plan with dryRun := false }
    simp only [ReceiptStore.purge, selected, List.length_map]
    rfl

end

namespace OutboxStore
variable {s : OutboxStore P} {messageId : OpaqueId} {item : StoredMessage P}

/-- Every message is filed under its id, and one that has failed has a reason and the time of it. -/
def Filed (s : OutboxStore P) : Prop :=
  ∀ messageId item, s.items.get? messageId = some item → item.envelope.messageId = messageId ∧
    ∀ reason, item.failureReason = some reason → reason ≠ "" ∧ item.failedAt.isSome

theorem Filed.set (filed : Filed s) {capacity : Nat} (own : item.envelope.messageId = messageId)
    (reasoned : ∀ reason, item.failureReason = some reason → reason ≠ "" ∧ item.failedAt.isSome) :
    Filed ⟨capacity, s.items.set messageId item⟩ := by
  intro other stored found
  rcases Dict.get?_set_cases found with ⟨rfl, rfl⟩ | ⟨-, earlier⟩
  · exact ⟨own, reasoned⟩
  · exact filed other stored earlier

theorem Filed.popped (filed : Filed s) (selected : List (StoredMessage P)) : Filed (s.popped selected) := by
  intro other stored found
  rw [OutboxStore.popped, Dict.get?_popAll] at found
  split at found
  · cases found
  · exact filed other stored found

theorem Filed.settle (filed : Filed s) (claim : OutboxClaim P) (change : StoredMessage P → StoredMessage P)
    (own : ∀ item, (change item).envelope.messageId = item.envelope.messageId)
    (reasoned : ∀ item, item.failureReason = none → ∀ reason, (change item).failureReason = some reason →
      reason ≠ "" ∧ (change item).failedAt.isSome) : Filed (s.settle claim change).2 := by
  unfold OutboxStore.settle
  cases valid : s.valid claim with
  | none => exact filed
  | some item =>
    obtain ⟨found, -, -, unfailed⟩ := valid_some valid
    exact filed.set ((own item).trans (filed _ _ found).1) (reasoned item unfailed)

theorem Filed.claim (filed : Filed s) (now limit claimTtl : Int) (claimIds : Nat → Uuid) :
    Filed (s.claim now limit claimTtl claimIds).2 := by
  have claimed := s.claim_claimed now limit claimTtl claimIds
  generalize (s.claim now limit claimTtl claimIds).1 = result at claimed
  generalize (s.claim now limit claimTtl claimIds).2 = t at claimed ⊢
  cases claimed with
  | refused => exact filed
  | spoiled error spoiledId item found may => exact filed.set (filed _ _ found).1 (filed _ _ found).2
  | allReady =>
    intro messageId stored isStored
    rcases get?_marked_cases s.items claimIds (now + claimTtl) ready_distinct messageId with
      ⟨i, entry, isEntry, mine, marked⟩ | ⟨-, same⟩
    · obtain ⟨found, -⟩ := mem_ready (List.mem_of_getElem? isEntry)
      rw [marked] at isStored
      cases isStored
      subst mine
      exact ⟨(filed _ _ found).1, (filed _ _ found).2⟩
    · rw [same] at isStored
      exact filed messageId stored isStored

theorem Filed.answer (filed : Filed s) (call : Call P) : Filed (s.answer call).2 := by
  cases call with
  | add envelope =>
    change Filed (s.add envelope).2
    unfold OutboxStore.add
    split
    · exact filed
    split
    · exact filed
    · exact filed.set rfl nofun
  | claim now limit claimTtl claimIds => exact filed.claim now limit claimTtl claimIds
  | delivered claim at_ =>
    refine filed.settle claim _ (fun _ => rfl) fun item unfailed reason failed => ?_
    cases unfailed.symm.trans failed
  | retry claim availableAt =>
    refine filed.settle claim _ (fun _ => rfl) fun item unfailed reason failed => ?_
    cases unfailed.symm.trans failed
  | failed claim reason at_ =>
    change Filed (s.failed claim reason at_).2
    unfold OutboxStore.failed
    split
    · exact filed
    · rename_i named
      exact filed.settle claim _ (fun _ => rfl) fun item _ given same => ⟨Option.some.inj same ▸ named, rfl⟩
  | purgeDelivered plan =>
    change Filed (s.purgeDelivered plan).2
    unfold OutboxStore.purgeDelivered
    dsimp only
    split
    · exact filed
    · exact filed.popped _
  | archiveFailed plan archive =>
    change Filed (s.archiveFailed plan archive).2
    unfold OutboxStore.archiveFailed
    dsimp only
    split
    · exact filed
    split
    · exact filed
    · exact filed.popped _

/-- The messages that a clean-up up to the cutoff may remove. -/
def cleanable (settledAt : StoredMessage P → Option Int) (keep : StoredMessage P → Bool) (plan : OutboxPlan)
    (item : OpaqueId × StoredMessage P) : Bool :=
  keep item.2 && (settledAt item.2).any (· ≤ plan.cutoff)

variable (settledAt : StoredMessage P → Option Int) (keep : StoredMessage P → Bool) (plan : OutboxPlan)

def cleanPage (s : OutboxStore P) : List (OpaqueId × StoredMessage P) :=
  Retention.page (fun a b => settledOrder settledAt a.2 b.2) (cleanable settledAt keep plan) plan.batchSize s.items.items

theorem selected_page (s : OutboxStore P) : s.selected settledAt keep plan = (s.cleanPage settledAt keep plan).map Prod.snd := by
  rw [selected, List.filter_map, List.firstBy_map]
  rfl

theorem items_popped (filed : Filed s) :
    (s.popped (s.selected settledAt keep plan)).items.items =
      Retention.rest Prod.fst (fun a b => settledOrder settledAt a.2 b.2) (cleanable settledAt keep plan) plan.batchSize s.items.items := by
  have ids := Retention.map_page (fun item => item.2.envelope.messageId) Prod.fst (fun a b => settledOrder settledAt a.2 b.2)
    (cleanable settledAt keep plan) plan.batchSize fun item member => (filed item.1 item.2 (Dict.mem_items.mp member)).1
  rw [popped, selected_page, List.map_map]
  exact (congrArg (fun ids => (s.items.popAll ids).items) ids).trans (Dict.items_popAll _ _)

theorem purgeDelivered_law (filed : Filed s) :
    RetentionLaw id (fun s : OutboxStore P => s.items.items) (fun a b => settledOrder (·.deliveredAt) a.2 b.2)
      (cleanable (·.deliveredAt) (fun _ => true) plan) plan.batchSize
      (fun s => s.purgeDelivered { plan with dryRun := true }) (fun s => s.purgeDelivered { plan with dryRun := false }) s := by
  refine .of_rest (settledOrder_sorts _) Filed filed (fun s _ => s.items.nodup) ?_ fun s filed =>
    ⟨filed.answer (.purgeDelivered { plan with dryRun := false }), items_popped _ _ _ filed, ?_⟩
  · have selected := s.selected_page (·.deliveredAt) (fun _ => true) { plan with dryRun := true }
    simp only [purgeDelivered, summary, selected, List.length_map, if_true]
    rfl
  · have selected := s.selected_page (·.deliveredAt) (fun _ => true) { plan with dryRun := false }
    simp only [purgeDelivered, summary, selected, List.length_map]
    rfl

/-- What `archive` is given for a failed message. -/
def ArchivedAs (item : StoredMessage P) (envelope : FailedOutboxEnvelope P) : Prop :=
  envelope.envelope = item.envelope ∧ item.failureReason = some envelope.reason ∧ item.failedAt = some envelope.failedAt

/-- A failed message can be archived: its reason is not empty. -/
theorem Filed.failedEnvelope (filed : Filed s) (found : s.items.get? messageId = some item) (failed : item.failureReason.isSome = true) :
    ∃ envelope, OutboxStore.failedEnvelope item = .ok envelope ∧ ArchivedAs item envelope := by
  obtain ⟨reason, hasReason⟩ := Option.isSome_iff_exists.mp failed
  obtain ⟨named, timed⟩ := (filed messageId item found).2 reason hasReason
  obtain ⟨failedAt, hasTime⟩ := Option.isSome_iff_exists.mp timed
  refine ⟨⟨item.envelope, reason, failedAt⟩, ?_, rfl, hasReason, hasTime⟩
  simp [OutboxStore.failedEnvelope, hasReason, hasTime, named]

theorem archived_page {page : List (OpaqueId × StoredMessage P)}
    (each : ∀ entry ∈ page, ∃ envelope, failedEnvelope entry.2 = .ok envelope ∧ ArchivedAs entry.2 envelope) :
    ∃ envelopes, (page.map Prod.snd).mapM failedEnvelope = .ok envelopes ∧
      List.Forall₂ (fun entry envelope => ArchivedAs entry.2 envelope) page envelopes := by
  induction page with
  | nil => exact ⟨[], rfl, .nil⟩
  | cons entry page ih =>
    obtain ⟨envelope, made, shows⟩ := each entry (List.mem_cons_self ..)
    obtain ⟨envelopes, rest, showRest⟩ := ih fun other member => each other (List.mem_cons_of_mem _ member)
    refine ⟨envelope :: envelopes, ?_, .cons shows showRest⟩
    rw [List.map_cons, List.mapM_cons, made, rest]
    rfl

abbrev failedPage (s : OutboxStore P) (plan : OutboxPlan) : List (OpaqueId × StoredMessage P) :=
  s.cleanPage (·.failedAt) (·.failureReason.isSome) plan

/-- A dry run calls nobody. A real one passes its page to `archive`, unless it is empty, and removes it
unless `archive` raises. -/
theorem archiveFailed_cases (filed : Filed s) :
    (∀ archive, s.archiveFailed { plan with dryRun := true } archive = (.ok ⟨(s.failedPage plan).length, 0, true⟩, s)) ∧
    ∃ envelopes, List.Forall₂ (fun entry envelope => ArchivedAs entry.2 envelope) (s.failedPage plan) envelopes ∧
      ∀ archive, s.archiveFailed { plan with dryRun := false } archive =
        match if s.failedPage plan = [] then .ok () else archive envelopes with
        | .error error => (.error error, s)
        | .ok () => (.ok ⟨(s.failedPage plan).length, (s.failedPage plan).length, false⟩,
            s.popped (s.selected (·.failedAt) (·.failureReason.isSome) plan)) := by
  obtain ⟨envelopes, made, shows⟩ := archived_page fun entry (member : entry ∈ s.failedPage plan) => by
    obtain ⟨isEntry, chosen⟩ := Retention.mem_of_mem_page member
    rw [cleanable, Bool.and_eq_true] at chosen
    exact filed.failedEnvelope (Dict.mem_items.mp isEntry) chosen.1
  have selected : s.selected (·.failedAt) (·.failureReason.isSome) plan = (s.failedPage plan).map Prod.snd := s.selected_page _ _ plan
  refine ⟨fun archive => ?_, envelopes, shows, fun archive => ?_⟩
  · have selectedDry : s.selected (·.failedAt) (·.failureReason.isSome) { plan with dryRun := true } = (s.failedPage plan).map Prod.snd :=
      selected
    simp [archiveFailed, selectedDry, summary]
  · have selectedReal : s.selected (·.failedAt) (·.failureReason.isSome) { plan with dryRun := false } = (s.failedPage plan).map Prod.snd :=
      selected
    unfold archiveFailed
    dsimp only
    rw [selectedReal, selected, made]
    by_cases none : s.failedPage plan = []
    · rw [none]
      simp [summary, popped, Dict.popAll]
    · rw [if_neg (by simpa using none), if_neg none]
      have ran : (Except.ok envelopes >>= archive) = archive envelopes := rfl
      rw [ran]
      cases archive envelopes with
      | error error => rfl
      | ok _ => simp [summary]

theorem archiveFailed_law (filed : Filed s) (archive : List (FailedOutboxEnvelope P) → Except PyError Unit)
    (accepts : ∀ envelopes, archive envelopes = .ok ()) :
    RetentionLaw Except.ok (fun s : OutboxStore P => s.items.items) (fun a b => settledOrder (·.failedAt) a.2 b.2)
      (cleanable (·.failedAt) (·.failureReason.isSome) plan) plan.batchSize
      (fun s => s.archiveFailed { plan with dryRun := true } archive)
      (fun s => s.archiveFailed { plan with dryRun := false } archive) s := by
  have accepted : ∀ {s : OutboxStore P}, Filed s → s.archiveFailed { plan with dryRun := false } archive =
      (.ok ⟨(s.failedPage plan).length, (s.failedPage plan).length, false⟩,
        s.popped (s.selected (·.failedAt) (·.failureReason.isSome) plan)) := by
    intro s filed
    obtain ⟨-, envelopes, -, real⟩ := archiveFailed_cases plan filed
    rw [real archive, accepts]
    split <;> simp_all
  refine .of_rest (settledOrder_sorts _) Filed filed (fun s _ => s.items.nodup) ((archiveFailed_cases plan filed).1 archive)
    fun s filed => ?_
  rw [accepted filed]
  exact ⟨filed.popped _, items_popped _ _ _ filed, rfl⟩

end OutboxStore

/-- `InMemoryOutboxStore` after any calls with any arguments. -/
abbrev OutboxStore.Reached (capacity : Nat) (past : List (OutboxStore.Call P × OutboxStore.Answer P)) (s : OutboxStore P) : Prop :=
  History OutboxStore.answer (fun _ _ _ => True) (.empty capacity) past s

theorem OutboxStore.Reached.filed {capacity : Nat} {past : List (OutboxStore.Call P × OutboxStore.Answer P)} {s : OutboxStore P}
    (reached : OutboxStore.Reached capacity past s) : Filed s :=
  reached.state_invariant (fun _ _ found => (nomatch found)) fun _ _ call filed _ => filed.answer call

/-- `archive_failed` passes a page to `archive` and removes just that page, or nothing if `archive` raises. -/
def OutboxStore.ArchivesPage (plan : OutboxPlan) (s : OutboxStore P) : Prop :=
  ∃ page envelopes, List.OldestPage (fun a b => settledOrder (·.failedAt) a.2 b.2) (cleanable (·.failedAt) (·.failureReason.isSome) plan)
      plan.batchSize s.items.items page ∧
    List.Forall₂ (fun entry envelope => ArchivedAs entry.2 envelope) page envelopes ∧
    (∀ archive, page = [] ∨ archive envelopes = .ok () →
      (s.archiveFailed { plan with dryRun := false } archive).1 = .ok ⟨page.length, page.length, false⟩ ∧
      (s.archiveFailed { plan with dryRun := false } archive).2.items.items =
        s.items.items.filter fun entry => entry.1 ∉ page.map Prod.fst) ∧
    ∀ archive error, page ≠ [] → archive envelopes = .error error →
      s.archiveFailed { plan with dryRun := false } archive = (.error error, s)

theorem OutboxStore.Filed.archivesPage {s : OutboxStore P} (filed : Filed s) (plan : OutboxPlan) : ArchivesPage plan s := by
  obtain ⟨-, envelopes, shows, real⟩ := archiveFailed_cases plan filed
  have oldest : List.OldestPage _ _ _ s.items.items (s.failedPage plan) :=
    Retention.page_oldest (settledOrder_sorts (·.failedAt)) (List.Nodup.of_map _ s.items.nodup)
  refine ⟨s.failedPage plan, envelopes, oldest, shows, fun archive accepted => ?_, fun archive error nonempty raises => ?_⟩
  · have passes : (if s.failedPage plan = [] then .ok () else archive envelopes) = (.ok () : Except PyError Unit) := by
      split
      · rfl
      · rename_i nonempty
        exact accepted.resolve_left nonempty
    rw [real archive, passes]
    exact ⟨rfl, items_popped _ _ _ filed⟩
  · rw [real archive, if_neg nonempty, raises]

/-- Every clean-up takes the oldest records that it may take, a dry run changes nothing, a real run
leaves all other records as they are, and repeated runs remove what is eligible and no more. -/
theorem retention_removes_oldest [MetadataMapping M] [DecidableEq T] :
    (∀ (s : IdempotencyStore T) (plan : PurgeIdempotencyPlan),
      RetentionLaw id (fun s : IdempotencyStore T => s.entries.items) IdempotencyStore.purgeOrder (fun item => item.2.purgeable plan)
        plan.batchSize (fun s => s.purge { plan with dryRun := true }) (fun s => s.purge { plan with dryRun := false }) s) ∧
    (∀ (s : InboxStore) (plan : PurgeInboxPlan),
      RetentionLaw id (fun s : InboxStore => s.entries.items) InboxStore.purgeOrder (fun item => item.2.eligibleAt ≤ plan.cutoff)
        plan.batchSize (fun s => s.purge { plan with dryRun := true }) (fun s => s.purge { plan with dryRun := false }) s) ∧
    (∀ (s : MutationBatchStore R) (plan : PurgeIdempotencyPlan),
      RetentionLaw id (fun s : MutationBatchStore R => s.entries.items) MutationBatchStore.purgeOrder (fun item => item.2.purgeable plan)
        plan.batchSize (fun s => s.purge { plan with dryRun := true }) (fun s => s.purge { plan with dryRun := false }) s) ∧
    (∀ (s : ReplayStore) (plan : PurgeReplayPlan),
      RetentionLaw id (fun s : ReplayStore => s.entries.items) ReplayStore.purgeOrder (fun item => item.2 ≤ plan.cutoff)
        plan.batchSize (fun s => s.purge { plan with dryRun := true }) (fun s => s.purge { plan with dryRun := false }) s) ∧
    (∀ capacity past (s : ReceiptStore T M), ReceiptStore.Run (.empty capacity) past s → ∀ plan : PurgeReceiptsPlan,
      RetentionLaw id (fun s : ReceiptStore T M => s.receipts.items) (fun a b => ReceiptStore.purgeOrder a.2 b.2)
        (ReceiptStore.purgeable plan) plan.batchSize
        (fun s => s.purge { plan with dryRun := true }) (fun s => s.purge { plan with dryRun := false }) s) ∧
    ∀ capacity past (s : OutboxStore P), OutboxStore.Reached capacity past s → ∀ plan : OutboxPlan,
      RetentionLaw id (fun s : OutboxStore P => s.items.items) (fun a b => OutboxStore.settledOrder (·.deliveredAt) a.2 b.2)
        (OutboxStore.cleanable (·.deliveredAt) (fun _ => true) plan) plan.batchSize
        (fun s => s.purgeDelivered { plan with dryRun := true }) (fun s => s.purgeDelivered { plan with dryRun := false }) s ∧
      (∀ archive : List (FailedOutboxEnvelope P) → Except PyError Unit, (∀ envelopes, archive envelopes = .ok ()) →
        RetentionLaw Except.ok (fun s : OutboxStore P => s.items.items) (fun a b => OutboxStore.settledOrder (·.failedAt) a.2 b.2)
          (OutboxStore.cleanable (·.failedAt) (·.failureReason.isSome) plan) plan.batchSize
          (fun s => s.archiveFailed { plan with dryRun := true } archive)
          (fun s => s.archiveFailed { plan with dryRun := false } archive) s) ∧
      OutboxStore.ArchivesPage plan s := by
  refine ⟨IdempotencyStore.purge_law, InboxStore.purge_law, MutationBatchStore.purge_law, ReplayStore.purge_law, ?_, ?_⟩
  · intro capacity past s run plan
    have keyed : ReceiptStore.Keyed (.empty capacity : ReceiptStore T M) := by
      intro receiptId receipt found
      cases found
    exact ReceiptStore.purge_law (ReceiptStore.run_keyed keyed run) plan
  · intro capacity past s reached plan
    have filed := OutboxStore.Reached.filed reached
    exact ⟨OutboxStore.purgeDelivered_law plan filed, OutboxStore.archiveFailed_law plan filed, filed.archivesPage plan⟩

/-- A message is claimed and fails. -/
def OutboxStore.failingCalls : List (OutboxStore.Call Unit) :=
  let envelope := sampleEnvelope "m" Sample.message_proper 0
  [.add envelope, .claim 0 5 10 (Uuid.series 'a'), .failed ⟨Uuid.series 'a' 0, envelope, 10⟩ "broken" 4]

/-- One failed message is archived and removed. -/
theorem failed_archived :
    ∃ past, ∃ s : OutboxStore Unit, OutboxStore.Reached 9 past s ∧ s.items.size = 1 ∧
      OutboxStore.ArchivesPage ⟨5, 3, false, by decide⟩ s ∧
      (s.archiveFailed ⟨5, 3, false, by decide⟩ fun _ => .ok ()).2.items.items = [] := by
  have reached : OutboxStore.Reached 9 (History.transcript OutboxStore.answer (.empty 9) OutboxStore.failingCalls)
      (History.after OutboxStore.answer (.empty 9) OutboxStore.failingCalls) :=
    History.ofInputs ⟨trivial, trivial, trivial, trivial⟩
  have law := (retention_removes_oldest (T := Unit) (R := Unit) (P := Unit) (M := Unit)).2.2.2.2.2 9 _ _ reached ⟨5, 3, false, by decide⟩
  have drained := (law.2.1 (fun _ => .ok ()) fun _ => rfl).drains 1 (by decide +kernel)
  exact ⟨_, _, reached, by decide +kernel, law.2.2, drained.trans (by decide +kernel)⟩

end Pytitect
