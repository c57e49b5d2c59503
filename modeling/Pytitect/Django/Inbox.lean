import Pytitect.Inbox.Store
import Pytitect.Lib.History

namespace Pytitect

/-- A row of the consumer's model, less the columns of its unique constraint. -/
structure InboxRow where
  reservationToken : String
  expiresAt : Int
  completedAt : Option Int
  deriving DecidableEq

/-- `filter(reservation_token=token, completed_at__isnull=True)` -/
def InboxRow.pending (row : InboxRow) (token : String) : Bool := row.reservationToken = token && row.completedAt.isNone

/-- `DjangoInboxStore.from_model`: the table behind the store. The unique constraint on
namespace, source, consumer and message id makes it a dictionary; every call is serial. -/
structure DjangoInboxStore where
  rows : Dict InboxIdentity InboxRow

namespace DjangoInboxStore

def empty : DjangoInboxStore := ⟨.empty⟩

/-- Write the reservation of an accepted message. An expiry beyond the calendar raises
before the row is written, and the block is rolled back. -/
def accept (store : DjangoInboxStore) (identity : InboxIdentity) (token : String) (now ttl : Int) :
    Except PyError InboxDecision × DjangoInboxStore :=
  match datetimeAdd now ttl with
  | .error error => (.error error, store)
  | .ok expiresAt => (.ok (.accepted token), ⟨store.rows.set identity ⟨token, expiresAt, none⟩⟩)

def begin (store : DjangoInboxStore) (identity : InboxIdentity) (token : String) (now ttl : Int) :
    Except PyError InboxDecision × DjangoInboxStore :=
  if token = "" ∨ ttl ≤ 0 then (.error (.valueError "token and a positive ttl are required"), store)
  else
    match store.rows.get? identity with
    | none => store.accept identity token now ttl
    | some row =>
      match row.completedAt with
      | some completedAt => (.ok (.duplicate completedAt), store)
      | none => if now < row.expiresAt then (.ok (.inProgress row.expiresAt), store) else store.accept identity token now ttl

def complete (store : DjangoInboxStore) (identity : InboxIdentity) (token : String) (now : Int) : Bool × DjangoInboxStore :=
  match store.rows.get? identity with
  | none => (false, store)
  | some row =>
    if row.pending token && now < row.expiresAt then
      (true, ⟨store.rows.set identity { row with completedAt := some now }⟩)
    else (false, store)

def abandon (store : DjangoInboxStore) (identity : InboxIdentity) (token : String) : Bool × DjangoInboxStore :=
  match store.rows.get? identity with
  | none => (false, store)
  | some row => if row.pending token then (true, ⟨store.rows.pop identity⟩) else (false, store)

end DjangoInboxStore

/-- The calls that both stores have. -/
inductive InboxCall
  | begin (identity : InboxIdentity) (token : String) (now ttl : Int)
  | complete (identity : InboxIdentity) (token : String) (now : Int)
  | abandon (identity : InboxIdentity) (token : String)

inductive InboxAnswer
  | decision (result : Except PyError InboxDecision)
  | settled (result : Bool)
  deriving DecidableEq

/-- Both stores side by side. -/
structure InboxStores where
  memory : InboxStore
  django : DjangoInboxStore

namespace InboxStores

def empty (capacity : Nat) : InboxStores := ⟨.empty capacity, .empty⟩

/-- One call, made to both stores. -/
def answer (stores : InboxStores) : InboxCall → (InboxAnswer × InboxAnswer) × InboxStores
  | .begin identity token now ttl =>
    ((.decision (stores.memory.begin identity token now ttl).1, .decision (stores.django.begin identity token now ttl).1),
      ⟨(stores.memory.begin identity token now ttl).2, (stores.django.begin identity token now ttl).2⟩)
  | .complete identity token now =>
    ((.settled (stores.memory.complete identity token now).1, .settled (stores.django.complete identity token now).1),
      ⟨(stores.memory.complete identity token now).2, (stores.django.complete identity token now).2⟩)
  | .abandon identity token =>
    ((.settled (stores.memory.abandon identity token).1, .settled (stores.django.abandon identity token).1),
      ⟨(stores.memory.abandon identity token).2, (stores.django.abandon identity token).2⟩)

end InboxStores

namespace InboxCall

/-- The capacity of the in-memory store is not reached. -/
def HasRoom (memory : InboxStore) : InboxCall → Prop
  | .begin identity .. => (memory.entries.pop identity).size < memory.capacity
  | .complete .. | .abandon .. => True

/-- When a call is answered alike: a message that is completed is not completed again, and
an expired reservation is taken over with an expiry within the calendar. -/
def Agreeable (memory : InboxStore) : InboxCall → Prop
  | .begin identity _ now ttl =>
    ∀ entry, memory.entries.get? identity = some entry → entry.completedAt = none → entry.expiresAt ≤ now → Fits now ttl
  | .complete identity token now =>
    ∀ entry, memory.entries.get? identity = some entry → entry.token = token → now < entry.expiresAt → entry.completedAt = none
  | .abandon .. => True

end InboxCall

/-- The row of an entry. -/
def InboxEntry.row (entry : InboxEntry) : InboxRow := ⟨entry.token, entry.expiresAt, entry.completedAt⟩

namespace InboxStores

/-- The table holds the rows of the entries. -/
def Aligned (stores : InboxStores) : Prop :=
  ∀ identity, stores.django.rows.get? identity = (stores.memory.entries.get? identity).map InboxEntry.row

variable {stores : InboxStores} {identity : InboxIdentity} {token : String} {now ttl : Int} {entry : InboxEntry}

theorem Aligned.set (aligned : Aligned stores) {capacity : Nat} {entries : Dict InboxIdentity InboxEntry}
    (others : ∀ other ≠ identity, entries.get? other = stores.memory.entries.get? other) (entry : InboxEntry) :
    Aligned ⟨⟨capacity, entries.set identity entry⟩, ⟨stores.django.rows.set identity entry.row⟩⟩ := by
  intro other
  dsimp only
  rw [Dict.get?_set, Dict.get?_set]
  split
  · rfl
  · rename_i different
    rw [others other different]
    exact aligned other

theorem Aligned.accept (aligned : Aligned stores) {entries : Dict InboxIdentity InboxEntry}
    (others : ∀ other ≠ identity, entries.get? other = stores.memory.entries.get? other)
    (room : entries.size < stores.memory.capacity)
    (fits : entries.get? identity = stores.memory.entries.get? identity ∨ Fits now ttl) :
    (InboxStore.claim { stores.memory with entries } identity token now ttl).1 = (stores.django.accept identity token now ttl).1 ∧
      Aligned ⟨(InboxStore.claim { stores.memory with entries } identity token now ttl).2,
        (stores.django.accept identity token now ttl).2⟩ := by
  unfold InboxStore.claim DjangoInboxStore.accept
  rw [if_neg (Nat.not_le.mpr room)]
  cases deadline : datetimeAdd now ttl with
  | ok expiresAt => exact ⟨rfl, aligned.set others ⟨token, expiresAt, none⟩⟩
  | error error =>
    refine ⟨rfl, fun other => ?_⟩
    have same := fits.resolve_right fun within => by
      rw [datetimeAdd_fits within] at deadline
      cases deadline
    by_cases own : other = identity
    · rw [own]
      exact (aligned identity).trans (congrArg (Option.map InboxEntry.row) same.symm)
    · exact (aligned other).trans (congrArg (Option.map InboxEntry.row) (others other own).symm)

theorem Aligned.begin (aligned : Aligned stores) (room : (InboxCall.begin identity token now ttl).HasRoom stores.memory)
    (agreeable : (InboxCall.begin identity token now ttl).Agreeable stores.memory) :
    (stores.memory.begin identity token now ttl).1 = (stores.django.begin identity token now ttl).1 ∧
      Aligned ⟨(stores.memory.begin identity token now ttl).2, (stores.django.begin identity token now ttl).2⟩ := by
  unfold InboxStore.begin DjangoInboxStore.begin
  rw [aligned identity]
  split
  · exact ⟨rfl, aligned⟩
  cases found : stores.memory.entries.get? identity with
  | none =>
    have space : stores.memory.entries.size < stores.memory.capacity := by
      rw [← Dict.size_pop_of_absent (Dict.get?_eq_none.mp found)]
      exact room
    exact aligned.accept (fun _ _ => rfl) space (Or.inl rfl)
  | some entry =>
    simp only [Option.map_some, InboxEntry.row]
    cases completed : entry.completedAt with
    | some completedAt => exact ⟨rfl, aligned⟩
    | none =>
      dsimp only
      split
      · exact ⟨rfl, aligned⟩
      · rename_i expired
        refine aligned.accept (fun other different => by rw [Dict.get?_pop, if_neg different]) room (Or.inr ?_)
        exact agreeable entry found completed (Int.not_lt.mp expired)

theorem row_pending : entry.row.pending token = true ↔ entry.token = token ∧ entry.completedAt = none := by
  rw [InboxEntry.row, InboxRow.pending, Bool.and_eq_true, decide_eq_true_eq, Option.isNone_iff_eq_none]

theorem Aligned.complete (aligned : Aligned stores) (agreeable : (InboxCall.complete identity token now).Agreeable stores.memory) :
    (stores.memory.complete identity token now).1 = (stores.django.complete identity token now).1 ∧
      Aligned ⟨(stores.memory.complete identity token now).2, (stores.django.complete identity token now).2⟩ := by
  unfold InboxStore.complete DjangoInboxStore.complete
  rw [aligned identity]
  cases found : stores.memory.entries.get? identity with
  | none => exact ⟨rfl, aligned⟩
  | some entry =>
    have live : (entry.row.pending token && decide (now < entry.row.expiresAt)) = true ↔
        ¬(entry.token ≠ token ∨ entry.expiresAt ≤ now) := by
      rw [Bool.and_eq_true, row_pending, decide_eq_true_eq, not_or, Decidable.not_not, Int.not_le]
      constructor
      · rintro ⟨⟨own, -⟩, before⟩
        exact ⟨own, before⟩
      · rintro ⟨own, before⟩
        exact ⟨⟨own, agreeable entry found own before⟩, before⟩
    simp only [Option.map_some]
    split
    · rename_i refused
      rw [if_neg fun passed => live.mp passed refused]
      exact ⟨rfl, aligned⟩
    · rename_i authority
      rw [if_pos (live.mpr authority)]
      exact ⟨rfl, aligned.set (fun _ _ => rfl) { entry with completedAt := some now }⟩

theorem Aligned.abandon (aligned : Aligned stores) :
    (stores.memory.abandon identity token).1 = (stores.django.abandon identity token).1 ∧
      Aligned ⟨(stores.memory.abandon identity token).2, (stores.django.abandon identity token).2⟩ := by
  unfold InboxStore.abandon DjangoInboxStore.abandon
  rw [aligned identity]
  cases found : stores.memory.entries.get? identity with
  | none => exact ⟨rfl, aligned⟩
  | some entry =>
    have held : entry.row.pending token = true ↔ ¬(entry.token ≠ token ∨ entry.completedAt.isSome = true) := by
      rw [row_pending, not_or, Decidable.not_not, Option.not_isSome_iff_eq_none]
    simp only [Option.map_some]
    split
    · rename_i refused
      rw [if_neg fun passed => held.mp passed refused]
      exact ⟨rfl, aligned⟩
    · rename_i authority
      rw [if_pos (held.mpr authority)]
      refine ⟨rfl, fun other => ?_⟩
      rw [Dict.get?_pop, Dict.get?_pop]
      split
      · rfl
      · exact aligned other

/-- One call: equal answers, and the table still holds the rows of the entries. -/
theorem Aligned.answer (aligned : Aligned stores) {call : InboxCall} (room : call.HasRoom stores.memory)
    (agreeable : call.Agreeable stores.memory) :
    (stores.answer call).1.1 = (stores.answer call).1.2 ∧ Aligned (stores.answer call).2 := by
  cases call with
  | begin identity token now ttl =>
    have begun := aligned.begin room agreeable
    exact ⟨congrArg InboxAnswer.decision begun.1, begun.2⟩
  | complete identity token now =>
    have completed := aligned.complete agreeable
    exact ⟨congrArg InboxAnswer.settled completed.1, completed.2⟩
  | abandon identity token =>
    exact ⟨congrArg InboxAnswer.settled aligned.abandon.1, aligned.abandon.2⟩

/-- The instant of a completion of the identity. -/
def completionOf (identity : InboxIdentity) (event : InboxCall × InboxAnswer × InboxAnswer) : Option Int :=
  match event with
  | (.complete other _ now, .settled true, _) => if other = identity then some now else none
  | _ => none

/-- The instants at which a message was completed, oldest first. -/
def completions (identity : InboxIdentity) (past : List (InboxCall × InboxAnswer × InboxAnswer)) : List Int :=
  past.filterMap (completionOf identity)

/-- The completion that the in-memory store remembers. -/
def remembered (memory : InboxStore) (identity : InboxIdentity) : Option Int :=
  (memory.entries.get? identity).bind InboxEntry.completedAt

theorem remembered_set {capacity : Nat} {entries : Dict InboxIdentity InboxEntry} {other : InboxIdentity} :
    remembered ⟨capacity, entries.set identity entry⟩ other =
      if other = identity then entry.completedAt else (entries.get? other).bind InboxEntry.completedAt := by
  unfold remembered
  rw [Dict.get?_set]
  split <;> rfl

theorem remembered_pop {memory : InboxStore} (nothing : remembered memory identity = none) (other : InboxIdentity) :
    remembered { memory with entries := memory.entries.pop identity } other = remembered memory other := by
  unfold remembered
  dsimp only
  rw [Dict.get?_pop]
  split
  · rename_i own
    rw [own]
    exact nothing.symm
  · rfl

theorem claim_remembered {memory : InboxStore} (nothing : remembered memory identity = none) (other : InboxIdentity) :
    remembered (memory.claim identity token now ttl).2 other = remembered memory other := by
  unfold InboxStore.claim
  split
  · rfl
  split
  · rfl
  · dsimp only
    rw [remembered_set]
    split
    · rename_i own
      rw [own, nothing]
    · rfl

/-- `begin` completes nothing and forgets no completion. -/
theorem begin_remembered (memory : InboxStore) (other : InboxIdentity) :
    remembered (memory.begin identity token now ttl).2 other = remembered memory other := by
  unfold InboxStore.begin
  split
  · rfl
  cases found : memory.entries.get? identity with
  | none =>
    exact claim_remembered (by rw [remembered, found]; rfl) other
  | some entry =>
    dsimp only
    split
    · rfl
    · rename_i incomplete
      have nothing : remembered memory identity = none := by
        rw [remembered, found]
        exact incomplete
      split
      · rfl
      · rw [claim_remembered _ other, remembered_pop nothing]
        rw [remembered_pop nothing]
        exact nothing

theorem begin_duplicate {memory : InboxStore} {completedAt : Int}
    (answered : (memory.begin identity token now ttl).1 = .ok (.duplicate completedAt)) :
    remembered memory identity = some completedAt := by
  rcases memory.begin_begun identity token now ttl with ⟨_, accepted, -⟩ | ⟨-, -, duplicate⟩
  · rw [answered] at accepted
    cases accepted
  · obtain ⟨-, entry, found, completed⟩ := duplicate completedAt answered
    rw [remembered, found]
    exact completed

theorem abandon_remembered (memory : InboxStore) (other : InboxIdentity) :
    remembered (memory.abandon identity token).2 other = remembered memory other := by
  unfold InboxStore.abandon
  cases found : memory.entries.get? identity with
  | none => rfl
  | some entry =>
    dsimp only
    split
    · rfl
    · rename_i authority
      refine remembered_pop ?_ other
      rw [remembered, found]
      rw [not_or, Option.not_isSome_iff_eq_none] at authority
      exact authority.2

/-- A call completes a message that was not completed, or leaves what is remembered. -/
theorem answer_remembered {call : InboxCall} (agreeable : call.Agreeable stores.memory) (other : InboxIdentity) :
    completionOf other (call, (stores.answer call).1) = none ∧
        remembered (stores.answer call).2.memory other = remembered stores.memory other ∨
      ∃ instant, completionOf other (call, (stores.answer call).1) = some instant ∧ remembered stores.memory other = none ∧
        remembered (stores.answer call).2.memory other = some instant := by
  cases call with
  | begin identity token now ttl => exact Or.inl ⟨rfl, begin_remembered stores.memory other⟩
  | abandon identity token => exact Or.inl ⟨rfl, abandon_remembered stores.memory other⟩
  | complete identity token now =>
    cases done : (stores.memory.complete identity token now).1 with
    | false =>
      refine Or.inl ⟨?_, ?_⟩
      · simp only [answer, done, completionOf]
      · exact congrArg (remembered · other) (InboxStore.complete_false done)
    | true =>
      obtain ⟨entry, found, own, before, after⟩ := InboxStore.complete_true done
      have incomplete := agreeable entry found own before
      simp only [answer, done, completionOf, after]
      rw [remembered_set]
      by_cases mine : other = identity
      · rw [if_pos mine, if_pos mine.symm, mine]
        refine Or.inr ⟨now, rfl, ?_, rfl⟩
        rw [remembered, found]
        exact incomplete
      · rw [if_neg mine, if_neg (Ne.symm mine)]
        exact Or.inl ⟨rfl, rfl⟩

/-- What is known of the completions after a run. -/
structure Settled (past : List (InboxCall × InboxAnswer × InboxAnswer)) (stores : InboxStores) : Prop where
  aligned : Aligned stores
  completions : ∀ identity, completions identity past = (remembered stores.memory identity).toList
  duplicates : ∀ identity token now ttl completedAt answered,
    (.begin identity token now ttl, .decision (.ok (.duplicate completedAt)), answered) ∈ past →
      remembered stores.memory identity = some completedAt

theorem Settled.answer {past : List (InboxCall × InboxAnswer × InboxAnswer)} (settled : Settled past stores) {call : InboxCall}
    (room : call.HasRoom stores.memory) (agreeable : call.Agreeable stores.memory) :
    Settled (past ++ [(call, (stores.answer call).1)]) (stores.answer call).2 := by
  refine ⟨(settled.aligned.answer room agreeable).2, fun identity => ?_, fun identity token now ttl completedAt answered member => ?_⟩
  · rw [InboxStores.completions, List.filterMap_append, ← InboxStores.completions, settled.completions]
    rcases answer_remembered agreeable identity with ⟨nothing, same⟩ | ⟨instant, completed, before, after⟩
    · rw [List.filterMap_cons_none nothing, List.filterMap_nil, List.append_nil, same]
    · rw [List.filterMap_cons_some completed, List.filterMap_nil, before, after]
      rfl
  · have known : remembered stores.memory identity = some completedAt := by
      rcases List.mem_append.mp member with earlier | last
      · exact settled.duplicates identity token now ttl completedAt answered earlier
      · obtain ⟨rfl, answers⟩ := Prod.mk.inj (List.mem_singleton.mp last)
        have answer := InboxAnswer.decision.inj (congrArg Prod.fst answers)
        exact begin_duplicate answer.symm
    rcases answer_remembered agreeable identity with ⟨-, same⟩ | ⟨instant, -, before, -⟩
    · exact same.trans known
    · rw [known] at before
      cases before

/-- In every run of agreeable calls both stores give the same answers; a message is completed
at most once, and every duplicate is reported with the instant of that completion. -/
theorem inbox_stores_agree {capacity : Nat} {past : List (InboxCall × InboxAnswer × InboxAnswer)}
    (run : History answer (fun stores _ call => call.HasRoom stores.memory ∧ call.Agreeable stores.memory) (.empty capacity)
      past stores) :
    (∀ event ∈ past, event.2.1 = event.2.2) ∧ (∀ identity, (completions identity past).length ≤ 1) ∧
      ∀ identity token now ttl completedAt answered,
        (.begin identity token now ttl, .decision (.ok (.duplicate completedAt)), answered) ∈ past →
          completions identity past = [completedAt] := by
  have kept := run.answers (P := Settled) (Q := fun event => event.2.1 = event.2.2)
    ⟨fun _ => rfl, fun _ => rfl, by simp⟩
    (fun past stores call settled permitted =>
      ⟨settled.answer permitted.1 permitted.2, (settled.aligned.answer permitted.1 permitted.2).1⟩)
  obtain ⟨settled, alike⟩ := kept
  refine ⟨alike, fun identity => ?_, fun identity token now ttl completedAt answered member => ?_⟩
  · rw [settled.completions]
    cases remembered stores.memory identity with
    | none => exact Nat.zero_le 1
    | some instant => exact Nat.le_refl 1
  · rw [settled.completions, settled.duplicates identity token now ttl completedAt answered member]
    rfl

instance (memory : InboxStore) (call : InboxCall) : Decidable (call.HasRoom memory) :=
  match call with
  | .begin identity .. => inferInstanceAs (Decidable ((memory.entries.pop identity).size < memory.capacity))
  | .complete .. | .abandon .. => isTrue trivial

def orderMessage : InboxIdentity := ⟨⟨"shop", "orders", "mailer", by decide⟩, ⟨"order", Sample.order_proper⟩⟩

/-- A message is begun, completed and delivered again. -/
def deliveredTwice : List InboxCall :=
  [.begin orderMessage "a" 0 10, .complete orderMessage "a" 1, .begin orderMessage "b" 2 10]

theorem inbox_stores_agree_on_duplicate : ∃ past stores,
    History answer (fun stores _ call => call.HasRoom stores.memory ∧ call.Agreeable stores.memory) (.empty 2) past stores ∧
      past.map (·.2.1) = [.decision (.ok (.accepted "a")), .settled true, .decision (.ok (.duplicate 1))] ∧
      (∀ event ∈ past, event.2.1 = event.2.2) ∧ (completions orderMessage past).length ≤ 1 := by
  have permitted : History.Permitted answer
      (fun stores _ call => call.HasRoom stores.memory ∧ call.Agreeable stores.memory) [] (.empty 2) deliveredTwice := by
    refine ⟨⟨by decide, by rintro entry ⟨⟩⟩, ⟨trivial, fun entry found _ _ => ?_⟩, ⟨by decide +kernel, fun entry found incomplete _ => ?_⟩,
      trivial⟩
    · have present : (History.after answer (.empty 2) (deliveredTwice.take 1)).memory.entries.get? orderMessage =
          some ⟨"a", 10, none⟩ := by decide +kernel
      cases found.symm.trans present
      rfl
    · have present : (History.after answer (.empty 2) (deliveredTwice.take 2)).memory.entries.get? orderMessage =
          some ⟨"a", 10, some 1⟩ := by decide +kernel
      cases found.symm.trans present
      cases incomplete
  have run := History.ofInputs permitted
  have agree := inbox_stores_agree run
  exact ⟨_, _, run, by decide +kernel, agree.1, agree.2.1 orderMessage⟩

/-- The holder of a completed message completes it once more: the in-memory store takes the
later instant, the table keeps the earlier one. -/
theorem inbox_stores_disagree_on_second_completion : ∃ past stores,
    History answer (fun stores _ call => call.HasRoom stores.memory) (.empty 2) past stores ∧
      past.map Prod.fst = [.begin orderMessage "a" 0 10, .complete orderMessage "a" 1, .complete orderMessage "a" 2,
        .begin orderMessage "b" 3 10] ∧
      past.map Prod.snd = [(.decision (.ok (.accepted "a")), .decision (.ok (.accepted "a"))), (.settled true, .settled true),
        (.settled true, .settled false), (.decision (.ok (.duplicate 2)), .decision (.ok (.duplicate 1)))] ∧
      ¬∀ event ∈ past, event.2.1 = event.2.2 := by
  have permitted : History.Permitted answer (fun stores _ call => call.HasRoom stores.memory) [] (.empty 2)
      [.begin orderMessage "a" 0 10, .complete orderMessage "a" 1, .complete orderMessage "a" 2, .begin orderMessage "b" 3 10] :=
    ⟨show InboxCall.HasRoom _ _ by decide, trivial, trivial, show InboxCall.HasRoom _ _ by decide +kernel, trivial⟩
  refine ⟨_, _, History.ofInputs permitted, rfl, by decide +kernel, fun alike => ?_⟩
  exact absurd (alike _ (List.mem_of_getLast? rfl)) (by decide +kernel)

end InboxStores

end Pytitect
