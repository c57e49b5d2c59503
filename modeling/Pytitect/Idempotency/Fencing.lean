import Pytitect.Idempotency.Transitions

namespace Pytitect.IdempotencyStore
variable {T : Type}

/-- The reservation that one call issued, if it issued one. -/
def issuedBy : Call T × Answer T → Option (ReservationToken × IdempotencyIdentity)
  | (.reserve scope key _ _ _ _, .decision (.ok (.execute token))) => some (token, ⟨scope, key⟩)
  | _ => none

/-- Every reservation issued in a past, oldest first. -/
def issued (past : List (Call T × Answer T)) : List (ReservationToken × IdempotencyIdentity) :=
  past.filterMap issuedBy

theorem issued_unchanged {past : List (Call T × Answer T)} {event : Call T × Answer T}
    (none : issuedBy event = none) : issued (past ++ [event]) = issued past := by
  simp [issued, none]

/-- `uuid4` supplies no token twice. -/
def FreshToken (past : List (Call T × Answer T)) : Call T → Prop
  | .reserve _ _ _ _ _ token => token ∉ (issued past).map Prod.fst
  | _ => True

/-- Any sequence of calls at any times, with fresh tokens. -/
abbrev Run (capacity : Nat) : List (Call T × Answer T) → IdempotencyStore T → Prop :=
  History answer (fun _ => FreshToken) (empty capacity)

/-- The token index agrees with the entries, the capacity is respected and
each entry is owned by the token issued last for its identity. -/
structure Fenced (issues : List (ReservationToken × IdempotencyIdentity)) (s : IdempotencyStore T) : Prop where
  indexed : ∀ token identity, s.tokens.get? token = some identity ↔
    ∃ entry, s.entries.get? identity = some entry ∧ entry.token = token
  bounded : s.entries.size ≤ s.capacity
  distinct : (issues.map Prod.fst).Nodup
  latest : ∀ identity entry, s.entries.get? identity = some entry →
    (issues.filter (·.2 = identity)).getLast? = some (entry.token, identity)

namespace Fenced
variable {issues : List (ReservationToken × IdempotencyIdentity)} {s : IdempotencyStore T}

theorem start (capacity : Nat) : Fenced [] (empty capacity : IdempotencyStore T) where
  indexed := by simp [empty]
  bounded := by simp [empty]
  distinct := by simp
  latest := by simp [empty]

/-- The owner of an entry was issued for that very identity. -/
theorem owner_issued (fenced : Fenced issues s) {identity : IdempotencyIdentity} {entry : Entry T}
    (found : s.entries.get? identity = some entry) : (entry.token, identity) ∈ issues := by
  have last := List.mem_of_getLast? (fenced.latest identity entry found)
  exact (List.mem_filter.mp last).1

theorem same_owner (fenced : Fenced issues s) {i j : IdempotencyIdentity} {entry other : Entry T}
    (atI : s.entries.get? i = some entry) (atJ : s.entries.get? j = some other)
    (sameToken : entry.token = other.token) : i = j := by
  have indexI := (fenced.indexed entry.token i).mpr ⟨entry, atI, rfl⟩
  have indexJ := (fenced.indexed entry.token j).mpr ⟨other, atJ, sameToken.symm⟩
  exact Option.some.inj (indexI.symm.trans indexJ)

theorem remove (fenced : Fenced issues s) {selected : List (IdempotencyIdentity × Entry T)}
    (stored : ∀ item ∈ selected, item ∈ s.entries.items) : Fenced issues (s.remove selected) where
  indexed := by
    intro token identity
    have gone : token ∈ selected.map (·.2.token) → ∀ entry, s.entries.get? identity = some entry →
        entry.token = token → identity ∈ selected.map Prod.fst := by
      intro member entry found owned
      obtain ⟨⟨owner, chosen⟩, inSelected, same⟩ := List.mem_map.mp member
      have atOwner := Dict.mem_items.mp (stored _ inSelected)
      have equal := fenced.same_owner atOwner found (same.trans owned.symm)
      exact equal ▸ List.mem_map_of_mem (f := Prod.fst) inSelected
    have dropped : identity ∈ selected.map Prod.fst → ∀ entry, s.entries.get? identity = some entry →
        entry.token ∈ selected.map (·.2.token) := by
      intro member entry found
      obtain ⟨⟨owner, chosen⟩, inSelected, same⟩ := List.mem_map.mp member
      change owner = identity at same
      subst owner
      have equal := Option.some.inj ((Dict.mem_items.mp (stored _ inSelected)).symm.trans found)
      exact List.mem_map.mpr ⟨_, inSelected, by rw [equal]⟩
    rw [remove_get?]
    change (s.tokens.popAll _).get? token = some identity ↔ _
    rw [Dict.get?_popAll]
    constructor
    · intro index
      split at index
      · cases index
      · rename_i kept
        obtain ⟨entry, found, owned⟩ := (fenced.indexed token identity).mp index
        have present : identity ∉ selected.map Prod.fst :=
          fun member => kept (owned ▸ dropped member entry found)
        exact ⟨entry, by rw [if_neg present]; exact found, owned⟩
    · intro held
      obtain ⟨entry, found, owned⟩ := held
      split at found
      · cases found
      · rename_i kept
        rw [if_neg (fun member => kept (gone member entry found owned))]
        exact (fenced.indexed token identity).mpr ⟨entry, found, owned⟩
  bounded := Nat.le_trans (s.remove_size_le selected) fenced.bounded
  distinct := fenced.distinct
  latest := by
    intro identity entry found
    rw [remove_get?] at found
    split at found
    · cases found
    · exact fenced.latest identity entry found

theorem purgeExpired (fenced : Fenced issues s) (now : Int) : Fenced issues (s.purgeExpired now) :=
  fenced.remove fun _ member => (List.mem_filter.mp member).1

theorem moveToEnd (fenced : Fenced issues s) (identity : IdempotencyIdentity) :
    Fenced issues { s with entries := s.entries.moveToEnd identity } where
  indexed := by simpa using fenced.indexed
  bounded := by simpa [Dict.size_moveToEnd] using fenced.bounded
  distinct := fenced.distinct
  latest := by simpa using fenced.latest

/-- A fresh reservation becomes the last one issued for its identity. -/
theorem issue (fenced : Fenced issues s) {identity : IdempotencyIdentity} (entry : Entry T)
    (absent : s.entries.get? identity = none) (room : s.entries.size < s.capacity)
    (fresh : entry.token ∉ issues.map Prod.fst) :
    Fenced (issues ++ [(entry.token, identity)])
      { s with entries := s.entries.set identity entry, tokens := s.tokens.set entry.token identity } where
  indexed := by
    intro token owner
    have unowned : ∀ other stored, s.entries.get? other = some stored → stored.token ≠ entry.token :=
      fun other stored found same => fresh (same ▸ List.mem_map_of_mem (fenced.owner_issued found))
    simp only [Dict.get?_set]
    by_cases mine : owner = identity
    · subst owner
      by_cases sameToken : token = entry.token
      · simp [sameToken]
      · have unindexed : s.tokens.get? token ≠ some identity := by
          intro index
          obtain ⟨stored, found, -⟩ := (fenced.indexed token identity).mp index
          simp [absent] at found
        simp [sameToken, unindexed, Ne.symm sameToken]
    · by_cases sameToken : token = entry.token
      · subst token
        simp only [if_true, Option.some.injEq, mine, if_false]
        constructor
        · intro equal
          exact absurd equal.symm mine
        · intro held
          obtain ⟨stored, found, owned⟩ := held
          exact absurd owned (unowned owner stored found)
      · simpa [sameToken, mine] using fenced.indexed token owner
  bounded := by
    change (s.entries.set identity entry).size ≤ s.capacity
    rw [Dict.size_set_of_absent (Dict.get?_eq_none.mp absent)]
    omega
  distinct := by
    rw [List.map_append, List.nodup_append]
    refine ⟨fenced.distinct, List.nodup_singleton _, ?_⟩
    intro old member new isNew same
    have equal : new = entry.token := by simpa using isNew
    exact fresh (equal ▸ same ▸ member)
  latest := by
    intro owner stored found
    simp only [Dict.get?_set] at found
    by_cases mine : owner = identity
    · subst owner
      rw [if_pos rfl] at found
      cases found
      simp
    · rw [if_neg mine] at found
      have last := fenced.latest owner stored found
      simpa [List.filter_append, Ne.symm mine] using last

/-- Rewriting the entry a token owns moves neither the token nor the index. -/
theorem rewrite (fenced : Fenced issues s) {identity : IdempotencyIdentity} {entry rewritten : Entry T}
    (found : s.entries.get? identity = some entry) (sameToken : rewritten.token = entry.token) :
    Fenced issues { s with entries := s.entries.set identity rewritten } where
  indexed := by
    intro token owner
    rw [fenced.indexed token owner]
    simp only [Dict.get?_set]
    by_cases mine : owner = identity
    · subst owner
      simp [found, sameToken]
    · simp [mine]
  bounded := by
    change (s.entries.set identity rewritten).size ≤ s.capacity
    rw [Dict.size_set_of_mem (Dict.keys_of_get? found)]
    exact fenced.bounded
  distinct := fenced.distinct
  latest := by
    intro owner stored atOwner
    simp only [Dict.get?_set] at atOwner
    by_cases mine : owner = identity
    · subst owner
      rw [if_pos rfl] at atOwner
      cases atOwner
      rw [sameToken]
      exact fenced.latest identity entry found
    · rw [if_neg mine] at atOwner
      exact fenced.latest owner stored atOwner

theorem release (fenced : Fenced issues s) {identity : IdempotencyIdentity} {entry : Entry T}
    (found : s.entries.get? identity = some entry) :
    Fenced issues { s with entries := s.entries.pop identity, tokens := s.tokens.pop entry.token } where
  indexed := by
    intro token owner
    simp only [Dict.get?_pop]
    by_cases sameToken : token = entry.token
    · subst token
      simp only [if_true, reduceCtorEq, false_iff]
      intro held
      obtain ⟨stored, atOwner, owned⟩ := held
      by_cases mine : owner = identity
      · simp [mine] at atOwner
      · rw [if_neg mine] at atOwner
        exact mine (fenced.same_owner atOwner found owned)
    · by_cases mine : owner = identity
      · subst owner
        simp only [sameToken, if_false, if_true, reduceCtorEq, false_and, exists_false, iff_false]
        intro index
        obtain ⟨stored, atOwner, owned⟩ := (fenced.indexed token identity).mp index
        have equal := Option.some.inj (atOwner.symm.trans found)
        exact sameToken (equal ▸ owned.symm)
      · simpa [sameToken, mine] using fenced.indexed token owner
  bounded := Nat.le_trans (s.entries.size_pop_le identity) fenced.bounded
  distinct := fenced.distinct
  latest := by
    intro owner stored atOwner
    by_cases mine : owner = identity
    · simp [mine] at atOwner
    · simp only [Dict.get?_pop, if_neg mine] at atOwner
      exact fenced.latest owner stored atOwner

theorem presented (fenced : Fenced issues s) {call : Call T} {token : ReservationToken}
    (presents : call.presented = some token) : Fenced issues (s.answer call).2 := by
  rcases s.presented_cases presents with ⟨same, -⟩ | ⟨now, identity, entry, held, change⟩
  · rw [same]
    exact fenced
  · obtain ⟨-, found, owned, -⟩ := executing_some.mp held
    rcases change with ⟨expiresAt, state, run⟩ | run
    · rw [run]
      exact fenced.rewrite found rfl
    · rw [run, ← owned]
      exact fenced.release found

theorem reserve {past : List (Call T × Answer T)} (fenced : Fenced (issued past) s) {scope : IdempotencyScope}
    {key : String} {fingerprint : RequestFingerprint} {now : Int} {leaseTtl : Int}
    {token : ReservationToken} (fresh : token ∉ (issued past).map Prod.fst) :
    Fenced (issued (past ++ [(.reserve scope key fingerprint now leaseTtl token,
        (s.answer (.reserve scope key fingerprint now leaseTtl token)).1)]))
      (s.answer (.reserve scope key fingerprint now leaseTtl token)).2 := by
  have purged := fenced.purgeExpired now
  simp only [IdempotencyStore.answer, Prod.map_fst, Prod.map_snd, id_eq]
  rcases s.reserve_cases scope key fingerprint now leaseTtl token with
    ⟨_, run⟩ | ⟨_, run⟩ | ⟨current, found, run⟩ | ⟨_, run⟩ | ⟨expiresAt, keyed, absent, room, run⟩
  · rw [run, issued_unchanged rfl]
    exact fenced
  · rw [run, issued_unchanged rfl]
    exact purged
  · have undecided : issuedBy (Call.reserve scope key fingerprint now leaseTtl token,
        Answer.decision (.ok (current.decide fingerprint))) = none := by
      unfold Entry.decide
      split
      · rfl
      · split <;> rfl
    rw [run, issued_unchanged undecided]
    exact purged.moveToEnd ⟨scope, key⟩
  · rw [run, issued_unchanged rfl]
    exact purged
  · have grown : issued (past ++ [(Call.reserve scope key fingerprint now leaseTtl token,
        Answer.decision (.ok (.execute token)))]) = issued past ++ [(token, ⟨scope, key⟩)] := by
      simp [issued, issuedBy]
    rw [run, grown]
    exact purged.issue ⟨token, fingerprint, expiresAt, .reserved⟩ absent room fresh

/-- Every call keeps the fence, whatever its times and arguments. -/
theorem answer {past : List (Call T × Answer T)} (fenced : Fenced (issued past) s) {call : Call T}
    (fresh : FreshToken past call) :
    Fenced (issued (past ++ [(call, (s.answer call).1)])) (s.answer call).2 := by
  cases call with
  | reserve => exact fenced.reserve fresh
  | renew =>
    rw [issued_unchanged rfl]
    exact fenced.presented rfl
  | complete =>
    rw [issued_unchanged rfl]
    exact fenced.presented rfl
  | markUncertain =>
    rw [issued_unchanged rfl]
    exact fenced.presented rfl
  | abandon =>
    rw [issued_unchanged rfl]
    exact fenced.presented rfl
  | purge plan =>
    rw [issued_unchanged rfl]
    rcases s.purge_cases plan with same | ⟨selected, run, eligible⟩
    · simpa only [IdempotencyStore.answer, Prod.map_snd, id_eq, same] using fenced
    · simp only [IdempotencyStore.answer, Prod.map_snd, id_eq, run]
      exact fenced.remove fun item member => (eligible item member).1

end Fenced

theorem Run.fenced {capacity : Nat} {past : List (Call T × Answer T)} {s : IdempotencyStore T}
    (run : Run capacity past s) : Fenced (issued past) s :=
  run.invariant (P := fun past s => Fenced (issued past) s) (.start capacity)
    fun _ _ _ fenced fresh => fenced.answer fresh

theorem Run.capacity_eq {capacity : Nat} {past : List (Call T × Answer T)} {s : IdempotencyStore T}
    (run : Run capacity past s) : s.capacity = capacity :=
  run.state_invariant (P := fun s => s.capacity = capacity) rfl
    fun _ s call same _ => (s.answer_capacity call).trans same

theorem not_last_of_sublist {α : Type} {xs : List α} {a b : α} (nodup : xs.Nodup)
    (ordered : [a, b].Sublist xs) : xs.getLast? ≠ some a := by
  intro last
  obtain ⟨front, rfl⟩ := List.getLast?_eq_some_iff.mp last
  obtain ⟨l₁, l₂, split, left, right⟩ := List.sublist_append_iff.mp ordered
  have absent : a ∉ front := by
    intro member
    exact (List.nodup_append.mp nodup).2.2 a member a (List.mem_singleton_self a) rfl
  cases l₁ with
  | nil =>
    have short := right.length_le
    simp only [List.nil_append] at split
    simp [← split] at short
  | cons head rest =>
    have same : a = head := (List.cons.inj split).1
    exact absent (same ▸ left.subset (List.mem_cons_self ..))

/-- A token that was superseded for its identity has lost all authority. -/
theorem Fenced.superseded {issues : List (ReservationToken × IdempotencyIdentity)} {s : IdempotencyStore T}
    (fenced : Fenced issues s) {identity : IdempotencyIdentity} {earlier later : ReservationToken}
    (order : [(earlier, identity), (later, identity)].Sublist issues) (now : Int) :
    s.executing earlier now = none := by
  by_contra held
  obtain ⟨⟨owner, entry⟩, granted⟩ := Option.ne_none_iff_exists'.mp held
  obtain ⟨-, found, owned, -⟩ := executing_some.mp granted
  have ownerIssued := owned ▸ fenced.owner_issued found
  have earlierIssued : (earlier, identity) ∈ issues := order.subset (List.mem_cons_self ..)
  have sameOwner : owner = identity :=
    congrArg Prod.snd (List.inj_on_of_nodup_map fenced.distinct ownerIssued earlierIssued rfl)
  subst owner
  have last := fenced.latest identity entry found
  rw [owned] at last
  have ordered : [(earlier, identity), (later, identity)].Sublist (issues.filter (·.2 = identity)) := by
    simpa using order.filter (fun issue => decide (issue.2 = identity))
  have nodup : (issues.filter (·.2 = identity)).Nodup := fenced.distinct.of_map.filter _
  exact not_last_of_sublist nodup ordered last

/-- Once a later token has been issued for an identity, no call that presents
an earlier one is granted or changes anything, in whatever state it arrives;
and the token index and the capacity hold in every state reached. -/
theorem fencing_over_runs {capacity : Nat} {past : List (Call T × Answer T)} {s : IdempotencyStore T}
    (run : Run capacity past s) :
    (∀ identity earlier later, [(earlier, identity), (later, identity)].Sublist (issued past) →
      ∀ call : Call T, call.presented = some earlier →
        (s.answer call).2 = s ∧ (s.answer call).1.granted = false) ∧
    (∀ token identity, s.tokens.get? token = some identity ↔
      ∃ entry, s.entries.get? identity = some entry ∧ entry.token = token) ∧
    s.entries.size ≤ capacity := by
  have fenced := run.fenced
  refine ⟨?_, fenced.indexed, run.capacity_eq ▸ fenced.bounded⟩
  intro identity earlier later order call presents
  rcases s.presented_cases presents with refused | ⟨now, owner, entry, held, -⟩
  · exact refused
  · simp [fenced.superseded order now] at held

theorem fencing_after_takeover :
    ∃ (past : List (Call Nat × Answer Nat)) (s : IdempotencyStore Nat) (identity : IdempotencyIdentity)
      (earlier later : ReservationToken), Run 1 past s ∧
      [(earlier, identity), (later, identity)].Sublist (issued past) ∧
      (s.answer (.complete earlier 0 6 10)).2 = s ∧
      (s.answer (.complete earlier 0 6 10)).1.granted = false := by
  let scope : IdempotencyScope := ⟨"shop", "customer", "order", by decide⟩
  let fingerprint : RequestFingerprint := ⟨"f"⟩
  let a : ReservationToken := ⟨"a", by decide⟩
  let b : ReservationToken := ⟨"b", by decide⟩
  obtain ⟨past, s, run, order⟩ : ∃ past s, Run (T := Nat) 1 past s ∧
      [(a, (⟨scope, "key"⟩ : IdempotencyIdentity)), (b, ⟨scope, "key"⟩)].Sublist (issued past) := by
    refine ⟨_, _, .next (.reserve scope "key" fingerprint 5 5 b)
      (.next (.reserve scope "key" fingerprint 0 5 a) .start ?_) ?_, by decide⟩
    · simp [FreshToken, issued]
    · simp only [FreshToken]
      decide
  exact ⟨past, s, _, a, b, run, order, (fencing_over_runs run).1 _ a b order (.complete a 0 6 10) rfl⟩

end Pytitect.IdempotencyStore
