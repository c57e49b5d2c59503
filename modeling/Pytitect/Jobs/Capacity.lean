import Pytitect.Jobs.Materialize

namespace Pytitect.JobStore
variable {D : Type} {s t : JobStore D} {call : Call D} {now limit : Int}
  {policies : Dict String (JobSchedule → PolicyAnswer)}

/-- What `_ensure_capacity` counts. -/
def total (s : JobStore D) : Nat := s.jobs.size + s.schedules.size + s.decisions.length

/-- The store is well kept and within a capacity. -/
structure Within (capacity : Nat) (s : JobStore D) : Prop where
  kept : Kept s
  sameCapacity : s.capacity = capacity
  bounded : s.total ≤ capacity

/-- A job that succeeds does so while there is room for its decision beside everything else. -/
def Roomy (s : JobStore D) : Call D → Prop
  | .succeed claim _ => s.valid claim ≠ none → s.total < s.capacity
  | _ => True

theorem ensureCapacity_ok {count : Nat} (room : s.ensureCapacity count = .ok ()) : s.total + count ≤ s.capacity := by
  unfold ensureCapacity at room
  split at room
  · cases room
  · unfold total
    omega

/-- What a step may do to the counted sizes: nothing, or add one for which there was room. -/
structure Grows (s t : JobStore D) : Prop where
  capacity : t.capacity = s.capacity
  total : s.total ≤ s.capacity → t.total ≤ s.capacity

theorem Grows.same (capacity : t.capacity = s.capacity) (total : t.total = s.total) : Grows s t :=
  ⟨capacity, fun bounded => total ▸ bounded⟩

theorem Grows.trans {u : JobStore D} (first : Grows s t) (second : Grows t u) : Grows s u :=
  ⟨second.capacity.trans first.capacity, fun bounded => first.capacity ▸ second.total (first.capacity.symm ▸ first.total bounded)⟩

theorem Grows.one (room : s.ensureCapacity 1 = .ok ()) (capacity : t.capacity = s.capacity) (total : t.total = s.total + 1) :
    Grows s t := by
  have fits := ensureCapacity_ok room
  exact ⟨capacity, fun _ => by omega⟩

theorem schedule_grows (s : JobStore D) (job : Job) : Grows s (s.schedule job).2 := by
  unfold schedule
  split
  · exact .same rfl rfl
  rename_i absent
  split
  · exact .same rfl rfl
  · rename_i room
    refine .one room rfl ?_
    simp only [total, Dict.size_set_of_absent absent]
    omega

theorem addSchedule_grows (s : JobStore D) (schedule : JobSchedule) : Grows s (s.addSchedule schedule).2 := by
  unfold addSchedule
  split
  · exact .same rfl rfl
  rename_i absent
  split
  · exact .same rfl rfl
  · rename_i room
    refine .one room rfl ?_
    simp only [total, Dict.size_set_of_absent absent]
    omega

theorem claim_grows (s : JobStore D) (now limit claimTtl : Int) (claimIds : Nat → Uuid) :
    Grows s (s.claim now limit claimTtl claimIds).2 := by
  have claimed := s.claim_claimed now limit claimTtl claimIds
  generalize (s.claim now limit claimTtl claimIds).1 = result at claimed
  generalize (s.claim now limit claimTtl claimIds).2 = after at claimed ⊢
  cases claimed with
  | refused => exact .same rfl rfl
  | spoiled error entry member =>
    refine .same rfl ?_
    simp only [total, Dict.size_set_of_mem (Dict.keys_of_get? (mem_ready member).1)]
  | allReady =>
    refine .same rfl ?_
    have present : ∀ entry ∈ marked claimIds (now + claimTtl) (s.ready now limit), entry.1 ∈ s.jobs.keys := by
      intro entry member
      obtain ⟨i, bound, rfl⟩ := List.mem_mapIdx.mp member
      exact Dict.keys_of_get? (mem_ready (List.getElem_mem bound)).1
    simp only [total, Dict.size_setAll_of_mem present]

theorem Settled.sizes {claim : JobClaim} {result : Except PyError JobTransition} (settled : Settled s claim call result t) :
    t.capacity = s.capacity ∧ t.jobs.size = s.jobs.size ∧ t.schedules = s.schedules := by
  cases settled with
  | kept => exact ⟨rfl, rfl, rfl⟩
  | done transition item job found => exact ⟨rfl, Dict.size_set_of_mem (Dict.keys_of_get? found), rfl⟩

theorem retry_grows (s : JobStore D) (claim : JobClaim) (reason : String) (runAt : Int) : Grows s (s.retry claim reason runAt).2 := by
  obtain ⟨capacity, jobs, schedules⟩ := (s.retry_settled claim reason runAt).sizes
  have decisions : (s.retry claim reason runAt).2.decisions = s.decisions := by
    unfold retry
    split
    · rfl
    split
    · rfl
    split
    · rfl
    split
    · rfl
    · rfl
  exact .same capacity (by rw [total, total, jobs, schedules, decisions])

theorem terminate_grows (s : JobStore D) (claim : JobClaim) (reason : String) : Grows s (s.terminate claim reason).2 := by
  obtain ⟨capacity, jobs, schedules⟩ := (s.terminate_settled claim reason).sizes
  have decisions : (s.terminate claim reason).2.decisions = s.decisions := by
    unfold terminate
    split
    · rfl
    split
    · rfl
    · rfl
  exact .same capacity (by rw [total, total, jobs, schedules, decisions])

theorem createJob_grows (s : JobStore D) (schedule : JobSchedule) : Grows s (s.createJob schedule).2 := by
  have created := s.createJob_created schedule
  generalize (s.createJob schedule).1 = result at created
  generalize (s.createJob schedule).2 = after at created ⊢
  cases created with
  | refused => exact .same rfl rfl
  | present => exact .same rfl rfl
  | stored job absent room =>
    refine .one room rfl ?_
    simp only [total, Dict.size_set_of_absent (Dict.get?_eq_none.mp absent)]
    omega

theorem materializeLoop_grows {order : List JobSchedule} {created : Nat}
    (known : ∀ schedule ∈ order, schedule.scheduleId ∈ s.schedules.keys) :
    Grows s (materializeLoop now limit policies order created s).2 := by
  induction order generalizing created s with
  | nil => exact .same rfl rfl
  | cons schedule rest ih =>
    have knownRest : ∀ other ∈ rest, other.scheduleId ∈ s.schedules.keys := fun other member => known other (List.mem_cons_of_mem _ member)
    have grows := s.createJob_grows schedule
    have schedules := s.createJob_schedules schedule
    by_cases skipped : Skipped now limit schedule created
    · rw [loop_skipped skipped]
      exact ih knownRest
    cases did : s.createJob schedule with
    | mk result after =>
      rw [did] at grows schedules
      cases result with
      | error error =>
        rw [loop_refused skipped did]
        exact grows
      | ok new =>
        cases advanced : advanceSchedule schedule policies with
        | error error =>
          rw [loop_stuck skipped did advanced]
          exact grows
        | ok following =>
          rw [loop_next skipped did advanced]
          have present : schedule.scheduleId ∈ after.schedules.keys := schedules ▸ known schedule (List.mem_cons_self ..)
          have set : Grows after { after with schedules := after.schedules.set schedule.scheduleId following } :=
            .same rfl (by simp only [total, Dict.size_set_of_mem present])
          refine (grows.trans set).trans (ih fun other member => ?_)
          by_contra absent
          have none := Dict.get?_eq_none.mpr absent
          rw [Dict.get?_set] at none
          split at none
          · cases none
          · rw [schedules] at none
            exact Dict.get?_eq_none.mp none (knownRest other member)

theorem materialize_grows (arranged : Arranged s) : Grows s (s.materialize now limit policies).2 := by
  unfold materialize
  split
  · exact .same rfl rfl
  · exact materializeLoop_grows fun schedule member => Dict.keys_of_get? ((mem_order arranged).mp member)

/-- A success is the one step that is not checked against everything that is counted. -/
theorem succeed_within {capacity : Nat} (within : Within capacity s) (claim : JobClaim) (decision : D) :
    (s.succeed claim decision).2.capacity = capacity ∧
      ((s.succeed claim decision).2.total ≤ capacity ↔ Roomy s (.succeed claim decision)) := by
  have bounded := within.bounded
  have sameCapacity := within.sameCapacity
  unfold succeed Roomy
  split
  · rename_i stale
    exact ⟨sameCapacity, iff_of_true bounded fun valid => absurd stale valid⟩
  rename_i item valid
  obtain ⟨found, -⟩ := valid_some valid
  have oneJob : 0 < s.jobs.size := by
    have member := Dict.mem_items.mpr found
    exact List.length_pos_of_mem member
  split
  · rename_i full
    -- The decisions alone cannot fill the store: the job of the claim is counted too.
    unfold total at bounded
    omega
  · refine ⟨sameCapacity, ?_⟩
    have size : ∀ value : StoredJob, (s.jobs.set claim.job.jobId value).size = s.jobs.size :=
      fun _ => Dict.size_set_of_mem (Dict.keys_of_get? found)
    simp only [total, settle, size, List.length_append, List.length_singleton, valid]
    constructor
    · intro after _
      omega
    · intro roomy
      have room := roomy (by simp)
      omega

theorem within_next {capacity : Nat} (within : Within capacity s) (call : Call D) :
    Within capacity (s.answer call).2 ↔ Roomy s call := by
  have kept := within.kept.next call
  have of_grows : Grows s (s.answer call).2 → Within capacity (s.answer call).2 := by
    intro grows
    refine ⟨kept, grows.capacity.trans within.sameCapacity, ?_⟩
    have total := grows.total (within.sameCapacity ▸ within.bounded)
    rw [within.sameCapacity] at total
    exact total
  cases call with
  | schedule job => exact iff_of_true (of_grows (s.schedule_grows job)) trivial
  | claim now limit claimTtl claimIds =>
    refine iff_of_true (of_grows ?_) trivial
    simp only [answer]
    exact s.claim_grows now limit claimTtl claimIds
  | retry claim reason runAt =>
    refine iff_of_true (of_grows ?_) trivial
    simp only [answer]
    exact s.retry_grows claim reason runAt
  | terminate claim reason =>
    refine iff_of_true (of_grows ?_) trivial
    simp only [answer]
    exact s.terminate_grows claim reason
  | addSchedule schedule => exact iff_of_true (of_grows (s.addSchedule_grows schedule)) trivial
  | materialize now limit policies => exact iff_of_true (of_grows (materialize_grows within.kept.arranged)) trivial
  | succeed claim decision =>
    obtain ⟨sameCapacity, exactly⟩ := succeed_within within claim decision
    rw [← exactly]
    simp only [answer] at kept ⊢
    exact ⟨fun after => after.bounded, fun bounded => ⟨kept, sameCapacity, bounded⟩⟩

theorem answer_capacity (kept : Kept s) (call : Call D) : (s.answer call).2.capacity = s.capacity := by
  cases call with
  | schedule job => exact (s.schedule_grows job).capacity
  | claim now limit claimTtl claimIds =>
    simp only [answer]
    exact (s.claim_grows now limit claimTtl claimIds).capacity
  | succeed claim decision =>
    simp only [answer]
    exact (s.succeed_settled kept.keyed claim decision).sizes.1
  | retry claim reason runAt =>
    simp only [answer]
    exact (s.retry_grows claim reason runAt).capacity
  | terminate claim reason =>
    simp only [answer]
    exact (s.terminate_grows claim reason).capacity
  | addSchedule schedule => exact (s.addSchedule_grows schedule).capacity
  | materialize now limit policies => exact (materialize_grows kept.arranged).capacity

theorem after_capacity (kept : Kept s) (calls : List (Call D)) : (History.after answer s calls).capacity = s.capacity := by
  induction calls generalizing s with
  | nil => rfl
  | cons call rest ih => exact (ih (kept.next call)).trans (answer_capacity kept call)

/-- In a run on an empty store, what is counted is within the capacity throughout if and only if every
job that succeeds does so while there is room. -/
theorem total_bounded_iff (capacity : Nat) (calls : List (Call D)) :
    (∀ k, (History.after answer (empty capacity) (calls.take k)).total ≤ capacity) ↔
      ∀ k call, calls[k]? = some call → (History.after answer (empty capacity) (calls.take k)).Roomy call := by
  have start : Within (D := D) capacity (empty capacity) := ⟨.start capacity, rfl, Nat.zero_le _⟩
  rw [← History.throughout_iff start fun s call within => within_next within call]
  refine forall_congr' fun k => ⟨fun bounded => ?_, Within.bounded⟩
  exact ⟨(Kept.start capacity).after _, after_capacity (.start capacity) _, bounded⟩

end Pytitect.JobStore
