import Pytitect.Jobs.Steps

namespace Pytitect.JobStore
variable {D : Type} {s t : JobStore D} {past : List (Call D × Answer)} {event : Call D × Answer} {call : Call D}
  {claim : JobClaim}

/-- The store after a run. -/
structure Agrees (past : List (Call D × Answer)) (s : JobStore D) : Prop where
  own : ∀ jobId item, s.jobs.get? jobId = some item → item.job.jobId = jobId
  sound : claiming.Sound (issued past) (Drawn past) s.jobs
  stored : ∀ claim ∈ issued past, ∃ item, s.jobs.get? claim.job.jobId = some item
  presented : ∀ claim ∈ settledIn past, claim ∈ issued past
  gone : ∀ claim ∈ settledIn past, ∀ jobId item, s.jobs.get? jobId = some item → item.claimId ≠ some claim.claimId
  once : ((settledIn past).map (·.claimId)).Nodup
  ended : ∀ claim ∈ endedIn past, ∃ item, s.jobs.get? claim.job.jobId = some item ∧ item.job.state ≠ .scheduled
  endedOnce : ((endedIn past).map (·.job.jobId)).Nodup
  decisions : s.decisions = decidedIn past
  decided : ∀ entry ∈ decidedIn past, ∃ item, s.jobs.get? entry.1 = some item ∧ item.job.state = .succeeded
  decidedOnce : ((decidedIn past).map Prod.fst).Nodup
  succeeded : ∀ claim ∈ settledIn past, ∀ item, s.jobs.get? claim.job.jobId = some item → item.job.state = .succeeded →
    claim.job.jobId ∈ (decidedIn past).map Prod.fst

theorem issued_append : issued (past ++ [event]) = issued past ++ issuedBy event := by
  simp [issued]

theorem settledIn_append : settledIn (past ++ [event]) = settledIn past ++ (settledBy event).toList := by
  rw [settledIn, List.filterMap_append]
  cases settled : settledBy event <;> simp [settledIn, settled]

theorem endedIn_append : endedIn (past ++ [event]) = endedIn past ++ (endedBy event).toList := by
  rw [endedIn, List.filterMap_append]
  cases ended : endedBy event <;> simp [endedIn, ended]

theorem decidedIn_append : decidedIn (past ++ [event]) = decidedIn past ++ (decidedBy event).toList := by
  rw [decidedIn, List.filterMap_append]
  cases decided : decidedBy event <;> simp [decidedIn, decided]

theorem Drawn.append {claimId : Uuid} (drawn : Drawn past claimId) : Drawn (past ++ [event]) claimId := by
  obtain ⟨earlier, member, rest⟩ := drawn
  exact ⟨earlier, List.mem_append_left _ member, rest⟩

/-- A step that settles nothing: the jobs that are there stay as they are, under their claims or
under ids that were not drawn before. -/
structure Quiet (drawn : Uuid → Prop) (s t : JobStore D) : Prop where
  kept : ∀ jobId item, s.jobs.get? jobId = some item → ∃ next, t.jobs.get? jobId = some next ∧ next.job = item.job
  origin : ∀ jobId next, t.jobs.get? jobId = some next →
    s.jobs.get? jobId = none ∧ next.job.jobId = jobId ∧ next.claimId = none ∨
      ∃ item, s.jobs.get? jobId = some item ∧ next.job = item.job ∧
        (next.claimId = item.claimId ∨ ∃ claimId, next.claimId = some claimId ∧ ¬drawn claimId)
  decisions : t.decisions = s.decisions

theorem Grown.quiet (grown : Grown s t) (drawn : Uuid → Prop) : Quiet drawn s t := by
  refine ⟨fun jobId item found => ?_, fun jobId next found => ?_, grown.decisions⟩
  · rcases grown.jobs jobId with same | ⟨absent, -⟩
    · exact ⟨item, same.trans found, rfl⟩
    · cases absent.symm.trans found
  · rcases grown.jobs jobId with same | ⟨absent, job, own, added⟩
    · exact Or.inr ⟨next, same.symm.trans found, rfl, Or.inl rfl⟩
    · cases added.symm.trans found
      exact Or.inl ⟨absent, own, rfl⟩

section
variable {now limit claimTtl : Int} {claimIds : Nat → Uuid} {result : Except PyError (List JobClaim)}

theorem Claimed.quiet {drawn : Uuid → Prop} (claimed : Claimed s now limit claimTtl claimIds result t)
    (unused : ∀ i, ¬drawn (claimIds i)) : Quiet drawn s t := by
  cases claimed with
  | refused => exact (Grown.of_same rfl rfl).quiet drawn
  | spoiled error entry member =>
    obtain ⟨found, -⟩ := mem_ready member
    refine ⟨fun jobId item was => ?_, fun jobId next is => ?_, rfl⟩
    · dsimp only
      rw [Dict.get?_set]
      split
      · rename_i mine
        rw [mine] at was
        cases found.symm.trans was
        exact ⟨_, rfl, rfl⟩
      · exact ⟨item, was, rfl⟩
    · rcases Dict.get?_set_cases is with ⟨rfl, rfl⟩ | ⟨-, same⟩
      · exact Or.inr ⟨entry.2, found, rfl, Or.inr ⟨_, rfl, unused 0⟩⟩
      · exact Or.inr ⟨next, same, rfl, Or.inl rfl⟩
  | allReady =>
    have cases := Dict.get?_setAll_mapIdx s.jobs (fun i entry => (⟨entry.2.job, some (claimIds i), some (now + claimTtl),
      entry.2.fencingToken + 1⟩ : StoredJob)) (ready_distinct : ((s.ready now limit).map Prod.fst).Nodup)
    refine ⟨fun jobId item was => ?_, fun jobId next is => ?_, rfl⟩
    · rcases cases jobId with ⟨i, entry, isEntry, rfl, marked⟩ | ⟨-, same⟩
      · cases (mem_ready (List.mem_of_getElem? isEntry)).1.symm.trans was
        exact ⟨_, marked, rfl⟩
      · exact ⟨item, same.trans was, rfl⟩
    · rcases cases jobId with ⟨i, entry, isEntry, rfl, marked⟩ | ⟨-, same⟩
      · cases marked.symm.trans is
        exact Or.inr ⟨entry.2, (mem_ready (List.mem_of_getElem? isEntry)).1, rfl, Or.inr ⟨_, rfl, unused i⟩⟩
      · exact Or.inr ⟨next, same.symm.trans is, rfl, Or.inl rfl⟩

/-- What a claim call hands out is held by its jobs. -/
theorem holding_handed (own : ∀ jobId item, s.jobs.get? jobId = some item → item.job.jobId = jobId) (claimedUntil : Int) :
    List.Forall₂ (Claiming.Sound.Holding claiming) (handed claimIds claimedUntil (s.ready now limit))
      (marked claimIds claimedUntil (s.ready now limit)) := by
  refine List.forall₂_iff_get.mpr ⟨by simp [handed, marked], fun i inHanded inMarked => ?_⟩
  simp only [handed, marked, List.get_eq_getElem, List.getElem_mapIdx]
  have inReady : i < (s.ready now limit).length := by simpa [handed] using inHanded
  obtain ⟨found, -⟩ := mem_ready (List.getElem_mem inReady)
  exact ⟨own _ _ found, rfl, rfl, rfl, rfl⟩

/-- The claims that a claim call answers with. -/
def reported : Except PyError (List JobClaim) → List JobClaim
  | .ok claims => claims
  | .error _ => []

theorem Claimed.sound {issues : List JobClaim} {drawn : Uuid → Prop} (claimed : Claimed s now limit claimTtl claimIds result t)
    (sound : claiming.Sound issues drawn s.jobs) (own : ∀ jobId item, s.jobs.get? jobId = some item → item.job.jobId = jobId)
    (injective : Function.Injective claimIds) (unused : ∀ i, ¬drawn (claimIds i)) :
    claiming.Sound (issues ++ reported result) (fun claimId => drawn claimId ∨ ∃ i, claimIds i = claimId) t.jobs := by
  cases claimed with
  | refused =>
    rw [reported, List.append_nil]
    exact sound.drawMore fun _ => Or.inl
  | spoiled error entry member =>
    rw [reported, List.append_nil]
    exact sound.replace (fun _ => Or.inl) (.fresh (claimIds 0) rfl (unused 0) (Or.inr ⟨0, rfl⟩))
  | allReady =>
    have ids : (handed claimIds (now + claimTtl) (s.ready now limit)).map claiming.ident =
        (List.range (s.ready now limit).length).map claimIds := by
      refine List.ext_getElem (by simp [handed]) fun i inHanded inRange => ?_
      simp [handed, claiming]
    have issued := sound.issueAll (holding_handed own (now + claimTtl)) (ids ▸ List.nodup_range.map injective)
      fun claim member => by
        have among := (List.mem_map_of_mem member : claiming.ident claim ∈ _)
        rw [ids] at among
        obtain ⟨i, -, same⟩ := List.mem_map.mp among
        exact same ▸ unused i
    refine issued.drawMore fun claimId known => known.imp_right fun among => ?_
    rw [ids] at among
    obtain ⟨i, -, same⟩ := List.mem_map.mp among
    exact ⟨i, same⟩

theorem Claimed.stored (claimed : Claimed s now limit claimTtl claimIds result t)
    (own : ∀ jobId item, s.jobs.get? jobId = some item → item.job.jobId = jobId) :
    ∀ claim ∈ reported result, ∃ item, s.jobs.get? claim.job.jobId = some item := by
  cases claimed with
  | refused => simp [reported]
  | spoiled => simp [reported]
  | allReady =>
    intro claim member
    obtain ⟨i, bound, rfl⟩ := List.mem_mapIdx.mp member
    obtain ⟨found, -⟩ := mem_ready (List.getElem_mem bound)
    dsimp only
    rw [own _ _ found]
    exact ⟨_, found⟩

end

theorem Agrees.quiet (agrees : Agrees past s) (quiet : Quiet (Drawn past) s t) (settled : settledBy event = none)
    (ended : endedBy event = none) (decided : decidedBy event = none)
    (sound : claiming.Sound (issued past ++ issuedBy event) (Drawn (past ++ [event])) t.jobs)
    (stored : ∀ claim ∈ issuedBy event, ∃ item, s.jobs.get? claim.job.jobId = some item) : Agrees (past ++ [event]) t := by
  have sameSettled : settledIn (past ++ [event]) = settledIn past := by rw [settledIn_append, settled]; exact List.append_nil _
  have sameEnded : endedIn (past ++ [event]) = endedIn past := by rw [endedIn_append, ended]; exact List.append_nil _
  have sameDecided : decidedIn (past ++ [event]) = decidedIn past := by rw [decidedIn_append, decided]; exact List.append_nil _
  have state : ∀ (holds : JobState → Prop) (jobId : String),
      (∃ item, s.jobs.get? jobId = some item ∧ holds item.job.state) → ∃ item, t.jobs.get? jobId = some item ∧ holds item.job.state := by
    rintro holds jobId ⟨item, found, is⟩
    obtain ⟨next, foundNext, same⟩ := quiet.kept jobId item found
    exact ⟨next, foundNext, same ▸ is⟩
  constructor
  · intro jobId next found
    rcases quiet.origin jobId next found with ⟨-, own, -⟩ | ⟨item, was, same, -⟩
    · exact own
    · rw [same]
      exact agrees.own jobId item was
  · rw [issued_append]
    exact sound
  · rw [issued_append]
    intro claim member
    obtain ⟨item, found⟩ : ∃ item, s.jobs.get? claim.job.jobId = some item :=
      (List.mem_append.mp member).elim (agrees.stored claim) (stored claim)
    obtain ⟨next, foundNext, -⟩ := quiet.kept _ item found
    exact ⟨next, foundNext⟩
  · rw [sameSettled, issued_append]
    exact fun claim member => List.mem_append_left _ (agrees.presented claim member)
  · rw [sameSettled]
    intro claim member jobId next found holds
    rcases quiet.origin jobId next found with ⟨-, -, free⟩ | ⟨item, was, -, same | ⟨claimId, isNew, unused⟩⟩
    · cases free.symm.trans holds
    · exact agrees.gone claim member jobId item was (same.symm.trans holds)
    · cases isNew.symm.trans holds
      exact unused (agrees.sound.supplied claim (agrees.presented claim member))
  · rw [sameSettled]
    exact agrees.once
  · rw [sameEnded]
    exact fun claim member => state (· ≠ .scheduled) _ (agrees.ended claim member)
  · rw [sameEnded]
    exact agrees.endedOnce
  · rw [sameDecided, quiet.decisions]
    exact agrees.decisions
  · rw [sameDecided]
    exact fun entry member => state (· = .succeeded) _ (agrees.decided entry member)
  · rw [sameDecided]
    exact agrees.decidedOnce
  · rw [sameSettled, sameDecided]
    intro claim member next found isSucceeded
    obtain ⟨item, was⟩ := agrees.stored claim (agrees.presented claim member)
    obtain ⟨other, foundOther, same⟩ := quiet.kept _ item was
    cases found.symm.trans foundOther
    rw [same] at isSucceeded
    exact agrees.succeeded claim member item was isSucceeded

/-- A claim is settled: its job is replaced, and nobody holds it any longer. -/
theorem Agrees.done (agrees : Agrees past s) {item : StoredJob} {job : Job}
    (found : s.jobs.get? claim.job.jobId = some item) (held : item.claimId = some claim.claimId)
    (running : item.job.state = .scheduled) (own : job.jobId = item.job.jobId) (isIssued : claim ∈ issued past) (issuesNone : issuedBy event = []) (settles : settledBy event = some claim)
    (ends : endedBy event = if job.state = .scheduled then none else some claim)
    (decides : ∀ entry ∈ (decidedBy event).toList, entry.1 = claim.job.jobId)
    (decidesOne : (decidedBy event).isSome ↔ job.state = .succeeded) :
    Agrees (past ++ [event]) { s.settle claim item job with decisions := s.decisions ++ (decidedBy event).toList } := by
  have stays : ∀ {jobId : String} {stored : StoredJob}, s.jobs.get? jobId = some stored → stored.job.state ≠ .scheduled →
      jobId ≠ claim.job.jobId := by
    rintro jobId stored was isEnded rfl
    cases found.symm.trans was
    exact isEnded running
  constructor
  · intro jobId next is
    rcases Dict.get?_set_cases is with ⟨rfl, rfl⟩ | ⟨-, same⟩
    · exact own.trans (agrees.own _ item found)
    · exact agrees.own jobId next same
  · rw [issued_append, issuesNone, List.append_nil]
    exact (agrees.sound.drawMore fun _ => Drawn.append).put (.free rfl)
  · rw [issued_append, issuesNone, List.append_nil]
    intro other member
    dsimp only [settle]
    rw [Dict.get?_set]
    split
    · exact ⟨_, rfl⟩
    · exact agrees.stored other member
  · rw [issued_append, issuesNone, List.append_nil, settledIn_append, settles]
    intro other member
    rcases List.mem_append.mp member with before | now
    · exact agrees.presented other before
    · cases List.mem_singleton.mp now
      exact isIssued
  · rw [settledIn_append, settles]
    intro other member jobId next is holds
    rcases List.mem_append.mp member with before | now
    · rcases Dict.get?_set_cases is with ⟨-, rfl⟩ | ⟨-, same⟩
      · cases holds
      · exact agrees.gone other before jobId next same holds
    · cases List.mem_singleton.mp now
      exact agrees.sound.released found held rfl is holds
  · rw [settledIn_append, settles, List.map_append, List.nodup_append]
    refine ⟨agrees.once, List.nodup_singleton _, fun first old second new same => ?_⟩
    obtain ⟨earlier, member, isFirst⟩ := List.mem_map.mp old
    cases List.mem_singleton.mp new
    exact agrees.gone earlier member _ item found (held.trans (congrArg some (isFirst.trans same).symm))
  · rw [endedIn_append, ends]
    intro other member
    dsimp only [settle]
    rw [Dict.get?_set]
    rcases List.mem_append.mp member with before | now
    · obtain ⟨stored, was, isEnded⟩ := agrees.ended other before
      rw [if_neg (stays was isEnded)]
      exact ⟨stored, was, isEnded⟩
    · split at now
      · cases now
      · rename_i isEnded
        cases List.mem_singleton.mp now
        rw [if_pos rfl]
        exact ⟨_, rfl, isEnded⟩
  · rw [endedIn_append, ends, List.map_append, List.nodup_append]
    refine ⟨agrees.endedOnce, ?_, fun first old second new same => ?_⟩
    · split
      · exact List.nodup_nil
      · exact List.nodup_singleton _
    · obtain ⟨earlier, member, isFirst⟩ := List.mem_map.mp old
      obtain ⟨stored, was, isEnded⟩ := agrees.ended earlier member
      split at new
      · cases new
      · cases List.mem_singleton.mp new
        exact stays was isEnded (isFirst.trans same)
  · rw [decidedIn_append]
    exact congrArg (· ++ _) agrees.decisions
  · rw [decidedIn_append]
    intro entry member
    dsimp only [settle]
    rw [Dict.get?_set]
    rcases List.mem_append.mp member with before | now
    · obtain ⟨stored, was, isSucceeded⟩ := agrees.decided entry before
      rw [if_neg (stays was (by rw [isSucceeded]; simp))]
      exact ⟨stored, was, isSucceeded⟩
    · rw [if_pos (decides entry now)]
      refine ⟨_, rfl, decidesOne.mp ?_⟩
      rw [Option.mem_toList] at now
      exact Option.isSome_iff_exists.mpr ⟨entry, now⟩
  · rw [decidedIn_append, List.map_append, List.nodup_append]
    refine ⟨agrees.decidedOnce, ?_, fun first old second new same => ?_⟩
    · cases decidedBy event <;> simp
    · obtain ⟨earlier, member, isFirst⟩ := List.mem_map.mp old
      obtain ⟨later, inNew, isSecond⟩ := List.mem_map.mp new
      obtain ⟨stored, was, isSucceeded⟩ := agrees.decided earlier member
      refine stays was (by rw [isSucceeded]; simp) ?_
      rw [isFirst, same, ← isSecond]
      exact decides later inNew
  · rw [settledIn_append, settles, decidedIn_append, List.map_append]
    intro other member next is isSucceeded
    by_cases mine : other.job.jobId = claim.job.jobId
    · dsimp only [settle] at is
      rw [mine, Dict.get?_set_self] at is
      cases is
      obtain ⟨entry, isEntry⟩ := Option.isSome_iff_exists.mp (decidesOne.mpr isSucceeded)
      refine List.mem_append_right _ (List.mem_map.mpr ⟨entry, Option.mem_toList.mpr isEntry, ?_⟩)
      rw [mine]
      exact decides entry (Option.mem_toList.mpr isEntry)
    · dsimp only [settle] at is
      rw [Dict.get?_set_of_ne mine] at is
      rcases List.mem_append.mp member with before | now
      · exact List.mem_append_left _ (agrees.succeeded other before next is isSucceeded)
      · exact absurd (congrArg (·.job.jobId) (List.mem_singleton.mp now)) mine

theorem Agrees.start (capacity : Nat) : Agrees (D := D) [] (empty capacity) where
  own := fun _ _ found => (by cases found)
  sound := Claiming.Sound.start
  stored := by simp [issued]
  presented := by simp [settledIn]
  gone := by simp [settledIn]
  once := List.nodup_nil
  ended := by simp [endedIn]
  endedOnce := List.nodup_nil
  decisions := rfl
  decided := by simp [decidedIn]
  decidedOnce := List.nodup_nil
  succeeded := by simp [settledIn]

theorem Agrees.grown (agrees : Agrees past s) (grown : Grown s t) (settled : settledBy event = none)
    (ended : endedBy event = none) (decided : decidedBy event = none) (issues : issuedBy event = []) :
    Agrees (past ++ [event]) t := by
  refine agrees.quiet (grown.quiet _) settled ended decided ?_ (by simp [issues])
  rw [issues, List.append_nil]
  refine (agrees.sound.drawMore fun _ => Drawn.append).extend fun jobId next found => ?_
  rcases grown.jobs jobId with same | ⟨-, job, -, added⟩
  · exact Or.inr (same.symm.trans found)
  · cases added.symm.trans found
    exact Or.inl rfl

/-- A settlement that presents an issued claim. -/
theorem Agrees.settled (agrees : Agrees past s) {result : Except PyError JobTransition} (presents : call.presented = some claim)
    (isIssued : claim ∈ issued past) (settled : Settled s claim call result t) : Agrees (past ++ [(call, .settled result)]) t := by
  cases settled with
  | kept _ stale =>
    have silent : settledBy (call, .settled result) = none ∧ endedBy (call, .settled result) = none := by
      rcases result with error | transition
      · exact ⟨rfl, rfl⟩
      · rw [stale transition rfl]
        exact ⟨rfl, rfl⟩
    have undecided : decidedBy (call, .settled result) = none := by
      refine decidedBy_unsettled fun succeeded => ?_
      cases stale .succeeded succeeded
    exact agrees.grown (.of_same rfl rfl) silent.1 silent.2 undecided rfl
  | done transition item job found held running notStale own state records =>
    refine agrees.done found held running own isIssued rfl ?_ ?_ records.own (records.one.trans ?_)
    · cases transition with
      | succeeded => exact presents
      | retried => exact presents
      | terminated => exact presents
      | stale => exact absurd rfl notStale
    · cases transition with
      | succeeded => rw [state]; exact presents
      | retried => rw [state]; rfl
      | terminated => rw [state]; exact presents
      | stale => exact absurd rfl notStale
    · rw [state]
      cases transition <;> simp [reached]

theorem Agrees.next (agrees : Agrees past s) (fresh : Fresh past call) : Agrees (past ++ [(call, (s.answer call).1)]) (s.answer call).2 := by
  cases call with
  | schedule job => exact agrees.grown (s.schedule_grown job) rfl rfl rfl rfl
  | addSchedule schedule => exact agrees.grown (s.addSchedule_grown schedule) rfl rfl rfl rfl
  | materialize now limit policies => exact agrees.grown (s.materialize_grown now limit policies) rfl rfl rfl rfl
  | claim now limit claimTtl claimIds =>
    obtain ⟨injective, unused⟩ := fresh
    have claimed := s.claim_claimed now limit claimTtl claimIds
    have same : issuedBy ((.claim now limit claimTtl claimIds : Call D), .claimed (s.claim now limit claimTtl claimIds).1) =
        reported (s.claim now limit claimTtl claimIds).1 := by
      cases (s.claim now limit claimTtl claimIds).1 <;> rfl
    have sound := claimed.sound agrees.sound agrees.own injective unused
    refine agrees.quiet (claimed.quiet unused) rfl rfl rfl ?_ (same ▸ claimed.stored agrees.own)
    rw [answer, same]
    refine sound.drawMore fun claimId known => ?_
    rcases known with before | ⟨i, rfl⟩
    · exact before.append
    · exact ⟨_, List.mem_append_right _ (List.mem_singleton_self _), now, limit, claimTtl, claimIds, i, rfl, rfl⟩
  | succeed claim decision =>
    simp only [answer]
    have isIssued : claim ∈ issued past := fresh
    exact agrees.settled rfl isIssued (s.succeed_settled agrees.own claim decision)
  | retry claim reason runAt =>
    simp only [answer]
    have isIssued : claim ∈ issued past := fresh
    exact agrees.settled rfl isIssued (s.retry_settled claim reason runAt)
  | terminate claim reason =>
    simp only [answer]
    have isIssued : claim ∈ issued past := fresh
    exact agrees.settled rfl isIssued (s.terminate_settled claim reason)

theorem Agrees.run {capacity : Nat} (run : Run capacity past s) : Agrees past s :=
  run.invariant (Agrees.start capacity) fun _ _ _ agrees fresh => agrees.next fresh

theorem Settled.held {given : JobClaim} {result : Except PyError JobTransition} (settled : Settled s given call result t)
    (presents : call.presented = some given) (settles : settledBy (call, .settled result) = some claim) :
    claim = given ∧ ∃ item, s.jobs.get? given.job.jobId = some item ∧ item.claimId = some given.claimId := by
  cases settled with
  | kept _ stale =>
    rcases result with error | transition
    · cases settles
    · rw [stale transition rfl] at settles
      cases settles
  | done transition item job found held running notStale =>
    have same : call.presented = some claim := by
      cases transition with
      | succeeded => exact settles
      | retried => exact settles
      | terminated => exact settles
      | stale => exact absurd rfl notStale
    exact ⟨Option.some.inj (same.symm.trans presents), item, found, held⟩

/-- A settlement that succeeds presents the last claim issued for its job. -/
theorem Agrees.settles (agrees : Agrees past s) (fresh : Fresh past call) (settles : settledBy (call, (s.answer call).1) = some claim) :
    (claiming.issuedFor claim.job.jobId (issued past)).getLast? = some claim := by
  have last : ∀ given result after, Settled s given call result after → call.presented = some given → given ∈ issued past →
      settledBy (call, .settled result) = some claim →
      (claiming.issuedFor claim.job.jobId (issued past)).getLast? = some claim := by
    intro given result after settled presents isIssued settles
    obtain ⟨rfl, item, found, held⟩ := settled.held presents settles
    exact (agrees.sound.latest _ item claim found isIssued held).1
  cases call with
  | schedule => cases settles
  | claim => cases settles
  | addSchedule => cases settles
  | materialize => cases settles
  | succeed given decision =>
    simp only [answer] at settles
    exact last given _ _ (s.succeed_settled agrees.own given decision) rfl fresh settles
  | retry given reason runAt =>
    simp only [answer] at settles
    exact last given _ _ (s.retry_settled given reason runAt) rfl fresh settles
  | terminate given reason =>
    simp only [answer] at settles
    exact last given _ _ (s.terminate_settled given reason) rfl fresh settles

/-- The jobs that have ended are the same in the second store. -/
def Rests (s t : JobStore D) : Prop :=
  ∀ jobId job, s.get jobId = some job → job.state ≠ .scheduled → t.get jobId = some job

theorem Quiet.rests {drawn : Uuid → Prop} (quiet : Quiet drawn s t) : Rests s t := by
  intro jobId job found _
  obtain ⟨item, stored, rfl⟩ := Option.map_eq_some_iff.mp found
  obtain ⟨next, foundNext, same⟩ := quiet.kept jobId item stored
  rw [get, foundNext, Option.map_some, same]

theorem Settled.rests {result : Except PyError JobTransition} (settled : Settled s claim call result t) : Rests s t := by
  cases settled with
  | kept => exact fun _ _ found _ => found
  | done transition item job found held running =>
    intro jobId ended stored isEnded
    have different : jobId ≠ claim.job.jobId := by
      rintro rfl
      rw [get, found, Option.map_some, Option.some.injEq] at stored
      exact isEnded (stored ▸ running)
    rw [get] at stored ⊢
    dsimp only [settle]
    rw [Dict.get?_set_of_ne different]
    exact stored

theorem Agrees.rests (agrees : Agrees past s) (fresh : Fresh past call) : Rests s (s.answer call).2 := by
  cases call with
  | schedule job =>
    simp only [answer]
    exact ((s.schedule_grown job).quiet (Drawn past)).rests
  | addSchedule schedule =>
    simp only [answer]
    exact ((s.addSchedule_grown schedule).quiet (Drawn past)).rests
  | materialize now limit policies =>
    simp only [answer]
    exact ((s.materialize_grown now limit policies).quiet (Drawn past)).rests
  | claim now limit claimTtl claimIds =>
    simp only [answer]
    exact ((s.claim_claimed now limit claimTtl claimIds).quiet fresh.2).rests
  | succeed claim decision =>
    simp only [answer]
    exact (s.succeed_settled agrees.own claim decision).rests
  | retry claim reason runAt =>
    simp only [answer]
    exact (s.retry_settled claim reason runAt).rests
  | terminate claim reason =>
    simp only [answer]
    exact (s.terminate_settled claim reason).rests

theorem settled_of_decided {entry : String × D} (decided : entry ∈ decidedIn past) :
    ∃ claim ∈ settledIn past, claim.job.jobId = entry.1 := by
  obtain ⟨event, member, decides⟩ := List.mem_filterMap.mp decided
  unfold decidedBy at decides
  split at decides
  · rename_i claim decision
    cases decides
    exact ⟨claim, List.mem_filterMap.mpr ⟨_, member, rfl⟩, rfl⟩
  · cases decides

/-- A settlement succeeds for the last claim issued for its job and once for a claim; a job ends
once and rests from then on; the decisions are those of the jobs that succeeded. -/
theorem job_settlement_fenced {capacity : Nat} (run : Run capacity past s) :
    (∀ before event after, past = before ++ event :: after → ∀ claim, settledBy event = some claim →
      (claiming.issuedFor claim.job.jobId (issued before)).getLast? = some claim) ∧
    ((settledIn past).map (·.claimId)).Nodup ∧ ((endedIn past).map (·.job.jobId)).Nodup ∧
    (∀ rest t, History answer (fun _ later => Fresh (past ++ later)) s rest t → Rests s t) ∧
    s.decisions = decidedIn past ∧ (s.decisions.map Prod.fst).Nodup ∧
    (∀ jobId, jobId ∈ s.decisions.map Prod.fst ↔
      (∃ job, s.get jobId = some job ∧ job.state = .succeeded) ∧ ∃ claim ∈ settledIn past, claim.job.jobId = jobId) ∧
    ∀ jobId job, s.get jobId = some job → job.attempt ≤ job.maxAttempts := by
  have agrees := Agrees.run run
  refine ⟨fun before event after split => ?_, agrees.once, agrees.endedOnce, fun rest t further => ?_, agrees.decisions,
    agrees.decisions ▸ agrees.decidedOnce, fun jobId => ?_, fun jobId job _ => job.counted.2.2⟩
  · exact run.each (P := fun before event => ∀ claim, settledBy event = some claim →
        (claiming.issuedFor claim.job.jobId (issued before)).getLast? = some claim)
      (fun past s call run fresh claim settles => (Agrees.run run).settles fresh settles) split
  · have kept := further.invariant (P := fun later t => Agrees (past ++ later) t ∧ Rests s t)
      ⟨(List.append_nil past).symm ▸ agrees, fun _ _ found _ => found⟩ fun later t call ⟨agreesThen, rests⟩ fresh => by
        refine ⟨?_, fun jobId job found isEnded => ?_⟩
        · rw [← List.append_assoc]
          exact agreesThen.next fresh
        · exact agreesThen.rests fresh jobId job (rests jobId job found isEnded) isEnded
    exact kept.2
  · rw [agrees.decisions]
    constructor
    · intro member
      obtain ⟨entry, decided, rfl⟩ := List.mem_map.mp member
      obtain ⟨item, found, isSucceeded⟩ := agrees.decided entry decided
      exact ⟨⟨item.job, by rw [get, found]; rfl, isSucceeded⟩, settled_of_decided decided⟩
    · rintro ⟨⟨job, found, isSucceeded⟩, claim, member, rfl⟩
      obtain ⟨item, stored, rfl⟩ := Option.map_eq_some_iff.mp found
      exact agrees.succeeded claim member item stored isSucceeded

def sampleJob (jobId : String) (named : jobId ≠ "") (maxAttempts : Int) (positive : 0 < maxAttempts) : Job :=
  ⟨jobId, "mail", .null, 0, maxAttempts, 0, .scheduled, none, ⟨named, by decide⟩, ⟨positive, Int.le_refl 0, Int.le_of_lt positive⟩, null_valid⟩

/-- A claim runs out and is replaced; the old claim is refused, the new one succeeds. -/
def replacedClaim : List (Call Unit) :=
  let job := sampleJob "j" Sample.job_named 3 (by decide)
  [.schedule job, .claim 0 5 10 (Uuid.series 'a'), .claim 10 5 10 (Uuid.series 'b'),
    .succeed ⟨job, Uuid.series 'a' 0, 10, 1, Nat.one_pos⟩ (), .succeed ⟨job, Uuid.series 'b' 0, 20, 2, by decide⟩ ()]

/-- A series of ids is fresh after claim calls that were supplied from other series. -/
theorem fresh_series {letter : Char} (used : List Char) (other : letter ∉ used)
    (supplied : ∀ event ∈ past, ∀ now limit claimTtl claimIds, event.1 = .claim now limit claimTtl claimIds →
      claimIds ∈ used.map Uuid.series) :
    Function.Injective (Uuid.series letter) ∧ ∀ i, ¬Drawn past (Uuid.series letter i) := by
  refine ⟨Uuid.series_injective letter, ?_⟩
  rintro i ⟨event, member, now, limit, claimTtl, claimIds, j, isClaim, drawn⟩
  obtain ⟨taken, among, rfl⟩ := List.mem_map.mp (supplied event member now limit claimTtl claimIds isClaim)
  have different : taken ≠ letter := fun same => other (same ▸ among)
  exact Uuid.series_disjoint different j i drawn

theorem replaced_claim_fenced : ∃ (past : List (Call Unit × Answer)) (s : JobStore Unit), Run 9 past s ∧
    (issued past).map (·.fencingToken) = [1, 2] ∧ (settledIn past).map (·.fencingToken) = [2] ∧
    s.decisions = [("j", ())] ∧ ((settledIn past).map (·.claimId)).Nodup := by
  have run : Run 9 (History.transcript answer (empty 9) replacedClaim) (History.after answer (empty 9) replacedClaim) := by
    refine History.ofInputs ?_
    simp only [History.Permitted, replacedClaim, List.nil_append, List.cons_append]
    refine ⟨trivial, fresh_series [] (by simp) (by simp), fresh_series ['a'] (by decide) (by simp +contextual), ?_, ?_, trivial⟩
    · change _ ∈ issued _
      exact List.mem_cons_self ..
    · change _ ∈ issued _
      exact List.mem_cons_of_mem _ (List.mem_cons_self ..)
  exact ⟨_, _, run, rfl, rfl, rfl, (job_settlement_fenced run).2.1⟩

end Pytitect.JobStore
