import Pytitect.EventSourcing.Log

namespace Pytitect.EventStore
variable {s t : EventStore}

/-- A page of a numbered list is the section behind the position. -/
theorem page_numbered {number : StoredEvent → Nat} {events : List StoredEvent} (numbered : events.Numbered number)
    (after limit : Nat) :
    page number events after limit =
      ⟨(events.drop after).take limit, (after + ((events.drop after).take limit).length : Nat),
        (events.length - after ≤ limit : Bool)⟩ := by
  have available : events.filter (fun event => ((after : Int) < number event : Bool)) = events.drop after := by
    rw [← numbered.filter_beyond after]
    exact List.filter_congr fun event _ => by simp
  unfold page
  dsimp only
  rw [available, List.length_drop]
  congr 1
  cases last : ((events.drop after).take limit).getLast? with
  | none =>
    rw [List.getLast?_eq_none_iff] at last
    simp [last]
  | some event =>
    have position := numbered.number_getLast last
    simp [position]

theorem pageArguments_ok {position limit : Int} {result : Unit} (checked : s.pageArguments position limit = .ok result) :
    0 ≤ position ∧ 1 ≤ limit ∧ limit ≤ s.maxPageSize := by
  unfold pageArguments at checked
  split at checked
  · cases checked
  split at checked
  · cases checked
  · rename_i low inside
    push Not at inside
    omega

theorem pageArguments_valid {position limit : Int} (low : 0 ≤ position) (inside : 1 ≤ limit ∧ limit ≤ s.maxPageSize) :
    s.pageArguments position limit = .ok () := by
  unfold pageArguments
  rw [if_neg (by omega), if_neg (by omega)]

/-- One of the two ways to read: what it reads, and by which numbers. -/
structure Reader where
  read : EventStore → Int → Int → Except PyError EventPage
  view : EventStore → List StoredEvent
  number : StoredEvent → Nat
  reads : ∀ s after limit, read s after limit = do
    s.pageArguments after limit
    return page number (view s) after limit.toNat
  numbered : ∀ {s}, Consistent s → (view s).Numbered number
  grows : ∀ {s id events result t}, Appended s id events result t → view s <+: view t

/-- `read_all`. -/
def allReader : Reader where
  read := readAll
  view := fun s => s.all
  number := (·.globalPosition)
  reads := fun _ _ _ => rfl
  numbered := fun consistent => consistent.positions
  grows := fun appended => (appended_extends appended).1

/-- `read_stream` of one stream. -/
def streamReader (id : StreamId) : Reader where
  read := fun s => s.readStream id
  view := fun s => s.stream id
  number := (·.streamVersion)
  reads := fun _ _ _ => rfl
  numbered := fun consistent => consistent.versions id
  grows := fun appended => (appended_extends appended).2 id

/-- Pages read one after the other, each from the position the one before ended
at, with appends in between. -/
inductive Scan (reader : Reader) (init : EventStore) : List StoredEvent → Int → EventStore → Prop
  | start : Scan reader init [] 0 init
  | append {collected position s} (id : StreamId) (expectedVersion : Int) (events : List NewEvent) :
      Scan reader init collected position s → Scan reader init collected position (s.append id expectedVersion events).2
  | read {collected position s} (limit : Int) (page : EventPage) : Scan reader init collected position s →
      reader.read s position limit = .ok page → Scan reader init (collected ++ page.events) page.nextPosition s

variable {reader : Reader} {init : EventStore} {collected : List StoredEvent} {position : Int}

theorem Reader.read_ok (reader : Reader) {limit : Int} {result : EventPage} (done : reader.read s position limit = .ok result) :
    0 ≤ position ∧ 1 ≤ limit ∧ result = page reader.number (reader.view s) position limit.toNat := by
  rw [reader.reads] at done
  cases checked : s.pageArguments position limit with
  | error error =>
    rw [checked] at done
    cases done
  | ok _ =>
    rw [checked] at done
    obtain ⟨low, positive, -⟩ := pageArguments_ok checked
    exact ⟨low, positive, (Except.ok.inj done).symm⟩

theorem Scan.consistent (scan : Scan reader init collected position s) (consistent : Consistent init) : Consistent s := by
  induction scan with
  | start => exact consistent
  | append id expectedVersion events _ ih => exact ih.append id expectedVersion events
  | read limit page _ _ ih => exact ih

/-- What has been read so far is what stands up to the position. -/
theorem Scan.collected_eq (scan : Scan reader init collected position s) (consistent : Consistent init) :
    ∃ n : Nat, position = n ∧ n ≤ (reader.view s).length ∧ collected = (reader.view s).take n := by
  induction scan with
  | start => exact ⟨0, rfl, Nat.zero_le _, by simp⟩
  | @append collected position s id expectedVersion events _ ih =>
    obtain ⟨n, atPosition, inside, soFar⟩ := ih
    have grown := reader.grows (s.append_appended id expectedVersion events)
    refine ⟨n, atPosition, Nat.le_trans inside grown.length_le, ?_⟩
    obtain ⟨added, longer⟩ := grown
    rw [soFar, ← longer, List.take_append_of_le_length inside]
  | @read collected position s limit result scan done ih =>
    obtain ⟨n, rfl, inside, soFar⟩ := ih
    obtain ⟨-, -, read⟩ := reader.read_ok done
    rw [page_numbered (reader.numbered (scan.consistent consistent))] at read
    subst read
    refine ⟨n + (((reader.view s).drop n).take limit.toNat).length, rfl, ?_, ?_⟩
    · rw [List.length_take, List.length_drop]
      omega
    · have section_ : ((reader.view s).drop n).take limit.toNat =
          ((reader.view s).drop n).take (((reader.view s).drop n).take limit.toNat).length := by
        rw [List.length_take, List.take_eq_take_min]
      rw [soFar, List.take_add, ← section_]

/-- A page that reports `complete` brings the reader to the end. -/
theorem Scan.complete (scan : Scan reader init collected position s) (consistent : Consistent init) {limit : Int}
    {page : EventPage} (done : reader.read s position limit = .ok page) (complete : page.complete = true) :
    collected ++ page.events = reader.view s := by
  obtain ⟨n, rfl, inside, soFar⟩ := scan.collected_eq consistent
  obtain ⟨-, -, read⟩ := reader.read_ok done
  rw [page_numbered (reader.numbered (scan.consistent consistent))] at read
  subst read
  have short : (reader.view s).length - n ≤ limit.toNat := of_decide_eq_true complete
  have rest : ((reader.view s).drop n).take limit.toNat = (reader.view s).drop n :=
    List.take_of_length_le (by rw [List.length_drop]; exact short)
  dsimp only
  rw [soFar, rest, List.take_append_drop]

/-- Every read with a limit in range succeeds, and a complete page ends a scan
of everything there is. -/
theorem Scan.read_succeeds (scan : Scan reader init collected position s) (consistent : Consistent init) {limit : Int}
    (inside : 1 ≤ limit ∧ limit ≤ s.maxPageSize) :
    ∃ page, reader.read s position limit = .ok page ∧ (page.complete = true → collected ++ page.events = reader.view s) := by
  obtain ⟨n, rfl, -, -⟩ := scan.collected_eq consistent
  have done : reader.read s n limit = .ok (page reader.number (reader.view s) n limit.toNat) := by
    rw [reader.reads, pageArguments_valid (Int.natCast_nonneg n) inside]
    rfl
  exact ⟨_, done, scan.complete consistent done⟩

/-- In every store that appends lead to, the log and the streams are numbered
without a gap, each stream is the part of the log with its id, event ids are
unique and an append that is not committed changes nothing. Pages that are
followed from position 0 to a complete one give all events there are by then,
once and in order, whatever is appended in between. -/
theorem consistent_and_paged {capacity maxPageSize : Nat} {past : List (AppendCall × Except PyError AppendResult)}
    (history : Run capacity maxPageSize past s) :
    s.all.map (·.globalPosition) = List.range' 1 s.all.length ∧
    (∀ id, (s.stream id).map (·.streamVersion) = List.range' 1 (s.stream id).length ∧
      s.stream id = s.all.filter (·.stream = id)) ∧
    (s.all.map (·.event.eventId)).Nodup ∧
    (∀ call, (∃ first last stored, (s.answer call).1 = .ok (.committed first last stored)) ∨ (s.answer call).2 = s) ∧
    (∀ collected position t, Scan allReader s collected position t → ∀ limit : Int, 1 ≤ limit ∧ limit ≤ t.maxPageSize →
      ∃ page, t.readAll position limit = .ok page ∧ (page.complete = true → collected ++ page.events = t.all)) ∧
    ∀ id collected position t, Scan (streamReader id) s collected position t →
      ∀ limit : Int, 1 ≤ limit ∧ limit ≤ t.maxPageSize →
      ∃ page, t.readStream id position limit = .ok page ∧
        (page.complete = true → collected ++ page.events = t.stream id) := by
  have consistent := Consistent.run history
  refine ⟨consistent.positions, fun id => ⟨consistent.versions id, consistent.subsequence id⟩, consistent.unique,
    fun call => ?_, fun collected position t scan limit inside => scan.read_succeeds consistent inside,
    fun id collected position t scan limit inside => scan.read_succeeds consistent inside⟩
  have appended := s.append_appended call.stream call.expectedVersion call.events
  change (∃ first last stored, (s.append call.stream call.expectedVersion call.events).1 = _) ∨
    (s.append call.stream call.expectedVersion call.events).2 = s
  generalize (s.append call.stream call.expectedVersion call.events).1 = result at appended ⊢
  generalize (s.append call.stream call.expectedVersion call.events).2 = u at appended ⊢
  cases appended with
  | refused _ => exact Or.inr rfl
  | committed _ _ _ => exact Or.inl ⟨_, _, _, rfl⟩

/-- An event without a payload. -/
def sampleEvent (eventId : String) (named : eventId ≠ "") : NewEvent :=
  ⟨eventId, "sample", .null, 0, .empty, ⟨named, by decide⟩, null_valid, by decide⟩

def sampleStream : StreamId := ⟨"c", "s", by decide⟩

/-- Three events, read in pages of two with the last append in between. -/
theorem sample_paged :
    ∃ (past : List (AppendCall × Except PyError AppendResult)) (s t : EventStore) (first second : EventPage),
      Run 8 2 past s ∧ s.all.length = 2 ∧ s.readAll 0 1 = .ok first ∧
      t = (s.append sampleStream 2 [sampleEvent "e3" (by decide)]).2 ∧ t.readAll first.nextPosition 2 = .ok second ∧
      second.complete = true ∧ first.events ++ second.events = t.all := by
  let calls : List AppendCall := [⟨sampleStream, 0, [sampleEvent "e1" (by decide), sampleEvent "e2" (by decide)]⟩]
  have run : Run 8 2 (History.transcript answer (empty 8 2) calls) (History.after answer (empty 8 2) calls) :=
    History.ofInputs (by simp [History.Permitted, calls])
  have scan : Scan allReader (History.after answer (empty 8 2) calls) _ _ _ :=
    (Scan.read 1 _ Scan.start rfl).append sampleStream 2 [sampleEvent "e3" (by decide)]
  obtain ⟨page, read, ends⟩ := (consistent_and_paged run).2.2.2.2.1 _ _ _ scan 2 (by decide)
  have complete : page.complete = true := by
    cases read
    decide
  exact ⟨_, _, _, _, page, run, by decide, rfl, rfl, read, complete, ends complete⟩

end Pytitect.EventStore
