import Mathlib.Tactic.Common

/-- A run of a machine that answers one input at a time: the inputs so far
with their answers, oldest first, and the state they lead to. `allowed` says which
input may come next in a given state after a given past. -/
inductive History {σ ι ο : Type} (step : σ → ι → ο × σ) (allowed : σ → List (ι × ο) → ι → Prop) (init : σ) :
    List (ι × ο) → σ → Prop
  | start : History step allowed init [] init
  | next {past s} (input) : History step allowed init past s → allowed s past input →
      History step allowed init (past ++ [(input, (step s input).1)]) (step s input).2

namespace History
variable {σ ι ο : Type} {step : σ → ι → ο × σ} {allowed : σ → List (ι × ο) → ι → Prop} {init s : σ}
  {past : List (ι × ο)}

/-- What holds at the start and survives every allowed step holds throughout. -/
theorem invariant (history : History step allowed init past s) {P : List (ι × ο) → σ → Prop}
    (base : P [] init)
    (preserved : ∀ past s input, P past s → allowed s past input →
      P (past ++ [(input, (step s input).1)]) (step s input).2) : P past s := by
  induction history with
  | start => exact base
  | next _ _ permitted ih => exact preserved _ _ _ ih permitted

/-- The same rule for a property of the state alone. -/
theorem state_invariant (history : History step allowed init past s) {P : σ → Prop} (base : P init)
    (preserved : ∀ past s input, P s → allowed s past input → P (step s input).2) : P s :=
  history.invariant (P := fun _ s => P s) base preserved

/-- What an invariant implies for the next answer holds of every answer of the run. -/
theorem answers (history : History step allowed init past s) {P : List (ι × ο) → σ → Prop} {Q : ι × ο → Prop}
    (base : P [] init)
    (preserved : ∀ past s input, P past s → allowed s past input →
      P (past ++ [(input, (step s input).1)]) (step s input).2 ∧ Q (input, (step s input).1)) :
    P past s ∧ ∀ event ∈ past, Q event := by
  induction history with
  | start => exact ⟨base, by simp⟩
  | next input _ permitted ih =>
    have next := preserved _ _ input ih.1 permitted
    refine ⟨next.1, fun event member => ?_⟩
    rcases List.mem_append.mp member with earlier | last
    · exact ih.2 event earlier
    · cases List.mem_singleton.mp last
      exact next.2

/-- What each input establishes with every earlier one holds of every two
inputs of the run. -/
theorem pairwise (history : History step allowed init past s) {P : ι × ο → ι × ο → Prop}
    (later : ∀ past s input, History step allowed init past s → allowed s past input →
      ∀ earlier ∈ past, P earlier (input, (step s input).1)) : past.Pairwise P := by
  induction history with
  | start => exact List.Pairwise.nil
  | next input run permitted ih =>
    refine List.pairwise_append.mpr ⟨ih, List.pairwise_singleton _ _, fun earlier member last inLast => ?_⟩
    cases List.mem_singleton.mp inLast
    exact later _ _ input run permitted earlier member

/-- What each input establishes with all that came before it. -/
theorem each (history : History step allowed init past s) {P : List (ι × ο) → ι × ο → Prop}
    (holds : ∀ past s input, History step allowed init past s → allowed s past input →
      P past (input, (step s input).1)) {before after : List (ι × ο)} {event : ι × ο} (split : past = before ++ event :: after) :
    P before event := by
  induction history generalizing after with
  | start => simp at split
  | @next past s input run permitted ih =>
    rcases List.eq_nil_or_concat after with none | ⟨front, last, same⟩
    · subst none
      obtain ⟨same, final⟩ := List.append_inj' split rfl
      subst same
      cases final
      exact holds _ _ input run permitted
    · subst same
      rw [List.concat_eq_append, ← List.cons_append, ← List.append_assoc] at split
      exact ih (List.append_inj' split rfl).1

/-- Every event of a run is an input that was allowed, with its answer. -/
theorem answered (history : History step allowed init past s) {event : ι × ο} (member : event ∈ past) :
    ∃ before earlier, allowed before earlier event.1 ∧ event.2 = (step before event.1).1 := by
  induction history with
  | start => cases member
  | @next past s input _ permitted ih =>
    rcases List.mem_append.mp member with earlier | last
    · exact ih earlier
    · cases List.mem_singleton.mp last
      exact ⟨s, past, permitted, rfl⟩

/-- A run and a continuation of it are one run. -/
theorem append {rest : List (ι × ο)} {t : σ} (history : History step allowed init past s)
    (further : History step (fun s later => allowed s (past ++ later)) s rest t) :
    History step allowed init (past ++ rest) t := by
  induction further with
  | start => simpa using history
  | next input _ permitted ih =>
    rw [← List.append_assoc]
    exact ih.next input permitted

variable (step) in
/-- Give the inputs to the machine one after the other. -/
def transcript (s : σ) : List ι → List (ι × ο)
  | [] => []
  | input :: rest => (input, (step s input).1) :: transcript (step s input).2 rest

theorem mem_transcript {inputs : List ι} {event : ι × ο} (member : event ∈ transcript step s inputs) : event.1 ∈ inputs := by
  induction inputs generalizing s with
  | nil => cases member
  | cons input rest ih =>
    rcases List.mem_cons.mp member with same | later
    · exact same ▸ List.mem_cons_self ..
    · exact List.mem_cons_of_mem _ (ih later)

variable (step) in
def after (s : σ) : List ι → σ
  | [] => s
  | input :: rest => after (step s input).2 rest

variable (step allowed) in
/-- Each of the inputs is allowed when its turn comes. -/
def Permitted (past : List (ι × ο)) (s : σ) : List ι → Prop
  | [] => True
  | input :: rest => allowed s past input ∧ Permitted (past ++ [(input, (step s input).1)]) (step s input).2 rest

theorem extend (history : History step allowed init past s) {inputs : List ι}
    (permitted : Permitted step allowed past s inputs) :
    History step allowed init (past ++ transcript step s inputs) (after step s inputs) := by
  induction inputs generalizing past s with
  | nil => simpa [transcript, after] using history
  | cons input rest ih =>
    obtain ⟨now, later⟩ := permitted
    have further := ih (history.next input now) later
    simpa [transcript, after] using further

/-- The run on a given list of inputs. -/
theorem ofInputs {inputs : List ι} (permitted : Permitted step allowed [] init inputs) :
    History step allowed init (transcript step init inputs) (after step init inputs) :=
  extend .start permitted

theorem after_append (first second : List ι) : after step s (first ++ second) = after step (after step s first) second := by
  induction first generalizing s with
  | nil => rfl
  | cons input rest ih => exact ih

/-- The state of a run is where its inputs lead. -/
theorem state_eq (history : History step allowed init past s) : s = after step init (past.map Prod.fst) := by
  induction history with
  | start => rfl
  | next input _ _ ih =>
    rw [List.map_append, after_append, ← ih]
    rfl

theorem after_take {inputs : List ι} {k : Nat} {input : ι} (found : inputs[k]? = some input) :
    after step s (inputs.take (k + 1)) = (step (after step s (inputs.take k)) input).2 := by
  induction inputs generalizing s k with
  | nil => simp at found
  | cons first rest ih =>
    cases k with
    | zero =>
      cases (Option.some.inj found : first = input)
      rfl
    | succ k => exact ih (by simpa using found)

/-- What holds at the start, and after a step exactly if the step meets a condition, holds throughout
if and only if every step meets the condition. -/
theorem throughout_iff {P : σ → Prop} {good : σ → ι → Prop} {inputs : List ι} (base : P init)
    (exactly : ∀ s input, P s → (P (step s input).2 ↔ good s input)) :
    (∀ k, P (after step init (inputs.take k))) ↔
      ∀ k input, inputs[k]? = some input → good (after step init (inputs.take k)) input := by
  constructor
  · intro holds k input found
    have next := holds (k + 1)
    rw [after_take found] at next
    exact (exactly _ input (holds k)).mp next
  · intro meets k
    induction k with
    | zero => exact base
    | succ k ih =>
      cases found : inputs[k]? with
      | none =>
        have all := List.getElem?_eq_none_iff.mp found
        rw [List.take_of_length_le (by omega)]
        rw [List.take_of_length_le all] at ih
        exact ih
      | some input =>
        rw [after_take found]
        exact (exactly _ input ih).mpr (meets k input found)

end History
