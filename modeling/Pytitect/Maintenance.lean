import Pytitect.Core
import Pytitect.Lib.Retention

namespace Pytitect

/-- What a clean-up of a store promises for one plan, carried out as a dry run or in earnest. -/
structure RetentionLaw {σ κ ν α : Type} [DecidableEq κ] (answer : MaintenanceSummary → α) (records : σ → List (κ × ν)) (le : κ × ν → κ × ν → Bool)
    (eligible : κ × ν → Bool) (size : Nat) (dry real : σ → α × σ) (s : σ) : Prop where
  /-- A dry run reports the page, a real one removes it, and nothing else changes. -/
  page : ∃ page, List.OldestPage le eligible size (records s) page ∧ dry s = (answer ⟨page.length, 0, true⟩, s) ∧
    (real s).1 = answer ⟨page.length, page.length, false⟩ ∧
    records (real s).2 = (records s).filter fun record => record.1 ∉ page.map Prod.fst
  /-- However often it is repeated, only eligible records go. -/
  spares : ∀ n, (records ((fun s => (real s).2)^[n] s)).filter (fun record => !eligible record) =
    (records s).filter fun record => !eligible record
  /-- Once there have been enough pages, all of them are gone. -/
  drains : ∀ n, (records s).countP eligible ≤ n * size →
    records ((fun s => (real s).2)^[n] s) = (records s).filter fun record => !eligible record

/-- A clean-up that removes the first page of its store keeps the promise. -/
theorem RetentionLaw.of_rest {σ κ ν α : Type} [DecidableEq κ] {answer : MaintenanceSummary → α} {records : σ → List (κ × ν)} {le : κ × ν → κ × ν → Bool}
    {eligible : κ × ν → Bool} {size : Nat} {dry real : σ → α × σ} {s : σ} (sorts : List.Sorts le) (inv : σ → Prop)
    (holds : inv s) (distinct : ∀ s, inv s → ((records s).map Prod.fst).Nodup)
    (reports : dry s = (answer ⟨(Retention.page le eligible size (records s)).length, 0, true⟩, s))
    (removes : ∀ s, inv s → inv (real s).2 ∧ records (real s).2 = Retention.rest Prod.fst le eligible size (records s) ∧
      (real s).1 = answer ⟨(Retention.page le eligible size (records s)).length,
        (Retention.page le eligible size (records s)).length, false⟩) :
    RetentionLaw answer records le eligible size dry real s := by
  have iterated : ∀ n, records ((fun s => (real s).2)^[n] s) = (Retention.rest Prod.fst le eligible size)^[n] (records s) := by
    intro n
    clear reports
    induction n generalizing s with
    | zero => rfl
    | succ n ih =>
      obtain ⟨kept, left, -⟩ := removes s holds
      rw [Function.iterate_succ_apply, ih kept, left, ← Function.iterate_succ_apply]
  refine ⟨⟨_, Retention.page_oldest sorts (List.Nodup.of_map _ (distinct s holds)), reports, (removes s holds).2.2, (removes s holds).2.1⟩,
    fun n => ?_, fun n enough => ?_⟩
  · rw [iterated, Retention.spared_iterate_rest (distinct s holds)]
  · rw [iterated, Retention.iterate_rest (distinct s holds) enough]

end Pytitect
