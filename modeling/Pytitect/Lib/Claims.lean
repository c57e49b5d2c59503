import Pytitect.Lib.Walk

/-- Claims on the entries of a table: which entry a claim is on, its id, the id that an entry
holds, and what a claim says of the entry that holds it. -/
structure Claiming (κ ν γ ι : Type) where
  target : γ → κ
  ident : γ → ι
  held : ν → Option ι
  agrees : γ → ν → Prop

namespace Claiming
variable {κ ν γ ι : Type} [DecidableEq κ]

/-- The claims issued for one entry, oldest first. -/
def issuedFor (claiming : Claiming κ ν γ ι) (key : κ) (issues : List γ) : List γ := issues.filter (claiming.target · = key)

/-- How a table agrees with the claims issued so far and with the ids that were drawn for them.
An entry may hold an id that was never issued. -/
structure Sound (claiming : Claiming κ ν γ ι) (issues : List γ) (drawn : ι → Prop) (table : Dict κ ν) : Prop where
  supplied : ∀ claim ∈ issues, drawn (claiming.ident claim)
  distinct : (issues.map claiming.ident).Nodup
  taken : ∀ key value claimId, table.get? key = some value → claiming.held value = some claimId → drawn claimId
  apart : ∀ first second a b claimId, table.get? first = some a → table.get? second = some b →
    claiming.held a = some claimId → claiming.held b = some claimId → first = second
  latest : ∀ key value claim, table.get? key = some value → claim ∈ issues →
    claiming.held value = some (claiming.ident claim) →
    (claiming.issuedFor key issues).getLast? = some claim ∧ claiming.agrees claim value

/-- What may be put into a place of the table. -/
inductive Replaces (claiming : Claiming κ ν γ ι) (drawn more : ι → Prop) (old : Option ν) (value : ν) : Prop
  | free : claiming.held value = none → Replaces claiming drawn more old value
  | keeps (before : ν) : old = some before → claiming.held value = claiming.held before →
      (∀ claim, claiming.agrees claim before → claiming.agrees claim value) → Replaces claiming drawn more old value
  | fresh (claimId : ι) : claiming.held value = some claimId → ¬drawn claimId → more claimId → Replaces claiming drawn more old value

variable {claiming : Claiming κ ν γ ι} {issues : List γ} {drawn more : ι → Prop} {table : Dict κ ν} {key : κ} {value : ν}
  {claim : γ}

/-- An id that was drawn before is held where it was held before. -/
theorem Replaces.held_before (replaces : Replaces claiming drawn more (table.get? key) value) {other : κ} {now : ν} {claimId : ι}
    (found : (table.set key value).get? other = some now) (held : claiming.held now = some claimId) (known : drawn claimId) :
    ∃ before, table.get? other = some before ∧ claiming.held before = some claimId ∧
      ∀ claim, claiming.agrees claim before → claiming.agrees claim now := by
  rcases Dict.get?_set_cases found with ⟨rfl, rfl⟩ | ⟨-, same⟩
  · cases replaces with
    | free none => cases none.symm.trans held
    | keeps before was sameHeld carries => exact ⟨before, was, sameHeld.symm.trans held, carries⟩
    | fresh new isNew unknown =>
      cases isNew.symm.trans held
      exact absurd known unknown
  · exact ⟨now, same, held, fun _ => id⟩

namespace Sound

theorem start : Sound claiming [] drawn .empty where
  supplied := by simp
  distinct := List.nodup_nil
  taken := by simp
  apart := by simp
  latest := by simp

theorem drawMore (sound : Sound claiming issues drawn table) (grown : ∀ claimId, drawn claimId → more claimId) :
    Sound claiming issues more table :=
  { sound with
    supplied := fun claim member => grown _ (sound.supplied claim member)
    taken := fun key value claimId found held => grown claimId (sound.taken key value claimId found held) }

/-- Only the replaced entry can hold an id that was not drawn before. -/
theorem fresh_only (sound : Sound claiming issues drawn table) {other : κ} {now : ν} {claimId : ι}
    (found : (table.set key value).get? other = some now) (held : claiming.held now = some claimId) (unknown : ¬drawn claimId) :
    other = key := by
  by_contra different
  rw [Dict.get?_set_of_ne different] at found
  exact unknown (sound.taken other now claimId found held)

theorem replace (sound : Sound claiming issues drawn table) (grown : ∀ claimId, drawn claimId → more claimId)
    (replaces : Replaces claiming drawn more (table.get? key) value) : Sound claiming issues more (table.set key value) := by
  constructor
  · exact fun claim member => grown _ (sound.supplied claim member)
  · exact sound.distinct
  · intro other now claimId found held
    rcases Dict.get?_set_cases found with ⟨rfl, rfl⟩ | ⟨-, same⟩
    · cases replaces with
      | free none => cases none.symm.trans held
      | keeps before was sameHeld => exact grown claimId (sound.taken other before claimId was (sameHeld.symm.trans held))
      | fresh new isNew _ isMore =>
        cases isNew.symm.trans held
        exact isMore
    · exact grown claimId (sound.taken other now claimId same held)
  · intro first second a b claimId foundA foundB heldA heldB
    by_cases known : drawn claimId
    · obtain ⟨oldA, wasA, holdsA, -⟩ := replaces.held_before foundA heldA known
      obtain ⟨oldB, wasB, holdsB, -⟩ := replaces.held_before foundB heldB known
      exact sound.apart first second oldA oldB claimId wasA wasB holdsA holdsB
    · exact (sound.fresh_only foundA heldA known).trans (sound.fresh_only foundB heldB known).symm
  · intro other now claim found member held
    obtain ⟨before, was, holds, carries⟩ := replaces.held_before found held (sound.supplied claim member)
    obtain ⟨last, agrees⟩ := sound.latest other before claim was member holds
    exact ⟨last, carries claim agrees⟩

/-- An entry is given up or changed under the claim that it has. -/
theorem put (sound : Sound claiming issues drawn table) (replaces : Replaces claiming drawn drawn (table.get? key) value) :
    Sound claiming issues drawn (table.set key value) :=
  sound.replace (fun _ => id) replaces

/-- Entries may be added that hold nothing, and entries may be removed. -/
theorem extend {after : Dict κ ν} (sound : Sound claiming issues drawn table)
    (kept : ∀ key value, after.get? key = some value → claiming.held value = none ∨ table.get? key = some value) :
    Sound claiming issues drawn after := by
  have before : ∀ key value claimId, after.get? key = some value → claiming.held value = some claimId →
      table.get? key = some value := by
    intro key value claimId found held
    refine (kept key value found).resolve_left fun free => ?_
    cases free.symm.trans held
  constructor
  · exact sound.supplied
  · exact sound.distinct
  · exact fun key value claimId found held => sound.taken key value claimId (before key value claimId found held) held
  · intro first second a b claimId foundA foundB heldA heldB
    exact sound.apart first second a b claimId (before _ _ _ foundA heldA) (before _ _ _ foundB heldB) heldA heldB
  · exact fun key value claim found member held => sound.latest key value claim (before _ _ _ found held) member held

/-- An entry takes a fresh id, and the claim with this id is issued. -/
theorem issue (sound : Sound claiming issues drawn table) (target : claiming.target claim = key)
    (held : claiming.held value = some (claiming.ident claim)) (agrees : claiming.agrees claim value)
    (unused : ¬drawn (claiming.ident claim)) :
    Sound claiming (issues ++ [claim]) (fun claimId => drawn claimId ∨ claimId = claiming.ident claim) (table.set key value) := by
  have unissued : ∀ earlier ∈ issues, claiming.ident earlier ≠ claiming.ident claim :=
    fun earlier member same => unused (same ▸ sound.supplied earlier member)
  have replaced : Sound claiming issues (fun claimId => drawn claimId ∨ claimId = claiming.ident claim) (table.set key value) :=
    sound.replace (fun _ => Or.inl) (.fresh _ held unused (Or.inr rfl))
  obtain ⟨supplied, distinct, taken, apart, latest⟩ := replaced
  constructor
  · intro other member
    rcases List.mem_append.mp member with old | new
    · exact supplied other old
    · exact Or.inr (congrArg claiming.ident (List.mem_singleton.mp new))
  · rw [List.map_append, List.nodup_append]
    refine ⟨distinct, List.nodup_singleton _, fun first old second new same => ?_⟩
    obtain ⟨earlier, member, isFirst⟩ := List.mem_map.mp old
    cases List.mem_singleton.mp new
    exact unissued earlier member (isFirst.trans same)
  · exact taken
  · exact apart
  · intro other now presented found member holds
    rcases List.mem_append.mp member with old | new
    · -- An entry that holds an earlier claim is not the one that was replaced.
      have different : claiming.target claim ≠ other := by
        intro mine
        rw [← mine, target, Dict.get?_set_self, Option.some.injEq] at found
        rw [← found, held, Option.some.injEq] at holds
        exact unissued presented old holds.symm
      obtain ⟨last, agreed⟩ := latest other now presented found old holds
      refine ⟨?_, agreed⟩
      rw [issuedFor, List.filter_append, List.filter_cons_of_neg (by simpa using different), List.filter_nil, List.append_nil]
      exact last
    · cases List.mem_singleton.mp new
      have mine : other = key := by
        by_contra different
        rw [Dict.get?_set_of_ne different] at found
        exact unused (sound.taken other now _ found holds)
      subst mine
      rw [Dict.get?_set_self, Option.some.injEq] at found
      subst found
      refine ⟨?_, agrees⟩
      rw [issuedFor, List.filter_append, List.filter_cons_of_pos (by simpa using target), List.filter_nil, List.getLast?_append]
      rfl

/-- A claim and the entry that is to hold it. -/
def Holding (claiming : Claiming κ ν γ ι) (claim : γ) (entry : κ × ν) : Prop :=
  claiming.target claim = entry.1 ∧ claiming.held entry.2 = some (claiming.ident claim) ∧ claiming.agrees claim entry.2

/-- Several entries take fresh ids, one after the other. -/
theorem issueAll {claims : List γ} {entries : List (κ × ν)} (sound : Sound claiming issues drawn table)
    (holding : List.Forall₂ (Holding claiming) claims entries) (apart : (claims.map claiming.ident).Nodup)
    (unused : ∀ claim ∈ claims, ¬drawn (claiming.ident claim)) :
    Sound claiming (issues ++ claims) (fun claimId => drawn claimId ∨ claimId ∈ claims.map claiming.ident) (table.setAll entries) := by
  induction holding generalizing issues drawn table with
  | nil =>
    rw [List.append_nil]
    exact sound.drawMore fun _ => Or.inl
  | @cons claim entry claims entries first _ ih =>
    obtain ⟨target, held, agrees⟩ := first
    obtain ⟨other, apartRest⟩ := List.nodup_cons.mp apart
    have issued := sound.issue target held agrees (unused claim (List.mem_cons_self ..))
    have rest := ih issued apartRest fun later member => by
      rintro (known | same)
      · exact unused later (List.mem_cons_of_mem _ member) known
      · exact other (same ▸ List.mem_map_of_mem member)
    rw [List.append_assoc, List.singleton_append] at rest
    refine rest.drawMore fun claimId known => ?_
    rcases known with (before | same) | later
    · exact Or.inl before
    · exact Or.inr (same ▸ List.mem_cons_self ..)
    · exact Or.inr (List.mem_cons_of_mem _ later)

/-- Once an entry has given up its claim, no entry holds it. -/
theorem released (sound : Sound claiming issues drawn table) {old : ν} {claimId : ι} (found : table.get? key = some old)
    (held : claiming.held old = some claimId) (free : claiming.held value = none) {other : κ} {now : ν}
    (foundNow : (table.set key value).get? other = some now) : claiming.held now ≠ some claimId := by
  intro holds
  rcases Dict.get?_set_cases foundNow with ⟨-, rfl⟩ | ⟨different, before⟩
  · cases free.symm.trans holds
  · exact different (sound.apart other key now old claimId before found holds held)

end Sound

end Claiming
