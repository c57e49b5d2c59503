import Pytitect.Lib.Dict

namespace Dict
variable {κ ν ε β : Type} [DecidableEq κ]

/-- Assign several keys, one after the other. -/
def setAll (d : Dict κ ν) (entries : List (κ × ν)) : Dict κ ν := entries.foldl (fun d entry => d.set entry.1 entry.2) d

theorem get?_setAll_of_not_mem {d : Dict κ ν} {entries : List (κ × ν)} {k : κ} (absent : k ∉ entries.map Prod.fst) :
    (d.setAll entries).get? k = d.get? k := by
  unfold setAll
  induction entries generalizing d with
  | nil => rfl
  | cons entry rest ih =>
    simp only [List.map_cons, List.mem_cons, not_or] at absent
    rw [List.foldl_cons, ih absent.2, get?_set_of_ne absent.1]

theorem get?_setAll_of_mem {d : Dict κ ν} {entries : List (κ × ν)} {k : κ} {v : ν}
    (distinct : (entries.map Prod.fst).Nodup) (member : (k, v) ∈ entries) : (d.setAll entries).get? k = some v := by
  induction entries generalizing d with
  | nil => cases member
  | cons entry rest ih =>
    obtain ⟨fresh, distinctRest⟩ := List.nodup_cons.mp distinct
    change ((d.set entry.1 entry.2).setAll rest).get? k = some v
    rcases List.mem_cons.mp member with same | later
    · subst same
      rw [get?_setAll_of_not_mem fresh, get?_set_self]
    · exact ih distinctRest later

/-- Rewriting some entries leaves the others as they are. -/
theorem get?_setAll_mapIdx (d : Dict κ ν) (value : Nat → κ × ν → ν) {entries : List (κ × ν)}
    (distinct : (entries.map Prod.fst).Nodup) (k : κ) :
    (∃ (i : Nat) (entry : κ × ν), entries[i]? = some entry ∧ entry.1 = k ∧
      (d.setAll (entries.mapIdx fun i entry => (entry.1, value i entry))).get? k = some (value i entry)) ∨
    k ∉ entries.map Prod.fst ∧ (d.setAll (entries.mapIdx fun i entry => (entry.1, value i entry))).get? k = d.get? k := by
  have keys : (entries.mapIdx fun i entry => (entry.1, value i entry)).map Prod.fst = entries.map Prod.fst := by
    refine List.ext_getElem? fun i => ?_
    simp [Function.comp_def]
  by_cases among : k ∈ entries.map Prod.fst
  · obtain ⟨entry, member, rfl⟩ := List.mem_map.mp among
    obtain ⟨i, isEntry⟩ := List.mem_iff_getElem?.mp member
    obtain ⟨bound, same⟩ := List.getElem?_eq_some_iff.mp isEntry
    refine Or.inl ⟨i, entry, isEntry, rfl, ?_⟩
    exact get?_setAll_of_mem (keys ▸ distinct) (List.mem_mapIdx.mpr ⟨i, bound, by rw [same]⟩)
  · exact Or.inr ⟨among, get?_setAll_of_not_mem (keys ▸ among)⟩

theorem size_setAll_of_mem {d : Dict κ ν} {entries : List (κ × ν)} (present : ∀ entry ∈ entries, entry.1 ∈ d.keys) :
    (d.setAll entries).size = d.size := by
  induction entries generalizing d with
  | nil => rfl
  | cons entry rest ih =>
    have first := present entry (List.mem_cons_self ..)
    have kept : ∀ k ∈ d.keys, k ∈ (d.set entry.1 entry.2).keys := by
      intro k member
      by_contra absent
      have none := get?_eq_none.mpr absent
      rw [get?_set] at none
      split at none
      · cases none
      · exact get?_eq_none.mp none member
    change ((d.set entry.1 entry.2).setAll rest).size = d.size
    rw [ih fun other later => kept _ (present other (List.mem_cons_of_mem _ later)), size_set_of_mem first]

theorem items_setAll_of_absent {d : Dict κ ν} {entries : List (κ × ν)} (distinct : (entries.map Prod.fst).Nodup)
    (absent : ∀ entry ∈ entries, entry.1 ∉ d.keys) : (d.setAll entries).items = d.items ++ entries := by
  induction entries generalizing d with
  | nil => exact (List.append_nil _).symm
  | cons entry rest ih =>
    obtain ⟨fresh, distinctRest⟩ := List.nodup_cons.mp distinct
    have first := absent entry (List.mem_cons_self ..)
    change ((d.set entry.1 entry.2).setAll rest).items = d.items ++ entry :: rest
    rw [ih distinctRest fun other later member => ?_, items_set_of_absent first, List.append_assoc, List.singleton_append]
    rw [keys_set_of_absent first] at member
    rcases List.mem_append.mp member with old | new
    · exact absent other (List.mem_cons_of_mem _ later) old
    · rw [List.mem_singleton] at new
      exact fresh (new ▸ List.mem_map_of_mem later)

/-- Go through the entries in order and claim those that are eligible, until
`limit` of them have been claimed or a claim raises. A claim replaces the entry's
value in either case; it is told how many came before it. -/
def walk (eligible : κ × ν → Bool) (claim : Nat → κ × ν → Except ε β × ν) (limit : Nat) :
    List (κ × ν) → Nat → Dict κ ν → Except ε (List β) × Dict κ ν
  | [], _, d => (.ok [], d)
  | entry :: rest, count, d =>
    if limit ≤ count then (.ok [], d)
    else if eligible entry then
      match claim count entry with
      | (.error e, value) => (.error e, d.set entry.1 value)
      | (.ok made, value) =>
        match walk eligible claim limit rest (count + 1) (d.set entry.1 value) with
        | (.error e, d) => (.error e, d)
        | (.ok others, d) => (.ok (made :: others), d)
    else walk eligible claim limit rest count d

/-- What a walk claims: the first eligible entries up to the limit. -/
def picked (eligible : κ × ν → Bool) (limit : Nat) (entries : List (κ × ν)) : List (κ × ν) :=
  (entries.filter eligible).take limit

omit [DecidableEq κ] in
/-- What is picked from a sorted list is sorted. -/
theorem picked_pairwise {eligible : κ × ν → Bool} {limit : Nat} {entries : List (κ × ν)} {R : κ × ν → κ × ν → Prop}
    (sorted : entries.Pairwise R) : (picked eligible limit entries).Pairwise R :=
  sorted.sublist ((List.take_sublist _ _).trans List.filter_sublist)

omit [DecidableEq κ] in
/-- An eligible entry of a sorted list is picked, unless the limit is reached by
entries before it. -/
theorem picked_first {eligible : κ × ν → Bool} {limit : Nat} {entries : List (κ × ν)} {R : κ × ν → κ × ν → Prop}
    (sorted : entries.Pairwise R) {entry : κ × ν} (member : entry ∈ entries) (may : eligible entry = true) :
    entry ∈ picked eligible limit entries ∨
      (picked eligible limit entries).length = limit ∧ ∀ chosen ∈ picked eligible limit entries, R chosen entry := by
  have split := List.take_append_drop limit (entries.filter eligible)
  have among : entry ∈ entries.filter eligible := List.mem_filter.mpr ⟨member, may⟩
  have ordered := sorted.sublist (List.filter_sublist (p := eligible))
  rw [← split] at among ordered
  rcases List.mem_append.mp among with chosen | left
  · exact Or.inl chosen
  · refine Or.inr ⟨?_, fun chosen first => (List.pairwise_append.mp ordered).2.2 chosen first entry left⟩
    have more := List.length_pos_of_mem left
    rw [List.length_drop] at more
    exact List.length_take_of_le (by omega)

variable {eligible : κ × ν → Bool} {claim : Nat → κ × ν → Except ε β × ν}

theorem walk_cons_ok {limit count : Nat} {entry : κ × ν} {rest : List (κ × ν)} {d after : Dict κ ν} {made : β} {value : ν}
    {others : List β} (room : ¬limit ≤ count) (may : eligible entry = true) (claimed : claim count entry = (.ok made, value))
    (returned : walk eligible claim limit rest (count + 1) (d.set entry.1 value) = (.ok others, after)) :
    walk eligible claim limit (entry :: rest) count d = (.ok (made :: others), after) := by
  rw [walk, if_neg room, if_pos may, claimed]
  dsimp only
  rw [returned]

/-- If no claim raises, all picked entries are claimed. -/
theorem walk_ok {made : Nat → κ × ν → β} {value : Nat → κ × ν → ν} {limit : Nat}
    (claims : ∀ count entry, claim count entry = (.ok (made count entry), value count entry)) (entries : List (κ × ν))
    (count : Nat) (d : Dict κ ν) :
    walk eligible claim limit entries count d =
      (.ok ((picked eligible (limit - count) entries).mapIdx fun i entry => made (count + i) entry),
        d.setAll ((picked eligible (limit - count) entries).mapIdx fun i entry => (entry.1, value (count + i) entry))) := by
  induction entries generalizing count d with
  | nil => simp [walk, picked, setAll]
  | cons entry rest ih =>
    unfold walk
    split
    · rename_i full
      have none : limit - count = 0 := by omega
      simp [picked, none, setAll]
    rename_i more
    obtain ⟨left, same⟩ : ∃ left, limit - count = left + 1 := ⟨limit - count - 1, by omega⟩
    have fewer : limit - (count + 1) = left := by omega
    split
    · rename_i may
      rw [claims]
      dsimp only
      rw [ih, fewer, same]
      simp only [picked, List.filter_cons_of_pos may, List.take_succ_cons, List.mapIdx_cons, Nat.add_zero]
      have shift : ∀ i, count + 1 + i = count + (i + 1) := by omega
      simp only [shift]
      rfl
    · rename_i mayNot
      rw [ih]
      simp [picked, mayNot]

theorem walk_returns {limit : Nat} (claims : ∀ count entry, ∃ made value, claim count entry = (.ok made, value))
    (entries : List (κ × ν)) (count : Nat) (d : Dict κ ν) :
    ∃ made after, walk eligible claim limit entries count d = (.ok made, after) := by
  choose made value claimed using claims
  exact ⟨_, _, walk_ok claimed entries count d⟩

/-- If every claim raises, the first picked entry ends the walk. -/
theorem walk_error {value : Nat → κ × ν → ν} {limit : Nat} {e : ε}
    (raises : ∀ count entry, claim count entry = (.error e, value count entry)) (entries : List (κ × ν)) (count : Nat)
    (d : Dict κ ν) :
    walk eligible claim limit entries count d =
      match (picked eligible (limit - count) entries).head? with
      | none => (.ok [], d)
      | some entry => (.error e, d.set entry.1 (value count entry)) := by
  induction entries with
  | nil => simp [walk, picked]
  | cons entry rest ih =>
    unfold walk
    split
    · rename_i full
      have none : limit - count = 0 := by omega
      simp [picked, none]
    rename_i more
    obtain ⟨left, same⟩ : ∃ left, limit - count = left + 1 := ⟨limit - count - 1, by omega⟩
    split
    · rename_i may
      rw [raises, same]
      simp [picked, may]
    · rename_i mayNot
      rw [ih]
      simp [picked, mayNot]

/-- A walk leaves alone what is not eligible. -/
theorem walk_frame {limit : Nat} {entries : List (κ × ν)} {count : Nat} {d : Dict κ ν} {k : κ}
    (kept : ∀ entry ∈ entries, eligible entry = true → entry.1 ≠ k) :
    (walk eligible claim limit entries count d).2.get? k = d.get? k := by
  induction entries generalizing count d with
  | nil => rfl
  | cons entry rest ih =>
    have later : ∀ other ∈ rest, eligible other = true → other.1 ≠ k :=
      fun other member => kept other (List.mem_cons_of_mem _ member)
    unfold walk
    split
    · rfl
    split
    · rename_i may
      have other : k ≠ entry.1 := fun same => kept entry (List.mem_cons_self ..) may same.symm
      split
      · exact get?_set_of_ne other
      · rename_i _ made value _
        have rested := @ih (count + 1) (d.set entry.1 value) later
        rw [get?_set_of_ne other] at rested
        generalize walk eligible claim limit rest (count + 1) (d.set entry.1 value) = outcome at rested ⊢
        obtain ⟨_ | _, after⟩ := outcome
        · exact rested
        · exact rested
    · exact ih later

/-- All that a walk hands out was claimed from an eligible entry. -/
theorem walk_made {limit : Nat} {entries : List (κ × ν)} {count : Nat} {d after : Dict κ ν} {made : List β}
    (returned : walk eligible claim limit entries count d = (.ok made, after)) :
    ∀ one ∈ made, ∃ entry ∈ entries, eligible entry = true ∧ ∃ count, (claim count entry).1 = .ok one := by
  induction entries generalizing count d made with
  | nil =>
    cases returned
    simp
  | cons entry rest ih =>
    unfold walk at returned
    split at returned
    · cases returned
      simp
    split at returned
    · rename_i may
      split at returned
      · cases returned
      · rename_i first value claimed
        split at returned
        · cases returned
        · rename_i others _ rested
          cases returned
          rintro one (_ | ⟨_, member⟩)
          · exact ⟨entry, List.mem_cons_self .., may, count, by rw [claimed]⟩
          · obtain ⟨origin, inRest, rest⟩ := ih rested one member
            exact ⟨origin, List.mem_cons_of_mem _ inRest, rest⟩
    · intro one member
      obtain ⟨origin, inRest, rest⟩ := ih returned one member
      exact ⟨origin, List.mem_cons_of_mem _ inRest, rest⟩

end Dict
