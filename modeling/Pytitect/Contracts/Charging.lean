import Mathlib.Algebra.BigOperators.Group.Finset.Basic
import Mathlib.Algebra.Order.BigOperators.Group.Finset
import Pytitect.Contracts.Resolution

namespace Pytitect

/-- The same limits with another one on the bytes. -/
def ResolverLimits.withTotalBytes (limits : ResolverLimits) (bytes : { n : Nat // 0 < n }) : ResolverLimits :=
  { limits with maxTotalBytes := bytes.1, positive := ⟨limits.positive.1, limits.positive.2.1, bytes.2⟩ }

namespace ResolverEnvironment
variable {φ : Type} (env : ResolverEnvironment φ)

/-- The file holds the JSON value `null`. -/
def isNull (file : φ) : Bool :=
  match env.content file with
  | .ok .null => true
  | _ => false

def size (file : φ) : Nat := (env.readBytes file).length

variable [DecidableEq φ]

/-- The sizes of the distinct files among these. -/
def total (files : List φ) : Nat := files.toFinset.sum env.size

/-- What a call of `load` adds to the bytes read: a file is charged again when its value is `null`. -/
def charge (before : List φ) (file : φ) : Nat := if file ∈ before ∧ env.isNull file = false then 0 else env.size file

def chargedFrom (before : List φ) : List φ → Nat
  | [] => 0
  | file :: rest => env.charge before file + chargedFrom (before ++ [file]) rest

/-- What a sequence of such calls adds. -/
def charged (files : List φ) : Nat := env.chargedFrom [] files

/-- A file that is not empty and holds `null` is among these more than once. -/
def NullTwice (files : List φ) : Prop :=
  ∃ before file after, files = before ++ file :: after ∧ file ∈ before ∧ env.isNull file = true ∧ env.size file ≠ 0

variable {env} {files before : List φ} {file : φ}

theorem chargedFrom_append (before first second : List φ) :
    env.chargedFrom before (first ++ second) = env.chargedFrom before first + env.chargedFrom (before ++ first) second := by
  induction first generalizing before with
  | nil => simp [chargedFrom]
  | cons file rest ih =>
    rw [List.cons_append, chargedFrom, chargedFrom, ih, List.append_assoc, List.singleton_append]
    omega

theorem charged_concat (files : List φ) (file : φ) : env.charged (files ++ [file]) = env.charged files + env.charge files file := by
  rw [charged, chargedFrom_append, charged]
  simp [chargedFrom]

theorem charged_mono {files longer : List φ} (initial : files <+: longer) : env.charged files ≤ env.charged longer := by
  obtain ⟨rest, rfl⟩ := initial
  rw [charged, charged, chargedFrom_append]
  exact Nat.le_add_right _ _

theorem total_concat (files : List φ) (file : φ) :
    env.total (files ++ [file]) = env.total files + if file ∈ files then 0 else env.size file := by
  have insertion : (files ++ [file]).toFinset = insert file files.toFinset := by
    ext other
    simp
  rw [total, total, insertion]
  split
  · rename_i member
    rw [Finset.insert_eq_of_mem (List.mem_toFinset.mpr member), Nat.add_zero]
  · rename_i new
    rw [Finset.sum_insert (fun member => new (List.mem_toFinset.mp member)), Nat.add_comm]

omit [DecidableEq φ] in
theorem nullTwice_concat : env.NullTwice (files ++ [file]) ↔
    env.NullTwice files ∨ file ∈ files ∧ env.isNull file = true ∧ env.size file ≠ 0 := by
  constructor
  · rintro ⟨before, other, after, same, member, isNull, some⟩
    rcases List.eq_nil_or_concat after with rfl | ⟨after, last, rfl⟩
    · obtain ⟨rfl, last⟩ := List.append_inj' same rfl
      obtain rfl := List.singleton_inj.mp last
      exact .inr ⟨member, isNull, some⟩
    · have split : files ++ [file] = (before ++ other :: after) ++ [last] := by
        rw [same]
        simp
      obtain ⟨rfl, -⟩ := List.append_inj' split rfl
      exact .inl ⟨before, other, after, rfl, member, isNull, some⟩
  · rintro (⟨before, other, after, rfl, member, isNull, some⟩ | ⟨member, isNull, some⟩)
    · exact ⟨before, other, after ++ [file], by simp, member, isNull, some⟩
    · exact ⟨files, file, [], rfl, member, isNull, some⟩

theorem charge_once (once : ¬(file ∈ files ∧ env.isNull file = true ∧ env.size file ≠ 0)) :
    env.charge files file = if file ∈ files then 0 else env.size file := by
  unfold charge
  by_cases member : file ∈ files
  · cases isNull : env.isNull file with
    | false => rw [if_pos ⟨member, rfl⟩, if_pos member]
    | true =>
      have empty : env.size file = 0 := by
        by_contra some
        exact once ⟨member, isNull, some⟩
      simp [empty]
  · rw [if_neg member, if_neg fun both => member both.1]

theorem le_charge (files : List φ) (file : φ) : (if file ∈ files then 0 else env.size file) ≤ env.charge files file := by
  unfold charge
  by_cases member : file ∈ files
  · rw [if_pos member]
    exact Nat.zero_le _
  · rw [if_neg member, if_neg fun both => member both.1]

/-- The charge is the size of the distinct files when no file is charged again. -/
theorem charged_once (once : ¬env.NullTwice files) : env.charged files = env.total files := by
  induction files using List.reverseRecOn with
  | nil => rfl
  | append_singleton files file ih =>
    rw [nullTwice_concat, not_or] at once
    rw [charged_concat, total_concat, ih once.1, charge_once once.2]

/-- And it is more when one is. -/
theorem charged_twice (twice : env.NullTwice files) : env.total files < env.charged files := by
  have least : ∀ files : List φ, env.total files ≤ env.charged files := by
    intro files
    induction files using List.reverseRecOn with
    | nil => exact Nat.le_refl _
    | append_singleton files file ih =>
      rw [charged_concat, total_concat]
      exact Nat.add_le_add ih (le_charge files file)
  induction files using List.reverseRecOn with
  | nil =>
    obtain ⟨before, file, after, absurd, -⟩ := twice
    simp at absurd
  | append_singleton files file ih =>
    rw [charged_concat, total_concat]
    rcases nullTwice_concat.mp twice with earlier | ⟨member, isNull, some⟩
    · exact Nat.add_lt_add_of_lt_of_le (ih earlier) (le_charge files file)
    · have below := least files
      have again : env.charge files file = env.size file := if_neg fun both => by simp [isNull] at both
      rw [again, if_pos member]
      omega

omit [DecidableEq φ] in
/-- Where a file is charged again, there is a first one. -/
theorem first_charged_again (twice : env.NullTwice files) :
    ∃ before file, before ++ [file] <+: files ∧ ¬env.NullTwice before ∧ file ∈ before ∧ env.isNull file = true ∧ env.size file ≠ 0 := by
  induction files using List.reverseRecOn with
  | nil =>
    obtain ⟨before, file, after, absurd, -⟩ := twice
    simp at absurd
  | append_singleton files file ih =>
    by_cases earlier : env.NullTwice files
    · obtain ⟨before, found, initial, rest⟩ := ih earlier
      exact ⟨before, found, initial.trans (List.prefix_append _ _), rest⟩
    · have last := (nullTwice_concat.mp twice).resolve_left earlier
      exact ⟨files, file, List.prefix_refl _, earlier, last⟩

end ResolverEnvironment

namespace LocalRefResolver
open Program ResolverEnvironment
variable {φ : Type}

/-- A failure that is none of the byte limit. -/
def NotLimit (failure : ResolveFailure) : Prop := ∀ rejection, failure = .expected rejection → rejection.code ≠ "byte_limit"

theorem NotLimit.of_code {rejection : RefRejected} (other : rejection.code ≠ "byte_limit") : NotLimit (.expected rejection) := by
  rintro _ ⟨⟩
  exact other

theorem NotLimit.raised (error : PyError) : NotLimit (.raised error) := fun _ absurd => by cases absurd

def byteLimit : ResolveFailure := .expected ⟨"byte_limit", "referenced documents exceed max_total_bytes", none⟩

section
variable {env : ResolverEnvironment φ}

theorem urlsplit_only (reference : Text) : Only NotLimit ((env.urlsplit reference).mapError .raised) := by
  intro failure fails
  cases parsed : env.urlsplit reference with
  | error error =>
    rw [parsed] at fails
    cases fails
    exact .raised error
  | ok parts =>
    rw [parsed] at fails
    cases fails

theorem safePath_only (value : Text) (base : φ) : Only NotLimit (env.safePath value base) := by
  refine .bind (urlsplit_only value) fun parsed _ => ?_
  split
  · exact .error (.of_code (by simp))
  split
  · exact .error (.of_code (by simp))
  split
  · exact .error (.of_code (by simp))
  split
  · exact .error (.of_code (by simp))
  · exact .ok _

theorem target_only (reference : Text) (file : φ) : Only NotLimit (env.target reference file) := by
  refine .bind (urlsplit_only reference) fun parsed _ => ?_
  split
  · exact .error (.of_code (by simp))
  dsimp only
  split
  · exact .bind (safePath_only _ _) fun found _ => .ok _
  · exact .ok _

theorem decodePointerToken_only (reference token : Text) :
    Only (fun rejection => rejection.code ≠ "byte_limit") (decodePointerToken reference token) := by
  have mapped : ∀ {result : Except RefRejected Text} {f : Text → Text},
      Only (fun rejection => rejection.code ≠ "byte_limit") result →
        Only (fun rejection => rejection.code ≠ "byte_limit") (result.map f) := by
    intro result f only
    cases result with
    | ok value => exact .ok _
    | error rejection => exact .error (only rejection rfl)
  fun_induction decodePointerToken reference token with
  | case1 => exact .ok _
  | case2 rest ih => exact mapped ih
  | case3 rest ih => exact mapped ih
  | case4 => exact .error (by simp)
  | case5 c rest _ _ _ ih => exact mapped ih

theorem descend_only (reference : Text) (current : JsonValue) (tokens : List Text) :
    Only (fun rejection => rejection.code ≠ "byte_limit") (descend reference current tokens) := by
  induction tokens generalizing current with
  | nil => exact .ok _
  | cons rawToken rest ih =>
    refine .bind (decodePointerToken_only reference rawToken) fun token _ => ?_
    split
    · split
      · exact ih _
      · exact .error (by simp)
    · split
      · exact .error (by simp)
      split
      · exact ih _
      · exact .error (by simp)
    · exact .error (by simp)

theorem followPointer_only (document : JsonValue) (pointer reference : Text) :
    Only NotLimit ((followPointer document pointer reference).mapError .expected) := by
  have only : Only (fun rejection => rejection.code ≠ "byte_limit") (followPointer document pointer reference) := by
    unfold followPointer
    split
    · exact .ok _
    split
    · exact .error (by simp)
    · exact descend_only _ _ _
  intro failure fails
  cases followed : followPointer document pointer reference with
  | ok value =>
    rw [followed] at fails
    cases fails
  | error rejection =>
    rw [followed] at fails
    cases fails
    exact .of_code (only rejection followed)

theorem parse_only (path : φ) (payload : List UInt8) :
    Only (fun rejection => rejection.code ≠ "byte_limit") (env.parse path payload) := by
  refine .bind ?_ fun loaded _ => ?_
  · unfold deserialize
    split
    · split
      · exact .ok _
      · exact .error (by simp)
    split
    · split
      · exact .error (by simp)
      split
      · exact .ok _
      · exact .error (by simp)
    · exact .error (by simp)
  · split
    · exact .error (by simp)
    · exact .error (by simp)
    · split
      · exact .ok _
      · exact .error (by simp)

end

variable [DecidableEq φ]

/-- What the state of a resolution holds of the files that it was asked to load. -/
structure Booked (env : ResolverEnvironment φ) (s : ResolutionState φ) : Prop where
  sound : Sound env s
  cached : ∀ path, path ∈ s.visited ↔ s.cache.get? path ≠ none
  bytes : s.bytesRead = env.charged s.visited

/-- What `load` does beside the check of the byte limit. -/
def loaded (env : ResolverEnvironment φ) (path : φ) : Resolving φ JsonValue := fun s =>
  match cached s path with
  | some value => (.ok value, { s with visited := s.visited ++ [path] })
  | none =>
    let t := { s with visited := s.visited ++ [path], bytesRead := s.bytesRead + env.size path }
    match env.content path with
    | .error rejection => (.error (.expected rejection), t)
    | .ok value => (.ok value, { t with cache := t.cache.set path value })

section
variable {env : ResolverEnvironment φ} {limits : ResolverLimits} {s : ResolutionState φ} {path : φ}

/-- A file is found in the cache exactly when it was loaded before and is not `null`. -/
theorem cached_iff (booked : Booked env s) : cached s path ≠ none ↔ path ∈ s.visited ∧ env.isNull path = false := by
  unfold cached
  constructor
  · intro some
    split at some
    · exact absurd rfl some
    · rename_i found notNull
      refine ⟨(booked.cached path).mpr some, ?_⟩
      obtain ⟨value, isValue⟩ := Option.ne_none_iff_exists'.mp some
      have content := booked.sound path value isValue
      unfold isNull
      rw [content]
      split
      · rename_i same
        cases same
        exact absurd isValue notNull
      · rfl
  · rintro ⟨visited, isNull⟩
    have known := (booked.cached path).mp visited
    split
    · rename_i found
      have content := booked.sound path _ found
      unfold ResolverEnvironment.isNull at isNull
      rw [content] at isNull
      cases isNull
    · exact known

theorem charge_eq (booked : Booked env s) :
    env.charge s.visited path = if cached s path = none then env.size path else 0 := by
  have hit := @cached_iff φ _ env s path booked
  unfold charge
  by_cases miss : cached s path = none
  · rw [if_pos miss, if_neg fun both => hit.mpr both miss]
  · rw [if_neg miss, if_pos (hit.mp miss)]

theorem loaded_visited : (loaded env path s).2.visited = s.visited ++ [path] := by
  unfold loaded
  split
  · rfl
  · split <;> rfl

theorem load_visited : (load env limits path s).2.visited = s.visited ++ [path] := by
  unfold load
  dsimp only
  split
  · rfl
  split
  · rfl
  split <;> rfl

/-- A load within the limit stops at it, or does what `loaded` does. -/
theorem load_eq (booked : Booked env s) (within : s.bytesRead ≤ limits.maxTotalBytes) : load env limits path s =
    if limits.maxTotalBytes < env.charged (s.visited ++ [path]) then
      (.error byteLimit, { s with visited := s.visited ++ [path], bytesRead := s.bytesRead + env.size path })
    else loaded env path s := by
  rw [charged_concat, ← booked.bytes, charge_eq booked]
  have same : cached { s with visited := s.visited ++ [path] } path = cached s path := rfl
  unfold load loaded
  dsimp only
  rw [same]
  cases hit : cached s path with
  | some value => rw [if_neg (Option.some_ne_none value), Nat.add_zero, if_neg (Nat.not_lt.mpr within)]
  | none =>
    rw [if_pos rfl]
    dsimp only
    split
    · rw [if_pos ‹_›]
      rfl
    · rw [if_neg ‹_›]
      rfl

/-- A load keeps the books, or fails for a reason of its own. -/
theorem loaded_books (booked : Booked env s) : (∀ value, (loaded env path s).1 = .ok value → Booked env (loaded env path s).2) ∧
    ∀ failure, (loaded env path s).1 = .error failure → NotLimit failure := by
  have charges := @charged_concat φ env _ s.visited path
  rw [charge_eq booked, ← booked.bytes] at charges
  unfold loaded
  cases hit : cached s path with
  | some value =>
    rw [hit, if_neg (Option.some_ne_none value), Nat.add_zero] at charges
    have there : path ∈ s.visited := ((cached_iff booked).mp (by rw [hit]; exact Option.some_ne_none value)).1
    refine ⟨fun _ _ => ⟨booked.sound, fun other => ?_, charges.symm⟩, fun failure absurd => by cases absurd⟩
    rw [List.mem_append, List.mem_singleton, booked.cached other]
    refine ⟨fun member => member.elim id ?_, .inl⟩
    rintro rfl
    exact (booked.cached other).mp there
  | none =>
    rw [hit, if_pos rfl] at charges
    dsimp only
    cases parsed : env.content path with
    | error rejection =>
      refine ⟨fun value absurd => (by cases absurd), fun failure same => ?_⟩
      cases same
      exact .of_code (parse_only path (env.readBytes path) rejection parsed)
    | ok value =>
      refine ⟨fun _ _ => ⟨fun other known found => ?_, fun other => ?_, charges.symm⟩, fun failure absurd => by cases absurd⟩
      · rw [Dict.get?_set] at found
        split at found
        · next same =>
          cases found
          rw [same]
          exact parsed
        · exact booked.sound other known found
      · rw [List.mem_append, List.mem_singleton, booked.cached other, Dict.get?_set]
        split
        · next same => exact ⟨fun _ => Option.some_ne_none value, fun _ => .inr same⟩
        · next different => exact ⟨fun member => member.resolve_right different, .inl⟩

end

/-- Two runs that differ in the byte limit alone, the first one with the lower limit `bound`: they end alike within it, or
the first one stops at a load that goes beyond it. -/
inductive Agreed {α : Type} (env : ResolverEnvironment φ) (bound : Nat) :
    Except ResolveFailure α × ResolutionState φ → Except ResolveFailure α × ResolutionState φ → Prop
  | same {result : Except ResolveFailure α} {t : ResolutionState φ} : env.charged t.visited ≤ bound →
      (∀ a, result = .ok a → Booked env t) → Only NotLimit result → Agreed env bound (result, t) (result, t)
  | cut {t : ResolutionState φ} {before : List φ} {path : φ} {other : Except ResolveFailure α × ResolutionState φ} :
      t.visited = before ++ [path] → env.charged before ≤ bound → bound < env.charged (before ++ [path]) →
      t.visited <+: other.2.visited → Agreed env bound (.error byteLimit, t) other

/-- The second program only visits more files, and the first one follows it up to the bound. -/
structure Tracks {α : Type} (env : ResolverEnvironment φ) (bound : Nat) (first second : Resolving φ α) : Prop where
  grows : ∀ s, s.visited <+: (second s).2.visited
  agrees : ∀ s, Booked env s → s.bytesRead ≤ bound → Agreed env bound (first s) (second s)

section
variable {env : ResolverEnvironment φ} {bound : Nat} {α β : Type}

/-- A part that visits no file. -/
theorem Tracks.still {part : Resolving φ α} (quiet : ∀ s, (part s).2.visited = s.visited)
    (keeps : ∀ s a, Booked env s → (part s).1 = .ok a → Booked env (part s).2) (only : ∀ s, Only NotLimit (part s).1) :
    Tracks env bound part part where
  grows s := by
    rw [quiet]
  agrees s booked within := by
    refine @Agreed.same φ _ α env bound (part s).1 (part s).2 ?_ (fun a => keeps s a booked) (only s)
    rw [quiet, ← booked.bytes]
    exact within

theorem Tracks.pure (a : α) : Tracks env bound (Pure.pure a : Resolving φ α) (Pure.pure a) :=
  .still (fun _ => rfl) (fun _ _ booked _ => booked) fun _ => .ok a

theorem Tracks.reject (code detail : String) (reference : Option Text) (other : code ≠ "byte_limit") :
    Tracks env bound (LocalRefResolver.reject code detail reference : Resolving φ α) (LocalRefResolver.reject code detail reference) :=
  .still (fun _ => rfl) (fun _ _ booked _ => booked) fun _ => .error (.of_code other)

theorem Tracks.lift {result : Except ResolveFailure α} (only : Only NotLimit result) :
    Tracks env bound (LocalRefResolver.lift result : Resolving φ α) (LocalRefResolver.lift result) :=
  .still (fun _ => rfl) (fun _ _ booked _ => booked) fun _ => only

theorem Tracks.count (limits : ResolverLimits) (reference : Text) :
    Tracks env bound (countReference limits reference : Resolving φ Unit) (countReference limits reference) := by
  refine .still (fun s => ?_) (fun s a booked _ => ?_) fun s => ?_
  · unfold countReference
    dsimp only
    split <;> rfl
  · unfold countReference
    dsimp only
    split
    · exact ⟨booked.sound, booked.cached, booked.bytes⟩
    · exact ⟨booked.sound, booked.cached, booked.bytes⟩
  · unfold countReference
    dsimp only
    split
    · exact .error (.of_code (by simp))
    · exact .ok _

omit [DecidableEq φ] in
theorem visited_bind {second : Resolving φ α} {other : α → Resolving φ β} (later : ∀ a s, s.visited <+: (other a s).2.visited)
    (s : ResolutionState φ) : (second s).2.visited <+: ((second >>= other) s).2.visited := by
  rcases returns_or_raises second s with ⟨a, t, returns⟩ | ⟨failure, t, raises⟩
  · rw [bind_returned returns, returns]
    exact later a t
  · rw [bind_raised raises, raises]

theorem Tracks.bind {first second : Resolving φ α} {next other : α → Resolving φ β} (before : Tracks env bound first second)
    (after : ∀ a, Tracks env bound (next a) (other a)) : Tracks env bound (first >>= next) (second >>= other) where
  grows s := (before.grows s).trans (visited_bind (fun a => (after a).grows) s)
  agrees s booked within := by
    have agreed := before.agrees s booked within
    have onwards := @visited_bind φ α β second other (fun a => (after a).grows) s
    generalize runFirst : first s = x at agreed
    generalize runSecond : second s = y at agreed onwards
    cases agreed with
    | @same result t bounded books only =>
      cases result with
      | ok a =>
        rw [bind_returned runFirst, bind_returned runSecond]
        have booked' := books a rfl
        exact (after a).agrees t booked' (booked'.bytes ▸ bounded)
      | error failure =>
        rw [bind_raised runFirst, bind_raised runSecond]
        exact .same bounded (fun a absurd => by cases absurd) (.error (only failure rfl))
    | cut ends below beyond visits =>
      rw [bind_raised runFirst]
      exact .cut ends below beyond (visits.trans onwards)

variable {limits wider : ResolverLimits}

theorem Tracks.load (room : limits.maxTotalBytes ≤ wider.maxTotalBytes) (path : φ) :
    Tracks env limits.maxTotalBytes (load env limits path) (load env wider path) where
  grows s := by
    rw [load_visited]
    exact List.prefix_append _ _
  agrees s booked within := by
    obtain ⟨books, only⟩ := @loaded_books φ _ env s path booked
    rw [load_eq booked within]
    by_cases beyond : limits.maxTotalBytes < env.charged (s.visited ++ [path])
    · rw [if_pos beyond]
      refine .cut rfl (booked.bytes ▸ within) beyond ?_
      rw [load_visited]
    · rw [if_neg beyond, load_eq booked (within.trans room), if_neg (fun exceeds => beyond (lt_of_le_of_lt room exceeds))]
      refine @Agreed.same φ _ _ env _ (loaded env path s).1 (loaded env path s).2 ?_ books only
      rw [loaded_visited]
      exact Nat.not_lt.mp beyond

/-- A walk under a lower byte limit follows the one under a higher limit. -/
theorem walk_tracks (room : limits.maxTotalBytes ≤ wider.maxTotalBytes) (sameDepth : wider.maxDepth = limits.maxDepth)
    (sameReferences : wider.maxReferences = limits.maxReferences) (value : JsonValue) (currentFile : φ) (depth : Nat)
    (stack : List (φ × Text)) : Tracks env limits.maxTotalBytes (walk env limits value currentFile depth stack)
      (walk env wider value currentFile depth stack) := by
  refine walk.induct limits
    (fun value currentFile depth stack => Tracks env limits.maxTotalBytes (walk env limits value currentFile depth stack)
      (walk env wider value currentFile depth stack))
    (fun members currentFile depth stack => Tracks env limits.maxTotalBytes (walkMembers env limits members currentFile depth stack)
      (walkMembers env wider members currentFile depth stack))
    (fun items currentFile depth stack => Tracks env limits.maxTotalBytes (walkItems env limits items currentFile depth stack)
      (walkItems env wider items currentFile depth stack))
    ?deep ?list ?object ?reference ?scalar ?noMembers ?member ?noItems ?item value currentFile depth stack
  case deep =>
    intro value currentFile depth stack deep
    rw [walk_deep deep, walk_deep (sameDepth ▸ deep)]
    exact .reject _ _ _ (by simp)
  case list =>
    intro currentFile depth stack shallow items ih
    rw [walk_list shallow, walk_list (sameDepth ▸ shallow)]
    exact .bind ih fun results => .pure _
  case object =>
    intro currentFile depth stack shallow members plain ih
    rw [walk_object shallow plain, walk_object (sameDepth ▸ shallow) plain]
    exact .bind ih fun results => .pure _
  case reference =>
    intro currentFile depth stack shallow members reference isReference ihTarget ihSiblings
    have counts : (countReference wider reference : Resolving φ Unit) = countReference limits reference := by
      unfold countReference
      rw [sameReferences]
    rw [walk_reference shallow isReference, walk_reference (sameDepth ▸ shallow) isReference, counts]
    refine .bind (.count limits reference) fun _ => .bind (.lift (target_only reference currentFile)) fun marker => ?_
    split
    · exact .reject _ _ _ (by simp)
    refine .bind (.load room marker.1) fun document => .bind (.lift (followPointer_only document marker.2 reference)) fun target =>
      .bind (ihTarget marker target) fun resolved => ?_
    split
    · exact .pure _
    refine .bind ihSiblings fun walked => ?_
    split
    · split
      · exact .reject _ _ _ (by simp)
      · exact .pure _
    · exact .reject _ _ _ (by simp)
  case scalar =>
    intro currentFile depth stack shallow other noList noDict
    rw [walk_scalar shallow noList noDict, walk_scalar (sameDepth ▸ shallow) noList noDict]
    exact .pure _
  case noMembers =>
    intro currentFile depth stack
    rw [walkMembers, walkMembers]
    exact .pure _
  case member =>
    intro currentFile depth stack key child rest ihChild ihRest
    rw [walkMembers, walkMembers]
    exact .bind ihChild fun walked => .bind ihRest fun others => .pure _
  case noItems =>
    intro currentFile depth stack
    rw [walkItems, walkItems]
    exact .pure _
  case item =>
    intro currentFile depth stack item rest ihItem ihRest
    rw [walkItems, walkItems]
    exact .bind ihItem fun walked => .bind ihRest fun others => .pure _

end

/-- The part of `resolve` behind the check of the path. -/
def resolution (env : ResolverEnvironment φ) (limits : ResolverLimits) (initial : φ) : Resolving φ JsonValue := do
  let raw ← load env limits initial
  walk env limits raw initial 0 []

/-- The files that a resolution reaches, one after the other. -/
def reached (env : ResolverEnvironment φ) (limits : ResolverLimits) (document : Text) : List φ :=
  match env.safePath document env.root with
  | .ok initial => (resolution env limits initial start).2.visited
  | .error _ => []

/-- What is read is charged once a file, and the byte limit stops a resolution only when the files themselves exceed it. -/
structure ChargedOnce (env : ResolverEnvironment φ) (limits : ResolverLimits) (document : Text) : Prop where
  resolved : ∀ value references bytesRead, resolve env limits document = .ok (.resolved value references bytesRead) →
    bytesRead = env.total (reached env limits document)
  limited : ∀ rejection, resolve env limits document = .ok (.refRejected rejection) → rejection.code = "byte_limit" →
    limits.maxTotalBytes < env.total (reached env limits document)

section
variable {env : ResolverEnvironment φ} {limits wider : ResolverLimits} {document : Text}

theorem resolution_tracks (room : limits.maxTotalBytes ≤ wider.maxTotalBytes) (sameDepth : wider.maxDepth = limits.maxDepth)
    (sameReferences : wider.maxReferences = limits.maxReferences) (initial : φ) :
    Tracks env limits.maxTotalBytes (resolution env limits initial) (resolution env wider initial) :=
  .bind (.load room initial) fun raw => walk_tracks room sameDepth sameReferences raw initial 0 []

theorem booked_start : Booked env (start : ResolutionState φ) where
  sound := sound_start
  cached path := by simp [start, Dict.get?, Dict.empty]
  bytes := rfl

theorem resolution_agreed (room : limits.maxTotalBytes ≤ wider.maxTotalBytes) (sameDepth : wider.maxDepth = limits.maxDepth)
    (sameReferences : wider.maxReferences = limits.maxReferences) (initial : φ) :
    Agreed env limits.maxTotalBytes (resolution env limits initial start) (resolution env wider initial start) :=
  (resolution_tracks room sameDepth sameReferences initial).agrees start booked_start (Nat.zero_le _)

theorem reached_eq {initial : φ} (isInitial : env.safePath document env.root = .ok initial) :
    reached env limits document = (resolution env limits initial start).2.visited := by
  unfold reached
  rw [isInitial]

theorem resolution_eq {initial : φ} (isInitial : env.safePath document env.root = .ok initial) :
    resolve env limits document =
      match resolution env limits initial start with
      | (.ok value, s) => .ok (.resolved value s.references s.bytesRead)
      | (.error (.expected rejection), _) => .ok (.refRejected rejection)
      | (.error (.raised error), _) => .error error :=
  resolve_eq isInitial

/-- What is read by a resolution that returns is what was charged. -/
theorem resolved_charged {value : JsonValue} {references bytesRead : Nat}
    (resolved : resolve env limits document = .ok (.resolved value references bytesRead)) :
    bytesRead = env.charged (reached env limits document) := by
  cases isInitial : env.safePath document env.root with
  | error failure =>
    rcases @resolve_refused φ _ env limits document failure isInitial with ⟨_, -, other⟩ | ⟨_, -, other⟩ <;> cases resolved.symm.trans other
  | ok initial =>
    have agreed := @resolution_agreed φ _ env limits limits (Nat.le_refl _) rfl rfl initial
    rw [resolution_eq isInitial] at resolved
    rw [reached_eq isInitial]
    generalize resolution env limits initial start = run at agreed resolved
    cases agreed with
    | @same result t bounded books only =>
      cases result with
      | ok a =>
        cases resolved
        exact (books _ rfl).bytes
      | error failure => cases failure <;> cases resolved
    | cut => cases resolved

/-- A resolution that the byte limit stops was charged more than the limit. -/
theorem limited_charged {rejection : RefRejected} (rejected : resolve env limits document = .ok (.refRejected rejection))
    (isLimit : rejection.code = "byte_limit") : limits.maxTotalBytes < env.charged (reached env limits document) := by
  cases isInitial : env.safePath document env.root with
  | error failure =>
    have other := safePath_only document env.root failure isInitial
    rcases @resolve_refused φ _ env limits document failure isInitial with ⟨_, rfl, same⟩ | ⟨_, -, same⟩
    · cases rejected.symm.trans same
      exact absurd isLimit (other rejection rfl)
    · cases rejected.symm.trans same
  | ok initial =>
    have agreed := @resolution_agreed φ _ env limits limits (Nat.le_refl _) rfl rfl initial
    rw [resolution_eq isInitial] at rejected
    rw [reached_eq isInitial]
    generalize resolution env limits initial start = run at agreed rejected
    cases agreed with
    | @same result t bounded books only =>
      cases result with
      | ok a => cases rejected
      | error failure =>
        cases failure with
        | expected found =>
          cases rejected
          exact absurd isLimit (only _ rfl _ rfl)
        | raised error => cases rejected
    | cut ends below beyond visits => exact ends ▸ beyond

/-- Before its last file a resolution was not charged more than the limit. -/
theorem charged_before_last {before : List φ} {file : φ} (initialPart : before ++ [file] <+: reached env limits document) :
    env.charged before ≤ limits.maxTotalBytes := by
  cases isInitial : env.safePath document env.root with
  | error failure =>
    unfold reached at initialPart
    rw [isInitial] at initialPart
    simp at initialPart
  | ok initial =>
    have agreed := @resolution_agreed φ _ env limits limits (Nat.le_refl _) rfl rfl initial
    rw [reached_eq isInitial] at initialPart
    generalize resolution env limits initial start = run at agreed initialPart
    cases agreed with
    | @same result t bounded books only =>
      exact (charged_mono ((List.prefix_append before [file]).trans initialPart)).trans bounded
    | @cut t front path other ends below beyond visits =>
      have part : before ++ [file] <+: front ++ [path] := ends ▸ initialPart
      refine (charged_mono ?_).trans below
      obtain ⟨rest, same⟩ := part
      rcases List.eq_nil_or_concat rest with rfl | ⟨rest, last, rfl⟩
      · rw [List.append_nil] at same
        rw [(List.append_inj' same rfl).1]
      · have split : (before ++ file :: rest) ++ [last] = front ++ [path] := by
          rw [← same]
          simp
        rw [← (List.append_inj' split rfl).1]
        exact List.prefix_append _ _

/-- Of two initial parts of a sequence, the one that is charged beyond the bound with its last file is the other. -/
theorem same_part {files first second : List φ} {path file : φ} {bound : Nat} (firstPart : first ++ [path] <+: files)
    (secondPart : second ++ [file] <+: files) (below : env.charged first ≤ bound) (beyond : bound < env.charged (first ++ [path]))
    (below' : env.charged second ≤ bound) (beyond' : bound < env.charged (second ++ [file])) :
    first ++ [path] = second ++ [file] := by
  rcases List.prefix_or_prefix_of_prefix firstPart secondPart with shorter | longer
  · rcases (List.prefix_concat_iff.mp shorter) with same | inside
    · exact same
    · have most := @charged_mono φ env _ _ _ inside
      omega
  · rcases (List.prefix_concat_iff.mp longer) with same | inside
    · exact same.symm
    · have most := @charged_mono φ env _ _ _ inside
      omega

/-- A file that is charged again is charged at the wrong time under some limit: under the one that the files before it just
keep. -/
theorem charged_too_early {budget : { n : Nat // 0 < n }}
    (twice : env.NullTwice (reached env (limits.withTotalBytes budget) document)) :
    ∃ lower, ¬ChargedOnce env (limits.withTotalBytes lower) document := by
  obtain ⟨before, file, initialPart, once, member, isNull, some⟩ := first_charged_again twice
  have again : env.charged (before ++ [file]) = env.charged before + env.size file := by
    rw [charged_concat, charge, if_neg fun both => by simp [isNull] at both]
  have positive : 0 < env.charged before := by
    rw [charged_once once]
    have least := Finset.single_le_sum (f := env.size) (fun _ _ => Nat.zero_le _) (List.mem_toFinset.mpr member)
    exact Nat.lt_of_lt_of_le (Nat.pos_of_ne_zero some) least
  have room : env.charged before ≤ (limits.withTotalBytes budget).maxTotalBytes := charged_before_last initialPart
  refine ⟨⟨env.charged before, positive⟩, fun charges => ?_⟩
  cases isInitial : env.safePath document env.root with
  | error failure =>
    unfold reached at initialPart
    rw [isInitial] at initialPart
    simp at initialPart
  | ok initial =>
    have agreed := @resolution_agreed φ _ env (limits.withTotalBytes ⟨env.charged before, positive⟩)
      (limits.withTotalBytes budget) room rfl rfl initial
    rw [reached_eq isInitial] at initialPart
    generalize runLower : resolution env (limits.withTotalBytes ⟨env.charged before, positive⟩) initial start = lower at agreed
    generalize resolution env (limits.withTotalBytes budget) initial start = higher at agreed initialPart
    cases agreed with
    | same bounded books only =>
      have most := (charged_mono initialPart).trans bounded
      have few : (limits.withTotalBytes ⟨env.charged before, positive⟩).maxTotalBytes = env.charged before := rfl
      omega
    | cut ends below beyond visits =>
      have part := same_part (ends ▸ visits) initialPart below beyond (Nat.le_refl _) (by
        show env.charged before < _
        omega)
      have stopped : resolve env (limits.withTotalBytes ⟨env.charged before, positive⟩) document =
          .ok (.refRejected ⟨"byte_limit", "referenced documents exceed max_total_bytes", none⟩) := by
        rw [resolution_eq isInitial, runLower]
        rfl
      have exceeds := charges.limited _ stopped rfl
      rw [reached_eq isInitial, runLower, ends, part, total_concat, if_pos member, ← charged_once once] at exceeds
      exact absurd exceeds (Nat.lt_irrefl _)

/-- What a resolution reaches when it returns: the document, and then the files of its full expansion. -/
theorem reached_expansion {value : JsonValue} {references bytesRead : Nat}
    (resolved : resolve env limits document = .ok (.resolved value references bytesRead)) :
    ∃ initial raw files nested, env.safePath document env.root = .ok initial ∧ env.content initial = .ok raw ∧
      env.Expands initial raw value files nested ∧ reached env limits document = initial :: files := by
  rcases resolve_cases env limits document with ⟨initial, raw, s, found, t, isInitial, loads, walks, same⟩ | ⟨failure, outcome, -⟩
  · cases resolved.symm.trans same
    obtain ⟨isContent, sound, -, visited⟩ := load_returns sound_start loads
    obtain ⟨files, nested, expands, walked⟩ := walk_expands raw initial 0 [] s t value sound walks
    have returns : (resolution env limits initial).Returns start value t := returns_bind.mpr ⟨raw, s, loads, walks⟩
    refine ⟨initial, raw, files, nested, isInitial, isContent, expands, ?_⟩
    rw [reached_eq isInitial, returns, walked.visited, visited]
    rfl
  · rcases outcome with ⟨_, -, same⟩ | ⟨_, -, same⟩ <;> cases resolved.symm.trans same

end

/-- A resolution charges each file once, and is stopped by the byte limit only when the files reached exceed it, if no file
that is not empty and holds `null` is reached twice. For a resolution that returns, which reaches the document and the files
of its expansion, and for all byte limits together, this is also necessary. -/
theorem charges_once_iff (env : ResolverEnvironment φ) (limits : ResolverLimits) (document : Text) :
    (¬env.NullTwice (reached env limits document) → ChargedOnce env limits document) ∧
      (∀ value references bytesRead, resolve env limits document = .ok (.resolved value references bytesRead) →
        (∃ initial raw files nested, env.safePath document env.root = .ok initial ∧ env.content initial = .ok raw ∧
          env.Expands initial raw value files nested ∧ reached env limits document = initial :: files) ∧
        (bytesRead = env.total (reached env limits document) ↔ ¬env.NullTwice (reached env limits document))) ∧
      ((∀ bytes, ChargedOnce env (limits.withTotalBytes bytes) document) ↔
        ∀ bytes, ¬env.NullTwice (reached env (limits.withTotalBytes bytes) document)) := by
  have enough : ∀ limits : ResolverLimits, ¬env.NullTwice (reached env limits document) → ChargedOnce env limits document := by
    intro limits once
    have exact := charged_once once
    refine ⟨fun value references bytesRead resolved => ?_, fun rejection rejected isLimit => ?_⟩
    · rw [resolved_charged resolved, exact]
    · rw [← exact]
      exact limited_charged rejected isLimit
  refine ⟨enough limits, fun value references bytesRead resolved => ⟨reached_expansion resolved, ?_⟩, ?_, fun once bytes => ?_⟩
  · rw [resolved_charged resolved]
    refine ⟨fun same twice => ?_, charged_once⟩
    have more := charged_twice twice
    omega
  · intro charges bytes twice
    obtain ⟨lower, fails⟩ := charged_too_early twice
    exact fails (charges lower)
  · exact enough _ (once bytes)

/-- A document that refers to one file twice, and this file, which holds `null`. -/
def nullReference : List (Text × JsonValue) := [("$ref".codePoints, .str "n.json".codePoints)]

def twiceDocument : JsonValue := .dict [("a".codePoints, .dict nullReference), ("b".codePoints, .dict nullReference)]

def twiceBytes : List UInt8 :=
  Text.utf8 "\x7b\"a\": \x7b\"$ref\": \"n.json\"\x7d, \"b\": \x7b\"$ref\": \"n.json\"\x7d\x7d".codePoints

def nullBytes : List UInt8 := Text.utf8 "null".codePoints

/-- The directory is `none`; of its two files the second one holds `null`. -/
def nullFiles : ResolverEnvironment (Option Bool) where
  root := none
  parent := fun _ => none
  resolvePath := fun _ path =>
    if path = "root.json".codePoints then some (some true) else if path = "n.json".codePoints then some (some false) else none
  isAbsolute := fun path => path.head? = some 0x2f
  isRelativeToRoot := fun _ => true
  isFile := Option.isSome
  readBytes := fun file => if file = some true then twiceBytes else nullBytes
  suffix := fun file => if file.isSome then ".json" else ""
  urlsplit := fun text => .ok ⟨[], [], text.takeWhile (· ≠ 0x23), [], (text.dropWhile (· ≠ 0x23)).tail⟩
  unquote := id
  jsonLoads := fun payload =>
    if payload = twiceBytes then .ok twiceDocument else if payload = nullBytes then .ok .null else .error "Expecting value"
  yamlLoad := none

def rootLoaded : ResolutionState (Option Bool) := ⟨0, twiceBytes.length, ⟨[(some true, twiceDocument)], by simp⟩, [some true]⟩

def nullLoaded (references bytes : Nat) (visited : List (Option Bool)) : ResolutionState (Option Bool) :=
  ⟨references, bytes, ⟨[(some true, twiceDocument), (some false, .null)], by simp⟩, visited⟩

theorem walk_nullReference {s u t : ResolutionState (Option Bool)}
    (counts : (countReference defaultLimits "n.json".codePoints : Resolving (Option Bool) Unit).Returns s () u)
    (loads : (load nullFiles defaultLimits (some false)).Returns u .null t) :
    (walk nullFiles defaultLimits (.dict nullReference) (some true) 0 []).Returns s .null t := by
  have isReference : JsonValue.reference nullReference = some "n.json".codePoints := by rfl
  rw [walk_reference (by decide) isReference]
  refine returns_bind.mpr ⟨(), u, counts, ?_⟩
  refine returns_bind.mpr ⟨(some false, []), u, returns_lift.mpr ⟨by rfl, rfl⟩, ?_⟩
  refine returns_bind.mpr ⟨.null, t, loads, ?_⟩
  refine returns_bind.mpr ⟨.null, t, returns_lift.mpr ⟨by rfl, rfl⟩, ?_⟩
  refine returns_bind.mpr ⟨.null, t, ?_, by rfl⟩
  rw [walk_scalar (by decide) (by simp) (by simp)]
  exact returns_pure.mpr ⟨rfl, rfl⟩

theorem resolution_twice : (resolution nullFiles defaultLimits (some true)).Returns start
    (.dict [("a".codePoints, .null), ("b".codePoints, .null)])
    (nullLoaded 2 (twiceBytes.length + 4 + 4) [some true, some false, some false]) := by
  refine returns_bind.mpr ⟨twiceDocument, rootLoaded, by rfl, ?_⟩
  rw [twiceDocument, walk_object (by decide) (by rfl)]
  refine returns_bind.mpr ⟨_, nullLoaded 2 (twiceBytes.length + 4 + 4) [some true, some false, some false], ?_, rfl⟩
  rw [walkMembers]
  refine returns_bind.mpr ⟨.null, nullLoaded 1 (twiceBytes.length + 4) [some true, some false], ?_, ?_⟩
  · exact walk_nullReference (u := { rootLoaded with references := 1 }) (by rfl) (by rfl)
  · rw [walkMembers]
    refine returns_bind.mpr ⟨_, nullLoaded 2 (twiceBytes.length + 4 + 4) [some true, some false, some false], ?_, rfl⟩
    refine returns_bind.mpr ⟨.null, nullLoaded 2 (twiceBytes.length + 4 + 4) [some true, some false, some false], ?_, ?_⟩
    · exact walk_nullReference (u := nullLoaded 2 (twiceBytes.length + 4) [some true, some false]) (by rfl) (by rfl)
    · rw [walkMembers]
      exact returns_bind.mpr ⟨[], _, returns_pure.mpr ⟨rfl, rfl⟩, returns_pure.mpr ⟨rfl, rfl⟩⟩

/-- The file that holds `null` is read and charged twice. -/
theorem null_charged_twice : ∃ value, resolve nullFiles defaultLimits "root.json".codePoints =
      .ok (.resolved value 2 (twiceBytes.length + 4 + 4)) ∧
    nullFiles.total (reached nullFiles defaultLimits "root.json".codePoints) = twiceBytes.length + 4 ∧
    ¬ChargedOnce nullFiles defaultLimits "root.json".codePoints := by
  have isInitial : nullFiles.safePath "root.json".codePoints none = .ok (some true) := by rfl
  have resolved : resolve nullFiles defaultLimits "root.json".codePoints =
      .ok (.resolved (.dict [("a".codePoints, .null), ("b".codePoints, .null)]) 2 (twiceBytes.length + 4 + 4)) := by
    rw [resolution_eq isInitial, resolution_twice]
    rfl
  have reaches : reached nullFiles defaultLimits "root.json".codePoints = [some true, some false, some false] := by
    rw [reached_eq isInitial, resolution_twice]
    rfl
  have sum : nullFiles.total (reached nullFiles defaultLimits "root.json".codePoints) = twiceBytes.length + 4 := by
    rw [reaches]
    rfl
  refine ⟨_, resolved, sum, fun charges => ?_⟩
  have same := charges.resolved _ _ _ resolved
  omega

end LocalRefResolver

end Pytitect
