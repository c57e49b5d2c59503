import Pytitect.Wire.Numbers
import Mathlib.Data.List.Lex
import Mathlib.Data.List.Sort
import Mathlib.Data.Prod.Lex

namespace Pytitect
open JsonText

@[ext] structure ManifestEntry where
  path : Text
  sha256 : Text
  size : Int
  deriving DecidableEq

/-- What entries are compared by. -/
def ManifestEntry.key (entry : ManifestEntry) : Text ×ₗ Text ×ₗ Int := toLex (entry.path, toLex (entry.sha256, entry.size))

structure ContractManifest where
  entries : List ManifestEntry
  deriving DecidableEq

/-- `[0-9A-Fa-f]{64}` -/
def isHexadecimal (text : Text) : Bool :=
  text.length = 64 && text.all fun c => isDigit c || (0x41 ≤ c.val && c.val ≤ 0x46) || (0x61 ≤ c.val && c.val ≤ 0x66)

/-- A file system and the hexadecimal SHA-256, which come from the standard library. Paths have no NUL. -/
structure FileTree (φ : Type) where
  /-- `path.resolve(strict=True)` -/
  resolve : φ → Except PyError φ
  isAbsolute : φ → Bool
  join : φ → φ → φ
  isRelativeTo : φ → φ → Bool
  isFile : φ → Bool
  readBytes : φ → Except PyError (List UInt8)
  /-- `PurePosixPath(path.relative_to(root)).as_posix()` -/
  relativeTo : φ → φ → Text
  shown : φ → String
  sha256 : List UInt8 → Text
  relative_clean : ∀ path root, 0 ∉ relativeTo path root
  hexadecimal : ∀ bytes, isHexadecimal (sha256 bytes) = true

/-- An exception of the file system, or one of the two that `from_paths` raises itself. -/
inductive ManifestError
  | raised (error : PyError)
  | escapes (path : String)
  | duplicatePaths

/-- The exception as it leaves `from_paths`. -/
def ManifestError.exception : ManifestError → PyError
  | .raised error => error
  | .escapes path => .valueError ("manifest path escapes root or is not a file: " ++ path)
  | .duplicatePaths => .valueError "manifest contains duplicate paths"

namespace FileTree
variable {φ : Type} (tree : FileTree φ)

def raising {α : Type} : Except PyError α → Except ManifestError α
  | .error error => .error (.raised error)
  | .ok value => .ok value

/-- The body of the loop of `from_paths`. -/
def entry (resolvedRoot path : φ) : Except ManifestError ManifestEntry := do
  let candidate := if tree.isAbsolute path then path else tree.join resolvedRoot path
  let resolved ← raising (tree.resolve candidate)
  if tree.isRelativeTo resolved resolvedRoot = false ∨ tree.isFile resolved = false then .error (.escapes (tree.shown path))
  else do
    let payload ← raising (tree.readBytes resolved)
    return ⟨tree.relativeTo resolved resolvedRoot, tree.sha256 payload, payload.length⟩

/-- `entries.sort()` -/
def sorted (entries : List ManifestEntry) : List ManifestEntry :=
  entries.insertionSort fun first second => first.key ≤ second.key

def fromPaths (root : φ) (paths : List φ) : Except ManifestError ContractManifest := do
  let resolvedRoot ← raising (tree.resolve root)
  let entries ← paths.mapM (tree.entry resolvedRoot)
  if ((sorted entries).map ManifestEntry.path).dedup.length ≠ entries.length then .error .duplicatePaths
  else return ⟨sorted entries⟩

end FileTree

/-- `text.encode()` -/
def utf8Encoded (text : Text) : Except PyError (List UInt8) :=
  match text.encode with
  | some bytes => .ok bytes
  | none => .error .unicodeError

/-- `text.encode("ascii")` -/
def asciiEncoded (text : Text) : Except PyError (List UInt8) :=
  if text.all fun c => c.val < 0x80 then .ok (text.map fun c => .ofNat c.val) else .error .unicodeError

section
variable (interpreter : Interpreter)

/-- What is hashed for an entry. -/
def ManifestEntry.line (entry : ManifestEntry) : Except PyError (List UInt8) := do
  let path ← utf8Encoded entry.path
  let digest ← asciiEncoded entry.sha256
  let size ← asciiEncoded (← JsonValue.intRepr interpreter entry.size)
  return path ++ 0 :: (digest ++ 0 :: (size ++ [0x0a]))

/-- What is hashed for the entries, one after another. -/
def linesOf : List ManifestEntry → Except PyError (List UInt8)
  | [] => .ok []
  | entry :: rest => do
    let line ← entry.line interpreter
    let lines ← linesOf rest
    return line ++ lines

namespace ContractManifest

def preimage (manifest : ContractManifest) : Except PyError (List UInt8) := linesOf interpreter manifest.entries

def digest {φ : Type} (tree : FileTree φ) (manifest : ContractManifest) : Except PyError Text := do
  return tree.sha256 (← manifest.preimage interpreter)

end ContractManifest

end

section
variable {first second : ManifestEntry} {entries others : List ManifestEntry}

theorem key_injective : Function.Injective ManifestEntry.key := by
  intro first second same
  obtain ⟨path, rest⟩ := Prod.mk.inj (toLex.injective same)
  obtain ⟨digest, size⟩ := Prod.mk.inj (toLex.injective rest)
  cases first
  cases second
  simp_all

theorem sorted_perm : (FileTree.sorted entries).Perm entries := List.perm_insertionSort _ _

theorem sorted_pairwise : (FileTree.sorted entries).Pairwise fun first second => first.key ≤ second.key := by
  have total : Std.Total fun first second : ManifestEntry => first.key ≤ second.key :=
    ⟨fun first second => le_total first.key second.key⟩
  have trans : IsTrans ManifestEntry fun first second => first.key ≤ second.key := ⟨fun _ _ _ before after => before.trans after⟩
  exact List.pairwise_insertionSort _ _

/-- The same entries have one order. -/
theorem sorted_of_perm (order : entries.Perm others) : FileTree.sorted entries = FileTree.sorted others := by
  refine List.Perm.eq_of_pairwise (fun first second _ _ before after => ?_) sorted_pairwise sorted_pairwise
    (sorted_perm.trans (order.trans sorted_perm.symm))
  exact key_injective (before.antisymm after)

end

section
variable {ε α β : Type} {read : α → Except ε β} {paths reordered : List α} {found : List β}

theorem mapM_ok_cons {path : α} : (path :: paths).mapM read = .ok found ↔
    ∃ value values, read path = .ok value ∧ paths.mapM read = .ok values ∧ found = value :: values := by
  rw [List.mapM_cons]
  constructor
  · intro done
    obtain ⟨value, first, done⟩ := bind_ok done
    obtain ⟨values, rest, done⟩ := bind_ok done
    exact ⟨value, values, first, rest, (Except.ok.inj done).symm⟩
  · rintro ⟨value, values, first, rest, rfl⟩
    rw [first, rest]
    rfl

/-- What can be read in one order can be read in any. -/
theorem mapM_of_perm (order : paths.Perm reordered) (done : paths.mapM read = .ok found) :
    ∃ values, reordered.mapM read = .ok values ∧ found.Perm values := by
  induction order generalizing found with
  | nil => exact ⟨found, done, List.Perm.refl _⟩
  | cons path _ ih =>
    obtain ⟨value, values, first, rest, rfl⟩ := mapM_ok_cons.mp done
    obtain ⟨others, done, order⟩ := ih rest
    exact ⟨value :: others, mapM_ok_cons.mpr ⟨value, others, first, done, rfl⟩, order.cons value⟩
  | swap path next paths =>
    obtain ⟨value, values, first, rest, rfl⟩ := mapM_ok_cons.mp done
    obtain ⟨other, others, second, later, rfl⟩ := mapM_ok_cons.mp rest
    refine ⟨other :: value :: others, ?_, List.Perm.swap other value others⟩
    exact mapM_ok_cons.mpr ⟨other, _, second, mapM_ok_cons.mpr ⟨value, others, first, later, rfl⟩, rfl⟩
  | trans _ _ ih ih' =>
    obtain ⟨middle, done, order⟩ := ih done
    obtain ⟨last, done, order'⟩ := ih' done
    exact ⟨last, done, order.trans order'⟩

end

namespace FileTree
variable {φ : Type} {tree : FileTree φ} {root resolvedRoot : φ} {paths reordered : List φ}

/-- The entries of the paths, in their order. -/
def Collects (tree : FileTree φ) (root : φ) (paths : List φ) (entries : List ManifestEntry) : Prop :=
  ∃ resolvedRoot, tree.resolve root = .ok resolvedRoot ∧ paths.mapM (tree.entry resolvedRoot) = .ok entries

theorem raising_ok {α : Type} {result : Except PyError α} {value : α} : raising result = .ok value ↔ result = .ok value := by
  cases result with
  | error error => exact ⟨fun absurd => (by cases absurd), fun absurd => (by cases absurd)⟩
  | ok found => exact ⟨fun same => congrArg _ (Except.ok.inj same), fun same => congrArg _ (Except.ok.inj same)⟩

/-- No path twice, counted as `from_paths` counts. -/
theorem dedup_sorted {entries : List ManifestEntry} : ((sorted entries).map ManifestEntry.path).dedup.length = entries.length ↔
    (entries.map ManifestEntry.path).Nodup := by
  have order : ((sorted entries).map ManifestEntry.path).Perm (entries.map ManifestEntry.path) := sorted_perm.map _
  have size : (entries.map ManifestEntry.path).length = entries.length := List.length_map _
  rw [order.dedup.length_eq, ← size]
  constructor
  · intro same
    exact List.dedup_eq_self.mp ((List.dedup_sublist _).eq_of_length same)
  · intro distinct
    rw [distinct.dedup]

/-- A path on which an entry fails with the error of its own kind is not a duplicate. -/
theorem entry_not_duplicate {path : φ} : tree.entry resolvedRoot path ≠ .error .duplicatePaths := by
  have other : ∀ {α : Type} (result : Except PyError α), raising result ≠ .error .duplicatePaths := by
    rintro α (error | value) <;> exact fun absurd => (by cases absurd)
  unfold entry
  dsimp only
  intro failed
  cases resolved : raising (tree.resolve (if tree.isAbsolute path then path else tree.join resolvedRoot path)) with
  | error error =>
    rw [resolved] at failed
    have same : error = .duplicatePaths := Except.error.inj failed
    exact other _ (same ▸ resolved)
  | ok found =>
    rw [resolved] at failed
    change (if _ then _ else _) = _ at failed
    split at failed
    · cases failed
    · cases readAll : raising (tree.readBytes found) with
      | error error =>
        rw [readAll] at failed
        have same : error = .duplicatePaths := Except.error.inj failed
        exact other _ (same ▸ readAll)
      | ok payload =>
        rw [readAll] at failed
        cases failed

theorem fromPaths_ok {manifest : ContractManifest} : tree.fromPaths root paths = .ok manifest ↔
    ∃ entries, tree.Collects root paths entries ∧ (entries.map ManifestEntry.path).Nodup ∧ manifest = ⟨sorted entries⟩ := by
  constructor
  · intro made
    obtain ⟨resolvedRoot, resolved, made⟩ := bind_ok made
    obtain ⟨entries, read, made⟩ := bind_ok made
    split at made
    · cases made
    · rename_i same
      exact ⟨entries, ⟨resolvedRoot, raising_ok.mp resolved, read⟩, dedup_sorted.mp (not_not.mp same), (Except.ok.inj made).symm⟩
  · rintro ⟨entries, ⟨resolvedRoot, resolved, read⟩, distinct, rfl⟩
    refine bind_ok_iff.mpr ⟨resolvedRoot, raising_ok.mpr resolved, bind_ok_iff.mpr ⟨entries, read, ?_⟩⟩
    exact if_neg (not_not_intro (dedup_sorted.mpr distinct))

theorem mapM_not_duplicate : paths.mapM (tree.entry resolvedRoot) ≠ .error .duplicatePaths := by
  induction paths with
  | nil => exact fun absurd => (by cases absurd)
  | cons path rest ih =>
    rw [List.mapM_cons]
    intro failed
    cases first : tree.entry resolvedRoot path with
    | error error =>
      rw [first] at failed
      exact entry_not_duplicate (Except.error.inj failed ▸ first)
    | ok value =>
      cases later : rest.mapM (tree.entry resolvedRoot) with
      | error error =>
        rw [first, later] at failed
        exact ih (Except.error.inj failed ▸ later)
      | ok values =>
        rw [first, later] at failed
        cases failed

theorem fromPaths_duplicate : tree.fromPaths root paths = .error .duplicatePaths ↔
    ∃ entries, tree.Collects root paths entries ∧ ¬(entries.map ManifestEntry.path).Nodup := by
  constructor
  · intro failed
    unfold fromPaths at failed
    cases resolved : tree.resolve root with
    | error error =>
      rw [resolved] at failed
      cases failed
    | ok resolvedRoot =>
      rw [resolved] at failed
      change (paths.mapM (tree.entry resolvedRoot) >>= _) = _ at failed
      cases read : paths.mapM (tree.entry resolvedRoot) with
      | error error =>
        rw [read] at failed
        exact absurd (Except.error.inj failed ▸ read) mapM_not_duplicate
      | ok entries =>
        rw [read] at failed
        change (if _ then _ else _) = _ at failed
        split at failed
        · rename_i twice
          exact ⟨entries, ⟨resolvedRoot, resolved, read⟩, fun distinct => twice (dedup_sorted.mpr distinct)⟩
        · cases failed
  · rintro ⟨entries, ⟨resolvedRoot, resolved, read⟩, twice⟩
    have many : ((sorted entries).map ManifestEntry.path).dedup.length ≠ entries.length :=
      fun same => twice (dedup_sorted.mp same)
    unfold fromPaths
    rw [resolved]
    change (paths.mapM (tree.entry resolvedRoot) >>= _) = _
    rw [read]
    exact if_pos many

theorem Collects.of_perm {entries : List ManifestEntry} (collects : tree.Collects root paths entries)
    (order : paths.Perm reordered) : ∃ others, tree.Collects root reordered others ∧ entries.Perm others := by
  obtain ⟨resolvedRoot, resolved, read⟩ := collects
  obtain ⟨others, read, same⟩ := mapM_of_perm order read
  exact ⟨others, ⟨resolvedRoot, resolved, read⟩, same⟩

theorem fromPaths_of_perm {manifest : ContractManifest} (order : paths.Perm reordered)
    (made : tree.fromPaths root paths = .ok manifest) : tree.fromPaths root reordered = .ok manifest := by
  obtain ⟨entries, collects, distinct, rfl⟩ := fromPaths_ok.mp made
  obtain ⟨others, collects, same⟩ := collects.of_perm order
  exact fromPaths_ok.mpr ⟨others, collects, (same.map _).nodup_iff.mp distinct, congrArg _ (sorted_of_perm same)⟩

theorem duplicate_of_perm (order : paths.Perm reordered) (failed : tree.fromPaths root paths = .error .duplicatePaths) :
    tree.fromPaths root reordered = .error .duplicatePaths := by
  obtain ⟨entries, collects, twice⟩ := fromPaths_duplicate.mp failed
  obtain ⟨others, collects, same⟩ := collects.of_perm order
  exact fromPaths_duplicate.mpr ⟨others, collects, fun distinct => twice ((same.map _).nodup_iff.mpr distinct)⟩

end FileTree

/-- A path without NUL and a digest of 64 hexadecimal characters. -/
def ManifestEntry.Clean (entry : ManifestEntry) : Prop := 0 ∉ entry.path ∧ isHexadecimal entry.sha256 = true

theorem FileTree.fromPaths_clean {φ : Type} {tree : FileTree φ} {root : φ} {paths : List φ} {manifest : ContractManifest}
    (made : tree.fromPaths root paths = .ok manifest) : ∀ entry ∈ manifest.entries, entry.Clean := by
  obtain ⟨entries, ⟨resolvedRoot, resolved, read⟩, distinct, rfl⟩ := FileTree.fromPaths_ok.mp made
  intro entry member
  have there : entry ∈ entries := sorted_perm.mem_iff.mp member
  clear made member distinct
  induction paths generalizing entries with
  | nil =>
    have none : entries = [] := (Except.ok.inj read).symm
    rw [none] at there
    cases there
  | cons path rest ih =>
    obtain ⟨value, values, first, later, rfl⟩ := mapM_ok_cons.mp read
    rcases List.mem_cons.mp there with rfl | inRest
    · obtain ⟨found, -, first⟩ := bind_ok first
      split at first
      · cases first
      · obtain ⟨payload, -, same⟩ := bind_ok first
        have same : _ = entry := Except.ok.inj same
        rw [← same]
        exact ⟨tree.relative_clean _ _, tree.hexadecimal _⟩
    · exact ih values later inRest

section
variable {text other : Text} {bytes rest rest' : List UInt8}

theorem utf8Encoded_ok : utf8Encoded text = .ok bytes ↔ text.encode = some bytes := by
  unfold utf8Encoded
  cases text.encode with
  | none => exact ⟨fun absurd => (by cases absurd), fun absurd => (by cases absurd)⟩
  | some found => exact ⟨fun same => congrArg _ (Except.ok.inj same), fun same => congrArg _ (Option.some.inj same)⟩

/-- A code point other than NUL has no zero byte. -/
theorem zero_notMem_utf8 (clean : 0 ∉ text) : 0 ∉ Text.utf8 text := by
  have byte : ∀ n : Nat, 0 < n → n < 256 → (0 : UInt8) ≠ .ofNat n := by
    intro n positive small same
    have value := congrArg UInt8.toNat same
    rw [UInt8.toNat_ofNat_of_lt' small] at value
    exact absurd value.symm (by simpa using positive.ne')
  intro zero
  obtain ⟨c, member, zero⟩ := List.mem_flatMap.mp zero
  have positive : 0 < c.val := Nat.pos_of_ne_zero fun none => clean ((Fin.ext none : c = 0) ▸ member)
  have bound := c.isLt
  unfold CodePoint.utf8 at zero
  dsimp only at zero
  split at zero
  · simp only [List.mem_cons, List.not_mem_nil, or_false] at zero
    exact byte _ positive (by omega) zero
  split at zero
  · simp only [List.mem_cons, List.not_mem_nil, or_false] at zero
    rcases zero with zero | zero <;> exact byte _ (by omega) (by omega) zero
  split at zero
  · simp only [List.mem_cons, List.not_mem_nil, or_false] at zero
    rcases zero with zero | zero | zero <;> exact byte _ (by omega) (by omega) zero
  · simp only [List.mem_cons, List.not_mem_nil, or_false] at zero
    rcases zero with zero | zero | zero | zero <;> exact byte _ (by omega) (by omega) zero

theorem encode_injective (first : text.encode = some bytes) (second : other.encode = some bytes) : text = other := by
  have run := Utf8Decoder.run_iff.mpr first
  rw [Utf8Decoder.run_iff.mpr second] at run
  exact (Prod.mk.inj (Option.some.inj run)).1.symm

theorem asciiEncoded_ok : asciiEncoded text = .ok bytes ↔
    (∀ c ∈ text, c.val < 0x80) ∧ bytes = text.map fun c => .ofNat c.val := by
  unfold asciiEncoded
  by_cases small : (text.all fun c => c.val < 0x80) = true
  · have each : ∀ c ∈ text, c.val < 0x80 := by simpa using small
    rw [if_pos small, Except.ok.injEq]
    exact ⟨fun same => ⟨each, same.symm⟩, fun same => same.2.symm⟩
  · rw [if_neg small]
    refine ⟨fun absurd => (by cases absurd), fun same => absurd ?_ small⟩
    simpa using same.1

/-- A byte that no character of an ASCII text has is not among its bytes. -/
theorem notMem_ascii {n : Nat} (small : n < 0x80) (encoded : asciiEncoded text = .ok bytes) (none : ∀ c ∈ text, c.val ≠ n) :
    UInt8.ofNat n ∉ bytes := by
  obtain ⟨all, rfl⟩ := asciiEncoded_ok.mp encoded
  intro member
  obtain ⟨c, found, same⟩ := List.mem_map.mp member
  have value := congrArg UInt8.toNat same
  have bound := all c found
  rw [UInt8.toNat_ofNat_of_lt' (by omega : c.val < 256), UInt8.toNat_ofNat_of_lt' (by omega : n < 256)] at value
  exact none c found value

theorem asciiEncoded_injective (first : asciiEncoded text = .ok bytes) (second : asciiEncoded other = .ok bytes) : text = other := by
  obtain ⟨all, rfl⟩ := asciiEncoded_ok.mp first
  obtain ⟨all', same⟩ := asciiEncoded_ok.mp second
  clear first second
  induction text generalizing other with
  | nil => exact (List.map_eq_nil_iff.mp same.symm).symm
  | cons c text ih =>
    cases other with
    | nil => cases same
    | cons d other =>
      rw [List.forall_mem_cons] at all all'
      obtain ⟨head, tail⟩ := List.cons.inj same
      have value := congrArg UInt8.toNat head
      have bound := all.1
      have bound' := all'.1
      rw [UInt8.toNat_ofNat_of_lt' (by omega : c.val < 256), UInt8.toNat_ofNat_of_lt' (by omega : d.val < 256)] at value
      rw [Fin.ext value, ih all.2 all'.2 tail]

theorem hexadecimal_ne (digest : isHexadecimal text = true) : ∀ c ∈ text, c.val ≠ 0 := by
  intro c member zero
  have each := List.all_eq_true.mp (Bool.and_eq_true_iff.mp digest).2 c member
  simp only [Bool.or_eq_true, Bool.and_eq_true, decide_eq_true_eq] at each
  rcases each with (digit | upper) | lower
  · have bounds := isDigit_bounds.mp digit
    omega
  · omega
  · omega

theorem signed_ne (n : Int) : ∀ c ∈ Decimal.signed n, c.val ≠ 0x0a := by
  have numeral : ∀ c ∈ Decimal.numeral n.natAbs, c.val ≠ 0x0a := by
    intro c member newline
    have bounds := isDigit_bounds.mp ((Decimal.numeral_digits n.natAbs).2 c member)
    omega
  intro c member
  unfold Decimal.signed at member
  split at member
  · rcases List.mem_cons.mp member with rfl | inNumeral
    · decide
    · exact numeral c inNumeral
  · exact numeral c member

theorem signed_injective : Function.Injective Decimal.signed := by
  intro first second same
  rw [← (Wire.integerValue_signed first).2, same, (Wire.integerValue_signed second).2]

end

section
variable {interpreter : Interpreter} {first second : ManifestEntry} {entries others : List ManifestEntry}

/-- The four parts of a line, none of which has the byte that ends it. -/
theorem line_ok {line : List UInt8} (clean : first.Clean) (written : first.line interpreter = .ok line) :
    ∃ path digest size, first.path.encode = some path ∧ asciiEncoded first.sha256 = .ok digest ∧
      asciiEncoded (Decimal.signed first.size) = .ok size ∧ line = path ++ 0 :: (digest ++ 0 :: (size ++ [0x0a])) ∧
      0 ∉ path ∧ 0 ∉ digest ∧ 0x0a ∉ size := by
  obtain ⟨path, named, written⟩ := bind_ok written
  obtain ⟨digest, hashed, written⟩ := bind_ok written
  obtain ⟨shown, repr, written⟩ := bind_ok written
  obtain ⟨size, counted, written⟩ := bind_ok written
  have decimal : shown = Decimal.signed first.size := by
    unfold JsonValue.intRepr at repr
    split at repr
    · exact (Except.ok.inj repr).symm
    · cases repr
  rw [decimal] at counted
  have encoded := utf8Encoded_ok.mp named
  refine ⟨path, digest, size, encoded, hashed, counted, (Except.ok.inj written).symm, ?_, ?_, ?_⟩
  · rw [(Text.encode_iff.mp encoded).2]
    exact zero_notMem_utf8 clean.1
  · exact notMem_ascii (by decide) hashed (hexadecimal_ne clean.2)
  · exact notMem_ascii (by decide) counted (signed_ne first.size)

/-- What stands before the first end mark is known, and what follows it. -/
theorem first_apart {mark : UInt8} {front front' back back' : List UInt8} (apart : mark ∉ front) (apart' : mark ∉ front')
    (same : front ++ mark :: back = front' ++ mark :: back') : front = front' ∧ back = back' := by
  induction front generalizing front' with
  | nil =>
    cases front' with
    | nil => exact ⟨rfl, (List.cons.inj same).2⟩
    | cons byte rest => exact absurd (List.cons.inj same).1 (List.ne_of_not_mem_cons apart')
  | cons byte rest ih =>
    cases front' with
    | nil => exact absurd (List.cons.inj same).1.symm (List.ne_of_not_mem_cons apart)
    | cons byte' rest' =>
      obtain ⟨head, tail⟩ := List.cons.inj same
      obtain ⟨rests, backs⟩ := ih (List.not_mem_of_not_mem_cons apart) (List.not_mem_of_not_mem_cons apart') tail
      exact ⟨head ▸ rests ▸ rfl, backs⟩

/-- A line is read in one way, whatever follows it. -/
theorem line_injective {line line' rest rest' : List UInt8} (clean : first.Clean) (clean' : second.Clean)
    (written : first.line interpreter = .ok line) (written' : second.line interpreter = .ok line')
    (same : line ++ rest = line' ++ rest') : first = second ∧ rest = rest' := by
  obtain ⟨path, digest, size, named, hashed, counted, rfl, noNul, noNul2, noNewline⟩ := line_ok clean written
  obtain ⟨path', digest', size', named', hashed', counted', rfl, noNul', noNul2', noNewline'⟩ := line_ok clean' written'
  simp only [List.append_assoc, List.cons_append, List.nil_append] at same
  obtain ⟨samePath, afterPath⟩ := first_apart noNul noNul' same
  obtain ⟨sameDigest, afterDigest⟩ := first_apart noNul2 noNul2' afterPath
  obtain ⟨sameSize, afterSize⟩ := first_apart noNewline noNewline' afterDigest
  have paths := encode_injective named (samePath ▸ named')
  have digests := asciiEncoded_injective hashed (sameDigest ▸ hashed')
  have sizes := signed_injective (asciiEncoded_injective counted (sameSize ▸ counted'))
  exact ⟨ManifestEntry.ext paths digests sizes, afterSize⟩

theorem line_some {line : List UInt8} (clean : first.Clean) (written : first.line interpreter = .ok line) : line ≠ [] := by
  obtain ⟨path, digest, size, -, -, -, rfl, -⟩ := line_ok clean written
  exact List.append_ne_nil_of_right_ne_nil _ (List.cons_ne_nil _ _)

/-- Entries are read off their lines. -/
theorem linesOf_injective {bytes : List UInt8} (clean : ∀ entry ∈ entries, entry.Clean) (clean' : ∀ entry ∈ others, entry.Clean)
    (written : linesOf interpreter entries = .ok bytes) (written' : linesOf interpreter others = .ok bytes) : entries = others := by
  have some : ∀ {entry : ManifestEntry} {rest : List ManifestEntry}, entry.Clean → linesOf interpreter (entry :: rest) ≠ .ok [] := by
    intro entry rest clean written
    obtain ⟨line, first, written⟩ := bind_ok written
    obtain ⟨lines, -, whole⟩ := bind_ok written
    exact line_some clean first (List.append_eq_nil_iff.mp (Except.ok.inj whole)).1
  induction entries generalizing others bytes with
  | nil =>
    cases others with
    | nil => rfl
    | cons entry others =>
      have none : bytes = [] := (Except.ok.inj written).symm
      rw [none] at written'
      exact absurd written' (some (clean' entry List.mem_cons_self))
  | cons entry entries ih =>
    cases others with
    | nil =>
      have none : bytes = [] := (Except.ok.inj written').symm
      rw [none] at written
      exact absurd written (some (clean entry List.mem_cons_self))
    | cons other others =>
      rw [List.forall_mem_cons] at clean clean'
      obtain ⟨line, first, written⟩ := bind_ok written
      obtain ⟨lines, later, whole⟩ := bind_ok written
      obtain ⟨line', first', written'⟩ := bind_ok written'
      obtain ⟨lines', later', whole'⟩ := bind_ok written'
      have same : line ++ lines = line' ++ lines' := (Except.ok.inj whole).trans (Except.ok.inj whole').symm
      obtain ⟨rfl, rfl⟩ := line_injective clean.1 clean'.1 first first' same
      rw [ih clean.2 clean'.2 later later']

end

/-- In whatever order the paths are given, the manifest is the same one, and a path that occurs twice is rejected. What is
hashed for a manifest tells its entries, and so does the digest, when SHA-256 tells apart what is hashed. -/
theorem manifest_identifies_tree {φ : Type} (interpreter : Interpreter) (tree : FileTree φ) (root : φ) {paths reordered : List φ}
    (order : paths.Perm reordered) {first second : ContractManifest} (clean : ∀ entry ∈ first.entries, entry.Clean)
    (clean' : ∀ entry ∈ second.entries, entry.Clean) :
    (∀ manifest, tree.fromPaths root paths = .ok manifest ↔ tree.fromPaths root reordered = .ok manifest) ∧
      (tree.fromPaths root paths = .error .duplicatePaths ↔ tree.fromPaths root reordered = .error .duplicatePaths) ∧
      (tree.fromPaths root paths = .error .duplicatePaths ↔
        ∃ entries, tree.Collects root paths entries ∧ ¬(entries.map ManifestEntry.path).Nodup) ∧
      (∀ bytes, first.preimage interpreter = .ok bytes → second.preimage interpreter = .ok bytes → first = second) ∧
      ∀ digest, (∀ bytes bytes', first.preimage interpreter = .ok bytes → second.preimage interpreter = .ok bytes' →
          tree.sha256 bytes = tree.sha256 bytes' → bytes = bytes') →
        first.digest interpreter tree = .ok digest → second.digest interpreter tree = .ok digest → first = second := by
  have preimages : ∀ bytes, first.preimage interpreter = .ok bytes → second.preimage interpreter = .ok bytes → first = second :=
    fun bytes written written' => congrArg ContractManifest.mk (linesOf_injective clean clean' written written')
  refine ⟨fun manifest => ⟨FileTree.fromPaths_of_perm order, FileTree.fromPaths_of_perm order.symm⟩,
    ⟨FileTree.duplicate_of_perm order, FileTree.duplicate_of_perm order.symm⟩, FileTree.fromPaths_duplicate, preimages, ?_⟩
  intro digest apart hashed hashed'
  obtain ⟨bytes, written, hashed⟩ := bind_ok hashed
  obtain ⟨bytes', written', hashed'⟩ := bind_ok hashed'
  have same := apart bytes bytes' written written' ((Except.ok.inj hashed).trans (Except.ok.inj hashed').symm)
  exact preimages bytes written (same ▸ written')

/-- The digests of `1` and of nothing. -/
def sampleDigest (payload : List UInt8) : Text :=
  if payload = [0x31] then "6b86b273ff34fce19d6b804eff5a3f5747ada4eaa22f1d49c01e52ddb7875b4b".codePoints
  else "e3b0c44298fc1c149afbf4c8996fb92427ae41e4649b934ca495991b7852b855".codePoints

/-- A root with two files, one of them empty. -/
def sampleTree : FileTree (Fin 3) where
  resolve := .ok
  isAbsolute := fun path => path = 0
  join := fun _ path => path
  isRelativeTo := fun _ _ => true
  isFile := fun path => path ≠ 0
  readBytes := fun path => .ok (if path = 1 then [0x31] else [])
  relativeTo := fun path _ => if path = 1 then "a.json".codePoints else "b.json".codePoints
  shown := fun _ => "file"
  sha256 := sampleDigest
  relative_clean := by decide
  hexadecimal := by
    intro payload
    unfold sampleDigest
    split
    · rfl
    · rfl

def sampleManifest : ContractManifest :=
  ⟨[⟨"a.json".codePoints, sampleDigest [0x31], 1⟩, ⟨"b.json".codePoints, sampleDigest [], 0⟩]⟩

/-- A tree with one of the files. -/
def smallManifest : ContractManifest := ⟨[⟨"a.json".codePoints, sampleDigest [0x31], 1⟩]⟩

theorem two_files_manifest : sampleTree.fromPaths 0 [2, 1] = .ok sampleManifest ∧
    ∀ interpreter bytes, sampleManifest.preimage interpreter = .ok bytes → smallManifest.preimage interpreter ≠ .ok bytes := by
  have both : sampleTree.fromPaths 0 [1, 2] = .ok sampleManifest := by rfl
  have one : sampleTree.fromPaths 0 [1] = .ok smallManifest := by rfl
  have told := fun interpreter => manifest_identifies_tree interpreter sampleTree 0 (List.Perm.swap 2 1 [])
    (FileTree.fromPaths_clean both) (FileTree.fromPaths_clean one)
  refine ⟨((told ⟨fun _ => JsonValue.intToken 0, 0⟩).1 sampleManifest).mp both, fun interpreter bytes written written' => ?_⟩
  have same := (told interpreter).2.2.2.1 bytes written written'
  exact absurd (congrArg (fun manifest => manifest.entries.length) same) (by decide)

end Pytitect
