import Pytitect.Sync.Cursors
import Pytitect.Wire.Ordinary

namespace Pytitect

/-- A `ValueError` itself, none of its subclasses. -/
def IsValueError (error : PyError) : Prop := ∃ message, error = .valueError message

namespace JsonValue

theorem validateText_only (text : Text) : Only IsValueError (validateText text) := by
  unfold validateText
  split
  · exact .error ⟨_, rfl⟩
  · exact .ok ()

theorem validateItems_only {items : List JsonValue} (each : ∀ item ∈ items, Only IsValueError (validateIjson item)) :
    Only IsValueError (validateItems items) := by
  induction items with
  | nil => exact .ok ()
  | cons item rest ih =>
    rw [List.forall_mem_cons] at each
    exact .bind each.1 fun _ _ => ih each.2

theorem validateMembers_only {members : List (Text × JsonValue)}
    (each : ∀ member ∈ members, Only IsValueError (validateIjson member.2)) : Only IsValueError (validateMembers members) := by
  induction members with
  | nil => exact .ok ()
  | cons member rest ih =>
    rw [List.forall_mem_cons] at each
    exact .bind (validateText_only member.1) fun _ _ => .bind each.1 fun _ _ => ih each.2

theorem validateIjson_only (value : JsonValue) : Only IsValueError value.validateIjson := by
  induction value using induct with
  | null => exact .ok ()
  | bool value => exact .ok ()
  | int value =>
    unfold validateIjson
    split
    · exact .error ⟨_, rfl⟩
    · exact .ok ()
  | float bits =>
    unfold validateIjson
    split
    · exact .ok ()
    · exact .error ⟨_, rfl⟩
  | str text => exact validateText_only text
  | list items ih => exact validateItems_only ih
  | dict members ih => exact validateMembers_only ih

theorem objectPairs_only (seen : List Text) (members : List (Text × JsonValue)) :
    Only IsValueError (objectPairs seen members) := by
  induction members generalizing seen with
  | nil => exact .ok ()
  | cons member rest ih =>
    unfold objectPairs
    split
    · exact .error ⟨_, rfl⟩
    · exact ih _

theorem hookedItems_only {items : List JsonValue} (each : ∀ item ∈ items, Only IsValueError (hooked item)) :
    Only IsValueError (hookedItems items) := by
  induction items with
  | nil => exact .ok ()
  | cons item rest ih =>
    rw [List.forall_mem_cons] at each
    exact .bind each.1 fun _ _ => ih each.2

theorem hookedMembers_only {members : List (Text × JsonValue)}
    (each : ∀ member ∈ members, Only IsValueError (hooked member.2)) : Only IsValueError (hookedMembers members) := by
  induction members with
  | nil => exact .ok ()
  | cons member rest ih =>
    rw [List.forall_mem_cons] at each
    exact .bind each.1 fun _ _ => ih each.2

theorem hooked_only (value : JsonValue) : Only IsValueError value.hooked := by
  induction value using induct with
  | null => exact .ok ()
  | bool value => exact .ok ()
  | int value => exact .ok ()
  | float bits => exact .ok ()
  | str text => exact .ok ()
  | list items ih => exact hookedItems_only ih
  | dict members ih => exact .bind (hookedMembers_only ih) fun _ _ => objectPairs_only [] members

end JsonValue

theorem base64urlDecode_only (value : Text) : Only IsValueError (base64urlDecode value) := by
  unfold base64urlDecode
  split
  · exact .error ⟨_, rfl⟩
  split
  · exact .error ⟨_, rfl⟩
  split
  · exact .error ⟨_, rfl⟩
  · exact .ok _

/-- The interpreter's own limit of recursion, or a package that is not installed. -/
def Aside (error : PyError) : Prop := error = .raised "RecursionError" ∨ ∃ message, error = .runtimeError message

/-- What the two JSON packages are documented to raise. -/
structure Platform.Documented (platform : Platform) : Prop where
  loads : ∀ payload, Only (fun error => IsValueError error ∨ error = .unicodeError ∨ error = .raised "RecursionError")
    (platform.loads payload)
  dumps : ∀ value, Only (fun error => IsValueError error ∨ error = .unicodeError ∨ (∃ message, error = .overflowError message) ∨
    error ∈ [.raised "ImportError", .raised "TypeError", .raised "RecursionError"]) (platform.dumps value)

namespace Sync
open OpaqueCursorCodec

/-- What the guarded block may let out. -/
def Foreseen (error : PyError) : Prop := malformed error = true ∨ Aside error

theorem IsValueError.foreseen {error : PyError} (isValue : IsValueError error) : Foreseen error := by
  obtain ⟨message, rfl⟩ := isValue
  exact .inl rfl

theorem parseIjson_only {platform : Platform} (documented : platform.Documented) (payload : List UInt8) :
    Only Foreseen (platform.parseIjson payload) := by
  refine .bind ((documented.loads payload).mono fun error cases => ?_) fun value _ =>
    .bind (value.hooked_only.mono fun _ => IsValueError.foreseen) fun _ _ =>
      .bind (value.validateIjson_only.mono fun _ => IsValueError.foreseen) fun _ _ => .ok _
  rcases cases with isValue | rfl | rfl
  · exact IsValueError.foreseen isValue
  · exact .inl rfl
  · exact .inr (.inl rfl)

theorem canonicalJson_only {platform : Platform} (documented : platform.Documented) (value : JsonValue) :
    Only Foreseen (platform.canonicalJson value) := by
  refine .bind (value.validateIjson_only.mono fun _ => IsValueError.foreseen) fun _ _ => ?_
  have raises := documented.dumps value
  split
  · exact .ok _
  · exact .error (.inr (.inr ⟨_, rfl⟩))
  · exact .error (.inl rfl)
  · exact .error (.inl rfl)
  · exact .error (.inl rfl)
  · rename_i error notImport notType notValue notOverflow raised
    refine .error ?_
    rcases raises error raised with ⟨message, rfl⟩ | rfl | ⟨message, rfl⟩ | member
    · exact .inl rfl
    · exact .inl rfl
    · exact absurd rfl (notOverflow message)
    · simp only [List.mem_cons, List.not_mem_nil, or_false] at member
      rcases member with rfl | rfl | rfl
      · exact absurd rfl notImport
      · exact absurd rfl notType
      · exact .inr (.inl rfl)

/-- A step of the guarded block raises nothing else. -/
def Guarded {α : Type} (result : Except CursorRefusal α) : Prop :=
  Only (fun refusal => ∀ error, refusal = .raised error → Foreseen error) result

theorem Guarded.ok {α : Type} (value : α) : Guarded (.ok value) := Only.ok value

theorem Guarded.bind {α β : Type} {first : Except CursorRefusal α} {next : α → Except CursorRefusal β} (before : Guarded first)
    (after : ∀ value, first = .ok value → Guarded (next value)) : Guarded (first >>= next) :=
  Only.bind before after

theorem Guarded.reject {α : Type} (code detail : String) : Guarded (OpaqueCursorCodec.reject code detail : Except CursorRefusal α) :=
  Only.error fun error absurd => by cases absurd

theorem Guarded.attempt {α : Type} {result : Except PyError α} (only : Only Foreseen result) : Guarded (attempt result) := by
  cases result with
  | ok value => exact .ok value
  | error raised =>
    refine Only.error fun error same => ?_
    rw [← CursorRefusal.raised.inj same]
    exact only raised rfl

theorem Guarded.decoded (value : Text) : Guarded (OpaqueCursorCodec.attempt (base64urlDecode value)) :=
  .attempt ((base64urlDecode_only value).mono fun _ => IsValueError.foreseen)

theorem expiration_guarded (exp : JsonValue) : Guarded (expiration exp) := by
  unfold expiration
  split
  · exact .ok none
  · split
    · exact .ok _
    · exact .reject _ _
  · exact .reject _ _

theorem headerNonce_guarded (algorithm : CursorAlgorithm) (nonce : JsonValue) : Guarded (headerNonce algorithm nonce) := by
  unfold headerNonce
  split
  · refine .bind (.decoded _) fun found _ => ?_
    split
    · exact .reject _ _
    · exact .ok _
  · exact .reject _ _
  · exact .ok none
  · exact .reject _ _

section
variable {platform : Platform} {crypto : CursorCrypto} {codec : OpaqueCursorCodec}

theorem header_guarded (members : List (Text × JsonValue)) (dataset partition : Text) :
    Guarded (codec.header members dataset partition) := by
  unfold header
  split
  · exact .reject _ _
  split
  · exact .reject _ _
  split
  · exact .reject _ _
  split
  · split
    · exact .reject _ _
    split
    · exact .reject _ _
    · exact .bind (expiration_guarded _) fun expiresAt _ => .bind (headerNonce_guarded _ _) fun nonce _ => .ok _
  · exact .reject _ _

theorem authenticate_guarded (header : CursorHeader) (key : List UInt8) (protectedText body : Text)
    (protectedBytes bodyBytes authBytes : List UInt8) :
    Guarded (authenticate crypto header key protectedText body protectedBytes bodyBytes authBytes) := by
  unfold authenticate
  split
  · have keyed : Only Foreseen (hmacKey key) := by
      unfold hmacKey
      split
      · exact .error (.inl rfl)
      · exact .ok ()
    have digested : Only Foreseen (mac crypto key protectedText body) := by
      unfold mac
      split
      · exact .error (.inl rfl)
      · exact .ok _
    refine .bind (.attempt keyed) fun _ _ => .bind (.attempt digested) fun expected _ => ?_
    split
    · exact .reject _ _
    · exact .ok bodyBytes
  · have keyed : Only Foreseen (aesKey key) := by
      unfold aesKey
      split
      · exact .error (.inl rfl)
      · exact .ok ()
    refine .bind (.attempt keyed) fun _ _ => ?_
    split
    · split
      · exact .reject _ _
      split
      · exact .ok _
      · exact .reject _ _
    · exact .reject _ _

theorem opened_guarded (documented : platform.Documented) (token dataset partition : Text) (now : Int) :
    Guarded (opened platform crypto codec token dataset partition now) := by
  unfold opened
  split
  · refine .bind (.decoded _) fun protectedBytes _ => .bind (.attempt (parseIjson_only documented _)) fun value _ => ?_
    split
    · refine .bind (.attempt (canonicalJson_only documented _)) fun canonical _ => ?_
      split
      · exact .reject _ _
      refine .bind (header_guarded _ _ _) fun header _ => ?_
      split
      · exact .reject _ _
      refine .bind (.decoded _) fun bodyBytes _ => .bind (.decoded _) fun authBytes _ =>
        .bind (authenticate_guarded _ _ _ _ _ _ _) fun payload _ => ?_
      split
      · exact .reject _ _
      split
      · exact .reject _ _
      · exact .ok _
    · exact .reject _ _
  · exact .attempt (.error (.inl rfl))

/-- Decoding answers, or fails for one of the reasons aside, exactly when the token has a UTF-8 form: its length is taken
before the guarded block begins. -/
theorem decode_answers_iff (documented : platform.Documented) (token dataset partition : Text) (now : Option Int) (clock : Int) :
    ((∃ result, codec.decode platform crypto token dataset partition now clock = .ok result) ∨
      ∃ error, Aside error ∧ codec.decode platform crypto token dataset partition now clock = .error error) ↔
      ∀ c ∈ token, c.isSurrogate = false := by
  have encodable : (∀ c ∈ token, c.isSurrogate = false) ↔ token.encode ≠ none := by
    unfold Text.encode
    simp
  have guarded : Guarded (opened platform crypto codec token dataset partition (now.getD clock)) :=
    opened_guarded documented token dataset partition _
  rw [encodable]
  unfold decode
  constructor
  · rintro answers none
    rw [none] at answers
    rcases answers with ⟨result, absurd⟩ | ⟨error, aside, raised⟩
    · cases absurd
    · cases Except.error.inj raised
      rcases aside with absurd | ⟨message, absurd⟩ <;> cases absurd
  · intro some
    split
    · rename_i none
      exact absurd none some
    split
    · exact .inl ⟨_, rfl⟩
    split
    · exact .inl ⟨_, rfl⟩
    · exact .inl ⟨_, rfl⟩
    · rename_i error raised
      split
      · exact .inl ⟨_, rfl⟩
      · rename_i escapes
        rcases guarded _ raised error rfl with caught | aside
        · exact absurd caught escapes
        · exact .inr ⟨error, aside, rfl⟩

end

/-- The JSON packages on the empty object; nothing else is asked of them here. -/
def readEmpty (payload : List UInt8) : Except PyError JsonValue :=
  if payload = [0x7b, 0x7d] then .ok (.dict []) else .error (.valueError "Expecting value")

def writeEmpty : JsonValue → Except PyError (List UInt8)
  | .dict [] => .ok [0x7b, 0x7d]
  | _ => .error (.raised "TypeError")

def emptyPlatform : Platform := ⟨readEmpty, writeEmpty, id, id, id⟩

theorem emptyPlatform_documented : emptyPlatform.Documented where
  loads payload := by
    show Only _ (readEmpty payload)
    unfold readEmpty
    split
    · exact .ok _
    · exact .error (.inl ⟨_, rfl⟩)
  dumps value := by
    show Only _ (writeEmpty value)
    unfold writeEmpty
    split
    · exact .ok _
    · exact .error (.inr (.inr (.inr (by simp))))

def sampleCrypto : CursorCrypto where
  digest key message := key.take 16 ++ message.take 16
  encrypt _ _ payload _ := .ok (payload ++ List.replicate 16 0)
  decrypt _ _ body _ := some (body.take (body.length - 16))

/-- No key is known. -/
def keyless : OpaqueCursorCodec := .ofMapping .empty .default

/-- The keys of a resolver have the length that their algorithm asks for. -/
def ProperKeys (codec : OpaqueCursorCodec) : Prop := ∀ kid algorithm key, codec.keyResolver kid algorithm = some key →
  match algorithm with
  | .hs256 => 32 ≤ key.length
  | .a256gcm => key.length = 32

/-- `e30.eA.eA`, with the empty object for its header. -/
def emptyHeaderToken : Text := [0x65, 0x33, 0x30, 0x2e, 0x65, 0x41, 0x2e, 0x65, 0x41]

theorem empty_header_answers :
    (∃ result, keyless.decode emptyPlatform sampleCrypto emptyHeaderToken [] [] none 0 = .ok result) ∨
      ∃ error, Aside error ∧ keyless.decode emptyPlatform sampleCrypto emptyHeaderToken [] [] none 0 = .error error :=
  (decode_answers_iff emptyPlatform_documented emptyHeaderToken [] [] none 0).mpr (by simp [emptyHeaderToken, CodePoint.isSurrogate])

/-- A token that is a lone surrogate. -/
theorem lone_surrogate_raises : ¬∀ (platform : Platform) (crypto : CursorCrypto) (codec : OpaqueCursorCodec),
    platform.Documented → ProperKeys codec → ∀ (token dataset partition : Text) (now : Option Int) (clock : Int),
      (∃ result, codec.decode platform crypto token dataset partition now clock = .ok result) ∨
        ∃ error, Aside error ∧ codec.decode platform crypto token dataset partition now clock = .error error := by
  intro total
  have proper : ProperKeys keyless := fun kid algorithm key absurd => by cases absurd
  have raised : keyless.decode emptyPlatform sampleCrypto [0xd800] [] [] none 0 = .error .unicodeError := rfl
  rcases total emptyPlatform sampleCrypto keyless emptyPlatform_documented proper [0xd800] [] [] none 0 with
    ⟨result, answered⟩ | ⟨error, aside, failed⟩
  · rw [raised] at answered
    cases answered
  · rw [raised] at failed
    rw [← Except.error.inj failed] at aside
    rcases aside with absurd | ⟨message, absurd⟩ <;> cases absurd

end Sync

end Pytitect
