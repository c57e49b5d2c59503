import Pytitect.Messaging.JsonCodec

namespace Pytitect.Wire
open Text

/-- A text stands for the same under wider limits. -/
theorem Denotes.widen {text : Text} {limits wide : Limits} {document : WireDocument} (denotes : Denotes text limits document)
    (wider : limits.maxJsonItems ≤ wide.maxJsonItems ∧ limits.maxJsonDepth ≤ wide.maxJsonDepth ∧
      limits.maxStringLength ≤ wide.maxStringLength) : Denotes text wide ⟨document.value, wide⟩ := by
  obtain ⟨source, found, items, deep, strings, rfl⟩ := denotes
  exact ⟨source, found, items.trans wider.1, deep.trans wider.2.1, strings.imp fun _ short => short.trans wider.2.2, rfl⟩

/-- Bytes are read as one value, whatever the limits are and however they are cut. -/
theorem decoded_unique {limits limits' : Limits} {chunks chunks' : List (List UInt8)} {first second : WireDocument}
    (same : chunks.flatten = chunks'.flatten) (read : decodeWireStream chunks limits = .ok first)
    (read' : decodeWireStream chunks' limits' = .ok second) : first.value = second.value := by
  obtain ⟨text, isText, room, denotes⟩ := decodeWireStream_iff.mp read
  obtain ⟨text', isText', room', denotes'⟩ := decodeWireStream_iff.mp read'
  have run := Utf8Decoder.run_iff.mpr isText
  rw [same, Utf8Decoder.run_iff.mpr isText'] at run
  have texts : text' = text := (Prod.mk.inj (Option.some.inj run)).1
  obtain ⟨plain, isBytes⟩ := Text.encode_iff.mp isText
  have one := @Denotes.widen text limits (widest limits limits') _ denotes ⟨le_max_left _ _, le_max_left _ _, le_max_left _ _⟩
  have two := @Denotes.widen text' limits' (widest limits limits') _ denotes' ⟨le_max_right _ _, le_max_right _ _, le_max_right _ _⟩
  rw [texts] at two
  have short : (utf8 text).length ≤ (widest limits limits').maxBodyBytes := by
    rw [← isBytes]
    exact room.trans (le_max_left _ _)
  have equal := denotes_unique plain short one two
  exact (WireDocument.mk.inj equal).1

end Pytitect.Wire

namespace Pytitect.Messaging
open Wire

/-- A document in one profile is refused for another. -/
theorem metadataOf_refused {value : ExactTree} {profile other : Text} {texts : List (Text × Text)}
    (accepted : metadataOf value profile = .ok texts) (different : profile ≠ other) : metadataOf value other = .error .profile := by
  obtain ⟨members, rfl, closed, profiled, -⟩ := metadataOf_ok.mp accepted
  unfold metadataOf
  dsimp only
  rw [if_neg (not_not_intro closed), profiled]
  exact if_pos different

theorem profiles_differ : messageProfile ≠ exactMessageProfile := by decide

theorem ExactJsonMessageCodec.decodeStream_metadata {library : IsoLibrary} {codec : ExactJsonMessageCodec}
    {chunks : List (List UInt8)} {message : ExactMessage} (decoded : codec.decodeStream library chunks = .ok message) :
    ∃ document texts, decodeWireStream chunks codec.limits = .ok document ∧
      metadataOf document.value exactMessageProfile = .ok texts := by
  obtain ⟨document, read, decoded⟩ := bind_ok decoded
  obtain ⟨texts, accepted, -⟩ := bind_ok decoded
  exact ⟨document, texts, onWire_ok.mp read, onWire_ok.mp accepted⟩

theorem JsonMessageCodec.decodeStream_metadata {library : IsoLibrary} {codec : JsonMessageCodec}
    {chunks : List (List UInt8)} {message : Message} (decoded : codec.decodeStream library chunks = .ok message) :
    ∃ document texts, decodeWireStream chunks codec.selected = .ok document ∧
      metadataOf document.value messageProfile = .ok texts := by
  obtain ⟨document, read, decoded⟩ := bind_ok decoded
  obtain ⟨texts, accepted, -⟩ := bind_ok decoded
  exact ⟨document, texts, onWire_ok.mp read, onWire_ok.mp accepted⟩

/-- No codec reads what the other one reads, whatever their limits are and however the bytes are cut. Where the limits
admit the bytes to both, the other codec raises that the profile is unsupported. -/
theorem codecs_never_confused (library : IsoLibrary) (legacy : JsonMessageCodec) (exact : ExactJsonMessageCodec)
    (chunks chunks' : List (List UInt8)) (same : chunks.flatten = chunks'.flatten) :
    (∀ message, legacy.decodeStream library chunks = .ok message →
      ∃ error, exact.decodeStream library chunks' = .error (.wire error) ∧
        ((∃ document, decodeWireStream chunks' exact.limits = .ok document) → error = .profile)) ∧
    ∀ message, exact.decodeStream library chunks = .ok message →
      ∃ error, legacy.decodeStream library chunks' = .error (.wire error) ∧
        ((∃ document, decodeWireStream chunks' legacy.selected = .ok document) → error = .profile) := by
  constructor
  · intro message decoded
    obtain ⟨document, texts, read, accepted⟩ := JsonMessageCodec.decodeStream_metadata decoded
    unfold ExactJsonMessageCodec.decodeStream
    cases found : decodeWireStream chunks' exact.limits with
    | error error => exact ⟨error, rfl, fun ⟨_, absurd⟩ => (by cases absurd)⟩
    | ok other =>
      have equal := decoded_unique same read found
      rw [equal] at accepted
      refine ⟨.profile, ?_, fun _ => rfl⟩
      change (onWire (metadataOf other.value exactMessageProfile) >>= _) = _
      rw [metadataOf_refused accepted profiles_differ]
      rfl
  · intro message decoded
    obtain ⟨document, texts, read, accepted⟩ := ExactJsonMessageCodec.decodeStream_metadata decoded
    unfold JsonMessageCodec.decodeStream
    cases found : decodeWireStream chunks' legacy.selected with
    | error error => exact ⟨error, rfl, fun ⟨_, absurd⟩ => (by cases absurd)⟩
    | ok other =>
      have equal := decoded_unique same read found
      rw [equal] at accepted
      refine ⟨.profile, ?_, fun _ => rfl⟩
      change (onWire (metadataOf other.value messageProfile) >>= _) = _
      rw [metadataOf_refused accepted profiles_differ.symm]
      rfl

theorem default_envelope : 0 < 1048576 ∧ 1048576 ≤ Limits.default.maxBodyBytes := by decide

/-- A message in the second profile, for the codec of the first one. -/
theorem sample_profile_refused :
    JsonMessageCodec.decodeStream plainLibrary ⟨.default, 1048576, default_envelope⟩ [sampleExactBytes] = .error (.wire .profile) := by
  obtain ⟨decoded, read, -⟩ := ExactJsonMessageCodec.read_back plainLibrary sampleExact_bytes List.flatten_singleton
  obtain ⟨document, -, there, -⟩ := ExactJsonMessageCodec.decodeStream_metadata read
  obtain ⟨error, refused, isProfile⟩ := (codecs_never_confused plainLibrary ⟨.default, 1048576, default_envelope⟩ sampleExactCodec
    [sampleExactBytes] [sampleExactBytes] rfl).2 decoded read
  rw [refused, isProfile ⟨document, there⟩]

end Pytitect.Messaging
