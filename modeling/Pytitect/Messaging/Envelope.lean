import Pytitect.Messaging.Model
import Pytitect.Lib.Assoc

namespace Pytitect.Messaging
open Wire

/-- What a codec raises: an error of the wire boundary, which is a `ValueError` with a code, or another exception. -/
inductive CodecError
  | wire (error : WireError)
  | python (error : PyError)
  deriving DecidableEq

def raising {α : Type} : Except PyError α → Except CodecError α
  | .ok value => .ok value
  | .error error => .error (.python error)

def onWire {α : Type} : Except WireError α → Except CodecError α
  | .ok value => .ok value
  | .error error => .error (.wire error)

/-- An instance of `ValueError` or one of its subclasses. -/
def isValueError : PyError → Bool
  | .valueError _ => true
  | .unicodeError => true
  | .raised name => name = "ValueError"
  | _ => false

/-- `except (ValueError, TypeError): pass`, and then `raise WireShapeError()`. -/
def orShape {α : Type} : Except CodecError α → Except CodecError α
  | .ok value => .ok value
  | .error (.wire _) => .error (.wire .shape)
  | .error (.python error) =>
    if isValueError error ∨ error = .raised "TypeError" then .error (.wire .shape) else .error (.python error)

/-- `MESSAGE_FIELDS` -/
def messageFields : List Text :=
  ["id".codePoints, "source".codePoints, "specversion".codePoints, "type".codePoints, "subject".codePoints,
    "time".codePoints, "dataschema".codePoints, "datacontenttype".codePoints, "profile".codePoints, "data".codePoints,
    "correlationid".codePoints, "causationid".codePoints]

/-- `REQUIRED_MESSAGE_FIELDS` -/
def requiredMessageFields : List Text :=
  messageFields.filter fun name => name ∉ ["correlationid".codePoints, "causationid".codePoints]

/-- What stands before the data in an envelope. -/
def Metadata.leading (m : Metadata) (time : Text) : List (Text × Text) :=
  [("id".codePoints, m.id), ("source".codePoints, m.source), ("specversion".codePoints, m.specversion),
    ("type".codePoints, m.type), ("subject".codePoints, m.subject), ("time".codePoints, time),
    ("dataschema".codePoints, m.dataschema), ("datacontenttype".codePoints, m.datacontenttype),
    ("profile".codePoints, m.profile)]

/-- What stands behind it. -/
def Metadata.trailing (m : Metadata) : List (Text × Text) :=
  (m.correlationid.toList.map fun found => ("correlationid".codePoints, found)) ++
    m.causationid.toList.map fun found => ("causationid".codePoints, found)

/-- The members of an envelope whose time is written so. -/
def Metadata.members {α : Type} (text : Text → α) (m : Metadata) (time : Text) (data : α) : List (Text × α) :=
  ((m.leading time).map fun entry => (entry.1, text entry.2)) ++
    ("data".codePoints, data) :: m.trailing.map fun entry => (entry.1, text entry.2)

/-- `_envelope`, and the document that the first codec builds. -/
def envelope {α : Type} (text : Text → α) (m : Metadata) (data : α) : Except PyError (List (Text × α)) := do
  let time ← IsoLibrary.formatMessageTime m.time
  return m.members text time data

/-- The loop over the members besides the data, which are texts. -/
def textsOf : List (Text × ExactTree) → Except WireError (List (Text × Text))
  | [] => .ok []
  | (key, item) :: rest =>
    if key = "data".codePoints then textsOf rest
    else
      match item with
      | .str found => do
        let others ← textsOf rest
        return (key, found) :: others
      | _ => .error .shape

/-- `_metadata` -/
def metadataOf (value : ExactTree) (profile : Text) : Except WireError (List (Text × Text)) :=
  match value with
  | .object members =>
    if ¬(requiredMessageFields ⊆ members.map Prod.fst ∧ members.map Prod.fst ⊆ messageFields) then .error .shape
    else
      match members.lookup "profile".codePoints with
      | some (.str found) => if found ≠ profile then .error .profile else textsOf members
      | _ => .error .shape
  | _ => .error .shape

/-- `_message_arguments` -/
def messageArguments (metadata : List (Text × Text)) : List (Text × Text) :=
  metadata.filter fun entry => entry.1 ≠ "time".codePoints

/-- A required argument of a constructor. -/
def argument (arguments : List (Text × Text)) (name : String) : Except PyError Text :=
  match arguments.lookup name.codePoints with
  | some found => .ok found
  | none => .error (.raised "TypeError")

/-- The fields of the constructors of messages, from keyword arguments that are among the fields. -/
def Metadata.ofArguments (arguments : List (Text × Text)) (time : ZonedDatetime) (profile : Text) : Except PyError Metadata := do
  let id ← argument arguments "id"
  let source ← argument arguments "source"
  let type ← argument arguments "type"
  let subject ← argument arguments "subject"
  let dataschema ← argument arguments "dataschema"
  return {
    id, source, type, subject, time, dataschema
    correlationid := arguments.lookup "correlationid".codePoints
    causationid := arguments.lookup "causationid".codePoints
    specversion := (arguments.lookup "specversion".codePoints).getD cloudEventsSpecVersion
    datacontenttype := (arguments.lookup "datacontenttype".codePoints).getD jsonContentType
    profile := (arguments.lookup "profile".codePoints).getD profile }

/-- `value[key]` of a mapping. -/
def getItem {α : Type} (members : List (Text × α)) (key : String) : Except CodecError α :=
  match members.lookup key.codePoints with
  | some found => .ok found
  | none => .error (.python (.raised "KeyError"))

section
variable {α : Type} {result : Except PyError α} {value : α}

theorem raising_ok : raising result = .ok value ↔ result = .ok value := by
  cases result with
  | ok found => rw [raising, Except.ok.injEq, Except.ok.injEq]
  | error error => exact ⟨fun absurd => (by cases absurd), fun absurd => (by cases absurd)⟩

theorem onWire_ok {result : Except WireError α} : onWire result = .ok value ↔ result = .ok value := by
  cases result with
  | ok found => rw [onWire, Except.ok.injEq, Except.ok.injEq]
  | error error => exact ⟨fun absurd => (by cases absurd), fun absurd => (by cases absurd)⟩

theorem orShape_ok {result : Except CodecError α} : orShape result = .ok value ↔ result = .ok value := by
  cases result with
  | ok found => rw [orShape, Except.ok.injEq]
  | error error =>
    refine ⟨fun absurd => ?_, fun absurd => (by cases absurd)⟩
    cases error with
    | wire error => cases absurd
    | python error =>
      rw [orShape] at absurd
      split at absurd
      · cases absurd
      · cases absurd

theorem getItem_ok {members : List (Text × α)} {key : String} :
    getItem members key = .ok value ↔ members.lookup key.codePoints = some value := by
  unfold getItem
  cases members.lookup key.codePoints with
  | none => exact ⟨fun absurd => (by cases absurd), fun absurd => (by cases absurd)⟩
  | some found => rw [Except.ok.injEq, Option.some.injEq]

end

theorem argument_ok {arguments : List (Text × Text)} {name : String} {found : Text} :
    argument arguments name = .ok found ↔ arguments.lookup name.codePoints = some found := by
  unfold argument
  cases arguments.lookup name.codePoints with
  | none => exact ⟨fun absurd => (by cases absurd), fun absurd => (by cases absurd)⟩
  | some value => rw [Except.ok.injEq, Option.some.injEq]

/-- A member besides the data, as the text that it is. -/
def textMember : Text × ExactTree → Option (Text × Text)
  | (key, .str found) => if key = "data".codePoints then none else some (key, found)
  | _ => none

theorem textsOf_ok {members : List (Text × ExactTree)} {texts : List (Text × Text)} : textsOf members = .ok texts ↔
    (∀ member ∈ members, member.1 ≠ "data".codePoints → ∃ found, member.2 = .str found) ∧
      texts = members.filterMap textMember := by
  induction members generalizing texts with
  | nil => simp [textsOf, eq_comm]
  | cons member rest ih =>
    obtain ⟨key, item⟩ := member
    rw [List.forall_mem_cons]
    by_cases isData : key = "data".codePoints
    · have skipped : textMember (key, item) = none := by
        cases item <;> simp [textMember, isData]
      rw [textsOf.eq_def]
      dsimp only
      rw [if_pos isData, ih, List.filterMap_cons_none skipped]
      exact and_congr_left' ⟨fun all => ⟨fun other => absurd isData other, all⟩, fun all => all.2⟩
    rw [textsOf.eq_def]
    dsimp only
    rw [if_neg isData]
    cases item with
    | str found =>
      have kept : textMember (key, .str found) = some (key, found) := if_neg isData
      rw [List.filterMap_cons_some kept]
      constructor
      · intro passed
        obtain ⟨others, later, passed⟩ := bind_ok passed
        obtain ⟨all, rfl⟩ := ih.mp later
        exact ⟨⟨fun _ => ⟨found, rfl⟩, all⟩, (Except.ok.inj passed).symm⟩
      · rintro ⟨⟨-, all⟩, rfl⟩
        exact bind_ok_iff.mpr ⟨_, ih.mpr ⟨all, rfl⟩, rfl⟩
    | null => simp [isData]
    | bool value => simp [isData]
    | number value => simp [isData]
    | array values => simp [isData]
    | object members => simp [isData]

/-- What `_metadata` accepts. -/
theorem metadataOf_ok {value : ExactTree} {profile : Text} {texts : List (Text × Text)} : metadataOf value profile = .ok texts ↔
    ∃ members, value = .object members ∧
      (requiredMessageFields ⊆ members.map Prod.fst ∧ members.map Prod.fst ⊆ messageFields) ∧
      members.lookup "profile".codePoints = some (.str profile) ∧ textsOf members = .ok texts := by
  unfold metadataOf
  split
  · rename_i members
    split
    · rename_i closed
      refine ⟨fun absurd => (by cases absurd), ?_⟩
      rintro ⟨others, same, fields, -⟩
      cases same
      exact absurd fields closed
    rename_i closed
    have fields := not_not.mp closed
    split
    · rename_i found profiled
      split
      · rename_i other
        refine ⟨fun absurd => (by cases absurd), ?_⟩
        rintro ⟨others, same, -, named, -⟩
        cases same
        rw [named] at profiled
        cases profiled
        exact absurd rfl other
      · rename_i same
        rw [not_not.mp same] at profiled
        refine ⟨fun passed => ⟨members, rfl, fields, profiled, passed⟩, ?_⟩
        rintro ⟨others, same, -, -, passed⟩
        cases same
        exact passed
    · rename_i unnamed
      refine ⟨fun absurd => (by cases absurd), ?_⟩
      rintro ⟨others, same, -, named, -⟩
      cases same
      exact absurd named (unnamed _)
  · rename_i other
    refine ⟨fun absurd => (by cases absurd), ?_⟩
    rintro ⟨members, same, -⟩
    exact absurd same (other members)

/-- The texts of an envelope. -/
def Metadata.texts (m : Metadata) (time : Text) : List (Text × Text) := m.leading time ++ m.trailing

section
variable {α : Type} {text : Text → α} {m : Metadata} {time : Text} {data : α}

/-- The fields of an envelope, by which of the optional ones it has. -/
def fieldsOf (correlated caused : Bool) : List Text :=
  messageFields.filter fun name =>
    (name ≠ "correlationid".codePoints || correlated) && (name ≠ "causationid".codePoints || caused)

theorem fieldsOf_closed (correlated caused : Bool) :
    requiredMessageFields ⊆ fieldsOf correlated caused ∧ fieldsOf correlated caused ⊆ messageFields ∧
      (fieldsOf correlated caused).Nodup := by
  revert correlated caused
  decide

theorem members_keys : (m.members text time data).map Prod.fst = fieldsOf m.correlationid.isSome m.causationid.isSome := by
  unfold Metadata.members Metadata.trailing
  cases m.correlationid <;> cases m.causationid <;> rfl

theorem members_distinct : ((m.members text time data).map Prod.fst).Nodup := by
  rw [members_keys]
  exact (fieldsOf_closed _ _).2.2

theorem lookup_data : (m.members text time data).lookup "data".codePoints = some data := rfl

/-- Besides its data an envelope has its texts. -/
theorem lookup_members {key : Text} (other : key ≠ "data".codePoints) :
    (m.members text time data).lookup key = ((m.texts time).lookup key).map text := by
  rw [Metadata.members, Metadata.texts, ← Assoc.lookup_map, List.map_append, List.lookup_append, List.lookup_append,
    List.lookup_cons, beq_false_of_ne other]

theorem texts_keys : (m.texts time).map Prod.fst =
    (fieldsOf m.correlationid.isSome m.causationid.isSome).filter fun name => name ≠ "data".codePoints := by
  unfold Metadata.texts Metadata.trailing
  cases m.correlationid <;> cases m.causationid <;> rfl

theorem texts_distinct : ((m.texts time).map Prod.fst).Nodup := by
  rw [texts_keys]
  exact (fieldsOf_closed _ _).2.2.filter _

theorem texts_apart {entry : Text × Text} (member : entry ∈ m.texts time) : entry.1 ≠ "data".codePoints := by
  have key : entry.1 ∈ (m.texts time).map Prod.fst := List.mem_map_of_mem member
  rw [texts_keys, List.mem_filter] at key
  exact of_decide_eq_true key.2

theorem filterMap_texts {entries : List (Text × Text)} (apart : ∀ entry ∈ entries, entry.1 ≠ "data".codePoints) :
    (entries.map fun entry => (entry.1, ExactTree.str entry.2)).filterMap textMember = entries := by
  rw [List.filterMap_map]
  refine (List.filterMap_congr fun entry member => ?_).trans List.filterMap_some
  exact if_neg (apart entry member)

/-- The texts of an envelope are those of its members. -/
theorem texts_eq {data : ExactTree} : (m.members .str time data).filterMap textMember = m.texts time := by
  have isData : textMember ("data".codePoints, data) = none := by
    cases data <;> simp [textMember]
  have before : ∀ entry ∈ m.leading time, entry.1 ≠ "data".codePoints := fun entry member =>
    @texts_apart m time entry (List.mem_append_left _ member)
  have behind : ∀ entry ∈ m.trailing, entry.1 ≠ "data".codePoints := fun entry member =>
    @texts_apart m time entry (List.mem_append_right _ member)
  rw [Metadata.members, Metadata.texts, List.filterMap_append, List.filterMap_cons_none isData, filterMap_texts before,
    filterMap_texts behind]

/-- The members of an envelope, in whatever order, have its texts. -/
theorem metadataOf_envelope {data : ExactTree} {members : List (Text × ExactTree)} (same : members.Perm (m.members .str time data)) :
    ∃ texts, metadataOf (.object members) m.profile = .ok texts ∧ texts.Perm (m.texts time) := by
  have distinct : (members.map Prod.fst).Nodup := (same.map Prod.fst).nodup_iff.mpr members_distinct
  have keys := same.map Prod.fst
  rw [members_keys] at keys
  obtain ⟨required, closed, -⟩ := fieldsOf_closed m.correlationid.isSome m.causationid.isSome
  have profiled : members.lookup "profile".codePoints = some (.str m.profile) := Assoc.lookup_perm distinct same _
  have all : ∀ member ∈ members, member.1 ≠ "data".codePoints → ∃ found, member.2 = .str found := by
    rintro ⟨key, item⟩ member other
    have found := Assoc.lookup_of_mem distinct member
    rw [Assoc.lookup_perm distinct same, lookup_members other] at found
    obtain ⟨value, -, isText⟩ := Option.map_eq_some_iff.mp found
    exact ⟨value, isText.symm⟩
  refine ⟨members.filterMap textMember, metadataOf_ok.mpr ⟨members, rfl, ⟨?_, ?_⟩, profiled, textsOf_ok.mpr ⟨all, rfl⟩⟩, ?_⟩
  · exact fun name member => keys.mem_iff.mpr (required member)
  · exact fun name member => closed (keys.mem_iff.mp member)
  · rw [← texts_eq]
    exact same.filterMap textMember

theorem ofArguments_ok {arguments : List (Text × Text)} {t : ZonedDatetime} {profile : Text} :
    Metadata.ofArguments arguments t profile = .ok m ↔
      arguments.lookup "id".codePoints = some m.id ∧ arguments.lookup "source".codePoints = some m.source ∧
      arguments.lookup "type".codePoints = some m.type ∧ arguments.lookup "subject".codePoints = some m.subject ∧
      arguments.lookup "dataschema".codePoints = some m.dataschema ∧ m.time = t ∧
      arguments.lookup "correlationid".codePoints = m.correlationid ∧
      arguments.lookup "causationid".codePoints = m.causationid ∧
      (arguments.lookup "specversion".codePoints).getD cloudEventsSpecVersion = m.specversion ∧
      (arguments.lookup "datacontenttype".codePoints).getD jsonContentType = m.datacontenttype ∧
      (arguments.lookup "profile".codePoints).getD profile = m.profile := by
  unfold Metadata.ofArguments
  constructor
  · intro made
    obtain ⟨_, first, made⟩ := bind_ok made
    obtain ⟨_, second, made⟩ := bind_ok made
    obtain ⟨_, third, made⟩ := bind_ok made
    obtain ⟨_, fourth, made⟩ := bind_ok made
    obtain ⟨_, fifth, made⟩ := bind_ok made
    rw [argument_ok] at first second third fourth fifth
    cases made
    exact ⟨first, second, third, fourth, fifth, rfl, rfl, rfl, rfl, rfl, rfl⟩
  · rintro ⟨first, second, third, fourth, fifth, rfl, sixth, seventh, eighth, ninth, tenth⟩
    rw [← argument_ok] at first second third fourth fifth
    rw [first, second, third, fourth, fifth, sixth, seventh, eighth, ninth, tenth]
    rfl

/-- The time is not among the arguments. -/
theorem lookup_arguments {texts : List (Text × Text)} {key : Text} (other : key ≠ "time".codePoints) :
    (messageArguments texts).lookup key = texts.lookup key :=
  Assoc.lookup_filter (fun name => decide (name ≠ "time".codePoints)) (decide_eq_true other)

theorem lookup_optional : (m.texts time).lookup "correlationid".codePoints = m.correlationid ∧
    (m.texts time).lookup "causationid".codePoints = m.causationid := by
  unfold Metadata.texts Metadata.trailing
  cases m.correlationid <;> cases m.causationid <;> exact ⟨rfl, rfl⟩

/-- The arguments in the texts of an envelope make its metadata again. -/
theorem ofArguments_texts {texts : List (Text × Text)} (same : texts.Perm (m.texts time)) (profile : Text) :
    texts.lookup "time".codePoints = some time ∧
      Metadata.ofArguments (messageArguments texts) m.time profile = .ok m := by
  have distinct : (texts.map Prod.fst).Nodup := (same.map Prod.fst).nodup_iff.mpr texts_distinct
  have found : ∀ key, texts.lookup key = (m.texts time).lookup key := Assoc.lookup_perm distinct same
  have optional := @lookup_optional m time
  have kept : ∀ name : String, name ≠ "time" →
      (messageArguments texts).lookup name.codePoints = (m.texts time).lookup name.codePoints := fun name other =>
    (lookup_arguments (String.codePoints_injective.ne other)).trans (found _)
  refine ⟨found _, ofArguments_ok.mpr ⟨kept _ (by decide), kept _ (by decide), kept _ (by decide), kept _ (by decide),
    kept _ (by decide), rfl, (kept _ (by decide)).trans optional.1, (kept _ (by decide)).trans optional.2, ?_, ?_, ?_⟩⟩
  · rw [kept _ (by decide)]
    rfl
  · rw [kept _ (by decide)]
    rfl
  · rw [kept _ (by decide)]
    rfl

/-- A member besides the data is looked up as its text. -/
theorem lookup_textsOf {members : List (Text × ExactTree)} {texts : List (Text × Text)} (read : textsOf members = .ok texts)
    {key : Text} (other : key ≠ "data".codePoints) : members.lookup key = (texts.lookup key).map .str := by
  obtain ⟨all, rfl⟩ := textsOf_ok.mp read
  clear read
  induction members with
  | nil => rfl
  | cons member rest ih =>
    obtain ⟨name, item⟩ := member
    rw [List.forall_mem_cons] at all
    by_cases isData : name = "data".codePoints
    · have skipped : textMember (name, item) = none := by
        cases item <;> simp [textMember, isData]
      rw [List.lookup_cons, beq_false_of_ne (isData ▸ other), List.filterMap_cons_none skipped]
      exact ih all.2
    · obtain ⟨found, isText⟩ := all.1 isData
      have isText : item = .str found := isText
      have kept : textMember (name, item) = some (name, found) := by
        rw [isText]
        exact if_neg isData
      rw [List.lookup_cons, List.filterMap_cons_some kept, List.lookup_cons, ih all.2, isText]
      cases key == name with
      | true => rfl
      | false => rfl

/-- What `_metadata` and the constructor accept are the members of the envelope that they make. -/
theorem envelope_of_metadataOf {data : ExactTree} {members : List (Text × ExactTree)} {texts : List (Text × Text)}
    {t : ZonedDatetime} {profile : Text} (distinct : (members.map Prod.fst).Nodup)
    (accepted : metadataOf (.object members) profile = .ok texts) (timed : texts.lookup "time".codePoints = some time)
    (found : members.lookup "data".codePoints = some data)
    (made : Metadata.ofArguments (messageArguments texts) t profile = .ok m) :
    members.Perm (m.members .str time data) ∧ m.profile = profile ∧ m.time = t := by
  obtain ⟨others, same, ⟨required, closed⟩, profiled, read⟩ := metadataOf_ok.mp accepted
  cases same
  obtain ⟨first, second, third, fourth, fifth, isTime, correlated, caused, sixth, seventh, eighth⟩ := ofArguments_ok.mp made
  have apart : ∀ name : String, name ≠ "data" → members.lookup name.codePoints = (texts.lookup name.codePoints).map .str :=
    fun name other => lookup_textsOf read (String.codePoints_injective.ne other)
  have kept : ∀ name : String, name ≠ "time" → (messageArguments texts).lookup name.codePoints = texts.lookup name.codePoints :=
    fun name other => lookup_arguments (String.codePoints_injective.ne other)
  -- The members with a default are there, so the default is not taken.
  have there : ∀ name : String, name.codePoints ∈ requiredMessageFields → name ≠ "data" → ∃ value, texts.lookup name.codePoints = some value := by
    intro name isRequired other
    cases missing : texts.lookup name.codePoints with
    | some value => exact ⟨value, rfl⟩
    | none =>
      have absent := apart name other
      rw [missing, Option.map_none, Assoc.lookup_eq_none] at absent
      exact absurd (required isRequired) absent
  have defaulted : ∀ (name : String) (fallback value : Text), name.codePoints ∈ requiredMessageFields → name ≠ "data" → name ≠ "time" →
      ((messageArguments texts).lookup name.codePoints).getD fallback = value → texts.lookup name.codePoints = some value := by
    intro name fallback value isRequired notData notTime same
    obtain ⟨found, isFound⟩ := there name isRequired notData
    rw [kept name notTime, isFound] at same
    rw [isFound]
    exact congrArg some same
  have isProfile := defaulted "profile" _ _ (by decide) (by decide) (by decide) eighth
  refine ⟨Assoc.perm_of_lookup distinct members_distinct fun key => ?_, ?_, isTime⟩
  · by_cases isData : key = "data".codePoints
    · rw [isData, found]
      exact lookup_data.symm
    rw [lookup_members isData, lookup_textsOf read isData]
    refine congrArg _ ?_
    by_cases known : key ∈ messageFields
    · simp only [messageFields, List.mem_cons, List.not_mem_nil, or_false] at known
      rcases known with rfl | rfl | rfl | rfl | rfl | rfl | rfl | rfl | rfl | rfl | rfl | rfl
      · exact (kept "id" (by decide)).symm.trans first
      · exact (kept "source" (by decide)).symm.trans second
      · exact defaulted "specversion" _ _ (by decide) (by decide) (by decide) sixth
      · exact (kept "type" (by decide)).symm.trans third
      · exact (kept "subject" (by decide)).symm.trans fourth
      · exact timed
      · exact (kept "dataschema" (by decide)).symm.trans fifth
      · exact defaulted "datacontenttype" _ _ (by decide) (by decide) (by decide) seventh
      · exact isProfile
      · exact absurd rfl isData
      · exact ((kept "correlationid" (by decide)).symm.trans correlated).trans lookup_optional.1.symm
      · exact ((kept "causationid" (by decide)).symm.trans caused).trans lookup_optional.2.symm
    · have absent : members.lookup key = none := Assoc.lookup_eq_none.mpr fun member => known (closed member)
      have absent' : (m.texts time).lookup key = none := by
        rw [Assoc.lookup_eq_none, texts_keys, List.mem_filter]
        exact fun member => known ((fieldsOf_closed _ _).2.1 member.1)
      rw [lookup_textsOf read isData, Option.map_eq_none_iff] at absent
      rw [absent, absent']
  · rw [apart "profile" (by decide), isProfile] at profiled
    exact ExactTree.str.inj (Option.some.inj profiled)

end

end Pytitect.Messaging
