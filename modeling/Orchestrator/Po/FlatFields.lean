import Orchestrator.Keyed
import Orchestrator.Po.World

/-!
The messages of the PO streams as flat maps of text, and which of them come back
when they are read again.
-/

namespace Orchestrator.Po

structure DateTime where
  year : Nat
  month : Nat
  day : Nat
  hour : Nat
  minute : Nat
  second : Nat
  microsecond : Nat

def padded (width n : Nat) : String :=
  String.ofList (List.replicate (width - (toString n).length) '0') ++ toString n

def DateTime.seconds (t : DateTime) : String :=
  padded 4 t.year ++ "-" ++ padded 2 t.month ++ "-" ++ padded 2 t.day ++ "T" ++
    padded 2 t.hour ++ ":" ++ padded 2 t.minute ++ ":" ++ padded 2 t.second

inductive TimestampFormat where
  | strftime
  | isoformat

def TimestampFormat.render (t : DateTime) : TimestampFormat → String
  | .strftime => t.seconds
  | .isoformat => t.seconds ++ (if t.microsecond = 0 then "" else "." ++ padded 6 t.microsecond) ++ "+00:00"

theorem TimestampFormat.render_ne (format : TimestampFormat) (t : DateTime) : format.render t ≠ "" := by
  cases format <;> simp [render, DateTime.seconds, String.append_eq_empty_iff]

inductive FieldKind where
  | tag (value : String)
  | required
  | default (value : String)
  | defaultFactory (format : TimestampFormat)
  | nullable

inductive FieldError where
  | missing | literalError

namespace FieldKind

def Admits : FieldKind → Option String → Prop
  | tag value, v => v = some value
  | nullable, _ => True
  | _, v => v.isSome = true

def validate (now : DateTime) : FieldKind → Option String → Except FieldError (Option String)
  | tag value, none => .ok (some value)
  | tag value, some v => if v = value then .ok (some v) else .error .literalError
  | required, none => .error .missing
  | required, some v => .ok (some v)
  | default value, v => .ok (some (v.getD value))
  | defaultFactory format, v => .ok (some (v.getD (format.render now)))
  | nullable, v => .ok v

def losesEmpty : FieldKind → Bool
  | tag _ => false
  | default value => value ≠ ""
  | required | defaultFactory _ | nullable => true

theorem validate_admits {now : DateTime} {kind : FieldKind} {given v : Option String}
    (h : kind.validate now given = .ok v) : kind.Admits v := by
  cases kind with
  | tag value =>
    cases given with
    | none => exact (Except.ok.inj h).symm
    | some s =>
      change (if s = value then Except.ok (some s) else .error FieldError.literalError) = Except.ok v at h
      by_cases heq : s = value
      · rw [if_pos heq, heq] at h
        exact (Except.ok.inj h).symm
      · rw [if_neg heq] at h
        cases h
  | required => cases given <;> cases h; rfl
  | nullable => trivial
  | _ => cases h; rfl

end FieldKind

def legacyRecipientField : String := "user_id"

structure MessageSchema where
  fields : List (String × FieldKind)
  nodup : (fields.map (·.1)).Nodup
  addressed : legacyRecipientField ∉ fields.map (·.1)

def MessageSchema.kind (schema : MessageSchema) (name : String) : Option FieldKind := schema.fields.lookup name

structure Message (schema : MessageSchema) where
  value : String → Option String
  admitted : ∀ name kind, schema.kind name = some kind → kind.Admits (value name)
  others : ∀ name, schema.kind name = none → value name = none

inductive ValidationError where
  | legacyRecipient
  | fields (errors : List (String × FieldError))
  | unionTagNotFound
  | unionTagInvalid (tag : String)

section Schema

variable {schema : MessageSchema}

theorem Message.ext {m m' : Message schema} (h : ∀ name, m.value name = m'.value name) : m = m' := by
  cases m
  cases m'
  congr
  funext name
  exact h name

def Message.modelDump (m : Message schema) : List (String × Option String) := schema.fields.map fun field => (field.1, m.value field.1)

def Message.toFlatFields (m : Message schema) : Data := Po.toFlatFields m.modelDump

def fieldErrors (now : DateTime) (schema : MessageSchema) (flat : Data) : List (String × FieldError) :=
  schema.fields.filterMap fun field => match field.2.validate now (flat.lookup field.1) with
    | .ok _ => none
    | .error e => some (field.1, e)

def fieldValue (now : DateTime) (schema : MessageSchema) (flat : Data) (name : String) : Option String :=
  match schema.kind name with
  | none => none
  | some kind => match kind.validate now (flat.lookup name) with
    | .ok v => v
    | .error _ => none

variable {now : DateTime}

variable {flat : Data}

theorem fieldErrors_nil :
    fieldErrors now schema flat = [] ↔
      ∀ name kind, schema.kind name = some kind → ∃ v, kind.validate now (flat.lookup name) = .ok v := by
  unfold fieldErrors
  rw [List.filterMap_eq_nil_iff]
  constructor
  · intro h name kind hkind
    have := h (name, kind) (mem_of_lookup hkind)
    cases hv : kind.validate now (flat.lookup name) with
    | ok v => exact ⟨v, rfl⟩
    | error e => simp [hv] at this
  · intro h field hmem
    obtain ⟨v, hv⟩ := h field.1 field.2 (lookup_of_mem schema.nodup hmem)
    simp [hv]

variable {kind : FieldKind}

theorem fieldValue_of_ok {name : String} {v : Option String}
    (hkind : schema.kind name = some kind) (hv : kind.validate now (flat.lookup name) = .ok v) :
    fieldValue now schema flat name = v := by
  simp [fieldValue, hkind, hv]

def fromFlatFields (now : DateTime) (schema : MessageSchema) (flat : Data) : Except ValidationError (Message schema) :=
  if (flat.lookup legacyRecipientField).isSome then .error .legacyRecipient
  else if h : fieldErrors now schema flat = [] then
    .ok { value := fieldValue now schema flat
          admitted := fun name kind hkind => by
            obtain ⟨v, hv⟩ := fieldErrors_nil.mp h name kind hkind
            rw [fieldValue_of_ok hkind hv]
            exact FieldKind.validate_admits hv
          others := fun name hnone => by simp [fieldValue, hnone] }
  else .error (.fields (fieldErrors now schema flat))

theorem fromFlatFields_ok {m : Message schema} :
    fromFlatFields now schema flat = .ok m ↔ flat.lookup legacyRecipientField = none ∧
      ∀ name kind, schema.kind name = some kind → kind.validate now (flat.lookup name) = .ok (m.value name) := by
  unfold fromFlatFields
  cases hold : flat.lookup legacyRecipientField with
  | some _ => simp
  | none =>
    simp only [Option.isSome_none, Bool.false_eq_true, if_false, true_and]
    constructor
    · intro h name kind hkind
      split at h
      · rename_i hnil
        obtain ⟨v, hv⟩ := fieldErrors_nil.mp hnil name kind hkind
        rw [← Except.ok.inj h, hv]
        exact congrArg Except.ok (fieldValue_of_ok hkind hv).symm
      · cases h
    · intro h
      have hnil := fieldErrors_nil.mpr fun name kind hkind => ⟨_, h name kind hkind⟩
      rw [dif_pos hnil]
      congr 1
      apply Message.ext
      intro name
      cases hkind : schema.kind name with
      | none => simp [fieldValue, hkind, m.others name hkind]
      | some kind => exact fieldValue_of_ok hkind (h name kind hkind)

def flattened (v : Option String) : Option String := v.filter (· ≠ "")

@[simp] theorem flattened_none : flattened none = none := rfl

@[simp] theorem flattened_empty : flattened (some "") = none := rfl

theorem flattened_of_ne {s : String} (h : s ≠ "") : flattened (some s) = some s := by simp [flattened, h]

theorem lookup_toFlatFields (names : List String) (value : String → Option String) (name : String) :
    (Po.toFlatFields (names.map fun n => (n, value n))).lookup name =
      if name ∈ names then flattened (value name) else none := by
  induction names with
  | nil => rfl
  | cons n rest ih =>
    have hcons : Po.toFlatFields ((n :: rest).map fun n => (n, value n)) =
        ((flattened (value n)).map (n, ·)).toList ++ Po.toFlatFields (rest.map fun n => (n, value n)) := by
      unfold Po.toFlatFields flattened
      rw [List.map_cons, List.filterMap_cons]
      cases (value n).filter (· ≠ "") <;> rfl
    rw [hcons, List.lookup_append, ih]
    by_cases hname : name = n
    · subst hname
      cases flattened (value name) <;> simp
    · have hne : (name == n) = false := beq_false_of_ne hname
      cases flattened (value n) <;> simp [List.lookup_cons, hne, hname]

theorem Message.lookup_flat (m : Message schema) (name : String) : m.toFlatFields.lookup name = flattened (m.value name) := by
  have hdump : m.modelDump = (schema.fields.map (·.1)).map fun n => (n, m.value n) := by simp [modelDump]
  unfold toFlatFields
  rw [hdump, lookup_toFlatFields]
  by_cases hmem : name ∈ schema.fields.map (·.1)
  · rw [if_pos hmem]
  · rw [if_neg hmem]
    have hnone : schema.kind name = none := by
      rw [← Option.not_isSome_iff_eq_none]
      exact fun h => hmem (lookup_isSome_iff_mem.mp h)
    rw [m.others name hnone]
    rfl

theorem FieldKind.validate_flattened {v : Option String} (h : kind.Admits v) :
    kind.validate now (flattened v) = .ok v ↔ (kind.losesEmpty = true → v ≠ some "") := by
  cases v with
  | none =>
    cases kind with
    | nullable => simp [validate]
    | _ => simp [Admits] at h
  | some s =>
    by_cases hs : s = ""
    · subst hs
      rw [flattened_empty]
      cases kind with
      | tag value =>
        have hvalue : value = "" := (Option.some.inj h).symm
        simp [validate, hvalue, losesEmpty]
      | defaultFactory format => simp [validate, losesEmpty, format.render_ne now]
      | _ => simp [validate, losesEmpty]
    · rw [flattened_of_ne hs]
      cases kind with
      | tag value =>
        have hvalue : s = value := Option.some.inj h
        simp [validate, hvalue, losesEmpty]
      | _ => simp [validate, hs]

def MessageSchema.losing (schema : MessageSchema) : List String := (schema.fields.filter (·.2.losesEmpty)).map (·.1)

theorem MessageSchema.mem_losing {name : String} :
    name ∈ schema.losing ↔ ∃ kind, schema.kind name = some kind ∧ kind.losesEmpty = true := by
  unfold losing
  simp only [List.mem_map, List.mem_filter]
  constructor
  · rintro ⟨field, ⟨hmem, hloses⟩, rfl⟩
    exact ⟨field.2, lookup_of_mem schema.nodup hmem, hloses⟩
  · rintro ⟨kind, hkind, hloses⟩
    exact ⟨(name, kind), ⟨mem_of_lookup hkind, hloses⟩, rfl⟩

def Message.Kept (m : Message schema) : Prop := ∀ name ∈ schema.losing, m.value name ≠ some ""

theorem Message.legacy_none (m : Message schema) : m.value legacyRecipientField = none := by
  apply m.others
  rw [← Option.not_isSome_iff_eq_none]
  exact fun h => schema.addressed (lookup_isSome_iff_mem.mp h)

theorem Message.roundTrip_iff (m : Message schema) (now : DateTime) :
    fromFlatFields now schema m.toFlatFields = .ok m ↔ m.Kept := by
  rw [fromFlatFields_ok, m.lookup_flat, m.legacy_none]
  constructor
  · rintro ⟨-, h⟩ name hmem
    obtain ⟨kind, hkind, hloses⟩ := MessageSchema.mem_losing.mp hmem
    have := h name kind hkind
    rw [m.lookup_flat] at this
    exact (FieldKind.validate_flattened (m.admitted name kind hkind)).mp this hloses
  · intro h
    refine ⟨rfl, fun name kind hkind => ?_⟩
    rw [m.lookup_flat]
    apply (FieldKind.validate_flattened (m.admitted name kind hkind)).mpr
    exact fun hloses => h name (MessageSchema.mem_losing.mpr ⟨kind, hkind, hloses⟩)

theorem FieldKind.validate_empty {given v : Option String}
    (h : kind.validate now given = .ok v) (hloses : kind.losesEmpty = true) : v = some "" ↔ given = some "" := by
  cases kind with
  | tag value => cases hloses
  | required =>
    cases given with
    | none => cases h
    | some s => rw [← Except.ok.inj h]
  | nullable => rw [← Except.ok.inj h]
  | default value =>
    have hne : value ≠ "" := by simpa [losesEmpty] using hloses
    rw [← Except.ok.inj h]
    cases given <;> simp [hne]
  | defaultFactory format =>
    rw [← Except.ok.inj h]
    cases given <;> simp [format.render_ne now]

theorem kept_of_parsed {m : Message schema} (h : fromFlatFields now schema flat = .ok m) :
    m.Kept ↔ ∀ name ∈ schema.losing, flat.lookup name ≠ some "" := by
  have hvalid := (fromFlatFields_ok.mp h).2
  apply forall₂_congr
  intro name hmem
  obtain ⟨kind, hkind, hloses⟩ := MessageSchema.mem_losing.mp hmem
  exact not_congr (FieldKind.validate_empty (hvalid name kind hkind) hloses)

end Schema

def MessageSchema.poUserMessage : MessageSchema where
  fields := [("type", .tag "user_message"), ("text", .required), ("telegram_chat_id", .required), ("request_id", .required),
    ("user_name", .default ""), ("timestamp", .defaultFactory .strftime)]
  nodup := by decide
  addressed := by decide

def MessageSchema.poSystemEvent : MessageSchema where
  fields := [("type", .tag "system_event"), ("event", .required), ("text", .required), ("task_id", .default ""),
    ("telegram_chat_id", .default ""), ("owner_user_id", .default ""), ("story_id", .default ""), ("project_id", .default ""),
    ("timestamp", .defaultFactory .isoformat)]
  nodup := by decide
  addressed := by decide

def MessageSchema.poReminderMessage : MessageSchema where
  fields := [("type", .tag "reminder"), ("text", .required), ("telegram_chat_id", .required), ("story_id", .default ""),
    ("timestamp", .default "")]
  nodup := by decide
  addressed := by decide

def MessageSchema.poResponse : MessageSchema where
  fields := [("text", .required), ("telegram_chat_id", .required), ("error", .nullable)]
  nodup := by decide
  addressed := by decide

def MessageSchema.poProactiveMessage : MessageSchema where
  fields := [("text", .required), ("telegram_chat_id", .required), ("owner_user_id", .default ""), ("event", .default ""),
    ("story_id", .default ""), ("project_id", .default "")]
  nodup := by decide
  addressed := by decide

inductive POMessageType where
  | userMessage | systemEvent | reminder | response | proactive

def POMessageType.schema : POMessageType → MessageSchema
  | userMessage => .poUserMessage
  | systemEvent => .poSystemEvent
  | reminder => .poReminderMessage
  | response => .poResponse
  | proactive => .poProactiveMessage

example : MessageSchema.poUserMessage.losing = ["text", "telegram_chat_id", "request_id", "timestamp"] := by decide

example : MessageSchema.poResponse.losing = ["text", "telegram_chat_id", "error"] := by decide

/-- The members of `POInputMessage`, by the value of their discriminator. -/
def inputMembers : List (String × MessageSchema) :=
  [("user_message", .poUserMessage), ("system_event", .poSystemEvent), ("reminder", .poReminderMessage)]

structure InputMessage where
  schema : MessageSchema
  member : ∃ tag, inputMembers.lookup tag = some schema
  message : Message schema

def validateInput (now : DateTime) (flat : Data) : Except ValidationError InputMessage :=
  match flat.lookup "type" with
  | none => .error .unionTagNotFound
  | some tag => match h : inputMembers.lookup tag with
    | none => .error (.unionTagInvalid tag)
    | some schema => (fromFlatFields now schema flat).map fun message => ⟨schema, ⟨tag, h⟩, message⟩

theorem inputMembers_tag {tag : String} {schema : MessageSchema} (h : inputMembers.lookup tag = some schema) :
    schema.kind "type" = some (.tag tag) ∧ tag ≠ "" := by
  have hmem := mem_of_lookup h
  simp only [inputMembers, List.mem_cons, Prod.mk.injEq, List.not_mem_nil, or_false] at hmem
  rcases hmem with ⟨rfl, rfl⟩ | ⟨rfl, rfl⟩ | ⟨rfl, rfl⟩ <;> exact ⟨rfl, by decide⟩

theorem validateInput_of_tag {now : DateTime} {flat : Data} {tag : String} {schema : MessageSchema}
    (htag : flat.lookup "type" = some tag) (h : inputMembers.lookup tag = some schema) :
    validateInput now flat = (fromFlatFields now schema flat).map fun message => ⟨schema, ⟨tag, h⟩, message⟩ := by
  unfold validateInput
  rw [htag]
  dsimp only
  split
  · rename_i hnone
    rw [hnone] at h
    cases h
  · rename_i other hother
    obtain rfl : schema = other := Option.some.inj (h.symm.trans hother)
    rfl

theorem InputMessage.validate_flat (m : InputMessage) (now : DateTime) :
    validateInput now m.message.toFlatFields = .ok m ↔ fromFlatFields now m.schema m.message.toFlatFields = .ok m.message := by
  obtain ⟨schema, ⟨tag, hmember⟩, message⟩ := m
  obtain ⟨hkind, hne⟩ := inputMembers_tag hmember
  have htag : message.toFlatFields.lookup "type" = some tag := by
    rw [message.lookup_flat, message.admitted _ _ hkind]
    exact flattened_of_ne hne
  rw [validateInput_of_tag htag hmember]
  cases h : fromFlatFields now schema message.toFlatFields with
  | error e | ok back => simp [Except.map]

theorem validateInput_ok {now : DateTime} {flat : Data} {m : InputMessage} (h : validateInput now flat = .ok m) :
    fromFlatFields now m.schema flat = .ok m.message := by
  unfold validateInput at h
  split at h
  · cases h
  · split at h
    · cases h
    · rename_i schema hmember
      cases hfrom : fromFlatFields now schema flat with
      | error e =>
        rw [hfrom] at h
        cases h
      | ok message =>
        rw [hfrom] at h
        cases h
        exact hfrom

/-- A message comes back from its flat form exactly if no field that loses the empty text holds it. -/
theorem po_messages_round_trip (now : DateTime) :
    (∀ (type : POMessageType) (m : Message type.schema), fromFlatFields now type.schema m.toFlatFields = .ok m ↔ m.Kept) ∧
    (∀ m : InputMessage, validateInput now m.message.toFlatFields = .ok m ↔ m.message.Kept) ∧
    (∀ (type : POMessageType) (read : DateTime) (flat : Data) (m : Message type.schema), fromFlatFields read type.schema flat = .ok m →
      (fromFlatFields now type.schema m.toFlatFields = .ok m ↔ ∀ name ∈ type.schema.losing, flat.lookup name ≠ some "")) ∧
    ∀ (read : DateTime) (flat : Data) (m : InputMessage), validateInput read flat = .ok m →
      (validateInput now m.message.toFlatFields = .ok m ↔ ∀ name ∈ m.schema.losing, flat.lookup name ≠ some "") := by
  refine ⟨fun type m => m.roundTrip_iff now, fun m => ?_, fun type read flat m h => ?_, fun read flat m h => ?_⟩
  · rw [m.validate_flat, m.message.roundTrip_iff]
  · rw [m.roundTrip_iff, kept_of_parsed h]
  · rw [m.validate_flat, m.message.roundTrip_iff, kept_of_parsed (validateInput_ok h)]

def sampleTime : DateTime := ⟨2025, 1, 1, 0, 0, 0, 0⟩

def emptyTextFields : Data :=
  [("type", "user_message"), ("text", ""), ("telegram_chat_id", "42"), ("request_id", "r1"), ("timestamp", "2025-01-01T00:00:00")]

def emptyErrorFields : Data := [("text", "answer"), ("telegram_chat_id", "42"), ("error", "")]

/-- A message without text cannot be read again, and an empty error comes back as none. -/
theorem empty_text_lost :
    (∃ m : Message .poUserMessage, fromFlatFields sampleTime .poUserMessage emptyTextFields = .ok m ∧ m.value "text" = some "" ∧
      ∀ now, fromFlatFields now .poUserMessage m.toFlatFields = .error (.fields [("text", .missing)])) ∧
    ∃ m m' : Message .poResponse, fromFlatFields sampleTime .poResponse emptyErrorFields = .ok m ∧
      fromFlatFields sampleTime .poResponse m.toFlatFields = .ok m' ∧ m.value "error" = some "" ∧ m'.value "error" = none :=
  ⟨⟨_, rfl, rfl, fun _ => rfl⟩, _, _, rfl, rfl, rfl, rfl⟩

end Orchestrator.Po
