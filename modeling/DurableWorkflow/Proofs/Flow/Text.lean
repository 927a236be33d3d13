import DurableWorkflow.Proofs.Flow.Document
import DurableWorkflow.Proofs.Json.Denotation

namespace DurableWorkflow

open Json

namespace Flow

variable {depth : Nat} {json : Json} {names : List String} {members : List (String × Json)}
  {read : String → Raw → Option Json} {item : Nat → Raw → Option Json} {raw : Raw}

theorem distinctIn_rawMembers (names : List String) (h : Entries.Ascending members) :
    distinctIn names (rawMembers members) := by
  refine List.all_eq_true.mpr fun name _ => decide_eq_true ?_
  have single : (members.filter (·.1 = name)).length ≤ 1 := by
    rw [h.filter_eq, List.length_map]
    cases Entries.find? members name <;> simp
  rw [Raw.rawMembers_eq, List.filter_map, List.length_map]
  simpa [Function.comp_def] using single

theorem select?_rawMembers (ascending : Entries.Ascending members)
    (known : ∀ member ∈ members, member.1 ∈ names) :
    select? names (rawMembers members) =
      some (members.map fun member => (member.1, member.2.raw)) := by
  let fields := members.map fun member => (member.1, member.2.raw)
  have named : (rawMembers members).mapM (fun member => member.1.map fun key => (key, member.2)) =
      some fields := by
    rw [Raw.rawMembers_eq, List.mapM_map]
    exact (List.mapM_map (g := some)).symm.trans (List.mapM_pure.trans (by simp [fields]))
  have kept : fields.filter (fun field => field.1 ∈ names) = fields := by
    refine List.filter_eq_self.mpr fun field hm => ?_
    obtain ⟨member, given, rfl⟩ := List.mem_map.mp hm
    exact decide_eq_true (known member given)
  rw [select?, if_pos (distinctIn_rawMembers names ascending)]
  refine (congrArg (Option.map _) named).trans ?_
  exact congrArg some kept

theorem recordOf?_rawMembers (ascending : Entries.Ascending members)
    (known : ∀ member ∈ members, member.1 ∈ names)
    (reads : ∀ member ∈ members, read member.1 member.2.raw = some member.2) :
    recordOf? names read (rawMembers members) = some (.object members) := by
  have fields : (members.map fun member => (member.1, member.2.raw)).mapM
      (fun field => (read field.1 field.2).map (field.1, ·)) = some members :=
    mapM_map_eq_some_of_mem fun member hm => by simp [reads member hm]
  rw [recordOf?, select?_rawMembers ascending known]
  exact (congrArg (Option.bind · _) fields).trans (congrArg some (ofMembers_eq ascending))

theorem distinctIn_of_raw {fields : List (Option String × Raw)} (names : List String)
    (h : json.Nested depth) (same : json.raw = .object fields) : distinctIn names fields := by
  cases json with
  | object members =>
    cases same
    exact distinctIn_rawMembers names h.ascending
  | null | bool | number | string | array => cases same

theorem distinctEvents_rawMembers (h : ∀ member ∈ members, member.2.Nested depth) :
    distinctEvents (rawMembers members) := by
  refine List.all_eq_true.mpr fun named hm => ?_
  rw [Raw.rawMembers_eq] at hm
  obtain ⟨member, given, rfl⟩ := List.mem_map.mp hm
  split
  case h_1 same => exact distinctIn_of_raw _ (h member given) (congrArg (·.2) same)
  case h_2 same => exact distinctIn_of_raw _ (h member given) (congrArg (·.2) same)
  case h_3      => rfl

theorem stepOf?_raw (h : json.Nested depth) : stepOf? depth json.raw = some json := by
  have read := h.toJson?_raw
  cases json with
  | object members =>
    have distinct (names : List String) : distinctIn names (rawMembers members) :=
      distinctIn_rawMembers names h.ascending
    rw [raw] at read ⊢
    simp [stepOf?, distinct, distinctEvents_rawMembers h.member, read]
  | null | bool | number | string | array => exact read

def Known (names : List String) : Json → Prop
  | .object members => ∀ member ∈ members, member.1 ∈ names
  | _               => True

theorem known_of_terse (terse : json.Terse names []) (h : json.Nested depth) :
    Known names json := by
  cases json with
  | object members =>
    intro member hm
    have found : Entries.find? members member.1 = some member.2 :=
      Entries.find?_eq_some_of_mem h.ascending.nodup hm
    rcases terse member.1 member.2 found with none | ⟨known, _⟩
    · cases none
    · exact known
  | null | bool | number | string | array => trivial

theorem connectionOf?_raw (h : json.Nested depth) (known : Known Connection.fieldNames json) :
    connectionOf? depth json.raw = some json := by
  have read := h.toJson?_raw
  cases json with
  | object members =>
    cases depth with
    | zero => cases h
    | succ depth =>
      change recordOf? _ (fun _ => Raw.toJson? depth) (rawMembers members) = _
      exact recordOf?_rawMembers h.1 known fun member hm => (h.2 member hm).toJson?_raw
  | null | bool | number | string | array => cases depth <;> exact read

theorem listOf?_raw {items : List Json} (reads : ∀ json ∈ items, item depth json.raw = some json) :
    listOf? item (depth + 1) (Json.array items).raw = some (.array items) := by
  rw [raw, listOf?, Raw.rawItems_eq, mapM_map_eq_some_of_mem reads]
  rfl

section

variable {flow : Flow} {name : String} {value : Json} (nested : value.Nested (maxDepth - 1))
include nested

theorem fieldOf?_steps (same : value = .array (flow.steps.map Step.toJson)) :
    fieldOf? "steps" value.raw = some value := by
  subst same
  exact listOf?_raw fun json hm => stepOf?_raw (nested json hm)

theorem fieldOf?_connections (same : value = .array (flow.connections.map Connection.toJson)) :
    fieldOf? "connections" value.raw = some value := by
  subst same
  refine listOf?_raw fun json hm => connectionOf?_raw (nested json hm) ?_
  obtain ⟨connection, _, rfl⟩ := List.mem_map.mp hm
  exact known_of_terse connection.terse_toJson (nested _ hm)

theorem fieldOf?_raw (noSteps : name ≠ "steps") (noConnections : name ≠ "connections") :
    fieldOf? name value.raw = some value := by
  rw [fieldOf?, if_neg noSteps, if_neg noConnections]
  exact nested.toJson?_raw

end

theorem documentOf?_raw {flow : Flow} (nested : flow.toJson.Nested maxDepth) (terse : flow.Terse) :
    documentOf? flow.toJson.raw = some flow.toJson := by
  have known := known_of_terse terse.whole nested
  obtain ⟨members, written, holds⟩ := flow.exists_toJson
  rw [written] at nested known ⊢
  refine recordOf?_rawMembers nested.ascending known fun (name, value) hm => ?_
  have found : Entries.find? members name = some value :=
    Entries.find?_eq_some_of_mem nested.ascending.nodup hm
  have within : value.Nested (maxDepth - 1) := nested.member _ hm
  by_cases steps : name = "steps"
  case pos =>
    subst steps
    exact fieldOf?_steps within (Option.some.inj (found.symm.trans holds.steps))
  case neg =>
    by_cases connections : name = "connections"
    case pos =>
      subst connections
      exact fieldOf?_connections within (Option.some.inj (found.symm.trans holds.connections))
    case neg => exact fieldOf?_raw within steps connections

section

variable {record : List (Option String × Raw)}

theorem nested_of_recordOf? (reads : ∀ name (raw : Raw) value, raw.Fits →
      read name raw = some value → value.Nested depth)
    (fits : ∀ member ∈ record, member.2.Fits) (h : recordOf? names read record = some json) :
    json.Nested (depth + 1) := by
  obtain ⟨fields, selected, h⟩ := Option.bind_eq_some_iff.mp h
  obtain ⟨members, given, h⟩ := Option.bind_eq_some_iff.mp h
  cases h
  refine nested_ofMembers fun member hm => ?_
  obtain ⟨field, hf, given⟩ := exists_of_mem_mapM given hm
  obtain ⟨value, denotes, rfl⟩ := Option.map_eq_some_iff.mp given
  refine reads field.1 field.2 value ?_ denotes
  rw [select?] at selected
  split at selected
  case isFalse => cases selected
  case isTrue =>
    obtain ⟨named, all, rfl⟩ := Option.map_eq_some_iff.mp selected
    obtain ⟨⟨key, raw⟩, hr, same⟩ := exists_of_mem_mapM all (List.mem_filter.mp hf).1
    obtain ⟨_, _, rfl⟩ := Option.map_eq_some_iff.mp same
    exact fits _ hr

theorem nested_of_listOf? (reads : ∀ depth (raw : Raw) value, raw.Fits →
      item depth raw = some value → value.Nested depth)
    (fits : raw.Fits) (h : listOf? item depth raw = some json) : json.Nested depth := by
  rw [listOf?.eq_def] at h
  split at h
  case h_1 =>
    obtain ⟨items, given, rfl⟩ := Option.map_eq_some_iff.mp h
    cases fits with
    | array fits =>
      intro value hm
      obtain ⟨raw, hr, denotes⟩ := exists_of_mem_mapM given hm
      exact reads _ raw value (fits raw hr) denotes
  case h_2 => exact fits.nested h

theorem nested_of_stepOf? (fits : raw.Fits) (h : stepOf? depth raw = some json) :
    json.Nested depth := by
  rw [stepOf?.eq_def] at h
  split at h
  case h_1 =>
    dsimp only at h
    split at h
    case isTrue => exact fits.nested h
    case isFalse => cases h
  case h_2 => exact fits.nested h

theorem nested_of_connectionOf? (fits : raw.Fits) (h : connectionOf? depth raw = some json) :
    json.Nested depth := by
  rw [connectionOf?.eq_def] at h
  split at h
  case h_1 =>
    cases fits with
    | object fits => exact nested_of_recordOf? (fun _ _ _ fits => fits.nested) fits h
  case h_2 => exact fits.nested h

theorem nested_of_fieldOf? {name : String} (fits : raw.Fits) (h : fieldOf? name raw = some json) :
    json.Nested (maxDepth - 1) := by
  rw [fieldOf?] at h
  split at h
  · exact nested_of_listOf? (fun _ _ _ => nested_of_stepOf?) fits h
  · split at h
    · exact nested_of_listOf? (fun _ _ _ => nested_of_connectionOf?) fits h
    · exact fits.nested h

theorem nested_of_documentOf? (fits : raw.Fits) (h : documentOf? raw = some json) :
    json.Nested maxDepth := by
  rw [documentOf?.eq_def] at h
  split at h
  case h_1 =>
    cases fits with
    | object fits => exact nested_of_recordOf? (fun _ _ _ => nested_of_fieldOf?) fits h
  case h_2 =>
    split at h
    case isFalse => cases h
    case isTrue =>
      cases fits with
      | array fits =>
        refine nested_of_recordOf? (fun _ _ _ => nested_of_fieldOf?) (fun member hm => ?_) h
        exact fits _ (List.of_mem_zip hm).2
  case h_3 => exact fits.nested h

end

end Flow

-- The values in a flow are nested as deep as the document of the flow allows.
def EventValue.Nested (depth : Nat) (event : EventValue) : Prop :=
  event.value.Nested depth ∧ ∀ schema ∈ event.schema, schema.Nested depth

def StepKind.Nested (depth : Nat) : StepKind → Prop
  | .begin | .finish | .decision | .resumeAfter _ => True
  | .task params schema         =>
    (∀ value ∈ params, value.Nested (depth + 1)) ∧ ∀ value ∈ schema, value.Nested (depth + 1)
  | .waitForEvent input output  =>
    (∀ event ∈ input, event.Nested depth) ∧ ∀ event ∈ output, event.Nested depth

structure Step.Nested (depth : Nat) (step : Step) : Prop where
  kind     : step.kind.Nested depth
  metadata : ∀ members ∈ step.metadata, (Json.object members).Nested (depth + 1)

structure Flow.Nested (depth : Nat) (flow : Flow) : Prop where
  globalStateSchema : ∀ value ∈ flow.globalStateSchema, value.Nested (depth + 3)
  state             : ∀ value ∈ flow.state, value.Nested (depth + 3)
  steps             : ∀ step ∈ flow.steps, step.Nested depth
  metadata          : ∀ members ∈ flow.metadata, (Json.object members).Nested (depth + 3)

section Fields

variable {depth : Nat} {json : Json} {names : List String} {fields : List (String × Json)}
  {name schemaField : String}

theorem Json.Nested.record? (h : json.Nested (depth + 1))
    (record : json.record? names = some fields) :
    ∀ field ∈ fields, field.2.Nested depth := by
  cases json with
  | object members =>
    cases record
    exact h.2
  | array items =>
    rw [Json.record?] at record
    split at record <;> cases record
    intro field hm
    exact h _ (List.of_mem_zip hm).2
  | null | bool | number | string => cases record

variable (nested : ∀ field ∈ fields, field.2.Nested depth)
include nested

theorem nested_of_find? (h : Entries.find? fields name = some json) : json.Nested depth :=
  nested _ (Entries.mem_of_find? h)

theorem nested_of_optional? {value : Option Json} (h : optional? some fields name = some value) :
    ∀ json ∈ value, json.Nested depth := by
  rintro json rfl
  obtain ⟨_, found, _, same⟩ := exists_of_optional? h
  cases same
  exact nested_of_find? nested found

theorem nested_of_members? {value : Option (List (String × Json))}
    (h : optional? asMembers? fields name = some value) :
    ∀ members ∈ value, (Json.object members).Nested depth := by
  rintro members rfl
  obtain ⟨json, found, _, same⟩ := exists_of_optional? h
  cases json <;> cases same
  exact nested_of_find? nested found

end Fields

section Reading

variable {depth : Nat} {json : Json} {members : List (String × Json)} {schemaField : String}

theorem EventValue.nested_of_ofJson? {event : EventValue} (nested : json.Nested (depth + 1))
    (h : ofJson? schemaField json = some event) : event.Nested depth := by
  obtain ⟨fields, record, h⟩ := Option.bind_eq_some_iff.mp h
  obtain ⟨schema, read, h⟩ := Option.bind_eq_some_iff.mp h
  cases h
  have nested := nested.record? record
  refine ⟨?_, nested_of_optional? nested read⟩
  rcases found : content? fields "value" with _ | value
  · cases depth <;> trivial
  · exact nested_of_find? nested found

theorem StepKind.nested_of_ofMembers? {kind : StepKind}
    (nested : ∀ member ∈ members, member.2.Nested (depth + 1))
    (h : ofMembers? members = some kind) :
    kind.Nested depth := by
  obtain ⟨word, _, h⟩ := Option.bind_eq_some_iff.mp h
  have events {field schemaField : String} {value : Option EventValue}
      (read : optional? (EventValue.ofJson? schemaField) members field = some value) :
      ∀ event ∈ value, event.Nested depth := by
    rintro event rfl
    obtain ⟨_, found, _, read⟩ := exists_of_optional? read
    exact EventValue.nested_of_ofJson? (nested_of_find? nested found) read
  split_ifs at h
  · cases h
    trivial
  · cases h
    trivial
  · cases h
    trivial
  · obtain ⟨params, read, h⟩ := Option.bind_eq_some_iff.mp h
    obtain ⟨schema, read', h⟩ := Option.bind_eq_some_iff.mp h
    cases h
    exact ⟨nested_of_optional? nested read, nested_of_optional? nested read'⟩
  · obtain ⟨duration, _, h⟩ := Option.bind_eq_some_iff.mp h
    cases h
    trivial
  · obtain ⟨input, read, h⟩ := Option.bind_eq_some_iff.mp h
    obtain ⟨output, read', h⟩ := Option.bind_eq_some_iff.mp h
    cases h
    exact ⟨events read, events read'⟩

theorem Step.nested_of_ofJson? {step : Step} (nested : json.Nested (depth + 2))
    (h : ofJson? json = some step) : step.Nested depth := by
  obtain ⟨members, object, h⟩ := Option.bind_eq_some_iff.mp h
  obtain ⟨id, _, h⟩ := Option.bind_eq_some_iff.mp h
  obtain ⟨name, _, h⟩ := Option.bind_eq_some_iff.mp h
  obtain ⟨kind, read, h⟩ := Option.bind_eq_some_iff.mp h
  obtain ⟨metadata, read', h⟩ := Option.bind_eq_some_iff.mp h
  cases h
  cases json <;> cases object
  exact ⟨StepKind.nested_of_ofMembers? nested.2 read, nested_of_members? nested.2 read'⟩

theorem Flow.nested_of_ofJson? {flow : Flow} (nested : json.Nested (depth + 4))
    (h : ofJson? json = some flow) : flow.Nested depth := by
  obtain ⟨fields, record, h⟩ := Option.bind_eq_some_iff.mp h
  obtain ⟨id, _, h⟩ := Option.bind_eq_some_iff.mp h
  obtain ⟨name, _, h⟩ := Option.bind_eq_some_iff.mp h
  obtain ⟨version, _, h⟩ := Option.bind_eq_some_iff.mp h
  obtain ⟨schema, globalStateSchema, h⟩ := Option.bind_eq_some_iff.mp h
  obtain ⟨initial, state, h⟩ := Option.bind_eq_some_iff.mp h
  obtain ⟨steps, read, h⟩ := Option.bind_eq_some_iff.mp h
  obtain ⟨connections, _, h⟩ := Option.bind_eq_some_iff.mp h
  obtain ⟨metadata, read', h⟩ := Option.bind_eq_some_iff.mp h
  cases h
  have nested := nested.record? record
  refine {
    globalStateSchema := nested_of_optional? nested globalStateSchema
    state := nested_of_optional? nested state
    steps := fun step hm => ?_
    metadata := nested_of_members? nested read'
  }
  obtain ⟨list, found, listed⟩ := exists_of_required? read
  obtain ⟨items, rfl, item, hi, read⟩ := exists_of_mem_listOf? listed hm
  exact Step.nested_of_ofJson? (nested_of_find? nested found item hi) read

end Reading

section Writing

variable {depth : Nat} {schemaField : String}

theorem EventValue.Nested.toJson {event : EventValue} (h : event.Nested depth) :
    (event.toJson schemaField).Nested (depth + 1) := by
  refine nested_ofMembers fun member hm => ?_
  rcases List.mem_cons.mp hm with rfl | hm
  · exact h.1
  · exact h.2 _ (mem_optionalMember.mp hm).2

theorem StepKind.Nested.members {kind : StepKind} (h : kind.Nested depth) :
    ∀ member ∈ kind.members, member.2.Nested (depth + 1) := by
  intro member hm
  rcases List.mem_cons.mp hm with rfl | hm
  · exact nested_string
  · cases kind
    case begin | finish | decision => cases hm
    case task params schema =>
      rcases List.mem_append.mp hm with hm | hm
      · exact h.1 _ (mem_optionalMember.mp hm).2
      · exact h.2 _ (mem_optionalMember.mp hm).2
    case resumeAfter duration =>
      cases List.mem_singleton.mp hm
      exact nested_string
    case waitForEvent input output =>
      rcases List.mem_append.mp hm with hm | hm <;>
        obtain ⟨event, given, same⟩ := Option.map_eq_some_iff.mp (mem_optionalMember.mp hm).2
      · exact same ▸ (h.1 event given).toJson
      · exact same ▸ (h.2 event given).toJson

theorem Step.Nested.toJson {step : Step} (h : step.Nested depth) :
    step.toJson.Nested (depth + 2) := by
  refine nested_ofMembers fun member hm => ?_
  rcases List.mem_append.mp hm with hm | hm
  · rcases List.mem_append.mp hm with own | kind
    · simp only [List.mem_cons, List.not_mem_nil, or_false] at own
      rcases own with rfl | rfl <;> exact nested_string
    · exact h.kind.members member kind
  · obtain ⟨metadata, given, same⟩ := Option.map_eq_some_iff.mp (mem_optionalMember.mp hm).2
    exact same ▸ h.metadata metadata given

theorem Connection.nested_toJson (connection : Connection) :
    connection.toJson.Nested (depth + 1) := by
  refine nested_ofMembers fun member hm => ?_
  rcases List.mem_append.mp hm with own | hm
  · simp only [List.mem_cons, List.not_mem_nil, or_false] at own
    rcases own with rfl | rfl | rfl <;> exact nested_string
  · obtain ⟨condition, _, same⟩ := Option.map_eq_some_iff.mp (mem_optionalMember.mp hm).2
    exact same ▸ nested_string

theorem Flow.Nested.toJson {flow : Flow} (h : flow.Nested depth) :
    flow.toJson.Nested (depth + 4) := by
  refine nested_ofMembers fun member hm => ?_
  simp only [List.mem_append, List.mem_cons, List.not_mem_nil, or_false] at hm
  rcases hm with ((((rfl | rfl | rfl) | hm) | hm) | rfl | rfl) | hm
  case inl.inl.inl.inr => exact h.globalStateSchema _ (mem_optionalMember.mp hm).2
  case inl.inl.inr     => exact h.state _ (mem_optionalMember.mp hm).2
  case inr =>
    obtain ⟨metadata, given, same⟩ := Option.map_eq_some_iff.mp (mem_optionalMember.mp hm).2
    exact same ▸ h.metadata metadata given
  case inl.inr.inl =>
    intro json hm
    obtain ⟨step, given, rfl⟩ := List.mem_map.mp hm
    exact (h.steps step given).toJson
  case inl.inr.inr =>
    intro json hm
    obtain ⟨connection, _, rfl⟩ := List.mem_map.mp hm
    exact connection.nested_toJson
  all_goals exact nested_string

end Writing

namespace Flow

theorem nested_of_parse? {text : String} {flow : Flow} (h : parse? text = some flow) :
    flow.toJson.Nested maxDepth := by
  obtain ⟨raw, read, h⟩ := Option.bind_eq_some_iff.mp h
  obtain ⟨document, denotes, h⟩ := Option.bind_eq_some_iff.mp h
  have nested : document.Nested (123 + 4) :=
    nested_of_documentOf? (Raw.fits_of_parse? read) denotes
  exact (nested_of_ofJson? nested h).toJson

theorem parse?_render {text : String} {flow : Flow} (parsed : parse? text = some flow)
    (stable : ∀ double, .double double ∈ flow.toJson.numbers → (Number.double double).Stable) :
    parse? flow.toJson.render = some flow := by
  have nested := nested_of_parse? parsed
  obtain ⟨raw, _, h⟩ := Option.bind_eq_some_iff.mp parsed
  obtain ⟨document, _, read⟩ := Option.bind_eq_some_iff.mp h
  have plain := plain_of_ofJson? read
  have stable : ∀ n ∈ flow.toJson.numbers, n.Stable := by
    rintro (value | double) hn
    · exact Number.stable_int (nested.fits _ hn)
    · exact stable double hn
  rw [parse?, Raw.parse?_render stable]
  dsimp only [Option.bind_eq_bind, Option.bind_some]
  rw [documentOf?_raw nested (terse plain)]
  exact ofJson?_toJson plain

-- A flow that was read is read again as it is from what is written for it, and is written the same
-- way then. Nothing that does not belong to it is written, and no field that is absent. Of a text
-- this holds as long as the digits of its doubles are read as these doubles; those of integers
-- always are.
theorem documents_reread :
    (∀ (document : Json) (flow : Flow), ofJson? document = some flow →
      (∃ again, ofJson? flow.toJson = some again ∧ again = flow ∧ again.toJson = flow.toJson) ∧
        flow.Terse) ∧
    ∀ (text : String) (flow : Flow), parse? text = some flow →
      (∃ again, ofJson? flow.toJson = some again ∧ again = flow ∧ again.toJson = flow.toJson) ∧
        flow.Terse ∧
        ((∀ double, .double double ∈ flow.toJson.numbers → (Number.double double).Stable) →
          ∃ again, parse? flow.toJson.render = some again ∧ again = flow ∧
            again.toJson.render = flow.toJson.render) := by
  have reread (document : Json) (flow : Flow) (read : ofJson? document = some flow) :
      (∃ again, ofJson? flow.toJson = some again ∧ again = flow ∧ again.toJson = flow.toJson) ∧
        flow.Terse := by
    have plain := plain_of_ofJson? read
    exact ⟨⟨flow, ofJson?_toJson plain, rfl, rfl⟩, terse plain⟩
  refine ⟨reread, ?text⟩
  case text =>
    intro text flow parsed
    obtain ⟨raw, _, read⟩ := Option.bind_eq_some_iff.mp parsed
    obtain ⟨document, _, read⟩ := Option.bind_eq_some_iff.mp read
    obtain ⟨again, terse⟩ := reread document flow read
    exact ⟨again, terse, fun stable => ⟨flow, parse?_render parsed stable, rfl, rfl⟩⟩

namespace Parade

def steps : List Json :=
  [.ofMembers [("id", .string "a"), ("name", .string "A"), ("type", .string "begin"),
      ("metadata", .null), ("params", .bool true)],
    .ofMembers [("id", .string "b"), ("name", .string "B"), ("type", .nat 2), ("params", .null),
      ("paramsSchema", .array [.null]), ("metadata", .ofMembers [("x", .null)])],
    .ofMembers [("id", .string "c"), ("name", .string "C"), ("type", .string "decision")],
    .ofMembers [("id", .string "d"), ("name", .string "D"), ("type", .string "resumeAfter"),
      ("duration", .string "2 days"), ("eventInput", .nat 1)],
    .ofMembers [("id", .string "e"), ("name", .string "E"), ("type", .string "waitForEvent"),
      ("eventInput", .array []), ("eventOutput", .ofMembers [("value", .nat 1),
        ("eventOutputSchema", .null), ("eventInputSchema", .nat 2)])],
    .ofMembers [("id", .string "f"), ("name", .string "F"), ("type", .string "end"),
      ("metadata", .empty)]]

def document : Json :=
  .ofMembers [("id", .string "p"), ("name", .string "Parade"), ("version", .string "1"),
    ("state", .null), ("globalStateSchema", .bool false), ("steps", .array steps),
    ("connections", .array [.array [.string "x", .string "a", .string "b"],
      .ofMembers [("id", .string "y"), ("sourceStepId", .string "b"),
        ("targetStepId", .string "f"), ("condition", .null), ("color", .string "red")]]),
    ("author", .string "nobody")]

def read : Flow where
  id := "p"
  name := "Parade"
  version := "1"
  globalStateSchema := some (.bool false)
  state := none
  steps :=
    [⟨"a", "A", .begin, none⟩,
      ⟨"b", "B", .task none (some (.array [.null])), some [("x", .null)]⟩,
      ⟨"c", "C", .decision, none⟩,
      ⟨"d", "D", .resumeAfter "2 days", none⟩,
      ⟨"e", "E", .waitForEvent (some ⟨.null, none⟩) (some ⟨.nat 1, none⟩), none⟩,
      ⟨"f", "F", .finish, some []⟩]
  connections := [⟨"x", "a", "b", none⟩, ⟨"y", "b", "f", none⟩]
  metadata := none

def slip : String :=
  "\x7b\"id\": \"s\", \"name\": \"\", \"version\": \"1\", \"state\": [0.5, -3], \"x\": [], " ++
    "\"steps\": [], \"connections\": []\x7d"

def half : Double :=
  .ofDecimal false 5 (-1)

def blank : Flow :=
  ⟨"s", "", "1", none, some (.array [.number (.double half), .int (-3)]), [], [], none⟩

theorem parade_again :
    ofJson? document = some read ∧ ofJson? read.toJson = some read ∧ read.Terse ∧
      parse? slip = some blank ∧ ofJson? blank.toJson = some blank ∧
      (Number.double half).Stable ∧ parse? blank.toJson.render = some blank := by
  have found : ofJson? document = some read := by decide +kernel
  have parsed : parse? slip = some blank := by decide +kernel
  have stable : (Number.double half).Stable := by decide +kernel
  have numbers : blank.toJson.numbers = [.double half, .int (-3)] := by decide +kernel
  obtain ⟨⟨_, reread, rfl, _⟩, terse⟩ := documents_reread.1 document read found
  obtain ⟨⟨_, reread', rfl, _⟩, _, text⟩ := documents_reread.2 slip blank parsed
  obtain ⟨_, reparsed, rfl, _⟩ := text fun double hn => by
    rw [numbers] at hn
    simp only [List.mem_cons, Number.double.injEq, reduceCtorEq, List.not_mem_nil, or_false] at hn
    exact hn ▸ stable
  exact ⟨found, reread, terse, parsed, reread', stable, reparsed⟩

end Parade

namespace Drift

def text : String :=
  "\x7b\"id\": \"n\", \"name\": \"\", \"version\": \"1\", \"state\": 11e23, " ++
    "\"steps\": [], \"connections\": []\x7d"

def flow (state : Double) : Flow :=
  ⟨"n", "", "1", none, some (.number (.double state)), [], [], none⟩

def below : Double :=
  .ofDecimal false 10999999999999999 8

def above : Double :=
  .ofDecimal false 11 23

-- A double can be read from its digits as the one next to it, and that one as the first again.
theorem digits_drift :
    parse? text = some (flow below) ∧ parse? (flow below).toJson.render = some (flow above) ∧
      parse? (flow above).toJson.render = some (flow below) ∧ flow above ≠ flow below := by
  decide +kernel

end Drift

end Flow

end DurableWorkflow
