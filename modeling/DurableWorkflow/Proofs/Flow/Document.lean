import DurableWorkflow.Flow.Document
import DurableWorkflow.Proofs.Run.Document
import Mathlib.Tactic.SplitIfs

namespace DurableWorkflow

open Json

namespace Json

variable {α : Type} {members : List (String × Json)} {name : String} {read : Json → Option α}
  {write : α → Json}

theorem exists_of_mem_listOf? {json : Json} {list : List α} {a : α}
    (h : listOf? read json = some list) (hm : a ∈ list) :
    ∃ items, json = .array items ∧ ∃ item ∈ items, read item = some a := by
  cases json
  case array items => exact ⟨items, rfl, exists_of_mem_mapM h hm⟩
  all_goals cases h

theorem exists_of_required? {a : α} (h : required? read members name = some a) :
    ∃ json, Entries.find? members name = some json ∧ read json = some a :=
  Option.bind_eq_some_iff.mp h

theorem exists_of_optional? {a : α} (h : optional? read members name = some (some a)) :
    ∃ json, Entries.find? members name = some json ∧ json ≠ .null ∧ read json = some a := by
  rw [optional?] at h
  split at h
  case h_1 | h_2 => cases h
  case h_3 json content found =>
    obtain ⟨_, read, same⟩ := Option.map_eq_some_iff.mp h
    cases same
    exact ⟨json, found, content, read⟩

theorem ne_null_of_optional? {value : Option Json} (h : optional? some members name = some value) :
    value ≠ some .null := by
  rintro rfl
  have ⟨_, _, content, same⟩ := exists_of_optional? h
  cases same
  exact content rfl

theorem optional?_eq_of_ne_null {value : Option Json} (plain : value ≠ some .null)
    (found : Entries.find? members name = value) : optional? some members name = some value := by
  have content : ∀ a ∈ value, some (id a) = some a ∧ id a ≠ .null := by
    rintro a rfl
    refine ⟨rfl, ?_⟩
    rintro rfl
    exact plain rfl
  refine optional?_eq_of_mem content ?_
  rw [found, Option.map_id, id]

theorem optional?_eq_of_members {value : Option (List (String × Json))}
    (found : Entries.find? members name = value.map .object) :
    optional? asMembers? members name = some value :=
  have content (members : List (String × Json)) : object members ≠ .null := nofun
  optional?_eq (fun _ => rfl) content found

end Json

def EventValue.Plain (event : EventValue) : Prop :=
  event.schema ≠ some .null

def StepKind.Plain : StepKind → Prop
  | .begin | .finish | .decision | .resumeAfter _ => True
  | .task params schema => params ≠ some .null ∧ schema ≠ some .null
  | .waitForEvent input output => (∀ event ∈ input, event.Plain) ∧ ∀ event ∈ output, event.Plain

-- Not every flow is read again from what is written for it, for a field that may be left out must
-- not hold `null`; but such a flow is never read.
structure Flow.Plain (flow : Flow) : Prop where
  globalStateSchema : flow.globalStateSchema ≠ some .null
  state             : flow.state ≠ some .null
  steps             : ∀ step ∈ flow.steps, step.kind.Plain

section Plain

variable {json : Json} {members : List (String × Json)} {schemaField : String}

theorem EventValue.plain_of_ofJson? {event : EventValue}
    (h : ofJson? schemaField json = some event) : event.Plain := by
  obtain ⟨fields, _, h⟩ := Option.bind_eq_some_iff.mp h
  obtain ⟨schema, read, h⟩ := Option.bind_eq_some_iff.mp h
  cases h
  exact ne_null_of_optional? read

theorem StepKind.plain_of_ofMembers? {kind : StepKind} (h : ofMembers? members = some kind) :
    kind.Plain := by
  obtain ⟨word, _, h⟩ := Option.bind_eq_some_iff.mp h
  have plain {field schemaField : String} {value : Option EventValue}
      (read : optional? (EventValue.ofJson? schemaField) members field = some value) :
      ∀ event ∈ value, event.Plain := by
    rintro event rfl
    have ⟨_, _, _, read⟩ := exists_of_optional? read
    exact EventValue.plain_of_ofJson? read
  split_ifs at h
  · cases h
    trivial
  · cases h
    trivial
  · cases h
    trivial
  · obtain ⟨params, read, h⟩ := Option.bind_eq_some_iff.mp h
    obtain ⟨schema, read', h⟩ := Option.bind_eq_some_iff.mp h
    cases h
    exact ⟨ne_null_of_optional? read, ne_null_of_optional? read'⟩
  · obtain ⟨duration, _, h⟩ := Option.bind_eq_some_iff.mp h
    cases h
    trivial
  · obtain ⟨input, read, h⟩ := Option.bind_eq_some_iff.mp h
    obtain ⟨output, read', h⟩ := Option.bind_eq_some_iff.mp h
    cases h
    exact ⟨plain read, plain read'⟩

theorem Step.plain_of_ofJson? {step : Step} (h : ofJson? json = some step) : step.kind.Plain := by
  obtain ⟨members, _, h⟩ := Option.bind_eq_some_iff.mp h
  obtain ⟨id, _, h⟩ := Option.bind_eq_some_iff.mp h
  obtain ⟨name, _, h⟩ := Option.bind_eq_some_iff.mp h
  obtain ⟨kind, read, h⟩ := Option.bind_eq_some_iff.mp h
  obtain ⟨metadata, _, h⟩ := Option.bind_eq_some_iff.mp h
  cases h
  exact StepKind.plain_of_ofMembers? read

theorem Flow.plain_of_ofJson? {flow : Flow} (h : ofJson? json = some flow) : flow.Plain := by
  obtain ⟨members, _, h⟩ := Option.bind_eq_some_iff.mp h
  obtain ⟨id, _, h⟩ := Option.bind_eq_some_iff.mp h
  obtain ⟨name, _, h⟩ := Option.bind_eq_some_iff.mp h
  obtain ⟨version, _, h⟩ := Option.bind_eq_some_iff.mp h
  obtain ⟨schema, globalStateSchema, h⟩ := Option.bind_eq_some_iff.mp h
  obtain ⟨initial, state, h⟩ := Option.bind_eq_some_iff.mp h
  obtain ⟨steps, read, h⟩ := Option.bind_eq_some_iff.mp h
  obtain ⟨connections, _, h⟩ := Option.bind_eq_some_iff.mp h
  obtain ⟨metadata, _, h⟩ := Option.bind_eq_some_iff.mp h
  cases h
  have ⟨list, _, listed⟩ := exists_of_required? read
  refine {
    globalStateSchema := ne_null_of_optional? globalStateSchema
    state := ne_null_of_optional? state
    steps := fun step hm => ?_
  }
  have ⟨_, _, _, _, read⟩ := exists_of_mem_listOf? listed hm
  exact Step.plain_of_ofJson? read

end Plain

theorem EventValue.toJson_ne_null {schemaField : String} (event : EventValue) :
    event.toJson schemaField ≠ .null :=
  nofun

theorem EventValue.ofJson?_toJson {schemaField : String} (other : schemaField ≠ "value")
    {event : EventValue} (plain : event.Plain) :
    ofJson? schemaField (toJson schemaField event) = some event := by
  have ⟨members, written, value, schema⟩ : ∃ members, toJson schemaField event = .object members ∧
      Entries.find? members "value" = some event.value ∧
      Entries.find? members schemaField = event.schema := by
    refine ⟨_, rfl, ?_, ?_⟩ <;>
      simp [Entries.find?_ofPairs, Entries.find?_append, Entries.find?_cons, find?_optionalMember,
        reverse_optionalMember, other, other.symm]
  rw [written, ofJson?]
  simp [record?, content?, value, optional?_eq_of_ne_null plain schema]

namespace StepKind

variable {kind : StepKind} {members : List (String × Json)}

-- The fields of a kind are read from wherever they are, as long as they are not in the way of those
-- that every step has.
theorem ofMembers?_eq (plain : kind.Plain)
    (found : ∀ key ∉ ["id", "name", "metadata"],
      Entries.find? members key = Entries.find? kind.members key) :
    ofMembers? members = some kind := by
  have word : required? word? members "type" = some kind.name := by
    rw [required?, found "type" (by decide)]
    cases kind <;> rfl
  rw [ofMembers?, word]
  cases kind
  case begin | finish | decision => rfl
  case task params schema =>
    have params : optional? some members "params" = some params :=
      optional?_eq_of_ne_null plain.1 (by simp [found, Entries.find?_append, find?_optionalMember,
        StepKind.members, Entries.find?_cons])
    have schema : optional? some members "paramsSchema" = some schema :=
      optional?_eq_of_ne_null plain.2 (by simp [found, Entries.find?_append, find?_optionalMember,
        StepKind.members, Entries.find?_cons])
    simp [name, params, schema]
  case resumeAfter duration =>
    have duration : required? asString? members "duration" = some duration :=
      required?_eq asString?_string (by simp [found, StepKind.members, Entries.find?_cons])
    simp [name, duration]
  case waitForEvent input output =>
    have input : optional? (EventValue.ofJson? inputSchemaField) members "eventInput" =
        some input :=
      optional?_eq_of_mem
        (fun event hm => ⟨EventValue.ofJson?_toJson (by decide) (plain.1 event hm),
          EventValue.toJson_ne_null event⟩)
        (by simp [found, Entries.find?_append, find?_optionalMember, StepKind.members,
          Entries.find?_cons])
    have output : optional? (EventValue.ofJson? outputSchemaField) members "eventOutput" =
        some output :=
      optional?_eq_of_mem
        (fun event hm => ⟨EventValue.ofJson?_toJson (by decide) (plain.2 event hm),
          EventValue.toJson_ne_null event⟩)
        (by simp [found, Entries.find?_append, find?_optionalMember, StepKind.members,
          Entries.find?_cons])
    simp [name, input, output]

-- No field of a kind is written twice.
theorem find?_reverse_members {key : String} :
    Entries.find? kind.members.reverse key = Entries.find? kind.members key := by
  cases kind <;>
    simp [StepKind.members, Entries.find?_append, Entries.find?_cons, find?_optionalMember,
      reverse_optionalMember] <;>
    grind

theorem find?_members_eq_none {key : String} (h : key ∈ ["id", "name", "metadata"]) :
    Entries.find? kind.members key = none := by
  simp only [List.mem_cons, List.not_mem_nil, or_false] at h
  rcases h with rfl | rfl | rfl <;> cases kind <;>
    simp [StepKind.members, Entries.find?_append, Entries.find?_cons, find?_optionalMember]

end StepKind

namespace Step

structure Fields (members : List (String × Json)) (step : Step) : Prop where
  id       : Entries.find? members "id" = some (.string step.id)
  name     : Entries.find? members "name" = some (.string step.name)
  kind     : ∀ key ∉ ["id", "name", "metadata"],
    Entries.find? members key = Entries.find? step.kind.members key
  metadata : Entries.find? members "metadata" = step.metadata.map .object

theorem exists_toJson (step : Step) :
    ∃ members, step.toJson = .object members ∧ Fields members step := by
  refine ⟨_, rfl, ?_⟩
  constructor
  case kind =>
    intro key hk
    simp only [List.mem_cons, List.not_mem_nil, or_false, not_or] at hk
    simp [Entries.find?_ofPairs, Entries.find?_append, Entries.find?_cons, find?_optionalMember,
      reverse_optionalMember, StepKind.find?_reverse_members, Ne.symm hk.1, Ne.symm hk.2.1,
      Ne.symm hk.2.2]
  all_goals
    simp [Entries.find?_ofPairs, Entries.find?_append, Entries.find?_cons, find?_optionalMember,
      reverse_optionalMember, StepKind.find?_reverse_members, StepKind.find?_members_eq_none]

theorem ofJson?_toJson {step : Step} (plain : step.kind.Plain) :
    ofJson? step.toJson = some step := by
  obtain ⟨members, written, holds⟩ := step.exists_toJson
  rw [written, ofJson?]
  simp [asMembers?, required?_eq asString?_string holds.id,
    required?_eq asString?_string holds.name, StepKind.ofMembers?_eq plain holds.kind,
    optional?_eq_of_members holds.metadata]

end Step

theorem Connection.ofJson?_toJson (connection : Connection) :
    ofJson? connection.toJson = some connection := by
  cases connection with | mk id source target condition =>
  cases condition <;>
    simp [ofJson?, toJson, ofMembers, record?, required?, optional?, Entries.find?_ofPairs,
      Entries.find?_append, Entries.find?_cons, find?_optionalMember, reverse_optionalMember,
      asString?]

namespace Flow

structure Fields (members : List (String × Json)) (flow : Flow) : Prop where
  id                : Entries.find? members "id" = some (.string flow.id)
  name              : Entries.find? members "name" = some (.string flow.name)
  version           : Entries.find? members "version" = some (.string flow.version)
  globalStateSchema : Entries.find? members "globalStateSchema" = flow.globalStateSchema
  state             : Entries.find? members "state" = flow.state
  steps             : Entries.find? members "steps" =
    some (.array (flow.steps.map Step.toJson))
  connections       : Entries.find? members "connections" =
    some (.array (flow.connections.map Connection.toJson))
  metadata          : Entries.find? members "metadata" = flow.metadata.map .object

theorem exists_toJson (flow : Flow) :
    ∃ members, flow.toJson = .object members ∧ Fields members flow := by
  refine ⟨_, rfl, ?_⟩
  constructor <;>
    simp [Entries.find?_ofPairs, Entries.find?_append, Entries.find?_cons, find?_optionalMember,
      reverse_optionalMember]

theorem ofJson?_toJson {flow : Flow} (plain : flow.Plain) : ofJson? flow.toJson = some flow := by
  obtain ⟨members, written, holds⟩ := flow.exists_toJson
  have steps : required? (Json.listOf? Step.ofJson?) members "steps" = some flow.steps := by
    rw [required?, holds.steps]
    exact mapM_map_eq_some_of_mem fun step hm => Step.ofJson?_toJson (plain.steps step hm)
  have connections : required? (Json.listOf? Connection.ofJson?) members "connections" =
      some flow.connections :=
    required?_eq (listOf?_eq Connection.ofJson?_toJson) holds.connections
  rw [written, ofJson?]
  simp [record?, required?_eq asString?_string holds.id,
    required?_eq asString?_string holds.name, required?_eq asString?_string holds.version,
    optional?_eq_of_ne_null plain.globalStateSchema holds.globalStateSchema,
    optional?_eq_of_ne_null plain.state holds.state, steps, connections,
    optional?_eq_of_members holds.metadata]

end Flow

def Json.Terse (names contents : List String) (json : Json) : Prop :=
  ∀ key value, json.member? key = some value → key ∈ contents ∨ key ∈ names ∧ value ≠ .null

namespace Json

variable {key name : String} {value : Json} {names contents : List String}
  {members : List (String × Json)}

theorem mem_optionalMember {optional : Option Json} :
    (key, value) ∈ optionalMember name optional ↔ key = name ∧ optional = some value := by
  cases optional <;> simp [optionalMember, eq_comm]

theorem terse_ofMembers
    (h : ∀ key value, (key, value) ∈ members → key ∈ contents ∨ key ∈ names ∧ value ≠ .null) :
    (ofMembers members).Terse names contents := by
  intro key value found
  refine h key value ?_
  rw [ofMembers, member?, Entries.find?_ofPairs] at found
  exact List.mem_reverse.mp (Entries.mem_of_find? found)

end Json

theorem EventValue.terse_toJson {schemaField : String} {event : EventValue} (plain : event.Plain) :
    (toJson schemaField event).Terse [schemaField] ["value"] := by
  refine terse_ofMembers fun key value hm => ?_
  rcases List.mem_cons.mp hm with same | hm
  · cases same
    exact .inl (.head _)
  · obtain ⟨rfl, schema⟩ := mem_optionalMember.mp hm
    exact .inr ⟨.head _, fun null => plain (null ▸ schema)⟩

theorem StepKind.terse_members {kind : StepKind} (plain : kind.Plain) {key : String} {value : Json}
    (hm : (key, value) ∈ kind.members) : key ∈ "type" :: fieldsOf kind.name ∧ value ≠ .null := by
  rcases List.mem_cons.mp hm with same | hm
  · cases same
    exact ⟨.head _, nofun⟩
  · cases kind
    case begin | finish | decision => cases hm
    case task params schema =>
      rcases List.mem_append.mp hm with hm | hm <;> obtain ⟨rfl, there⟩ := mem_optionalMember.mp hm
      · exact ⟨by simp [name, fieldsOf], fun null => plain.1 (null ▸ there)⟩
      · exact ⟨by simp [name, fieldsOf], fun null => plain.2 (null ▸ there)⟩
    case resumeAfter duration =>
      cases List.mem_singleton.mp hm
      exact ⟨by simp [name, fieldsOf], nofun⟩
    case waitForEvent input output =>
      rcases List.mem_append.mp hm with hm | hm <;>
        obtain ⟨rfl, there⟩ := mem_optionalMember.mp hm <;>
        obtain ⟨event, _, rfl⟩ := Option.map_eq_some_iff.mp there
      · exact ⟨by simp [name, fieldsOf], nofun⟩
      · exact ⟨by simp [name, fieldsOf], nofun⟩

theorem Step.terse_toJson {step : Step} (plain : step.kind.Plain) :
    step.toJson.Terse (["id", "name", "metadata", "type"] ++ StepKind.fieldsOf step.kind.name)
      [] := by
  refine terse_ofMembers fun key value hm => .inr ?_
  rcases List.mem_append.mp hm with hm | hm
  · rcases List.mem_append.mp hm with own | kind
    · simp only [List.mem_cons, Prod.mk.injEq, List.not_mem_nil, or_false] at own
      rcases own with ⟨rfl, rfl⟩ | ⟨rfl, rfl⟩ <;> exact ⟨by simp, nofun⟩
    · have ⟨known, content⟩ := StepKind.terse_members plain kind
      exact ⟨List.mem_append_right ["id", "name", "metadata"] known, content⟩
  · obtain ⟨rfl, there⟩ := mem_optionalMember.mp hm
    obtain ⟨metadata, _, rfl⟩ := Option.map_eq_some_iff.mp there
    exact ⟨by simp, nofun⟩

theorem Connection.terse_toJson (connection : Connection) :
    connection.toJson.Terse fieldNames [] := by
  refine terse_ofMembers fun key value hm => .inr ?_
  rcases List.mem_append.mp hm with own | hm
  · simp only [List.mem_cons, Prod.mk.injEq, List.not_mem_nil, or_false] at own
    rcases own with ⟨rfl, rfl⟩ | ⟨rfl, rfl⟩ | ⟨rfl, rfl⟩ <;> exact ⟨by simp [fieldNames], nofun⟩
  · obtain ⟨rfl, there⟩ := mem_optionalMember.mp hm
    obtain ⟨condition, _, rfl⟩ := Option.map_eq_some_iff.mp there
    exact ⟨by simp [fieldNames], nofun⟩

namespace Flow

theorem terse_toJson {flow : Flow} (plain : flow.Plain) : flow.toJson.Terse fieldNames [] := by
  refine terse_ofMembers fun key value hm => .inr ?_
  simp only [List.mem_append, List.mem_cons, Prod.mk.injEq, List.not_mem_nil, or_false,
    mem_optionalMember, Option.map_eq_some_iff] at hm
  rcases hm with
    ((((⟨rfl, rfl⟩ | ⟨rfl, rfl⟩ | ⟨rfl, rfl⟩) | ⟨rfl, schema⟩) | ⟨rfl, state⟩) |
      ⟨rfl, rfl⟩ | ⟨rfl, rfl⟩) | ⟨rfl, metadata, _, rfl⟩
  case inl.inl.inl.inr =>
    exact ⟨by simp [fieldNames], fun null => plain.globalStateSchema (null ▸ schema)⟩
  case inl.inl.inr =>
    exact ⟨by simp [fieldNames], fun null => plain.state (null ▸ state)⟩
  all_goals exact ⟨by simp [fieldNames], nofun⟩

-- What is written for a flow holds the fields of its parts and nothing else, and no `null` but for
-- a value that an event goes with.
structure Terse (flow : Flow) : Prop where
  whole       : flow.toJson.Terse fieldNames []
  steps       : ∀ step ∈ flow.steps,
    step.toJson.Terse (["id", "name", "metadata", "type"] ++ StepKind.fieldsOf step.kind.name) []
  events      : ∀ step ∈ flow.steps, ∀ input output, step.kind = .waitForEvent input output →
    (∀ event ∈ input,
      (EventValue.toJson StepKind.inputSchemaField event).Terse
        [StepKind.inputSchemaField] ["value"]) ∧
    ∀ event ∈ output,
      (EventValue.toJson StepKind.outputSchemaField event).Terse
        [StepKind.outputSchemaField] ["value"]
  connections : ∀ connection ∈ flow.connections, connection.toJson.Terse Connection.fieldNames []

theorem terse {flow : Flow} (plain : flow.Plain) : flow.Terse where
  whole           := terse_toJson plain
  steps step hm   := Step.terse_toJson (plain.steps step hm)
  connections _ _ := Connection.terse_toJson _
  events step hm _ _ kind := by
    have plain := plain.steps step hm
    rw [kind] at plain
    exact ⟨fun event hm => EventValue.terse_toJson (plain.1 event hm),
      fun event hm => EventValue.terse_toJson (plain.2 event hm)⟩

end Flow

end DurableWorkflow
