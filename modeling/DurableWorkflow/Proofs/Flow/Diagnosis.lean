import DurableWorkflow.Proofs.Flow.WellFormed

namespace DurableWorkflow

section Reports

variable {α β : Type} {problem : α → FlowError → Prop} {place : α} {places places' : List α}
  {error : FlowError} {errors errors' : List FlowError}

-- The problems of some places, one for each place that has one.
inductive Reports (problem : α → FlowError → Prop) : List α → List FlowError → Prop
  | nil : Reports problem [] []
  | passed {place : α} {places : List α} {errors : List FlowError}
      (fine : ∀ error, ¬ problem place error) (rest : Reports problem places errors) :
      Reports problem (place :: places) errors
  | found {place : α} {places : List α} {error : FlowError} {errors : List FlowError}
      (here : problem place error) (rest : Reports problem places errors) :
      Reports problem (place :: places) (error :: errors)

namespace Reports

theorem none (fine : ∀ error, ¬ problem place error) : Reports problem [place] [] :=
  .passed fine .nil

theorem one (here : problem place error) : Reports problem [place] [error] :=
  .found here .nil

theorem append (h : Reports problem places errors) (h' : Reports problem places' errors') :
    Reports problem (places ++ places') (errors ++ errors') := by
  induction h
  case nil                => exact h'
  case passed fine _ ih   => exact .passed fine ih
  case found here _ ih    => exact .found here ih

theorem flatMap {list : List β} {f : β → List α} {g : β → List FlowError}
    (h : ∀ item ∈ list, Reports problem (f item) (g item)) :
    Reports problem (list.flatMap f) (list.flatMap g) := by
  induction list
  case nil => exact .nil
  case cons item rest ih =>
    have ⟨here, later⟩ := List.forall_mem_cons.mp h
    rw [List.flatMap_cons, List.flatMap_cons]
    exact here.append (ih later)

-- If each place has one problem at most, then there is one way to report.
theorem unique (h : Reports problem places errors) (h' : Reports problem places errors')
    (functional :
      ∀ place error error', problem place error → problem place error' → error = error') :
    errors = errors' := by
  induction h generalizing errors'
  case nil =>
    cases h'
    rfl
  case passed fine _ ih =>
    cases h' with
    | passed _ rest  => exact ih rest
    | found here _   => exact absurd here (fine _)
  case found here _ ih =>
    cases h' with
    | passed fine _     => exact absurd here (fine _)
    | found here' rest  => rw [functional _ _ _ here here', ih rest]

end Reports

end Reports

namespace Flow

inductive Place
  | stepId (index : Nat)
  | begins
  | source (connection : Connection)
  | target (connection : Connection)
  | condition (connection : Connection)
  | duration (step : Step)

def places (flow : Flow) : List Place :=
  (List.range flow.steps.length).map .stepId ++ [.begins] ++
    flow.connections.flatMap (fun connection =>
      [.source connection, .target connection, .condition connection]) ++
    flow.steps.map .duration

inductive Problem (flow : Flow) : Place → FlowError → Prop
  | duplicate {index earlier : Nat} {id : String} (here : flow.stepIds[index]? = some id)
      (before : earlier < index) (there : flow.stepIds[earlier]? = some id) :
      Problem flow (.stepId index) ⟨.duplicateStep, "Step id '" ++ id ++ "' is used more than once."⟩
  | begins (count : flow.beginSteps.length ≠ 1) :
    Problem flow .begins ⟨.beginStep,
      "Flow must have exactly one begin step, found " ++ toString flow.beginSteps.length ++ "."⟩
  | source {connection : Connection} (absent : connection.source ∉ flow.stepIds) :
    Problem flow (.source connection) ⟨.connection, connectionMessage connection
      ("Source step with ID '" ++ connection.source ++ "' not found.")⟩
  | target {connection : Connection} (absent : connection.target ∉ flow.stepIds) :
    Problem flow (.target connection) ⟨.connection, connectionMessage connection
      ("Target step with ID '" ++ connection.target ++ "' not found.")⟩
  | condition {connection : Connection} {source : String} {error : Error}
      (given : connection.condition = some source)
      (unread : Condition.parse source = .returned (.error error)) :
    Problem flow (.condition connection) ⟨.condition, connectionMessage connection error.message⟩
  | duration {step : Step} {duration : String} {error : Error}
      (kind : step.kind = .resumeAfter duration) (unread : Duration.parse duration = .error error) :
    Problem flow (.duration step) ⟨.duration, "Step '" ++ step.id ++ "': " ++ error.message⟩

variable {flow : Flow} {connection : Connection} {step : Step} {place : Place}
  {error error' : FlowError} {errors : List FlowError}

theorem Problem.unique (h : flow.Problem place error) (h' : flow.Problem place error') :
    error = error' := by
  cases h with
  | duplicate here =>
    cases h' with
    | duplicate here' =>
      cases here.symm.trans here'
      rfl
  | begins => cases h'; rfl
  | source => cases h'; rfl
  | target => cases h'; rfl
  | condition given unread =>
    cases h' with
    | condition given' unread' =>
      cases given.symm.trans given'
      cases unread.symm.trans unread'
      rfl
  | duration kind unread =>
    cases h' with
    | duration kind' unread' =>
      cases kind.symm.trans kind'
      cases unread.symm.trans unread'
      rfl

-- By induction on the ids that are left; the ids seen are those that stand before them.
theorem reports_repeatedIds {earlier rest seen : List String}
    (ids : flow.stepIds = earlier ++ rest) (same : ∀ id, id ∈ seen ↔ id ∈ earlier) :
    Reports flow.Problem ((List.range' earlier.length rest.length).map .stepId)
      ((repeatedIds seen rest).map fun id =>
        ⟨.duplicateStep, "Step id '" ++ id ++ "' is used more than once."⟩) := by
  induction rest generalizing earlier seen
  case nil => exact .nil
  case cons id rest ih =>
    have here : flow.stepIds[earlier.length]? = some id := by simp [ids]
    have later (seen : List String) (same : ∀ other, other ∈ seen ↔ other ∈ earlier ++ [id]) :=
      ih (ids.trans (List.append_cons earlier id rest)) same
    simp only [List.length_append, List.length_singleton] at later
    rw [List.length_cons, List.range'_succ, List.map_cons, repeatedIds]
    split
    case isTrue known =>
      obtain ⟨index, before, there⟩ := List.mem_iff_getElem.mp ((same id).mp known)
      refine .found (.duplicate here before ?_) (later seen ?_)
      · rw [ids, List.getElem?_append_left before, List.getElem?_eq_getElem before, there]
      · grind
    case isFalse new =>
      refine .passed ?_ (later (id :: seen) ?_)
      · rintro error ⟨here', before, there⟩
        cases here.symm.trans here'
        rw [ids, List.getElem?_append_left before] at there
        exact new ((same id).mpr (List.mem_of_getElem? there))
      · grind

theorem reports_duplicateErrors :
    Reports flow.Problem ((List.range flow.steps.length).map .stepId) flow.duplicateErrors := by
  have count : flow.stepIds.length = flow.steps.length := List.length_map _
  rw [← count, List.range_eq_range']
  exact @reports_repeatedIds flow [] _ [] rfl fun _ => .rfl

theorem reports_beginErrors : Reports flow.Problem [.begins] flow.beginErrors := by
  rw [beginErrors]
  split
  case isFalse count => exact .one (.begins count)
  case isTrue single =>
    refine .none fun error problem => ?_
    cases problem with
    | begins count => exact count single

theorem reports_endErrors {role id : String}
    (h : ∀ error, flow.Problem place error ↔ id ∉ flow.stepIds ∧
      error = ⟨.connection, connectionMessage connection
        (role ++ " step with ID '" ++ id ++ "' not found.")⟩) :
    Reports flow.Problem [place] (flow.endErrors connection role id) := by
  rw [endErrors]
  split
  case isTrue there   => exact .none fun error problem => ((h error).mp problem).1 there
  case isFalse absent => exact .one ((h _).mpr ⟨absent, rfl⟩)

theorem reports_source :
    Reports flow.Problem [.source connection]
      (flow.endErrors connection "Source" connection.source) := by
  refine reports_endErrors fun error => ⟨fun h => ?_, fun ⟨absent, same⟩ => same ▸ .source absent⟩
  cases h with
  | source absent => exact ⟨absent, rfl⟩

theorem reports_target :
    Reports flow.Problem [.target connection]
      (flow.endErrors connection "Target" connection.target) := by
  refine reports_endErrors fun error => ⟨fun h => ?_, fun ⟨absent, same⟩ => same ▸ .target absent⟩
  cases h with
  | target absent => exact ⟨absent, rfl⟩

theorem reports_conditionErrors (h : conditionErrors connection = .returned errors) :
    Reports flow.Problem [.condition connection] errors := by
  rw [conditionErrors] at h
  cases given : connection.condition <;> simp only [given] at h
  case none =>
    cases h
    refine .none fun error problem => ?_
    cases problem with
    | condition given' => cases given.symm.trans given'
  case some source =>
    obtain ⟨parsed, read, rfl⟩ := Outcome.map_eq_returned_iff.mp h
    cases parsed
    case error error => exact .one (.condition given read)
    case ok =>
      refine .none fun error problem => ?_
      cases problem with
      | condition given' unread =>
        cases given.symm.trans given'
        cases read.symm.trans unread

theorem reports_connectionErrors (h : connectionErrors flow connection = .returned errors) :
    Reports flow.Problem [.source connection, .target connection, .condition connection] errors := by
  rw [connectionErrors] at h
  obtain ⟨found, hc, rfl⟩ := Outcome.map_eq_returned_iff.mp h
  exact (reports_source.append reports_target).append (reports_conditionErrors hc)

theorem reports_allConnectionErrors {connections : List Connection}
    (h : allConnectionErrors flow connections = .returned errors) :
    Reports flow.Problem (connections.flatMap fun connection =>
      [.source connection, .target connection, .condition connection]) errors := by
  induction connections generalizing errors
  case nil =>
    cases h
    exact .nil
  case cons connection rest ih =>
    obtain ⟨here, hc, h⟩ := Outcome.bind_eq_returned_iff.mp h
    obtain ⟨later, hr, h⟩ := Outcome.bind_eq_returned_iff.mp h
    cases h
    exact (reports_connectionErrors hc).append (ih hr)

theorem reports_durationErrors : Reports flow.Problem [.duration step] (durationErrors step) := by
  rw [durationErrors]
  cases kind : step.kind
  case resumeAfter duration =>
    cases read : Duration.parse duration <;> simp only [read]
    case error error => exact .one (.duration kind read)
    case ok =>
      refine .none fun error problem => ?_
      cases problem with
      | duration kind' unread =>
        cases kind.symm.trans kind'
        cases read.symm.trans unread
  all_goals
    refine .none fun error problem => ?_
    cases problem with
    | duration kind' => cases kind.symm.trans kind'

theorem reports_validate (h : flow.validate = .returned errors) :
    Reports flow.Problem flow.places errors := by
  obtain ⟨found, hc, rfl⟩ := Outcome.map_eq_returned_iff.mp h
  have durations : Reports flow.Problem (flow.steps.map .duration)
      (flow.steps.flatMap durationErrors) := by
    rw [List.map_eq_flatMap]
    exact .flatMap fun _ _ => reports_durationErrors
  exact ((reports_duplicateErrors.append reports_beginErrors).append
    (reports_allConnectionErrors hc)).append durations

def Readable (flow : Flow) : Prop :=
  ∀ connection ∈ flow.connections, ∀ source, connection.condition = some source →
    Condition.parse source ≠ .panicked

theorem conditionErrors_eq_panicked_iff :
    conditionErrors connection = .panicked ↔
      ∃ source, connection.condition = some source ∧ Condition.parse source = .panicked := by
  rw [conditionErrors]
  cases connection.condition
  case none        => simp
  case some source => cases hp : Condition.parse source <;> simp [Outcome.map, hp]

theorem allConnectionErrors_eq_panicked_iff {connections : List Connection} :
    allConnectionErrors flow connections = .panicked ↔
      ∃ connection ∈ connections, conditionErrors connection = .panicked := by
  induction connections
  case nil => simp [allConnectionErrors]
  case cons connection rest ih =>
    simp only [allConnectionErrors, connectionErrors, List.mem_cons, exists_eq_or_imp, ← ih]
    cases conditionErrors connection <;> cases allConnectionErrors flow rest <;>
      simp [Outcome.map, pure]

theorem validate_eq_panicked_iff : flow.validate = .panicked ↔ ¬ flow.Readable := by
  have hv : flow.validate = .panicked ↔ allConnectionErrors flow flow.connections = .panicked := by
    rw [validate]
    cases allConnectionErrors flow flow.connections <;> simp [Outcome.map]
  rw [hv, allConnectionErrors_eq_panicked_iff, Readable]
  simp [conditionErrors_eq_panicked_iff]

theorem readable_of_validate (h : flow.validate = .returned errors) : flow.Readable := by
  refine Classical.not_not.mp fun unreadable => ?_
  cases h.symm.trans (validate_eq_panicked_iff.mpr unreadable)

inductive ValuePlace
  | state
  | params (step : Step)
  | eventInput (step : Step)
  | eventOutput (step : Step)

namespace ValuePlace

def code : ValuePlace → FlowErrorCode
  | state         => .globalStateValidation
  | params _      => .stepParamsValidation
  | eventInput _  => .stepEventInputValidation
  | eventOutput _ => .stepEventOutputValidation

def name : ValuePlace → String
  | state            => "Global state"
  | params step      => "Step '" ++ step.id ++ "' parameters"
  | eventInput step  => "Step '" ++ step.id ++ "' eventInput"
  | eventOutput step => "Step '" ++ step.id ++ "' eventOutput"

end ValuePlace

def valuePlaces (flow : Flow) : List ValuePlace :=
  .state :: flow.steps.flatMap fun step => [.params step, .eventInput step, .eventOutput step]

inductive Pairs (flow : Flow) : ValuePlace → (schema value : Json) → Prop
  | state {schema value : Json} (given : flow.globalStateSchema = some schema)
      (there : flow.state = some value) : Pairs flow .state schema value
  | params {step : Step} {schema value : Json}
      (kind : step.kind = .task (some value) (some schema)) : Pairs flow (.params step) schema value
  | eventInput {step : Step} {schema value : Json} {output : Option EventValue}
      (kind : step.kind = .waitForEvent (some ⟨value, some schema⟩) output) :
      Pairs flow (.eventInput step) schema value
  | eventOutput {step : Step} {schema value : Json} {input : Option EventValue}
      (kind : step.kind = .waitForEvent input (some ⟨value, some schema⟩)) :
      Pairs flow (.eventOutput step) schema value

inductive Rejection (flow : Flow) (validator : SchemaValidator) (place : ValuePlace) :
    FlowError → Prop
  | intro {schema value : Json} {reasons : List String} (both : flow.Pairs place schema value)
      (rejected : validator schema value = .error reasons) :
      Rejection flow validator place
        ⟨place.code, place.name ++ " validation error: " ++ "; ".intercalate reasons⟩

variable {validator : SchemaValidator} {valued : ValuePlace}

theorem Pairs.unique {schema schema' value value' : Json} (h : flow.Pairs valued schema value)
    (h' : flow.Pairs valued schema' value') : schema = schema' ∧ value = value' := by
  cases h with
  | state given there =>
    cases h' with
    | state given' there' =>
      cases given.symm.trans given'
      cases there.symm.trans there'
      exact ⟨rfl, rfl⟩
  | params kind | eventInput kind | eventOutput kind =>
    cases h'
    case _ kind' =>
      cases kind.symm.trans kind'
      exact ⟨rfl, rfl⟩

theorem Rejection.unique (h : flow.Rejection validator valued error)
    (h' : flow.Rejection validator valued error') : error = error' := by
  cases h with | intro both rejected => ?_
  cases h' with | intro both' rejected' => ?_
  obtain ⟨rfl, rfl⟩ := both.unique both'
  cases rejected.symm.trans rejected'
  rfl

theorem reports_unpaired (h : ∀ schema value, ¬ flow.Pairs valued schema value) :
    Reports (flow.Rejection validator) [valued] [] :=
  .none fun _ ⟨both, _⟩ => h _ _ both

theorem reports_schemaErrors {schema? value? : Option Json}
    (h : ∀ schema value, flow.Pairs valued schema value ↔
      schema? = some schema ∧ value? = some value) :
    Reports (flow.Rejection validator) [valued]
      (schemaErrors validator valued.code valued.name schema? value?) := by
  rcases schema? with _ | schema
  case none => exact reports_unpaired fun _ _ both => nomatch ((h _ _).mp both).1
  rcases value? with _ | value
  case none => exact reports_unpaired fun _ _ both => nomatch ((h _ _).mp both).2
  have both : flow.Pairs valued schema value := (h schema value).mpr ⟨rfl, rfl⟩
  rw [schemaErrors]
  cases checked : validator schema value
  case error reasons => exact .one ⟨both, checked⟩
  case ok =>
    refine .none fun error ⟨both', rejected⟩ => ?_
    obtain ⟨rfl, rfl⟩ := both.unique both'
    cases checked.symm.trans rejected

theorem reports_eventErrors {event : Option EventValue}
    (h : ∀ schema value, flow.Pairs valued schema value ↔ event = some ⟨value, some schema⟩) :
    Reports (flow.Rejection validator) [valued]
      (eventErrors validator valued.code valued.name event) := by
  refine reports_schemaErrors fun schema value => (h schema value).trans ?_
  rcases event with _ | ⟨value', schema'⟩ <;> simp [and_comm]

section Step

variable {schema value : Json}

theorem pairs_params_iff :
    flow.Pairs (.params step) schema value ↔ step.kind = .task (some value) (some schema) :=
  ⟨fun | .params kind => kind, .params⟩

theorem pairs_eventInput_iff :
    flow.Pairs (.eventInput step) schema value ↔
      ∃ output, step.kind = .waitForEvent (some ⟨value, some schema⟩) output :=
  ⟨fun | .eventInput kind => ⟨_, kind⟩, fun ⟨_, kind⟩ => .eventInput kind⟩

theorem pairs_eventOutput_iff :
    flow.Pairs (.eventOutput step) schema value ↔
      ∃ input, step.kind = .waitForEvent input (some ⟨value, some schema⟩) :=
  ⟨fun | .eventOutput kind => ⟨_, kind⟩, fun ⟨_, kind⟩ => .eventOutput kind⟩

end Step

theorem name_at_step (id what : String) :
    "Step '" ++ id ++ "' " ++ what = "Step '" ++ id ++ ("' " ++ what) :=
  String.append_assoc

theorem reports_stepSchemaErrors :
    Reports (flow.Rejection validator) [.params step, .eventInput step, .eventOutput step]
      (stepSchemaErrors validator step) := by
  rw [stepSchemaErrors]
  cases kind : step.kind
  case task params schema =>
    have given : Reports (flow.Rejection validator) [.params step]
        (schemaErrors validator .stepParamsValidation ("Step '" ++ step.id ++ "' " ++ "parameters")
          schema params) := by
      rw [name_at_step]
      exact reports_schemaErrors (by simp [pairs_params_iff, kind, and_comm])
    have received : Reports (flow.Rejection validator) [.eventInput step] [] :=
      reports_unpaired (by simp [pairs_eventInput_iff, kind])
    have sent : Reports (flow.Rejection validator) [.eventOutput step] [] :=
      reports_unpaired (by simp [pairs_eventOutput_iff, kind])
    simpa using given.append (received.append sent)
  case waitForEvent input output =>
    have received : Reports (flow.Rejection validator) [.eventInput step]
        (eventErrors validator .stepEventInputValidation
          ("Step '" ++ step.id ++ "' " ++ "eventInput") input) := by
      rw [name_at_step]
      exact reports_eventErrors (by simp [pairs_eventInput_iff, kind])
    have sent : Reports (flow.Rejection validator) [.eventOutput step]
        (eventErrors validator .stepEventOutputValidation
          ("Step '" ++ step.id ++ "' " ++ "eventOutput") output) := by
      rw [name_at_step]
      exact reports_eventErrors (by simp [pairs_eventOutput_iff, kind])
    have params : Reports (flow.Rejection validator) [.params step] [] :=
      reports_unpaired (by simp [pairs_params_iff, kind])
    exact params.append (received.append sent)
  all_goals
    have params : Reports (flow.Rejection validator) [.params step] [] :=
      reports_unpaired (by simp [pairs_params_iff, kind])
    have received : Reports (flow.Rejection validator) [.eventInput step] [] :=
      reports_unpaired (by simp [pairs_eventInput_iff, kind])
    have sent : Reports (flow.Rejection validator) [.eventOutput step] [] :=
      reports_unpaired (by simp [pairs_eventOutput_iff, kind])
    exact params.append (received.append sent)

theorem reports_values :
    Reports (flow.Rejection validator) flow.valuePlaces
      (schemaErrors validator .globalStateValidation "Global state" flow.globalStateSchema
        flow.state ++ flow.steps.flatMap (stepSchemaErrors validator)) := by
  have state : Reports (flow.Rejection validator) [.state]
      (schemaErrors validator .globalStateValidation "Global state" flow.globalStateSchema
        flow.state) :=
    reports_schemaErrors fun _ _ => ⟨fun | .state given there => ⟨given, there⟩,
      fun ⟨given, there⟩ => .state given there⟩
  exact state.append (.flatMap fun _ _ => reports_stepSchemaErrors)

structure Diagnosis (flow : Flow) : Prop where
  structural : ∀ errors, flow.validate = .returned errors ↔
    flow.Readable ∧ Reports flow.Problem flow.places errors
  values : ∀ validator errors, flow.validateWith validator = .returned errors ↔
    ∃ found rejected, errors = found ++ rejected ∧ flow.validate = .returned found ∧
      Reports (flow.Rejection validator) flow.valuePlaces rejected
  broken : flow.validate = .panicked ↔ ¬ flow.Readable
  brokenWith : ∀ validator, flow.validateWith validator = .panicked ↔ ¬ flow.Readable

-- Validation reports every problem once, place by place.
theorem diagnosis (flow : Flow) : flow.Diagnosis where
  structural errors := by
    constructor
    case mp => exact fun h => ⟨readable_of_validate h, reports_validate h⟩
    case mpr =>
      rintro ⟨readable, reports⟩
      cases h : flow.validate
      case panicked => exact absurd readable (validate_eq_panicked_iff.mp h)
      case returned found =>
        rw [reports.unique (reports_validate h) fun _ _ _ => Problem.unique]
  values validator errors := by
    rw [validateWith, Outcome.map_eq_returned_iff]
    constructor
    case mp =>
      rintro ⟨found, h, rfl⟩
      exact ⟨found, _, List.append_assoc .., h, reports_values⟩
    case mpr =>
      rintro ⟨found, rejected, rfl, h, reports⟩
      refine ⟨found, h, ?_⟩
      rw [List.append_assoc, reports_values.unique reports fun _ _ _ => Rejection.unique]
  broken := validate_eq_panicked_iff
  brokenWith validator := by
    rw [← validate_eq_panicked_iff, validateWith]
    cases flow.validate <;> simp [Outcome.map]

example :
    let twice : Step := ⟨"start", "", .begin, none⟩
    let flow : Flow := ⟨"f", "", "1", none, none, [twice, twice], [⟨"c", "start", "end", none⟩], none⟩
    flow.validate = .returned [
      ⟨.duplicateStep, "Step id 'start' is used more than once."⟩,
      ⟨.beginStep, "Flow must have exactly one begin step, found 2."⟩,
      ⟨.connection, "Connection error on id=c: Target step with ID 'end' not found."⟩] := by
  decide +kernel

end Flow

end DurableWorkflow
