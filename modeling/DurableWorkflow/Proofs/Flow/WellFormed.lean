import DurableWorkflow.Flow.Validation

namespace DurableWorkflow.Flow

structure WellFormed (flow : Flow) : Prop where
  distinct   : flow.stepIds.Nodup
  begins     : ∃ start, flow.beginSteps = [start]
  sources    : ∀ connection ∈ flow.connections, connection.source ∈ flow.stepIds
  targets    : ∀ connection ∈ flow.connections, connection.target ∈ flow.stepIds
  conditions : ∀ connection ∈ flow.connections, ∀ source, connection.condition = some source →
    ∃ condition, Condition.parse source = .returned (.ok condition)
  durations  : ∀ step ∈ flow.steps, ∀ duration, step.kind = .resumeAfter duration →
    ∃ millis, Duration.parse duration = .ok millis

variable {flow : Flow} {connection : Connection} {step : Step}

theorem repeatedIds_eq_nil_iff {seen ids : List String} :
    repeatedIds seen ids = [] ↔ ids.Nodup ∧ ∀ id ∈ ids, id ∉ seen := by
  induction ids generalizing seen
  case nil => simp [repeatedIds]
  case cons id rest ih =>
    rw [repeatedIds]
    split
    case isTrue h  => simp [h]
    case isFalse h => grind

theorem duplicateErrors_eq_nil_iff : flow.duplicateErrors = [] ↔ flow.stepIds.Nodup := by
  simp [duplicateErrors, repeatedIds_eq_nil_iff]

theorem beginErrors_eq_nil_iff : flow.beginErrors = [] ↔ ∃ start, flow.beginSteps = [start] := by
  rw [← List.length_eq_one_iff, beginErrors]
  split <;> simp_all

theorem endErrors_eq_nil_iff {role id : String} :
    endErrors flow connection role id = [] ↔ id ∈ flow.stepIds := by
  rw [endErrors]
  split <;> simp_all

theorem conditionErrors_eq_nil_iff :
    conditionErrors connection = .returned [] ↔
      ∀ source, connection.condition = some source →
        ∃ condition, Condition.parse source = .returned (.ok condition) := by
  rw [conditionErrors]
  cases connection.condition
  case none => simp
  case some source =>
    rw [Outcome.map_eq_returned_iff]
    rcases hp : Condition.parse source with (_ | _) | _ <;> simp [hp]

theorem connectionErrors_eq_nil_iff :
    connectionErrors flow connection = .returned [] ↔
      connection.source ∈ flow.stepIds ∧ connection.target ∈ flow.stepIds ∧
        conditionErrors connection = .returned [] := by
  rw [connectionErrors, Outcome.map_eq_returned_iff]
  cases conditionErrors connection <;> simp [endErrors_eq_nil_iff]

theorem allConnectionErrors_eq_nil_iff {connections : List Connection} :
    allConnectionErrors flow connections = .returned [] ↔
      ∀ connection ∈ connections, connectionErrors flow connection = .returned [] := by
  induction connections
  case nil => simp [allConnectionErrors]
  case cons connection rest ih =>
    rw [allConnectionErrors, List.forall_mem_cons, ← ih]
    rcases connectionErrors flow connection with errors | _ <;>
      rcases allConnectionErrors flow rest with others | _ <;> simp [pure]

theorem durationErrors_eq_nil_iff :
    durationErrors step = [] ↔
      ∀ duration, step.kind = .resumeAfter duration →
        ∃ millis, Duration.parse duration = .ok millis := by
  rw [durationErrors]
  cases step.kind <;> simp
  case resumeAfter duration => cases Duration.parse duration <;> simp

theorem validate_eq_nil_iff : flow.validate = .returned [] ↔ flow.WellFormed := by
  have hv : flow.validate = .returned [] ↔ flow.duplicateErrors = [] ∧ flow.beginErrors = [] ∧
      allConnectionErrors flow flow.connections = .returned [] ∧
      ∀ step ∈ flow.steps, durationErrors step = [] := by
    rw [validate, Outcome.map_eq_returned_iff]
    cases allConnectionErrors flow flow.connections <;> simp
  simp only [hv, duplicateErrors_eq_nil_iff, beginErrors_eq_nil_iff, allConnectionErrors_eq_nil_iff,
    connectionErrors_eq_nil_iff, conditionErrors_eq_nil_iff, durationErrors_eq_nil_iff]
  constructor
  case mp =>
    rintro ⟨distinct, begins, connections, durations⟩
    exact {
      distinct, begins, durations
      sources    := fun connection hm => (connections connection hm).1
      targets    := fun connection hm => (connections connection hm).2.1
      conditions := fun connection hm => (connections connection hm).2.2
    }
  case mpr =>
    intro h
    refine ⟨h.distinct, h.begins, fun connection hm => ?_, h.durations⟩
    exact ⟨h.sources connection hm, h.targets connection hm, h.conditions connection hm⟩

end DurableWorkflow.Flow
