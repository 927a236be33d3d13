import DurableWorkflow.Run.Document

namespace DurableWorkflow

open Json

theorem mapM_map_eq_some_of_mem {α β : Type} {read : β → Option α} {write : α → β}
    {items : List α} (reads : ∀ a ∈ items, read (write a) = some a) :
    (items.map write).mapM read = some items := by
  induction items
  case nil => rfl
  case cons a rest ih =>
    have ⟨here, reads⟩ := List.forall_mem_cons.mp reads
    simp [here, ih reads]

theorem mapM_map_eq_some {α β : Type} {read : β → Option α} {write : α → β}
    (reads : ∀ a, read (write a) = some a) (items : List α) :
    (items.map write).mapM read = some items :=
  mapM_map_eq_some_of_mem fun a _ => reads a

theorem exists_of_mem_mapM {α β : Type} {read : β → Option α} {items : List β} {list : List α}
    {a : α} (h : items.mapM read = some list) (hm : a ∈ list) :
    ∃ item ∈ items, read item = some a := by
  induction items generalizing list
  case nil =>
    cases h
    cases hm
  case cons item rest ih =>
    rw [List.mapM_cons] at h
    obtain ⟨first, here, h⟩ := Option.bind_eq_some_iff.mp h
    obtain ⟨others, there, h⟩ := Option.bind_eq_some_iff.mp h
    cases h
    rcases List.mem_cons.mp hm with rfl | hm
    · exact ⟨item, .head _, here⟩
    · obtain ⟨item, hi, read⟩ := ih there hm
      exact ⟨item, .tail _ hi, read⟩

namespace Json

variable {α : Type} {members : List (String × Json)} {name key : String}
  {read : Json → Option α} {write : α → Json}

theorem find?_optionalMember {value : Option Json} :
    Entries.find? (optionalMember name value) key = if name = key then value else none := by
  cases value <;> simp [optionalMember, Entries.find?_cons]

theorem reverse_optionalMember {value : Option Json} :
    (optionalMember name value).reverse = optionalMember name value := by
  cases value <;> rfl

theorem required?_eq {value : α} (reads : ∀ a, read (write a) = some a)
    (found : Entries.find? members name = some (write value)) :
    required? read members name = some value := by
  rw [required?, found, Option.bind_some, reads]

theorem defaulted?_eq {value absent : α} (reads : ∀ a, read (write a) = some a)
    (found : Entries.find? members name = some (write value)) :
    defaulted? read absent members name = some value := by
  rw [defaulted?, found]
  exact reads value

theorem optional?_eq_of_mem {value : Option α}
    (reads : ∀ a ∈ value, read (write a) = some a ∧ write a ≠ .null)
    (found : Entries.find? members name = value.map write) :
    optional? read members name = some value := by
  rw [optional?, found]
  cases value
  case none => rfl
  case some a =>
    have ⟨reads, content⟩ := reads a rfl
    dsimp only [Option.map_some]
    split
    case h_1 h => cases h
    case h_2 h => exact absurd (Option.some.inj h) content
    case h_3 h =>
      rw [← Option.some.inj h, reads]
      rfl

theorem optional?_eq {value : Option α} (reads : ∀ a, read (write a) = some a)
    (content : ∀ a, write a ≠ .null) (found : Entries.find? members name = value.map write) :
    optional? read members name = some value :=
  optional?_eq_of_mem (fun a _ => ⟨reads a, content a⟩) found

theorem listOf?_eq (reads : ∀ a, read (write a) = some a) (items : List α) :
    listOf? read (.array (items.map write)) = some items :=
  mapM_map_eq_some reads items

theorem asString?_string (text : String) : asString? (.string text) = some text :=
  rfl

end Json

theorem Timestamp.ofJson?_toJson (time : Timestamp) : ofJson? time.toJson = some time := by
  simp [ofJson?, toJson, Json.int, asInt?]

theorem RunStatus.ofJson?_name (status : RunStatus) :
    ofJson? (.string status.name) = some status := by
  cases status <;> decide

theorem AuditOutcome.ofJson?_name (outcome : AuditOutcome) :
    ofJson? (.string outcome.name) = some outcome := by
  cases outcome <;> decide

theorem AuditEntry.ofJson?_toJson (entry : AuditEntry) : ofJson? entry.toJson = some entry := by
  simp [ofJson?, toJson, ofMembers, record?, required?, Entries.find?_ofPairs, Entries.find?_cons,
    asString?, Timestamp.ofJson?_toJson, AuditOutcome.ofJson?_name]

-- A result that is `null` is not one that is missing.
theorem MemoEntry.ofJson?_toJson (entry : MemoEntry) : ofJson? entry.toJson = some entry := by
  simp [ofJson?, toJson, ofMembers, record?, required?, content?, Entries.find?_ofPairs,
    Entries.find?_append, Entries.find?_cons, find?_optionalMember, reverse_optionalMember, asBool?]

theorem ActionMemo.ofJson?_toJson (memo : ActionMemo) : ofJson? memo.toJson = some memo := by
  have reads (member : String × MemoEntry) :
      (MemoEntry.ofJson? member.2.toJson).map (member.1, ·) = some member := by
    simp [MemoEntry.ofJson?_toJson]
  refine Option.bind_eq_some_iff.mpr ⟨_, mapM_map_eq_some reads memo.entries.entries, ?_⟩
  rw [Dict.ofPairs_entries]
  rfl

-- An event to which `null` was delivered is not one that still waits.
theorem ResumeEntry.ofJson?_toJson (entry : ResumeEntry) : ofJson? entry.toJson = some entry := by
  cases entry
  case timer id deadline fired =>
    cases fired <;>
      simp [ofJson?, toJson, ofFields?, ofMembers, record?, required?, defaulted?,
        Entries.find?_ofPairs, Entries.find?_cons, asString?, asBool?, Timestamp.ofJson?_toJson]
  case event id filter delivered =>
    simp [ofJson?, toJson, ofFields?, ofMembers, record?, required?, content?,
      Entries.find?_ofPairs, Entries.find?_append, Entries.find?_cons, find?_optionalMember,
      reverse_optionalMember, asString?]

namespace Run

structure Holds (members : List (String × Json)) (run : Run) : Prop where
  id           : Entries.find? members "runId" = run.id.map .string
  workflowType : Entries.find? members "workflowType" = some (.string run.workflowType)
  status       : Entries.find? members "status" = some (.string run.status.name)
  error        : Entries.find? members "error" = run.error.map .string
  currentStep  : Entries.find? members "currentStep" = some (.string run.currentStep)
  state        : Entries.find? members "state" = some run.state
  memo         : Entries.find? members "actionMemo" = some run.memo.toJson
  pending      : Entries.find? members "pendingResumeEntries" =
    some (.array (run.pending.map ResumeEntry.toJson))
  auditLog     : Entries.find? members "auditLog" =
    run.auditLog.map fun log => .array (log.map AuditEntry.toJson)

theorem exists_toJson (run : Run) :
    ∃ members, run.toJson = .object members ∧ Holds members run := by
  refine ⟨_, rfl, ?_⟩
  constructor <;>
    simp [Entries.find?_ofPairs, Entries.find?_append, Entries.find?_cons, find?_optionalMember,
      reverse_optionalMember]

theorem ofJson?_toJson (run : Run) : ofJson? run.toJson = some run := by
  have ⟨members, written, holds⟩ := run.exists_toJson
  have log (entries : List AuditEntry) : listOf? AuditEntry.ofJson? (.array (entries.map _)) = _ :=
    listOf?_eq AuditEntry.ofJson?_toJson entries
  rw [written, ofJson?]
  simp [record?, content?, holds.state,
    optional?_eq asString?_string nofun holds.id,
    defaulted?_eq asString?_string holds.workflowType,
    defaulted?_eq RunStatus.ofJson?_name holds.status,
    optional?_eq asString?_string nofun holds.error,
    required?_eq asString?_string holds.currentStep,
    defaulted?_eq ActionMemo.ofJson?_toJson holds.memo,
    defaulted?_eq (listOf?_eq ResumeEntry.ofJson?_toJson) holds.pending,
    optional?_eq log nofun holds.auditLog]

end Run

end DurableWorkflow
