import DurableWorkflow.Proofs.Run.Document
import DurableWorkflow.Proofs.Workflow.Visit

namespace DurableWorkflow

inductive Operation (ω : Type)
  | request (request : Request ω)
  | waitNanos (key : String) (nanos : Nat)
  | stepOnce (workflow : Workflow ω)
  | execute (workflow : Workflow ω) (budget : Budget)
  | cancel
  | keepAuditLog (enabled : Bool)
  -- Go on with the run that is read from the document of this one.
  | reload

namespace Operation

variable {ω : Type}

def Reply : Operation ω → Type
  | .request made             => Outcome made.Reply
  | .waitNanos ..             => Except Error (Option ResumeEntry)
  | .stepOnce _               => Outcome (Except Error Progress)
  | .execute ..               => PassEnd
  | .cancel | .keepAuditLog _ => Unit
  | .reload                   => Bool

def perform (now : Timestamp) (operation : Operation ω) (run : Run) (world : ω) :
    operation.Reply × Run × ω :=
  match operation with
  | .request made => made.answer now run world
  | .waitNanos key nanos =>
    let (reply, run) := run.waitNanos now key nanos
    (reply, run, world)
  | .stepOnce workflow       => workflow.stepOnce now run world
  | .execute workflow budget => workflow.execute now budget run world
  | .cancel                  => ((), run.cancel, world)
  | .keepAuditLog enabled    => ((), run.keepAuditLog enabled, world)
  | .reload =>
    match Run.ofJson? run.toJson with
    | some again => (true, again, world)
    | none       => (false, run, world)

def isReload : Operation ω → Bool
  | .reload => true
  | .request _ | .waitNanos .. | .stepOnce _ | .execute .. | .cancel | .keepAuditLog _ => false

structure Line (ω : Type) where
  time      : Timestamp
  operation : Operation ω
  reply     : operation.Reply
  run       : Run
  world     : ω

def protocol : List (Timestamp × Operation ω) → Run → ω → List (Line ω)
  | [], _, _ => []
  | (now, operation) :: rest, run, world =>
    let (reply, run, world) := operation.perform now run world
    ⟨now, operation, reply, run, world⟩ :: protocol rest run world

def performAll : List (Timestamp × Operation ω) → Run → ω → Run × ω
  | [], run, world => (run, world)
  | (now, operation) :: rest, run, world =>
    let (_, run, world) := operation.perform now run world
    performAll rest run world

theorem perform_reload {now : Timestamp} {run : Run} {world : ω} :
    reload.perform now run world = (true, run, world) := by
  rw [perform, Run.ofJson?_toJson]
  rfl

theorem protocol_reload (operations : List (Timestamp × Operation ω)) (run : Run) (world : ω) :
    (protocol operations run world).filter (!·.operation.isReload) =
      protocol (operations.filter (!·.2.isReload)) run world := by
  induction operations generalizing run world
  case nil => rfl
  case cons occasion rest ih =>
    obtain ⟨now, operation⟩ := occasion
    cases operation
    case reload =>
      rw [protocol, perform_reload]
      exact ih run world
    all_goals exact congrArg _ (ih _ _)

end Operation

-- A run is what its document says, and a document that can be read is written again as the run that
-- it stands for. So it makes no difference when and how often a run is reloaded.
theorem Run.documents_faithful :
    (∀ run : Run, ofJson? run.toJson = some run) ∧
    (∀ (document : Json) (run : Run), ofJson? document = some run →
      ∃ again, ofJson? run.toJson = some again ∧ again = run ∧ again.toJson = run.toJson) ∧
    (∀ {ω : Type} (run again : Run), ofJson? run.toJson = some again →
      ∀ (operations : List (Timestamp × Operation ω)) (world : ω),
        Operation.protocol operations again world = Operation.protocol operations run world) ∧
    ∀ {ω : Type} (operations : List (Timestamp × Operation ω)) (run : Run) (world : ω),
      (Operation.protocol operations run world).filter (!·.operation.isReload) =
        Operation.protocol (operations.filter (!·.2.isReload)) run world := by
  refine ⟨ofJson?_toJson, ?rewritten, ?rebuilt, Operation.protocol_reload⟩
  case rewritten =>
    intro document run _
    exact ⟨run, run.ofJson?_toJson, rfl, rfl⟩
  case rebuilt =>
    intro ω run again read operations world
    have same : run = again := Option.some.inj (run.ofJson?_toJson.symm.trans read)
    rw [same]

namespace Run.Archive

def parked : Run :=
  { create "archive" "wait" with
    id := some "r"
    status := .suspended
    pending := [.event "wait:a" .null (some .null), .event "wait:b" (.nat 1) none,
      .timer "wait:c" default true]
    memo := ⟨.ofPairs [("done", ⟨true, some .null⟩), ("lost", ⟨true, none⟩)]⟩
    auditLog := none }

def bare : Json :=
  .ofMembers [("currentStep", .string "wait"), ("color", .string "red")]

def drive : List (Timestamp × Operation Unit) :=
  [(default, .request (.resolve "wait:b" none)), (default, .reload), (default, .request .look)]

theorem parked_again :
    ofJson? parked.toJson = some parked ∧
      ofJson? bare = some { create "" "wait" with auditLog := none } ∧
      (∃ again, ofJson? { create "" "wait" with auditLog := none }.toJson = some again ∧
        again = { create "" "wait" with auditLog := none } ∧
        again.toJson = { create "" "wait" with auditLog := none }.toJson) ∧
      (Operation.protocol drive parked ()).filter (!·.operation.isReload) =
        Operation.protocol (drive.filter (!·.2.isReload)) parked () := by
  have ⟨written, rewritten, _, reloaded⟩ := documents_faithful
  have read : ofJson? bare = some { create "" "wait" with auditLog := none } := by decide +kernel
  exact ⟨written parked, read, rewritten bare _ read, reloaded drive parked ()⟩

end Run.Archive

namespace Operation

variable {ω : Type}

def events (now : Timestamp) (operation : Operation ω) (run : Run) (world : ω) : List (Event ω) :=
  match operation with
  | .request made => [.exchange ⟨now, made, run, world⟩]
  | .waitNanos key nanos =>
    let request := .waitMillis key (min (nanos / 1000000) Word.maxUnsigned)
    [.exchange ⟨now, request, run, world⟩]
  | .stepOnce workflow                   => workflow.stepEvents now run world
  | .execute workflow budget             => workflow.passEvents now budget run world
  | .cancel | .keepAuditLog _ | .reload  => []

def history : List (Timestamp × Operation ω) → Run → ω → List (Event ω)
  | [], _, _ => []
  | (now, operation) :: rest, run, world =>
    operation.events now run world ++
      let (_, run, world) := operation.perform now run world
      history rest run world

theorem chronicle (now : Timestamp) (operation : Operation ω) (run : Run) (world : ω) :
    Chronicle run (operation.events now run world) (operation.perform now run world).2.1 := by
  cases operation
  case request made            => exact .event (.exchange ⟨now, made, run, world⟩)
  case waitNanos key nanos     =>
    exact .event (.exchange ⟨now, .waitMillis key (min (nanos / 1000000) _), run, world⟩)
  case stepOnce workflow       => exact workflow.stepChronicle now run world
  case execute workflow budget => exact workflow.passChronicle now budget run world
  case cancel                  => exact .nil .cancel
  case keepAuditLog            => exact .nil .keepAuditLog
  case reload =>
    rw [perform_reload]
    exact .refl run

theorem history_chronicle (operations : List (Timestamp × Operation ω)) (run : Run) (world : ω) :
    Chronicle run (history operations run world) (performAll operations run world).1 := by
  induction operations generalizing run world
  case nil => exact .refl run
  case cons occasion rest ih =>
    obtain ⟨now, operation⟩ := occasion
    exact (operation.chronicle now run world).append (ih _ _)

end Operation

structure Run.WaitsOf {ω : Type} (visit : List (Exchange ω)) (run : Run) : Prop where
  named    : ∀ entry ∈ run.pending, ∃ key, entry.id = resumeId run.currentStep key
  distinct : (run.pending.map ResumeEntry.id).Nodup
  asked    : ∀ entry ∈ run.pending, ∃ exchange ∈ visit, exchange.asked? = some entry.id

structure Event.Tidy {ω : Type} (visit : List (Exchange ω)) (event : Event ω) : Prop where
  waits   : event.run.WaitsOf visit
  drops   : ∀ run next, event = .leave run next →
    (∀ entry ∈ run.pending, entry.belongsTo run.currentStep) ∧ (run.leave next).pending = []
  -- What is asked for first in this visit is registered anew.
  renews  : ∀ exchange entry, event = .exchange exchange → exchange.fresh? = some entry →
    (∀ earlier ∈ visit, earlier.asked? ≠ some entry.id) →
      exchange.after = exchange.run.register entry

namespace Accounts

variable {ω : Type} {visit : List (Exchange ω)} {run : Run} {event : Event ω}

theorem waitsOf (h : Accounts visit run) : run.WaitsOf visit where
  named _ hm := h.owned hm
  distinct   := h.distinct
  asked _ hm := h.asked _ (Run.mem_ids hm)

theorem tidy (h : Accounts visit event.run) : event.Tidy visit where
  waits := h.waitsOf
  drops := by
    rintro run next rfl
    refine ⟨fun entry hm => ?_, h.leave_pending next⟩
    have ⟨key, hid⟩ := h.owned hm
    exact ResumeEntry.belongsTo_of_id hid
  renews := by
    rintro exchange entry rfl fresh unasked
    refine exchange.after_of_new fresh fun there => ?_
    have ⟨earlier, hm, asked⟩ := h.asked entry.id there
    exact unasked earlier hm asked

end Accounts

-- Whatever is done to a run from its creation on, it waits for nothing but what it asked for in the
-- present visit of its step.
theorem Operation.waits_of_visit {ω : Type} (workflowType startStep : String)
    (operations : List (Timestamp × Operation ω)) (world : ω) :
    let first := Run.create workflowType startStep
    let history := history operations first world
    let last := performAll operations first world
    last.1.WaitsOf (Event.visit history) ∧
      (∀ before event after, history = before ++ event :: after → event.Tidy (Event.visit before)) ∧
      ∀ (workflow : Workflow ω) now progress after world',
        workflow.stepOnce now last.1 last.2 = (.returned (.ok progress), after, world') →
          (∃ next, progress = .advanced next) ∨ progress = .finished → after.pending = [] := by
  have chronicle := history_chronicle operations (Run.create workflowType startStep) world
  dsimp only
  generalize performAll operations (Run.create workflowType startStep) world = last at chronicle ⊢
  refine ⟨(chronicle.accounts_visit rfl).waitsOf, ?tidy, ?left⟩
  case tidy =>
    intro before event after cut
    rw [cut] at chronicle
    exact (chronicle.accounts_event rfl).tidy
  case left =>
    intro workflow now progress after _ once left
    have left : ∀ entry, progress ≠ .suspended entry := by grind
    obtain ⟨earlier, leaving, next, events, rfl⟩ := Workflow.stepOnce_left once left
    have whole := chronicle.append (workflow.stepChronicle now last.1 last.2)
    rw [events, ← List.append_assoc] at whole
    exact (whole.accounts_event rfl).leave_pending next

namespace Operation.Colons

def outer : HandlerM Unit StepOutcome := do
  match ← HandlerM.waitEvent "b:c" .null with
  | .event _ _ (some _) => return .advance "a:b"
  | entry               => return .suspend entry

def inner : HandlerM Unit StepOutcome := do
  return .suspend (← HandlerM.waitEvent "c" .null)

def workflow : Workflow Unit :=
  ⟨"colons", "a", .null, .ofPairs [("a", outer), ("a:b", inner)]⟩

def begun : Run :=
  .create "colons" "a"

def delivery : List (Timestamp × Operation Unit) :=
  [(default, .stepOnce workflow), (default, .request (.resolve "a:b:c" none)), (default, .reload)]

def crossing : List (Timestamp × Operation Unit) :=
  delivery ++ [(default, .stepOnce workflow), (default, .execute workflow (.limited 1))]

theorem waits_anew :
    (performAll delivery begun ()).1.pending = [.event "a:b:c" .null (some .null)] ∧
      (∃ after, workflow.stepOnce default (performAll delivery begun ()).1 () =
        (.returned (.ok (.advanced "a:b")), after, ()) ∧ after.pending = []) ∧
      (performAll crossing begun ()).1.pending = [.event "a:b:c" .null none] ∧
      (performAll crossing begun ()).1.WaitsOf (Event.visit (history crossing begun ())) := by
  have moved : (workflow.stepOnce default (performAll delivery begun ()).1 ()).1 =
      .returned (.ok (.advanced "a:b")) := by rfl
  have ⟨_, _, left⟩ := waits_of_visit "colons" "a" delivery ()
  have ⟨waits, _⟩ := waits_of_visit "colons" "a" crossing ()
  refine ⟨by decide +kernel, ⟨_, Prod.ext moved rfl, ?_⟩, by decide +kernel, waits⟩
  exact left workflow default _ _ () (Prod.ext moved rfl) (.inl ⟨"a:b", rfl⟩)

end Operation.Colons

end DurableWorkflow
