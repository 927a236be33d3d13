import DurableWorkflow.Proofs.Engine.Due
import DurableWorkflow.Proofs.Workflow.Ending

namespace DurableWorkflow

theorem Workflow.execute_failed {ω : Type} {workflow : Workflow ω} {now : Timestamp}
    {budget : Budget} {start last : Run} {world world' : ω} {error : Error}
    (live : start.status.isClosed = false)
    (h : workflow.execute now budget start world = (.failed error, last, world')) :
    last.status = .failed ∧ last.error = some error.message := by
  generalize failed : PassEnd.failed error = ending at h
  cases execute_ending live h with
  | exhausted =>
    cases budget <;> cases failed
    exact ⟨rfl, rfl⟩
  | closed _ _ closes => cases closes <;> cases failed <;> exact ⟨rfl, rfl⟩

namespace Pass

variable {ω : Type} {pass : Pass ω}

theorem status_after (live : pass.run.status.isClosed = false) :
    ∀ status ∈ pass.ending.status?, pass.after.status = status :=
  Workflow.execute_status live rfl

theorem returns_of_failed {error : Error} (failed : pass.ending = .failed error) :
    pass.Returns := by
  simp [Returns, failed]

theorem failed_after {error : Error} (live : pass.run.status.isClosed = false)
    (failed : pass.ending = .failed error) :
    pass.after.status = .failed ∧ pass.after.error = some error.message :=
  Workflow.execute_failed live (Prod.ext failed rfl)

end Pass

namespace Engine

variable {ω : Type} {engine : Engine ω} {now : Timestamp} {store store' : Store} {world world' : ω}
  {runId id : String} {timers : List DueTimer} {ending : CallEnd} {loaded : Option Run}
  {passes done : List (Pass ω)} {pass : Pass ω}

theorem Drives.live (h : engine.Drives now loaded (.resume runId id none) pass) :
    pass.run.status.isClosed = false := by
  cases h with
  | intro _ granted => cases granted with
    | resume _ _ _ live => exact live

inductive Resumes (engine : Engine ω) (now : Timestamp) (runId id : String) (store : Store) :
    List (Pass ω) → CallEnd → Store → Prop
  | refused {ending : CallEnd} (returned : ending.returned) :
    Resumes engine now runId id store [] ending store
  | passed {pass : Pass ω} {ending : CallEnd}
      (drives : engine.Drives now (store.get? runId) (.resume runId id none) pass)
      (returns : pass.Returns) (returned : ending.returned) :
    Resumes engine now runId id store [pass] ending (store.insert runId pass.after)
  | broken {pass : Pass ω} {ending : CallEnd}
      (drives : engine.Drives now (store.get? runId) (.resume runId id none) pass)
      (breaks : ¬ pass.Returns) (broken : ending.returned = false) :
    Resumes engine now runId id store [pass] ending store

theorem resumes_of_perform
    (h : engine.perform now (.resume runId id none) store world = (ending, store', world')) :
    engine.Resumes now runId id store (engine.passes now (.resume runId id none) store world) ending
      store' := by
  rw [perform] at h
  rw [passes]
  cases prepared : engine.prepare now store (.resume runId id none) <;>
    simp only [prepared] at h ⊢
  case error =>
    cases h
    exact .refused rfl
  case ok prepared' =>
    have granted := prepare_eq_ok_iff.mp prepared
    cases prepared'
    case nothing => cases granted
    case keep    => cases granted
    case drive workflow run =>
      let pass : Pass ω := ⟨runId, workflow, now, engine.config.budget, run, world⟩
      have drives : engine.Drives now (store.get? runId) (.resume runId id none) pass :=
        .intro world granted
      rcases ran : workflow.execute now engine.config.budget run world with ⟨ended, last, world₁⟩
      have ended' : pass.ending = ended := congrArg (·.1) ran
      have last' : pass.after = last := congrArg (·.2.1) ran
      simp only [ran] at h
      cases ended <;> cases h
      case panicked   => exact .broken drives (fun returns => returns.1 ended') rfl
      case unfinished => exact .broken drives (fun returns => returns.2 ended') rfl
      all_goals
        have returns : pass.Returns := by simp [Pass.Returns, ended']
        rw [← last']
        exact .passed drives returns rfl

-- The passes of timers that are resumed one after another, and the store in the end. A pass that is
-- broken off is the last one, and leaves nothing.
inductive Sweep (engine : Engine ω) (now : Timestamp) :
    List DueTimer → Store → List (Pass ω) → Store → Prop
  | done {store : Store} : Sweep engine now [] store [] store
  | refused {timer : DueTimer} {rest : List DueTimer} {store last : Store} {passes : List (Pass ω)}
      (tail : Sweep engine now rest store passes last) :
    Sweep engine now (timer :: rest) store passes last
  | passed {timer : DueTimer} {rest : List DueTimer} {store last : Store} {pass : Pass ω}
      {passes : List (Pass ω)}
      (drives : engine.Drives now (store.get? timer.runId)
        (.resume timer.runId timer.resumeId none) pass)
      (returns : pass.Returns)
      (tail : Sweep engine now rest (store.insert timer.runId pass.after) passes last) :
    Sweep engine now (timer :: rest) store (pass :: passes) last
  | broken {timer : DueTimer} {rest : List DueTimer} {store : Store} {pass : Pass ω}
      (drives : engine.Drives now (store.get? timer.runId)
        (.resume timer.runId timer.resumeId none) pass)
      (breaks : ¬ pass.Returns) :
    Sweep engine now (timer :: rest) store [pass] store

theorem fire_sweep (count : Nat) :
    engine.Sweep now timers store (engine.firePasses now timers store world)
      (engine.fire now timers count store world).2.1 := by
  induction timers generalizing count store world
  case nil => exact .done
  case cons timer rest ih =>
    rw [firePasses, fire]
    rcases performed : engine.perform now (.resume timer.runId timer.resumeId none) store world with
      ⟨ending, store₁, world₁⟩
    have resumes := resumes_of_perform performed
    generalize engine.passes now (.resume timer.runId timer.resumeId none) store world = made
      at resumes ⊢
    cases resumes with
    | refused returned =>
      simp only [returned, if_true]
      cases ending <;> first | exact .refused (ih _) | cases returned
    | passed drives returns returned =>
      simp only [returned, if_true]
      cases ending <;> first | exact .passed drives returns (ih _) | cases returned
    | broken drives breaks broken =>
      simp only [broken, Bool.false_eq_true, if_false]
      cases ending <;> first | exact .broken drives breaks | cases broken

def ofRun (runId : String) (passes : List (Pass ω)) : List (Pass ω) :=
  passes.filter fun pass => pass.runId = runId

theorem mem_ofRun : pass ∈ ofRun runId passes ↔ pass ∈ passes ∧ pass.runId = runId := by
  simp [ofRun]

structure Swept (first : Store) (done : List (Pass ω)) (store : Store) : Prop where
  stored : ∀ runId,
    store.get? runId = ((ofRun runId done).getLast?.map Pass.after).or (first.get? runId)
  sound  : ∀ pass ∈ done, pass.run.status.isClosed = false ∧ pass.Returns

namespace Swept

variable {first : Store}

theorem start (store : Store) : Swept store ([] : List (Pass ω)) store where
  stored _ := rfl
  sound    := List.forall_mem_nil _

theorem insert (h : Swept first done store)
    (drives : engine.Drives now loaded (.resume runId id none) pass) (returns : pass.Returns) :
    Swept first (done ++ [pass]) (store.insert runId pass.after) where
  stored other := by
    have addressed : pass.runId = runId := drives.runId_eq
    rw [Dict.get?_insert, ofRun, List.filter_append]
    split
    case isTrue same =>
      rw [List.filter_cons_of_pos (by simp [addressed, same])]
      simp
    case isFalse hne =>
      rw [List.filter_cons_of_neg (by simpa [addressed] using hne), List.filter_nil,
        List.append_nil]
      exact h.stored other
  sound := List.forall_mem_append.mpr
    ⟨h.sound, List.forall_mem_singleton.mpr ⟨drives.live, returns⟩⟩

end Swept

namespace Sweep

variable {first last : Store}

theorem sublist (h : engine.Sweep now timers store passes last) :
    (passes.map Pass.runId).Sublist (timers.map DueTimer.runId) := by
  induction h with
  | done => exact .slnil
  | refused _ ih => exact ih.cons _
  | passed drives _ _ ih =>
    rw [List.map_cons, List.map_cons, drives.runId_eq]
    exact ih.cons_cons _
  | broken drives =>
    rw [List.map_cons, List.map_cons, drives.runId_eq]
    exact (List.nil_sublist _).cons_cons _

theorem starts (h : engine.Sweep now timers store passes last) (swept : Swept first done store)
    {before after : List (Pass ω)} (cut : passes = before ++ pass :: after) :
    ∃ timer ∈ timers, ∃ stored, Swept first (done ++ before) stored ∧
      engine.Drives now (stored.get? timer.runId) (.resume timer.runId timer.resumeId none)
        pass := by
  induction h generalizing done before with
  | done => cases before <;> cases cut
  | refused _ ih =>
    have ⟨timer, hm, starts⟩ := ih swept cut
    exact ⟨timer, .tail _ hm, starts⟩
  | passed drives returns _ ih =>
    rcases before with _ | ⟨_, before⟩ <;> cases cut
    · rw [List.append_nil]
      exact ⟨_, .head _, _, swept, drives⟩
    · have ⟨timer, hm, starts⟩ := ih (swept.insert drives returns) rfl
      rw [List.append_assoc] at starts
      exact ⟨timer, .tail _ hm, starts⟩
  | broken drives =>
    rcases before with _ | ⟨_, before⟩
    · cases cut
      rw [List.append_nil]
      exact ⟨_, .head _, _, swept, drives⟩
    · cases before <;> cases cut

theorem ends (h : engine.Sweep now timers store passes last) (swept : Swept first done store) :
    ∃ whole broken, passes = whole ++ broken ∧ (∀ pass ∈ broken, ¬ pass.Returns) ∧
      Swept first (done ++ whole) last := by
  induction h generalizing done with
  | done =>
    rw [← List.append_nil done] at swept
    exact ⟨[], [], rfl, List.forall_mem_nil _, swept⟩
  | refused _ ih => exact ih swept
  | passed drives returns _ ih =>
    obtain ⟨whole, broken, rfl, breaks, swept⟩ := ih (swept.insert drives returns)
    refine ⟨_ :: whole, broken, rfl, breaks, ?_⟩
    rwa [List.append_assoc] at swept
  | broken drives breaks =>
    rw [← List.append_nil done] at swept
    exact ⟨[], [_], rfl, List.forall_mem_singleton.mpr breaks, swept⟩

end Sweep

-- What is stored of a run when a timer of it is resumed: what it was when the timers were listed,
-- or what the latest pass of it left.
inductive Starts (store : Store) (runId : String) : Option (Pass ω) → Run → Prop
  | listed {run : Run} (stored : store.get? runId = some run)
      (suspended : run.status = .suspended) :
    Starts store runId none run
  | parked {last : Pass ω} {entry : ResumeEntry} (ended : last.ending = .suspended entry)
      (suspended : last.after.status = .suspended) :
    Starts store runId (some last) last.after
  | relapsed {last : Pass ω} {error : Error} (ended : last.ending = .failed error)
      (failed : last.after.status = .failed) (text : last.after.error = some error.message) :
    Starts store runId (some last) last.after

theorem Drives.resumed (h : engine.Drives now loaded (.resume runId id none) pass) :
    ∃ run, loaded = some run ∧ pass.run.status = run.status := by
  cases h with
  | intro _ granted => cases granted with
    | resume stored _ resolved _ => exact ⟨_, stored, (Run.resolve_served resolved).status⟩

theorem Swept.starts {run : Run} {stored : Store} (swept : Swept store done stored)
    (listed : ⟨runId, id⟩ ∈ store.listDue now) (loaded : stored.get? runId = some run)
    (live : run.status.isClosed = false) :
    Starts store runId (ofRun runId done).getLast? run := by
  rw [swept.stored] at loaded
  rcases latest : (ofRun runId done).getLast? with _ | last <;> rw [latest] at loaded
  case none =>
    obtain ⟨run', found, due⟩ := Store.mem_listDue.mp listed
    cases found.symm.trans loaded
    exact .listed found (Run.mem_dueTimers.mp due).1
  case some =>
    cases loaded
    obtain ⟨hm, _⟩ := mem_ofRun.mp (List.mem_of_getLast? latest)
    obtain ⟨unclosed, returns⟩ := swept.sound last hm
    have status := Pass.status_after unclosed
    rcases ended : last.ending with _ | entry | error | _ | _ <;> rw [ended] at status
    case finished  =>
      rw [status _ rfl] at live
      cases live
    case suspended => exact .parked ended (status _ rfl)
    case failed    =>
      obtain ⟨failed, text⟩ := Pass.failed_after unclosed ended
      exact .relapsed ended failed text
    case panicked   => exact absurd ended returns.1
    case unfinished => exact absurd ended returns.2

structure SweepDrives (engine : Engine ω) (now : Timestamp) (store : Store)
    (passes : List (Pass ω)) (last : Store) : Prop where
  starts : ∀ before pass after, passes = before ++ pass :: after → ∃ id run,
    ⟨pass.runId, id⟩ ∈ store.listDue now ∧
      engine.Drives now (some run) (.resume pass.runId id none) pass ∧
      pass.run.status = run.status ∧
      Starts store pass.runId (ofRun pass.runId before).getLast? run
  atMost : (passes.map Pass.runId).Sublist ((store.listDue now).map DueTimer.runId)
  once   : ∀ pass ∈ passes, ((store.listDue now).map DueTimer.runId).count pass.runId = 1 →
    ofRun pass.runId passes = [pass] ∧ pass.run.status = .suspended
  stays  : ∀ runId pass error, (ofRun runId passes).getLast? = some pass →
    pass.ending = .failed error →
      ∃ run, last.get? runId = some run ∧ run.status = .failed ∧ run.error = some error.message

namespace Sweep

variable {last : Store}

theorem length_ofRun_le (h : engine.Sweep now timers store passes last) (runId : String) :
    (ofRun runId passes).length ≤ (timers.map DueTimer.runId).count runId := by
  have counted := h.sublist.count_le runId
  rw [List.count, List.countP_map] at counted
  rw [ofRun, ← List.countP_eq_length_filter]
  exact counted

variable (h : engine.Sweep now (store.listDue now) store passes last)
include h

theorem resumed {before after : List (Pass ω)} (cut : passes = before ++ pass :: after) :
    ∃ id run, ⟨pass.runId, id⟩ ∈ store.listDue now ∧
      engine.Drives now (some run) (.resume pass.runId id none) pass ∧
      pass.run.status = run.status ∧
      Starts store pass.runId (ofRun pass.runId before).getLast? run := by
  have ⟨⟨runId, id⟩, listed, stored, swept, drives⟩ := h.starts (.start store) cut
  have ⟨run, loaded, status⟩ := drives.resumed
  obtain rfl : pass.runId = runId := drives.runId_eq
  rw [loaded] at drives
  exact ⟨id, run, listed, drives, status, swept.starts listed loaded (status ▸ drives.live)⟩

theorem once (hm : pass ∈ passes)
    (single : ((store.listDue now).map DueTimer.runId).count pass.runId = 1) :
    ofRun pass.runId passes = [pass] ∧ pass.run.status = .suspended := by
  obtain ⟨before, after, cut⟩ := List.append_of_mem hm
  have ⟨_, run, _, _, status, starts⟩ := h.resumed cut
  have few := h.length_ofRun_le pass.runId
  have split : ofRun pass.runId passes =
      ofRun pass.runId before ++ pass :: ofRun pass.runId after := by simp [cut, ofRun]
  have bound : (ofRun pass.runId before).length + ((ofRun pass.runId after).length + 1) ≤ 1 := by
    rw [split, List.length_append, List.length_cons, single] at few
    exact few
  have first : ofRun pass.runId before = [] := List.eq_nil_of_length_eq_zero (by omega)
  have last : ofRun pass.runId after = [] := List.eq_nil_of_length_eq_zero (by omega)
  rw [first] at starts
  refine ⟨by rw [split, first, last]; rfl, status.trans ?_⟩
  cases starts with
  | listed _ suspended => exact suspended

theorem stays {error : Error} (latest : (ofRun runId passes).getLast? = some pass)
    (failed : pass.ending = .failed error) :
    ∃ run, last.get? runId = some run ∧ run.status = .failed ∧ run.error = some error.message := by
  have ⟨whole, rest, cut, breaks, swept⟩ := h.ends (.start store)
  have none : (ofRun runId rest).getLast? ≠ some pass := fun found =>
    breaks pass (mem_ofRun.mp (List.mem_of_getLast? found)).1 (Pass.returns_of_failed failed)
  have latest : (ofRun runId whole).getLast? = some pass := by
    rw [cut, ofRun, List.filter_append, List.getLast?_append] at latest
    exact (Option.or_eq_some_iff.mp latest).elim (absurd · none) (·.2)
  have hm := mem_ofRun.mp (List.mem_of_getLast? latest)
  refine ⟨pass.after, ?_, Pass.failed_after (swept.sound pass hm.1).1 failed⟩
  rw [swept.stored, List.nil_append, latest]
  rfl

theorem drives : engine.SweepDrives now store passes last where
  starts _ _ _ := h.resumed
  atMost       := h.sublist
  once _       := h.once
  stays _ _ _  := h.stays

end Sweep

-- The timers of a sweep are listed while their runs are suspended, but they are resumed one after
-- another. A run of which several timers are listed may fail in the pass of one of them, and is
-- driven again for the next one all the same.
theorem sweep_drives (engine : Engine ω) (now : Timestamp) (store : Store) (world : ω) :
    engine.SweepDrives now store (engine.firePasses now (store.listDue now) store world)
      (engine.fireDueTimers now store world).2.1 :=
  (fire_sweep 0).drives

namespace Callback

def call : HandlerM Nat StepOutcome := do
  if (← HandlerM.state).field "armed" = .bool true then
    let _ ← HandlerM.action "call" (fun _ => true) fun calls => (.failed "no answer", calls + 1)
    return .done
  HandlerM.put "armed" (.bool true)
  let _ ← HandlerM.waitMillis "first" 1000
  match ← HandlerM.waitMillis "second" 2000 with
  | some entry => return .suspend entry
  | none       => return .done

def callback : Workflow Nat :=
  ⟨"callback", "call", .empty, .ofPairs [("call", call)]⟩

def office : Engine Nat :=
  ⟨.ofPairs [("callback", callback)], .standard⟩

def armed : Store :=
  (office.perform default (.run "r" callback.instantiate) .empty 0).2.1

def late : Timestamp :=
  ⟨2000000000, by decide, by decide⟩

def due : List DueTimer :=
  [⟨"r", "call:first"⟩, ⟨"r", "call:second"⟩]

theorem listDue_armed : armed.listDue late = due := by
  have among : Store.dueAmong late armed.entries = due := by decide +kernel
  rw [Store.listDue, among]
  exact List.mergeSort_of_pairwise (by decide +kernel)

theorem called_twice :
    ¬ (∀ pass ∈ office.firePasses late (armed.listDue late) armed 0,
        pass.run.status = .suspended) ∧
      (office.fireDueTimers late armed 0).2.2 = 2 := by
  rw [fireDueTimers, listDue_armed]
  decide +kernel

end Callback

end Engine

end DurableWorkflow
