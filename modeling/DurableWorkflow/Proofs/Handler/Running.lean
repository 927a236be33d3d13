import DurableWorkflow.Proofs.Handler.Exchange

namespace DurableWorkflow

variable {ω α β : Type} {now : Timestamp} {run : Run} {world : ω}

theorem Script.run_bind (script : Script ω α) (next : α → Script ω β) :
    (script.bind next).run now run world =
      match script.run now run world with
      | (.returned value, run, world) => (next value).run now run world
      | (.panicked, run, world)       => (.panicked, run, world) := by
  induction script generalizing run world
  case pure  => rfl
  case panic => rfl
  case call request rest ih =>
    rw [Script.bind, Script.run, Script.run]
    rcases request.answer now run world with ⟨_ | _, after, world⟩
    case returned reply => exact ih reply
    case panicked       => rfl

theorem Script.exchanges_bind (script : Script ω α) (next : α → Script ω β) :
    (script.bind next).exchanges now run world =
      script.exchanges now run world ++
        match script.run now run world with
        | (.returned value, run, world) => (next value).exchanges now run world
        | (.panicked, _, _)             => [] := by
  induction script generalizing run world
  case pure  => rfl
  case panic => rfl
  case call request rest ih =>
    rw [Script.bind, Script.exchanges, Script.exchanges, Script.run, List.cons_append]
    rcases request.answer now run world with ⟨_ | _, after, world⟩
    case returned reply => exact congrArg _ (ih reply)
    case panicked       => rfl

namespace HandlerM

theorem run_bind (first : HandlerM ω α) (next : α → HandlerM ω β) :
    Script.run now (first >>= next).run run world =
      match Script.run now first.run run world with
      | (.returned (.ok value), run, world)    => Script.run now (next value).run run world
      | (.returned (.error error), run, world) => (.returned (.error error), run, world)
      | (.panicked, run, world)                => (.panicked, run, world) := by
  refine (Script.run_bind first.run _).trans ?_
  rcases Script.run now first.run run world with ⟨(_ | _) | _, after, world⟩ <;> rfl

theorem run_state :
    Script.run now (state : HandlerM ω Json).run run world =
      (.returned (.ok run.state), run, world) :=
  rfl

theorem run_action {key : String} {accepts : Json → Bool} {thunk : ω → ActionResult × ω} :
    Script.run now (action key accepts thunk).run run world =
      run.performAction now key accepts thunk world := by
  change Script.run now (.call _ .pure) run world = _
  rw [Script.run, Request.answer]
  rcases run.performAction now key accepts thunk world with ⟨_ | _, after, world⟩ <;> rfl

theorem run_waitMillis {key : String} {millis : Nat} :
    Script.run now (waitMillis key millis : HandlerM ω _).run run world =
      (.returned (run.waitMillis now key millis).1, (run.waitMillis now key millis).2, world) :=
  rfl

theorem run_waitEvent {key : String} {filter : Json} :
    Script.run now (waitEvent key filter : HandlerM ω _).run run world =
      (.returned (run.waitEvent key filter).1, (run.waitEvent key filter).2, world) :=
  rfl

theorem run_setState {state : Json} :
    Script.run now (setState state : HandlerM ω _).run run world =
      (.returned (run.setState state).1, (run.setState state).2, world) :=
  rfl

theorem run_assign {key : String} {value state : Json}
    (h : run.state.assign? key value = some state) :
    Script.run now (assign key value : HandlerM ω _).run run world =
      (.returned (.ok ()), { run with state }, world) := by
  rw [assign, run_bind, run_state]
  dsimp only
  rw [h]
  rfl

theorem exchanges_bind (first : HandlerM ω α) (next : α → HandlerM ω β) :
    Script.exchanges now (first >>= next).run run world =
      Script.exchanges now first.run run world ++
        match Script.run now first.run run world with
        | (.returned (.ok value), run, world) => Script.exchanges now (next value).run run world
        | (.returned (.error _), _, _)        => []
        | (.panicked, _, _)                   => [] := by
  refine (Script.exchanges_bind first.run _).trans ?_
  rcases Script.run now first.run run world with ⟨(_ | _) | _, after, world⟩ <;> rfl

theorem exchanges_state :
    Script.exchanges now (state : HandlerM ω Json).run run world = [⟨now, .look, run, world⟩] :=
  rfl

theorem exchanges_action {key : String} {accepts : Json → Bool} {thunk : ω → ActionResult × ω} :
    Script.exchanges now (action key accepts thunk).run run world =
      [⟨now, .action key accepts thunk, run, world⟩] := by
  change Script.exchanges now (.call _ .pure) run world = _
  rw [Script.exchanges, Request.answer]
  rcases run.performAction now key accepts thunk world with ⟨_ | _, after, world⟩ <;> rfl

theorem exchanges_waitMillis {key : String} {millis : Nat} :
    Script.exchanges now (waitMillis key millis : HandlerM ω _).run run world =
      [⟨now, .waitMillis key millis, run, world⟩] :=
  rfl

theorem exchanges_waitEvent {key : String} {filter : Json} :
    Script.exchanges now (waitEvent key filter : HandlerM ω _).run run world =
      [⟨now, .waitEvent key filter, run, world⟩] :=
  rfl

theorem exchanges_assign {key : String} {value state : Json}
    (h : run.state.assign? key value = some state) :
    Script.exchanges now (assign key value : HandlerM ω _).run run world =
      [⟨now, .look, run, world⟩, ⟨now, .putState state, run, world⟩] := by
  rw [assign, exchanges_bind, exchanges_state, run_state]
  dsimp only
  rw [h]
  rfl

theorem exchanges_setState {state : Json} :
    Script.exchanges now (setState state : HandlerM ω _).run run world =
      [⟨now, .setState state, run, world⟩] :=
  rfl

end HandlerM

end DurableWorkflow
