import DurableWorkflow.Condition.Basic
import Mathlib.Data.List.Forall2

namespace DurableWorkflow.Condition

namespace Function

def binds : Function → Bool
  | .map | .filter | .all | .exists | .existsOne => true
  | _ => false

-- How many arguments of a call stand before the variable that the function binds, if it binds one:
-- without a target the first argument is what the function goes through.
def subjects? (function : Function) (targeted : Bool) : Option Nat :=
  if function.binds then some (if targeted then 0 else 1) else none

end Function

namespace Expr

def subjects? (function : String) (target : Option Expr) : Option Nat :=
  (Function.ofName? function).bind fun function => function.subjects? target.isSome

mutual

-- Writes every free occurrence of a variable as a member of `state`. An occurrence is free unless
-- it is in the body of a binding function that binds the name.
def qualify (key : String) : Expr → Expr
  | .literal value => .literal value
  | .variable name => if name = key then .member (.variable "state") key else .variable name
  | .unary op operand => .unary op (qualify key operand)
  | .binary op left right => .binary op (qualify key left) (qualify key right)
  | .conditional test yes no => .conditional (qualify key test) (qualify key yes) (qualify key no)
  | .list items => .list (qualifyItems key items)
  | .map entries => .map (qualifyEntries key entries)
  | .index collection position => .index (qualify key collection) (qualify key position)
  | .member object name => .member (qualify key object) name
  | .construct object fields => .construct (qualify key object) (qualifyFields key fields)
  | .call function target args =>
    .call function (qualifyTarget key target) (qualifyArgs key (subjects? function target) args)

def qualifyTarget (key : String) : Option Expr → Option Expr
  | none => none
  | some target => some (qualify key target)

def qualifyItems (key : String) : List Expr → List Expr
  | [] => []
  | item :: rest => qualify key item :: qualifyItems key rest

def qualifyEntries (key : String) : List (Expr × Expr) → List (Expr × Expr)
  | [] => []
  | (left, right) :: rest => (qualify key left, qualify key right) :: qualifyEntries key rest

def qualifyFields (key : String) : List (String × Expr) → List (String × Expr)
  | [] => []
  | (name, value) :: rest => (name, qualify key value) :: qualifyFields key rest

-- Of the arguments of a call, those after a binding of the same name are left as they are.
def qualifyArgs (key : String) : (subjects : Option Nat) → List Expr → List Expr
  | _, [] => []
  | none, arg :: rest => qualify key arg :: qualifyArgs key none rest
  | some (before + 1), arg :: rest => qualify key arg :: qualifyArgs key (some before) rest
  | some 0, arg :: rest =>
    match arg.name? with
    | some bound => .variable bound :: if bound = key then rest else qualifyArgs key none rest
    | none => qualify key arg :: qualifyArgs key none rest

end

mutual

def bound : Expr → List String
  | .literal _ | .variable _ => []
  | .unary _ operand => bound operand
  | .binary _ left right => bound left ++ bound right
  | .conditional test yes no => bound test ++ bound yes ++ bound no
  | .list items => boundInItems items
  | .map entries => boundInEntries entries
  | .index collection position => bound collection ++ bound position
  | .member object _ => bound object
  | .construct object fields => bound object ++ boundInFields fields
  | .call function target args =>
    boundInTarget target ++ boundInArgs (subjects? function target) args

def boundInTarget : Option Expr → List String
  | none => []
  | some target => bound target

def boundInItems : List Expr → List String
  | [] => []
  | item :: rest => bound item ++ boundInItems rest

def boundInEntries : List (Expr × Expr) → List String
  | [] => []
  | (left, right) :: rest => bound left ++ bound right ++ boundInEntries rest

def boundInFields : List (String × Expr) → List String
  | [] => []
  | (_, value) :: rest => bound value ++ boundInFields rest

def boundInArgs : (subjects : Option Nat) → List Expr → List String
  | _, [] => []
  | none, arg :: rest => bound arg ++ boundInArgs none rest
  | some (before + 1), arg :: rest => bound arg ++ boundInArgs (some before) rest
  | some 0, arg :: rest => arg.name?.toList ++ bound arg ++ boundInArgs none rest

end

end Expr

namespace Argument

def Agree (vars : Variables) (a b : Argument) : Prop :=
  ∀ turn, a.value turn vars = b.value turn vars

end Argument

-- Argument lists that evaluate alike under some variables and, where the argument after `subjects`
-- many is a variable to bind, also under that variable.
inductive Alike (vars : Variables) : (subjects : Option Nat) → List Argument → List Argument → Prop
  | plain {as bs} : List.Forall₂ (Argument.Agree vars) as bs → Alike vars none as bs
  | nil {before} : Alike vars (some before) [] []
  | subject {before a b as bs} :
    a.Agree vars b → Alike vars (some before) as bs →
    Alike vars (some (before + 1)) (a :: as) (b :: bs)
  | binder {a b as bs} :
    a.name? = b.name? →
    (∀ name, a.name? = some name →
      ∀ item, List.Forall₂ (Argument.Agree ((name, item) :: vars)) as bs) →
    Alike vars (some 0) (a :: as) (b :: bs)

namespace Function

variable {vars : Variables} {args others : List Argument} {target : Option Value}

theorem firstValue_bind_agree {α : Type} {next : Value × List Argument → Eval α}
    (agree : List.Forall₂ (Argument.Agree vars) args others)
    (onward : ∀ value as bs, List.Forall₂ (Argument.Agree vars) as bs →
      next (value, as) = next (value, bs)) :
    firstValue vars args >>= next = firstValue vars others >>= next := by
  cases agree with
  | nil => rfl
  | @cons a b as bs same rest =>
    simp only [firstValue, same 0]
    cases b.value 0 vars with
    | error fault => rfl
    | ok value => exact onward value as bs rest

theorem subject_bind_agree {α : Type} {next : Value × List Argument → Eval α}
    (agree : List.Forall₂ (Argument.Agree vars) args others)
    (onward : ∀ value as bs, List.Forall₂ (Argument.Agree vars) as bs →
      next (value, as) = next (value, bs)) :
    subject vars target args >>= next = subject vars target others >>= next := by
  cases target with
  | some value => exact onward value args others agree
  | none =>
    cases agree with
    | nil => rfl
    | @cons a b as bs same rest =>
      simp only [subject, firstValue, same 0]
      cases b.value 0 vars with
      | error fault => cases fault <;> rfl
      | ok value => exact onward value as bs rest

theorem allValues_agree (agree : List.Forall₂ (Argument.Agree vars) args others) :
    allValues vars args = allValues vars others := by
  induction agree with
  | nil => rfl
  | cons same _ ih =>
    simp only [allValues, List.mapM_cons, same 0] at ih ⊢
    rw [ih]

theorem call_agree (function : Function) (place : Place) (plain : function.binds = false)
    (agree : List.Forall₂ (Argument.Agree vars) args others) :
    function.call place vars target args = function.call place vars target others := by
  cases function
  case size | bytes => exact firstValue_bind_agree agree fun _ _ _ _ => rfl
  case has =>
    cases agree with
    | nil => rfl
    | cons same _ =>
      simp only [call, firstValue, same 0]
      cases Argument.value _ 0 vars <;> rfl
  case contains =>
    exact subject_bind_agree agree fun _ _ _ rest =>
      firstValue_bind_agree rest fun _ _ _ _ => rfl
  case startsWith | endsWith =>
    refine subject_bind_agree agree fun value _ _ rest => ?_
    refine congrArg (asText value >>= ·) (funext fun text => ?_)
    exact firstValue_bind_agree rest fun _ _ _ _ => rfl
  case max => simp only [call, allValues_agree agree]
  case int | uint | double | string => exact subject_bind_agree agree fun _ _ _ _ => rfl
  case unsupported => rfl
  case map | filter | all | «exists» | existsOne => cases plain

theorem binder_bind_alike {α : Type} (next : (Value × Nat → Eval Value) → Eval α)
    (alike : Alike vars (some 0) args others) :
    (do let (name, body) ← binder args
        next fun (item, turn) => body turn ((name, item) :: vars)) =
      (do let (name, body) ← binder others
          next fun (item, turn) => body turn ((name, item) :: vars)) := by
  cases alike with
  | nil => rfl
  | @binder a b as bs same bodies =>
    cases bound : a.name? with
    | none => simp [binder, ← same, bound]
    | some name =>
      have agree := bodies name bound
      cases as with
      | nil =>
        cases bs with
        | nil => simp [binder, ← same, bound]
        | cons _ _ => cases agree .null
      | cons body as =>
        cases bs with
        | nil => cases agree .null
        | cons other bs =>
          have turns :
              (fun ((item, turn) : Value × Nat) => body.value turn ((name, item) :: vars)) =
                fun (item, turn) => other.value turn ((name, item) :: vars) := by
            funext ⟨item, turn⟩
            cases agree item with
            | cons head _ => exact head turn
          simp only [binder, ← same, bound]
          exact congrArg next turns

theorem applyBinder_alike {elements : Value → Option (List Value)}
    {run : (Value × Nat → Eval Value) → List (Value × Nat) → Eval Value}
    (alike : Alike vars (some (if target.isSome then 0 else 1)) args others) :
    applyBinder vars target args elements run = applyBinder vars target others elements run := by
  cases target with
  | some value =>
    exact binder_bind_alike (fun test => do
      let items ← orFail (elements value)
      run test items.zipIdx) alike
  | none =>
    cases alike with
    | nil => rfl
    | @subject before a b as bs same rest =>
      simp only [applyBinder, subject, firstValue, same 0]
      cases b.value 0 vars with
      | error fault => cases fault <;> rfl
      | ok value =>
        exact binder_bind_alike (fun test => do
          let items ← orFail (elements value)
          run test items.zipIdx) rest

theorem call_alike (function : Function) (place : Place)
    (alike : Alike vars (function.subjects? target.isSome) args others) :
    function.call place vars target args = function.call place vars target others := by
  cases binds : function.binds with
  | false =>
    simp only [subjects?, binds] at alike
    cases alike with
    | plain agree => exact call_agree function place binds agree
  | true =>
    simp only [subjects?, binds, if_true] at alike
    cases function
    case map | filter | all | «exists» | existsOne =>
      simp only [call]
      exact applyBinder_alike alike
    all_goals cases binds

end Function

namespace Expr

variable {key : String} {vars : Variables}

def Shows (key : String) (vars : Variables) : Prop :=
  (do memberOf (← variableOf vars "state") key) = variableOf vars key

theorem Shows.bind {name : String} {item : Value} (shows : Shows key vars) (fresh : name ≠ key)
    (kept : name ≠ "state") : Shows key ((name, item) :: vars) := by
  simpa [Shows, variableOf, fresh, kept] using shows

theorem name?_qualify {e : Expr} (unnamed : e.name? = none) : (e.qualify key).name? = none := by
  cases e <;> simp_all [name?, qualify]

theorem isSome_of_evalTarget {target : Option Expr} {place : Place} {value : Option Value}
    (valued : evalTarget target place vars = .ok value) : value.isSome = target.isSome := by
  cases target with
  | none =>
    cases valued
    rfl
  | some target =>
    simp only [evalTarget] at valued
    cases result : eval target place vars with
    | error fault => simp [result] at valued
    | ok value =>
      simp only [result] at valued
      cases valued
      rfl

def Qualifies (key : String) (e : Expr) : Prop :=
  ∀ place vars, Shows key vars → "state" ∉ e.bound →
    (e.qualify key).eval place vars = e.eval place vars

theorem evalTarget_qualify {target : Option Expr} (each : ∀ e ∈ target, Qualifies key e)
    (shows : Shows key vars) (kept : "state" ∉ boundInTarget target) (place : Place) :
    evalTarget (qualifyTarget key target) place vars = evalTarget target place vars := by
  cases target with
  | none        => rfl
  | some target => simp only [qualifyTarget, evalTarget, each target rfl place vars shows kept]

theorem evalItems_qualify {items : List Expr} (each : ∀ e ∈ items, Qualifies key e)
    (shows : Shows key vars) (kept : "state" ∉ boundInItems items) (place : Place) :
    evalItems (qualifyItems key items) place vars = evalItems items place vars := by
  induction items generalizing place with
  | nil => rfl
  | cons item rest ih =>
    have ⟨first, each⟩ := List.forall_mem_cons.mp each
    simp only [boundInItems, List.mem_append, not_or] at kept
    simp only [qualifyItems, evalItems, first _ vars shows kept.1, ih each kept.2]

theorem evalEntries_qualify {entries : List (Expr × Expr)}
    (each : ∀ entry ∈ entries, Qualifies key entry.1 ∧ Qualifies key entry.2)
    (shows : Shows key vars) (kept : "state" ∉ boundInEntries entries) (place : Place)
    (before : List (Key × Value)) :
    evalEntries (qualifyEntries key entries) place vars before =
      evalEntries entries place vars before := by
  induction entries generalizing place before with
  | nil => rfl
  | cons entry rest ih =>
    have ⟨⟨left, right⟩, each⟩ := List.forall_mem_cons.mp each
    simp only [boundInEntries, List.mem_append, not_or] at kept
    simp only [qualifyEntries, evalEntries, left _ vars shows kept.1.1,
      right _ vars shows kept.1.2, ih each kept.2]

theorem arguments_agree {args : List Expr} (each : ∀ e ∈ args, Qualifies key e)
    (shows : Shows key vars) (kept : "state" ∉ boundInArgs none args) (place : Place) :
    List.Forall₂ (Argument.Agree vars) (arguments (qualifyArgs key none args) place)
      (arguments args place) := by
  induction args generalizing place with
  | nil => exact .nil
  | cons arg rest ih =>
    have ⟨first, each⟩ := List.forall_mem_cons.mp each
    simp only [boundInArgs, List.mem_append, not_or] at kept
    exact .cons (fun turn => first _ vars shows kept.1) (ih each kept.2 _)

theorem scope_alike {arg : Expr} {rest : List Expr} (each : ∀ e ∈ rest, Qualifies key e)
    (shows : Shows key vars)
    (kept : "state" ∉ boundInArgs (some 0) (arg :: rest)) (place : Place) :
    Alike vars (some 0) (arguments (qualifyArgs key (some 0) (arg :: rest)) place)
      (arguments (arg :: rest) place) := by
  simp only [boundInArgs, List.mem_append, not_or] at kept
  cases named : arg.name? with
  | none =>
    simp only [qualifyArgs, named]
    refine .binder ?_ fun name found => ?_
    case refine_1 => simp only [name?_qualify named, named]
    case refine_2 => simp only [name?_qualify named, reduceCtorEq] at found
  | some name =>
    simp only [qualifyArgs, named]
    refine .binder named.symm fun _ found item => ?_
    obtain rfl : name = _ := by simpa only [name?, Option.some.injEq] using found
    by_cases same : name = key
    case pos =>
      simp only [same, if_true]
      exact List.forall₂_same.mpr fun _ _ _ => rfl
    case neg =>
      simp only [same, if_false]
      have fresh : name ≠ "state" := by
        rintro rfl
        simp [named] at kept
      exact arguments_agree each (shows.bind same fresh) kept.2 _

theorem arguments_alike {args : List Expr} (each : ∀ e ∈ args, Qualifies key e)
    (shows : Shows key vars) (subjects : Option Nat) (kept : "state" ∉ boundInArgs subjects args)
    (place : Place) :
    Alike vars subjects (arguments (qualifyArgs key subjects args) place)
      (arguments args place) := by
  induction args generalizing subjects place with
  | nil =>
    cases subjects with
    | none   => exact .plain .nil
    | some _ => exact .nil
  | cons arg rest ih =>
    have ⟨first, others⟩ := List.forall_mem_cons.mp each
    match subjects with
    | none          => exact .plain (arguments_agree each shows kept place)
    | some 0        => exact scope_alike others shows kept place
    | some (before + 1) =>
      simp only [boundInArgs, List.mem_append, not_or] at kept
      exact .subject (fun turn => first _ vars shows kept.1) (ih others _ kept.2 _)

theorem eval_call_qualify {function : String} {target : Option Expr} {args : List Expr}
    (onTarget : ∀ e ∈ target, Qualifies key e) (onArgs : ∀ e ∈ args, Qualifies key e) :
    Qualifies key (.call function target args) := by
  intro place vars shows kept
  simp only [bound, List.mem_append, not_or] at kept
  simp only [qualify, eval, evalTarget_qualify onTarget shows kept.1]
  cases known : Function.ofName? function with
  | none => rfl
  | some found =>
    cases valued : evalTarget target (0 :: place) vars with
    | error fault => rfl
    | ok value =>
      have subjects : found.subjects? value.isSome = subjects? function target := by
        simp only [subjects?, known, Option.bind_some, isSome_of_evalTarget valued]
      exact Function.call_alike found place
        (subjects ▸ arguments_alike onArgs shows (subjects? function target) kept.2 _)

theorem sizeOf_lt_of_mem {entries : List (Expr × Expr)} {left right : Expr}
    (h : (left, right) ∈ entries) :
    sizeOf left < sizeOf entries ∧ sizeOf right < sizeOf entries := by
  have smaller := List.sizeOf_lt_of_mem h
  rw [Prod.mk.sizeOf_spec] at smaller
  omega

-- By recursion on the expression, under all variables that show the member.
theorem qualifies (key : String) : (e : Expr) → Qualifies key e
  | .literal value => fun _ _ _ _ => rfl
  | .variable name => fun place vars shows _ => by
    by_cases same : name = key
    case pos =>
      simp only [qualify, same, if_true, eval]
      exact shows
    case neg => simp only [qualify, same, if_false]
  | .unary op operand => fun place vars shows kept => by
    simp only [qualify, eval, qualifies key operand _ vars shows kept]
  | .binary op left right => fun place vars shows kept => by
    simp only [bound, List.mem_append, not_or] at kept
    have onLeft := qualifies key left (0 :: place) vars shows kept.1
    have onRight := qualifies key right (1 :: place) vars shows kept.2
    cases op <;> simp only [qualify, eval, onLeft, onRight]
  | .conditional test yes no => fun place vars shows kept => by
    simp only [bound, List.mem_append, not_or] at kept
    simp only [qualify, eval, qualifies key test _ vars shows kept.1.1,
      qualifies key yes _ vars shows kept.1.2, qualifies key no _ vars shows kept.2]
  | .list items => fun place vars shows kept => by
    simp only [qualify, eval, evalItems_qualify (fun item _ => qualifies key item) shows kept]
  | .map entries => fun place vars shows kept => by
    simp only [qualify, eval, evalEntries_qualify
      (fun (left, right) within =>
        have _ := sizeOf_lt_of_mem within
        ⟨qualifies key left, qualifies key right⟩) shows kept]
  | .index collection position => fun place vars shows kept => by
    simp only [bound, List.mem_append, not_or] at kept
    simp only [qualify, eval, qualifies key collection _ vars shows kept.1,
      qualifies key position _ vars shows kept.2]
  | .member object name => fun place vars shows kept => by
    simp only [qualify, eval, qualifies key object _ vars shows kept]
  | .construct object fields => fun place vars shows kept => by
    simp only [bound, List.mem_append, not_or] at kept
    simp only [qualify, eval, qualifies key object _ vars shows kept.1]
  | .call function target args =>
    eval_call_qualify (fun e _ => qualifies key e) fun e _ => qualifies key e
termination_by e => sizeOf e

end Expr

section

variable {condition prefixed : DurableWorkflow.Condition} {members : List (String × Json)}
  {key : String}

theorem lookup_ofMembers (members : List (String × Json)) (key : String) :
    Value.lookup (Value.ofMembers members) (.string key) =
      (members.find? (·.1 = key)).map fun entry => Value.ofJson entry.2 := by
  induction members with
  | nil => rfl
  | cons entry rest ih =>
    by_cases same : entry.1 = key
    case pos => simp [Value.ofMembers, Value.lookup, same]
    case neg => simpa [Value.ofMembers, Value.lookup, same] using ih

theorem variableOf_state (members : List (String × Json)) :
    variableOf (bindings (.object members)) "state" =
      .ok (.map none (Value.ofMembers members)) := by
  simp [variableOf, bindings, Value.ofJson]

theorem parse_eq_of_tokens {source : String} {tokens : List Token} {expr : Expr}
    (scanned : Token.scan (normalize source) = tokens)
    (read : Expr.read (tokens.length + 2) tokens = .ok (expr, [])) :
    Condition.parse source = .returned (.ok ⟨source, expr⟩) := by
  subst scanned
  unfold Condition.parse Expr.parse
  dsimp only
  rw [read]

theorem shows_bindings (member : key ∈ members.map Prod.fst) (other : key ≠ "state") :
    Expr.Shows key (bindings (.object members)) := by
  obtain ⟨entry, found⟩ : ∃ entry, members.find? (·.1 = key) = some entry := by
    obtain ⟨entry, within, rfl⟩ := List.mem_map.mp member
    exact Option.isSome_iff_exists.mp (List.find?_isSome.mpr ⟨entry, within, by simp⟩)
  have bound : (members.map fun member => (member.1, Value.ofJson member.2)).find? (·.1 = key) =
      some (entry.1, Value.ofJson entry.2) :=
    (List.find?_map ..).trans (congrArg (Option.map _) found)
  have single : variableOf (bindings (.object members)) key = .ok (Value.ofJson entry.2) := by
    simp [variableOf, bindings, Json.asMembers?, Ne.symm other, List.find?_append, bound]
  simp only [Expr.Shows, variableOf_state, single]
  simp [memberOf, lookup_ofMembers, found, bind, Except.bind]

-- Whatever a condition comes to, a panic included, it comes to with the prefix written too.
theorem evaluate_qualify (member : key ∈ members.map Prod.fst) (other : key ≠ "state")
    (kept : "state" ∉ condition.expr.bound) (written : prefixed.expr = condition.expr.qualify key) :
    prefixed.evaluate (.object members) = condition.evaluate (.object members) := by
  simp only [evaluate, written,
    condition.expr.qualifies key [] _ (shows_bindings member other) kept]

end

namespace Quota

def members : List (String × Json) :=
  [("requests", .array [.nat 1, .nat 1]), ("size", .nat 3)]

def source : String := "size(requests) + size == 5 && [3].exists(size, size == 3)"

def prefixed : String := "size(requests) + state.size == 5 && [3].exists(size, size == 3)"

def expr : Expr :=
  .binary .and
    (.binary .equal
      (.binary .add (.call "size" none [.variable "requests"]) (.variable "size"))
      (.literal (.int 5)))
    (.call "exists" (some (.list [.literal (.int 3)]))
      [.variable "size", .binary .equal (.variable "size") (.literal (.int 3))])

def tokens (sum : List Token) : List Token :=
  [.name "size", .mark "(", .name "requests", .mark ")", .mark "+"] ++ sum ++
    [.mark "==", .int 5, .mark "&&", .mark "[", .int 3, .mark "]", .mark ".", .name "exists",
      .mark "(", .name "size", .mark ",", .name "size", .mark "==", .int 3, .mark ")"]

theorem parse_source : Condition.parse source = .returned (.ok ⟨source, expr⟩) :=
  parse_eq_of_tokens (show _ = tokens [.name "size"] by decide +kernel) (by rfl)

theorem parse_prefixed :
    Condition.parse prefixed = .returned (.ok ⟨prefixed, expr.qualify "size"⟩) :=
  parse_eq_of_tokens
    (show _ = tokens [.name "state", .mark ".", .name "size"] by decide +kernel) (by rfl)

theorem evaluate_prefixed :
    Condition.parse source = .returned (.ok ⟨source, expr⟩) ∧
      Condition.parse prefixed = .returned (.ok ⟨prefixed, expr.qualify "size"⟩) ∧
      evaluate ⟨prefixed, expr.qualify "size"⟩ (.object members) =
        evaluate ⟨source, expr⟩ (.object members) ∧
      evaluate ⟨source, expr⟩ (.object members) = .returned true :=
  ⟨parse_source, parse_prefixed,
    evaluate_qualify (by decide) (by decide) (by decide +kernel) rfl, by decide +kernel⟩

end Quota

end DurableWorkflow.Condition
