import DurableWorkflow.Clock
import DurableWorkflow.Condition.Basic
import DurableWorkflow.Condition.Evaluation
import DurableWorkflow.Condition.Expr
import DurableWorkflow.Condition.Function
import DurableWorkflow.Condition.Grammar
import DurableWorkflow.Condition.Spelling
import DurableWorkflow.Condition.Token
import DurableWorkflow.Condition.Value
import DurableWorkflow.Data.Dict
import DurableWorkflow.Data.Outcome
import DurableWorkflow.Data.Word
import DurableWorkflow.Double.Arithmetic
import DurableWorkflow.Double.Basic
import DurableWorkflow.Double.Decimal
import DurableWorkflow.Duration
import DurableWorkflow.Engine.Agenda
import DurableWorkflow.Engine.Basic
import DurableWorkflow.Engine.Locks
import DurableWorkflow.Engine.Schedule
import DurableWorkflow.Engine.Service
import DurableWorkflow.Engine.Store
import DurableWorkflow.Error
import DurableWorkflow.Flow.Basic
import DurableWorkflow.Flow.Document
import DurableWorkflow.Flow.Validation
import DurableWorkflow.Handler.Script
import DurableWorkflow.Json.Basic
import DurableWorkflow.Json.Printer
import DurableWorkflow.Json.Raw
import DurableWorkflow.Json.Record
import DurableWorkflow.Json.Shape
import DurableWorkflow.Proofs.Clock
import DurableWorkflow.Proofs.Concurrency.Exclusion
import DurableWorkflow.Proofs.Concurrency.Serial
import DurableWorkflow.Proofs.Concurrency.Serializability
import DurableWorkflow.Proofs.Concurrency.Traffic
import DurableWorkflow.Proofs.Condition.Prefix
import DurableWorkflow.Proofs.Engine.Act
import DurableWorkflow.Proofs.Engine.Apart
import DurableWorkflow.Proofs.Engine.Atomicity
import DurableWorkflow.Proofs.Engine.Course
import DurableWorkflow.Proofs.Engine.Due
import DurableWorkflow.Proofs.Engine.History
import DurableWorkflow.Proofs.Engine.Leads
import DurableWorkflow.Proofs.Engine.Lifecycle
import DurableWorkflow.Proofs.Engine.Locks
import DurableWorkflow.Proofs.Engine.Overlap
import DurableWorkflow.Proofs.Engine.Punctuality
import DurableWorkflow.Proofs.Engine.Records
import DurableWorkflow.Proofs.Engine.Sweep
import DurableWorkflow.Proofs.Engine.Vault
import DurableWorkflow.Proofs.Engine.Work
import DurableWorkflow.Proofs.Flow.Acceptance
import DurableWorkflow.Proofs.Flow.Acyclic
import DurableWorkflow.Proofs.Flow.Compilation
import DurableWorkflow.Proofs.Flow.Correctness
import DurableWorkflow.Proofs.Flow.Delay
import DurableWorkflow.Proofs.Flow.Diagnosis
import DurableWorkflow.Proofs.Flow.Effects
import DurableWorkflow.Proofs.Flow.Exits
import DurableWorkflow.Proofs.Flow.Failure
import DurableWorkflow.Proofs.Flow.Handlers
import DurableWorkflow.Proofs.Flow.Idempotence
import DurableWorkflow.Proofs.Flow.Meaning
import DurableWorkflow.Proofs.Flow.Rest
import DurableWorkflow.Proofs.Flow.Retry
import DurableWorkflow.Proofs.Flow.Simulation
import DurableWorkflow.Proofs.Flow.Soundness
import DurableWorkflow.Proofs.Flow.Termination
import DurableWorkflow.Proofs.Flow.Transparency
import DurableWorkflow.Proofs.Flow.Unpaused
import DurableWorkflow.Proofs.Flow.Updates
import DurableWorkflow.Proofs.Flow.Visit
import DurableWorkflow.Proofs.Flow.WellFormed
import DurableWorkflow.Proofs.Handler.Exchange
import DurableWorkflow.Proofs.Handler.Frame
import DurableWorkflow.Proofs.Handler.Running
import DurableWorkflow.Proofs.Memo.AtMostOnce
import DurableWorkflow.Proofs.Memo.Audit
import DurableWorkflow.Proofs.Memo.Invocation
import DurableWorkflow.Proofs.Memo.Recording
import DurableWorkflow.Proofs.Run.Delivery
import DurableWorkflow.Proofs.Run.Document
import DurableWorkflow.Proofs.Run.Entry
import DurableWorkflow.Proofs.Run.Timer
import DurableWorkflow.Proofs.Workflow.Budget
import DurableWorkflow.Proofs.Workflow.Event
import DurableWorkflow.Proofs.Workflow.Exchange
import DurableWorkflow.Proofs.Workflow.Flight
import DurableWorkflow.Proofs.Workflow.Operation
import DurableWorkflow.Proofs.Workflow.Round
import DurableWorkflow.Proofs.Workflow.Visit
import DurableWorkflow.Proofs.Workflow.Waits
import DurableWorkflow.Resume
import DurableWorkflow.Routine.Basic
import DurableWorkflow.Routine.Task
import DurableWorkflow.Run.Basic
import DurableWorkflow.Run.Document
import DurableWorkflow.Run.Memo
import DurableWorkflow.Run.Operations
import DurableWorkflow.Sample.ForkJoin
import DurableWorkflow.Sample.Onboarding
import DurableWorkflow.Sample.TicketRouting
import DurableWorkflow.Sample.TrialConversion
import DurableWorkflow.Tally
import DurableWorkflow.Text.Blank
import DurableWorkflow.Text.Printable
import DurableWorkflow.Text.Quoted
import DurableWorkflow.Text.Utf8
import DurableWorkflow.Workflow.Basic
import DurableWorkflow.Workflow.Flight
import DurableWorkflow.Workflow.OfFlow
import DurableWorkflow.Workflow.Pass
import DurableWorkflow.Proofs.Workflow.Polling
import DurableWorkflow.Proofs.Flow.Document
import DurableWorkflow.Proofs.Json.Text
import DurableWorkflow.Proofs.Json.Denotation
import DurableWorkflow.Proofs.Flow.Text
import DurableWorkflow.Proofs.Workflow.Ending
import DurableWorkflow.Proofs.Engine.Results
import DurableWorkflow.Proofs.Engine.Relapse
import DurableWorkflow.Proofs.Double.Rounding
import DurableWorkflow.Proofs.Double.Integer
import DurableWorkflow.Proofs.Text.Blank
import DurableWorkflow.Proofs.Duration
import DurableWorkflow.Proofs.Condition.Spelling
import DurableWorkflow.Proofs.Condition.Comparison
import DurableWorkflow.Proofs.Concurrency.Table
import DurableWorkflow.Proofs.Sample.Schedule
