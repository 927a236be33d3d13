import DurableWorkflow.Data.Dict

namespace DurableWorkflow

abbrev Tally := Dict (Dict Nat)

namespace Tally

def counts (workflow : String) (tally : Tally) : Dict Nat :=
  (tally.get? workflow).getD .empty

def count (workflow name : String) (tally : Tally) : Nat :=
  ((tally.counts workflow).get? name).getD 0

def bump (workflow name : String) (tally : Tally) : Tally :=
  tally.insert workflow ((tally.counts workflow).insert name (tally.count workflow name + 1))

def next (workflow name : String) (tally : Tally) : Nat × Tally :=
  (tally.count workflow name + 1, tally.bump workflow name)

end Tally

end DurableWorkflow
