import DurableWorkflow.Proofs.Flow.Exits
import Mathlib.Data.Finset.Card
import Mathlib.Logic.Relation

namespace DurableWorkflow.Flow

open Relation (TransGen)

variable {flow : Flow} {id target : String}

def Acyclic (flow : Flow) : Prop :=
  ∀ id, ¬ TransGen flow.Moves id id

theorem acyclic_of_falls (measure : String → Nat)
    (falls : ∀ step ∈ flow.steps, ∀ connection ∈ flow.exits step,
      measure connection.target < measure step.id) : flow.Acyclic := by
  have reaches {id target : String} (h : TransGen flow.Moves id target) :
      measure target < measure id := by
    induction h with
    | single moves =>
      cases moves with | along known exit => exact falls _ known _ exit
    | tail _ moves ih =>
      cases moves with | along known exit => exact (falls _ known _ exit).trans ih
  exact fun id cycle => Nat.lt_irrefl _ (reaches cycle)

open Classical in
noncomputable def descendants (flow : Flow) (id : String) : Finset String :=
  flow.stepIds.toFinset.filter (TransGen flow.Moves id)

noncomputable def rank (flow : Flow) (id : String) : Nat :=
  (flow.descendants id).card

theorem mem_descendants {other : String} :
    other ∈ flow.descendants id ↔ other ∈ flow.stepIds ∧ TransGen flow.Moves id other := by
  classical
  rw [descendants, Finset.mem_filter, List.mem_toFinset]

theorem descendants_ssubset (acyclic : flow.Acyclic) (wellFormed : flow.WellFormed)
    (moves : flow.Moves id target) : flow.descendants target ⊂ flow.descendants id := by
  refine (Finset.ssubset_iff_of_subset ?_).mpr ⟨target, ?_, ?_⟩
  · intro other h
    have ⟨known, reached⟩ := mem_descendants.mp h
    exact mem_descendants.mpr ⟨known, reached.head moves⟩
  · exact mem_descendants.mpr ⟨moves.target wellFormed, .single moves⟩
  · exact fun h => acyclic target (mem_descendants.mp h).2

-- The rank of a step, which is the number of steps that can still be reached from it, falls along
-- every move of an acyclic flow.
theorem rank_lt (acyclic : flow.Acyclic) (wellFormed : flow.WellFormed)
    (moves : flow.Moves id target) : flow.rank target < flow.rank id :=
  Finset.card_lt_card (descendants_ssubset acyclic wellFormed moves)

-- No step reaches all steps, for it does not reach itself.
theorem rank_lt_length (acyclic : flow.Acyclic) (wellFormed : flow.WellFormed) (id : String) :
    flow.rank id < flow.steps.length := by
  have strict : flow.descendants id ⊂ flow.stepIds.toFinset := by
    refine (Finset.ssubset_iff_of_subset fun other h => ?_).mpr ?_
    · exact List.mem_toFinset.mpr (mem_descendants.mp h).1
    by_cases known : id ∈ flow.stepIds
    case pos =>
      exact ⟨id, List.mem_toFinset.mpr known, fun h => acyclic id (mem_descendants.mp h).2⟩
    case neg =>
      have ⟨start, begins⟩ := wellFormed.begins
      have there : start ∈ flow.beginSteps := begins ▸ List.mem_singleton_self start
      refine ⟨start.id, List.mem_toFinset.mpr ?_, fun h => known ?_⟩
      · exact List.mem_map_of_mem (List.mem_filter.mp there).1
      · obtain ⟨_, moves, _⟩ := TransGen.head'_iff.mp (mem_descendants.mp h).2
        exact moves.known
  calc flow.rank id
    _ < flow.stepIds.toFinset.card := Finset.card_lt_card strict
    _ ≤ flow.stepIds.length        := List.toFinset_card_le _
    _ = flow.steps.length          := List.length_map _

end DurableWorkflow.Flow
