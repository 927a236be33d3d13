import DurableWorkflow.Run.Operations

namespace DurableWorkflow

variable {step other key id : String} {entry : ResumeEntry}

theorem resumeId_toList : (resumeId step key).toList = step.toList ++ ':' :: key.toList := by
  simp [resumeId]

-- Different pairs of step and key may have one id, but not if the key is the step.
theorem resumeId_self_inj (h : resumeId step step = resumeId other other) : step = other := by
  have h := congrArg String.toList h
  rw [resumeId_toList, resumeId_toList] at h
  have hl : step.toList.length = other.toList.length := by
    have := congrArg List.length h
    simp only [List.length_append, List.length_cons] at this
    omega
  exact String.toList_inj.mp (List.append_inj h hl).1

namespace ResumeEntry

theorem belongsTo_of_id (h : entry.id = resumeId step key) : entry.belongsTo step := by
  rw [belongsTo, h, resumeId_toList, List.isPrefixOf_iff_prefix]
  exact ⟨key.toList, by simp⟩

end ResumeEntry

end DurableWorkflow
