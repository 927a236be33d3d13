import DurableWorkflow.Clock

namespace DurableWorkflow.Instant

variable {first second clock : Instant} {millis : Nat} {time : Int}

theorem timestamp_mono (h : first.nanos ≤ second.nanos) : first.timestamp ≤ second.timestamp := by
  rw [Timestamp.le_def, timestamp, timestamp]
  dsimp only
  split <;> split <;> omega

theorem timestamp_bounds (clock : Instant) :
    -377705116800000 ≤ clock.timestamp.millis ∧ clock.timestamp.millis < 253402300800000 := by
  have := clock.lower
  have := clock.upper
  rw [timestamp]
  dsimp only
  split <;> omega

theorem timestamp_sub_lt (h : first.nanos ≤ second.nanos) :
    (second.timestamp.millis - first.timestamp.millis - 1) * 1000000 <
      second.nanos - first.nanos := by
  rw [timestamp, timestamp]
  dsimp only
  split <;> split <;> omega

-- Readings are cut toward the epoch, so a difference of two of them is off by less than a
-- millisecond while the instants are on one side of it. It falls short by less than two where they
-- are on both, since the millisecond before the epoch and the one after it are both cut to zero.
theorem lt_timestamp_sub (first second : Instant) :
    second.nanos - first.nanos <
      (second.timestamp.millis - first.timestamp.millis + 2) * 1000000 := by
  rw [timestamp, timestamp]
  dsimp only
  split <;> split <;> omega

theorem lt_of_timestamp_add (positive : 0 < millis)
    (h : first.timestamp.millis + millis ≤ second.timestamp.millis) :
    first.nanos + millis * 1000000 < second.nanos + 1000000 := by
  rw [timestamp, timestamp] at h
  dsimp only at h
  split at h <;> split at h <;> omega

theorem timestamp_of_dvd (whole : 1000000 ∣ clock.nanos) :
    clock.timestamp.millis * 1000000 = clock.nanos := by
  rw [timestamp]
  dsimp only
  split <;> omega

-- No reading of the clock comes near the greatest timestamp, at which deadlines are cut.
theorem after_le_iff :
    first.timestamp.after millis ≤ second.timestamp ↔
      first.timestamp.millis + millis ≤ second.timestamp.millis := by
  have := first.timestamp_bounds
  have := second.timestamp_bounds
  rw [Timestamp.le_def, Timestamp.after, Timestamp.clamp]
  dsimp only
  omega

theorem nanos_of_ofNanos? {nanos : Int} (h : ofNanos? nanos = some clock) :
    clock.nanos = nanos := by
  rw [ofNanos?] at h
  split at h
  case isTrue  => exact (Option.some.inj h) ▸ rfl
  case isFalse => cases h

theorem exists_ofMillis?_iff :
    (∃ clock, ofMillis? time = some clock) ↔
      -377705116800000 ≤ time ∧ time < 253402300800000 := by
  rw [ofMillis?, ofNanos?]
  split
  case isTrue within  => simpa using (by omega)
  case isFalse beyond => simpa using (by omega)

theorem timestamp_of_ofMillis? (h : ofMillis? time = some clock) :
    clock.timestamp.millis = time := by
  have same := nanos_of_ofNanos? h
  have whole : 1000000 ∣ clock.nanos := by omega
  have := timestamp_of_dvd whole
  omega

end DurableWorkflow.Instant
