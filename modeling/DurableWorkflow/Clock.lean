namespace DurableWorkflow

structure Timestamp where
  millis : Int
  lower : -9223372036854775808 ≤ millis := by decide
  upper : millis < 9223372036854775808 := by decide
  deriving DecidableEq

namespace Timestamp

instance : Inhabited Timestamp := ⟨⟨0, by decide, by decide⟩⟩

instance : LE Timestamp := ⟨fun first second => first.millis ≤ second.millis⟩

instance (first second : Timestamp) : Decidable (first ≤ second) :=
  inferInstanceAs (Decidable (first.millis ≤ second.millis))

theorem le_def {first second : Timestamp} : first ≤ second ↔ first.millis ≤ second.millis := Iff.rfl

def clamp (millis : Int) : Timestamp where
  millis := max (-9223372036854775808) (min millis 9223372036854775807)
  lower := by omega
  upper := by omega

def ofMillis? (millis : Int) : Option Timestamp :=
  if h : -9223372036854775808 ≤ millis ∧ millis < 9223372036854775808 then
    some ⟨millis, h.1, h.2⟩
  else none

@[simp]
theorem ofMillis?_millis (timestamp : Timestamp) : ofMillis? timestamp.millis = some timestamp := by
  have := timestamp.lower
  have := timestamp.upper
  rw [ofMillis?, dif_pos ⟨by omega, by omega⟩]

-- The time `millis` later; a wait too long to express ends at the greatest timestamp.
def after (timestamp : Timestamp) (millis : Nat) : Timestamp :=
  clamp (timestamp.millis + min (millis : Int) 9223372036854775807)

end Timestamp

-- Instants are nanoseconds relative to the Unix epoch, within the years −9999 to 9999. Deadlines
-- and recorded times are `Timestamp`s: whole milliseconds, as read off the clock by
-- `Instant.timestamp`.
structure Instant where
  nanos : Int
  lower : -377705116800000000000 ≤ nanos := by decide
  upper : nanos < 253402300800000000000 := by decide
  deriving DecidableEq

namespace Instant

def epoch : Instant where
  nanos := 0

instance : Inhabited Instant := ⟨epoch⟩

def ofNanos? (nanos : Int) : Option Instant :=
  if h : -377705116800000000000 ≤ nanos ∧ nanos < 253402300800000000000 then some ⟨nanos, h.1, h.2⟩
  else none

def ofMillis? (millis : Int) : Option Instant :=
  ofNanos? (millis * 1000000)

def advance? (instant : Instant) (nanos : Nat) : Option Instant :=
  ofNanos? (instant.nanos + nanos)

-- The whole milliseconds of an instant, cut toward the epoch.
def timestamp (instant : Instant) : Timestamp where
  millis := if 0 ≤ instant.nanos then instant.nanos / 1000000 else -(-instant.nanos / 1000000)
  lower := by
    have := instant.lower
    have := instant.upper
    split <;> omega
  upper := by
    have := instant.lower
    have := instant.upper
    split <;> omega

end Instant

end DurableWorkflow
