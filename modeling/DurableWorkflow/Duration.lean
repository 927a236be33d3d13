import DurableWorkflow.Data.Word
import DurableWorkflow.Double.Decimal
import DurableWorkflow.Error
import DurableWorkflow.Text.Blank

namespace DurableWorkflow.Duration

def unitMillis? (unit : String) : Option Nat :=
  if unit ∈ ["ms", "millisecond", "milliseconds"] then some 1
  else if unit ∈ ["s", "sec", "secs", "second", "seconds"] then some 1000
  else if unit ∈ ["m", "min", "mins", "minute", "minutes"] then some 60000
  else if unit ∈ ["h", "hr", "hrs", "hour", "hours"] then some 3600000
  else if unit ∈ ["d", "day", "days"] then some 86400000
  else if unit ∈ ["w", "week", "weeks"] then some 604800000
  else none

def isAmountChar (c : Char) : Bool :=
  c.isDigit || c = '.'

def amount? (text : List Char) : Option Double :=
  (Double.parse? (text.takeWhile isAmountChar)).filter Double.isFinite

def unitOf (text : List Char) : String :=
  String.ofList ((Text.trim (text.dropWhile isAmountChar)).map Char.toLower)

-- The milliseconds of a duration text such as `10 minutes`, `500ms` or `2.5 hours`: an amount of
-- digits and at most one point, white space if any, and a unit. Fractions of a millisecond are
-- rounded, a half up.
def parse (text : String) : Except Error Nat :=
  let body := Text.trim text.toList
  match amount? body, unitMillis? (unitOf body) with
  | some amount, some millis => .ok ((amount.mul (.ofNat millis)).roundToNat Word.maxUnsigned)
  | _, _ => .error (.invalidDuration text)

end DurableWorkflow.Duration
