namespace DurableWorkflow.Word

def minSigned : Int := -9223372036854775808

def maxSigned : Int := 9223372036854775807

def maxUnsigned : Nat := 18446744073709551615

def FitsSigned (value : Int) : Prop :=
  minSigned ≤ value ∧ value ≤ maxSigned

def FitsUnsigned (value : Int) : Prop :=
  0 ≤ value ∧ value ≤ maxUnsigned

instance (value : Int) : Decidable (FitsSigned value) :=
  inferInstanceAs (Decidable (_ ∧ _))

instance (value : Int) : Decidable (FitsUnsigned value) :=
  inferInstanceAs (Decidable (_ ∧ _))

end DurableWorkflow.Word
