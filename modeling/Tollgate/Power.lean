/-! # Powers of two and of ten

Limits of fixed width and places of numbers are powers of two; decimal places are powers of ten.
-/

namespace Tollgate

def twoTo (n : Nat) : Nat := Nat.pow 2 n

def tenTo (n : Nat) : Nat := Nat.pow 10 n

end Tollgate
