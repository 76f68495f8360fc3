/-!
# Powers and zero

Powers of natural numbers and the sum of no numbers are the built-in ones, also
next to a library that has instances of its own for them.  So a definition
means the same wherever it is read.
-/

namespace TableProbe

@[default_instance 20000]
instance (priority := 20000) builtinPow : Pow Nat Nat := instPowNat

instance (priority := 20000) builtinZero : Zero Nat := Zero.ofOfNat0

end TableProbe
