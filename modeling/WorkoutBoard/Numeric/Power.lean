/-!
# Powers

Bounds and scales are powers of natural numbers and integers. They are computed by the core
library's operations, which come first here also where an algebraic library has powers of its own.
-/

attribute [instance (2000)] instPowNat
attribute [default_instance 20000] instPowNat
