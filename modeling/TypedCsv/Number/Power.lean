/-! # Powers of numbers

Bounds such as `2 ^ 96` stand in definitions and in lemmas that see the algebra of the natural
numbers, which has powers of its own. Here the powers of the core library are preferred, so that a
bound is the same term in both. -/

attribute [instance (high), default_instance (high + 1)] instPowNat
