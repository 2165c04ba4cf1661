import LexRules.Proofs.Text.Utf8
import LexRules.Token.Stream
import Mathlib

/-! The outcomes of a stream, line by line. Whatever bytes a line holds, it has its outcome by
itself and costs no other line its own. -/

namespace LexRules.Token

def below (number : Nat) (r : Nat × Outcome) : Nat × Outcome := (number + r.1, r.2)

end LexRules.Token
