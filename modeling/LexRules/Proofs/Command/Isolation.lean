import LexRules.Proofs.Command.Decoding
import LexRules.Proofs.Token.Isolation

/-! Bad lines on standard input. A line that cannot be decoded is reported with its number and spoils
the exit code, but every other line is decoded as if that one were blank. -/

namespace LexRules

namespace Token

end Token

namespace Outcome

end Outcome

namespace Environment

variable {e : Environment} {i : Invocation} {format : OutputFormat}

end Environment

end LexRules
