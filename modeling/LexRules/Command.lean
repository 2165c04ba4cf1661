import LexRules.Path
import LexRules.Scalar

/-! What the command line can be asked to do. -/

namespace LexRules

inductive OutputFormat
  | text
  | json
  deriving DecidableEq

inductive Command
  | discover (deep : Bool) (extensions : List Text) (format : OutputFormat)
  | parse (files : List Path) (deep requireNamespace : Bool) (format : OutputFormat)
  | encode (name : Text) (value : Option Text) (space : Text) (kind : Option Kind)
  | decode (token : Option Text) (format : OutputFormat)
  deriving DecidableEq

structure Invocation where
  command : Option Command
  root : Option Path
  verbose : Bool
  noColor : Bool
  deriving DecidableEq

end LexRules
