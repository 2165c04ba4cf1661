import LexRules.Text.Digits
import LexRules.Text.Utf8

/-! What can go wrong, by cause. Each cause has one wording, one category and one code. -/

namespace LexRules

inductive IoCause
  | notUtf8
  | notFound
  | denied
  | isDirectory
  | notDirectory
  | tooManyLinks
  | noDevice
  deriving DecidableEq

inductive NumberFlaw
  | emptyInteger
  | invalidDigit
  | tooLarge
  | tooSmall
  | emptyFloat
  | invalidFloat
  deriving DecidableEq

inductive TokenGap
  | name
  | space
  | kind
  | emptyName
  deriving DecidableEq

inductive LineFlaw
  | unnamedNamespace
  | ruleBeforeNamespace
  | openPriority
  | openPattern
  deriving DecidableEq

inductive KeyPart
  | name
  | space
  deriving DecidableEq

inductive ArgumentFlaw
  | emptyName
  | forbiddenCharacter (part : KeyPart) (text : Text)
  | noFragments
  deriving DecidableEq

inductive PatternFlaw
  | invertedRange (first last : Char)
  | unopenedGroup
  | unclosedGroup
  | danglingEscape
  deriving DecidableEq

inductive Fault
  | io (cause : IoCause)
  | unreadable (path : Text.Bytes) (cause : IoCause)
  | badHeader (found : Text)
  | truncated (gap : TokenGap)
  | badPayload (tag payload : Text) (flaw : NumberFlaw)
  | unknownKind (tag : Text)
  | badLine (number : Nat) (flaw : LineFlaw) (content : Text)
  | badArgument (flaw : ArgumentFlaw)
  | badSettings
  | badPattern (given glob : Text) (flaw : PatternFlaw)
  deriving DecidableEq

inductive Category
  | format
  | unknownType
  | parse
  | io
  | argument
  | config
  deriving DecidableEq

def IoCause.message : IoCause → String
  | .notUtf8 => "stream did not contain valid UTF-8"
  | .notFound => "No such file or directory (os error 2)"
  | .denied => "Permission denied (os error 13)"
  | .isDirectory => "Is a directory (os error 21)"
  | .notDirectory => "Not a directory (os error 20)"
  | .tooManyLinks => "Too many levels of symbolic links (os error 40)"
  | .noDevice => "No such device or address (os error 6)"

def NumberFlaw.message : NumberFlaw → String
  | .emptyInteger => "cannot parse integer from empty string"
  | .invalidDigit => "invalid digit found in string"
  | .tooLarge => "number too large to fit in target type"
  | .tooSmall => "number too small to fit in target type"
  | .emptyFloat => "cannot parse float from empty string"
  | .invalidFloat => "invalid float literal"

def TokenGap.message : TokenGap → String
  | .name => "missing name field"
  | .space => "missing namespace field"
  | .kind => "missing type field"
  | .emptyName => "empty name"

def LineFlaw.message : LineFlaw → String
  | .unnamedNamespace => "namespace declaration without a name"
  | .ruleBeforeNamespace => "rule declared before any namespace"
  | .openPriority => "missing `/` after the priority"
  | .openPattern => "missing `/` after the pattern"

def KeyPart.label : KeyPart → String
  | .name => "name"
  | .space => "namespace"

def ArgumentFlaw.message : ArgumentFlaw → String
  | .emptyName => "a named value needs a non-empty name"
  | .forbiddenCharacter part text =>
    part.label ++ " `" ++ String.ofList text ++ "` may not contain `#` or line breaks"
  | .noFragments => "can't construct a path from an empty fragment list"

def PatternFlaw.message : PatternFlaw → String
  | .invertedRange first last =>
    "invalid range; '" ++ first.toString ++ "' > '" ++ last.toString ++ "'"
  | .unopenedGroup => "unopened alternate group; missing '\x7b' (maybe escape '\x7d' with '[\x7d]'?)"
  | .unclosedGroup => "unclosed alternate group; missing '\x7d' (maybe escape '\x7b' with '[\x7b]'?)"
  | .danglingEscape => "dangling '\\'"

namespace Fault

def message : Fault → String
  | .io cause => cause.message
  | .unreadable path cause =>
    "failed to read `" ++ String.ofList (Text.decodeLossy path) ++ "`: " ++ cause.message
  | .badHeader found =>
    "invalid token header: expected `LexTok`, found `" ++ String.ofList found ++ "`"
  | .truncated gap => "truncated token: " ++ gap.message
  | .badPayload tag payload flaw =>
    "invalid `" ++ String.ofList tag ++ "` payload `" ++ String.ofList payload ++ "`: " ++
      flaw.message
  | .unknownKind tag => "unknown value type: `" ++ String.ofList tag ++ "`"
  | .badLine number flaw content =>
    "line " ++ String.ofList (Text.ofNat number) ++ ": " ++ flaw.message ++ ": `" ++
      String.ofList content ++ "`"
  | .badArgument flaw => "invalid argument: " ++ flaw.message
  | .badSettings => "failed to parse config file: not a valid document"
  | .badPattern given glob flaw =>
    "failed to parse config file: invalid exclude pattern `" ++ String.ofList given ++
      "`: error parsing glob '" ++ String.ofList glob ++ "': " ++ flaw.message

def category : Fault → Category
  | .io _ | .unreadable .. => .io
  | .badHeader _ | .truncated _ | .badPayload .. => .format
  | .unknownKind _ => .unknownType
  | .badLine .. => .parse
  | .badArgument _ => .argument
  | .badSettings | .badPattern .. => .config

/-- The line of a definition file that a fault points at, counted from one. -/
def line? : Fault → Option Nat
  | .badLine number _ _ => some number
  | _ => none

def help? : Fault → Option String
  | .badHeader _ | .truncated _ =>
    some "serialized tokens have the form `LexTok#<name>#<namespace>#<type>#<value>`"
  | .unknownKind _ => some "available types: dtNull, dtLong, dtDouble, dtString"
  | .badLine .. =>
    some "rule lines have the form `<priority>/<pattern>/<captures>`; write `//` for a literal `/`"
  | .badSettings | .badPattern .. =>
    some "check that lexdef.toml is valid TOML with top level keys and an optional [exclude] section"
  | _ => none

end Fault

def Category.code : Category → String
  | .format => "lexdef::format"
  | .unknownType => "lexdef::unknown_type"
  | .parse => "lexdef::parse"
  | .io => "lexdef::io_error"
  | .argument => "lexdef::invalid_argument"
  | .config => "lexdef::config_parse"

end LexRules
