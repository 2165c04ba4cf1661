import LexRules.Text

/-! UTF-8 over lists of bytes. Reading refuses overlong forms, surrogates and code points above
the last one, so that every text has one written form. Where bytes only have to be shown, what is
no UTF-8 is shown by the replacement character instead. -/

namespace LexRules.Text

abbrev Bytes := List UInt8

def encodeUtf8 (t : Text) : Bytes := t.flatMap String.utf8EncodeChar

def isContinuation (b : UInt8) : Bool := 0x80 ≤ b && b ≤ 0xBF

def low6 (b : UInt8) : Nat := b.toNat % 64

/-- The bytes that may follow a lead byte of three: they leave out overlong forms and
surrogates. -/
def secondOfThree (a b : UInt8) : Bool :=
  isContinuation b && (a != 0xE0 || 0xA0 ≤ b) && (a != 0xED || b ≤ 0x9F)

/-- The bytes that may follow a lead byte of four: they leave out overlong forms and code points
above U+10FFFF. -/
def secondOfFour (a b : UInt8) : Bool :=
  isContinuation b && (a != 0xF0 || 0x90 ≤ b) && (a != 0xF4 || b ≤ 0x8F)

def decodeUtf8 : Bytes → Option Text
  | [] => some []
  | a :: rest =>
    if a ≤ 0x7F then
      (decodeUtf8 rest).map (Char.ofNat a.toNat :: ·)
    else if 0xC2 ≤ a && a ≤ 0xDF then
      match rest with
      | b :: rest =>
        if isContinuation b then
          (decodeUtf8 rest).map (Char.ofNat (a.toNat % 32 * 64 + low6 b) :: ·)
        else none
      | _ => none
    else if 0xE0 ≤ a && a ≤ 0xEF then
      match rest with
      | b :: c :: rest =>
        if secondOfThree a b && isContinuation c then
          (decodeUtf8 rest).map
            (Char.ofNat (a.toNat % 16 * 4096 + low6 b * 64 + low6 c) :: ·)
        else none
      | _ => none
    else if 0xF0 ≤ a && a ≤ 0xF4 then
      match rest with
      | b :: c :: d :: rest =>
        if secondOfFour a b && isContinuation c && isContinuation d then
          (decodeUtf8 rest).map
            (Char.ofNat (a.toNat % 8 * 262144 + low6 b * 4096 + low6 c * 64 + low6 d) :: ·)
        else none
      | _ => none
    else none

def replacement : Char := '\uFFFD'

/-- The text that shows some bytes. One replacement character stands for the start of a character
that is not finished, as far as it goes, and for every byte that starts none. -/
def decodeLossy : Bytes → Text
  | [] => []
  | a :: rest =>
    if a ≤ 0x7F then Char.ofNat a.toNat :: decodeLossy rest
    else if 0xC2 ≤ a && a ≤ 0xDF then
      match rest with
      | b :: more =>
        if isContinuation b then Char.ofNat (a.toNat % 32 * 64 + low6 b) :: decodeLossy more
        else replacement :: decodeLossy (b :: more)
      | [] => [replacement]
    else if 0xE0 ≤ a && a ≤ 0xEF then
      match rest with
      | b :: c :: more =>
        if !secondOfThree a b then replacement :: decodeLossy (b :: c :: more)
        else if isContinuation c then
          Char.ofNat (a.toNat % 16 * 4096 + low6 b * 64 + low6 c) :: decodeLossy more
        else replacement :: decodeLossy (c :: more)
      | [b] => if secondOfThree a b then [replacement] else replacement :: decodeLossy [b]
      | [] => [replacement]
    else if 0xF0 ≤ a && a ≤ 0xF4 then
      match rest with
      | b :: c :: d :: more =>
        if !secondOfFour a b then replacement :: decodeLossy (b :: c :: d :: more)
        else if !isContinuation c then replacement :: decodeLossy (c :: d :: more)
        else if isContinuation d then
          Char.ofNat (a.toNat % 8 * 262144 + low6 b * 4096 + low6 c * 64 + low6 d) ::
            decodeLossy more
        else replacement :: decodeLossy (d :: more)
      | [b, c] =>
        if !secondOfFour a b then replacement :: decodeLossy [b, c]
        else if isContinuation c then [replacement]
        else replacement :: decodeLossy [c]
      | [b] => if secondOfFour a b then [replacement] else replacement :: decodeLossy [b]
      | [] => [replacement]
    else replacement :: decodeLossy rest

end LexRules.Text
