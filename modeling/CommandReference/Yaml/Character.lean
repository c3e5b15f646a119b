/-! Classes of characters in YAML. -/
namespace CommandReference.Yaml

def isBreak (c : Char) : Bool :=
  c = '\n' || c = '\r' || c = '\u0085' || c = '\u2028' || c = '\u2029'

def isSpace (c : Char) : Bool := c = ' '

def isSpaceOrTab (c : Char) : Bool := c = ' ' || c = '\t'

def isBlankOrBreak (c : Char) : Bool := isSpaceOrTab c || isBreak c || c = '\x00'

def blankNext : List Char → Bool
  | [] => true
  | c :: _ => isBlankOrBreak c

def isReadable (c : Char) : Bool :=
  c = '\t' || c = '\n' || c = '\r' || c = '\u0085' || (0x20 ≤ c.toNat && c.toNat ≤ 0x7e) ||
    (0xa0 ≤ c.toNat && c.toNat ≠ 0xfffe && c.toNat ≠ 0xffff)

def isPrintable (c : Char) : Bool :=
  isReadable c && c ≠ '\t' && c ≠ '\r' && c ≠ '\u0085' && c ≠ '\ufeff'

def isNameChar (c : Char) : Bool := c.isAlphanum || c = '_' || c = '-'

end CommandReference.Yaml
