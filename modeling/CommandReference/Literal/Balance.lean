/-! Braces that balance. Strings in any of the three quotes are passed over, with their
escapes; nothing else of the grammar of literals is looked at. -/
namespace CommandReference.Literal

/-- Where a character stands: outside all strings, in a string, or after a backslash
in a string. -/
inductive Place where
  | outside
  | inside (quote : Char)
  | escaped (quote : Char)
  deriving Repr, DecidableEq

def Place.next : Place → Char → Place
  | outside, c => if c = '\'' ∨ c = '"' ∨ c = '`' then inside c else outside
  | inside quote, c =>
    if c = '\\' then escaped quote else if c = quote then outside else inside quote
  | escaped quote, _ => inside quote

def balancedFrom (place : Place) (depth : Nat) : List Char → Option (List Char)
  | [] => none
  | c :: cs =>
    if place = .outside ∧ c = '{' then (balancedFrom place (depth + 1) cs).map (c :: ·)
    else if place = .outside ∧ c = '}' then
      match depth with
      | 0 => none
      | 1 => some [c]
      | outer + 1 => (balancedFrom place outer cs).map (c :: ·)
    else (balancedFrom (place.next c) depth cs).map (c :: ·)

def balancedBlock? (cs : List Char) : Option (List Char) := balancedFrom .outside 0 cs

end CommandReference.Literal
