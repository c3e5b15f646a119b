/-! Sets of characters given by the closed intervals of their code points. The
tables of this library list their intervals in increasing order, so a search
stops at the first interval that begins above the character it looks for. -/
namespace CommandReference.Text

/-- Whether a code point lies in one of the intervals, which come in increasing order. -/
def inIntervals : List (Nat × Nat) → Nat → Bool
  | [], _ => false
  | (first, last) :: later, code => first ≤ code && (code ≤ last || inIntervals later code)

end CommandReference.Text
