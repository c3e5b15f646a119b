/-! Lines of a text. A line feed ends a line; `rawLines` keeps it at the end of its
line, and `lines` drops it together with one carriage return before it. The last
line need not be ended, and then keeps its carriage return. -/
namespace CommandReference.Text

/-- The lines of a text, each with its line feed; their concatenation is the text. -/
def rawLines : List Char → List (List Char)
  | [] => []
  | c :: cs =>
    if c = '\n' then [c] :: rawLines cs
    else
      match rawLines cs with
      | [] => [[c]]
      | line :: later => (c :: line) :: later

/-- A line without its ending, a line feed with at most one carriage return before it. -/
def withoutEnding (line : List Char) : List Char :=
  match line.reverse with
  | '\n' :: '\r' :: rest => rest.reverse
  | '\n' :: rest => rest.reverse
  | _ => line

def lines (cs : List Char) : List (List Char) := (rawLines cs).map withoutEnding

end CommandReference.Text
