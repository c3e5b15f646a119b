/-! Beginnings and ends of texts, and the size of a text in bytes. -/
namespace CommandReference.Text

def dropStart? : List Char → List Char → Option (List Char)
  | [], cs => some cs
  | _ :: _, [] => none
  | a :: start, c :: cs => if a = c then dropStart? start cs else none

theorem dropStart?_eq_some_iff {start cs rest : List Char} :
    dropStart? start cs = some rest ↔ cs = start ++ rest := by
  induction start generalizing cs with
  | nil => simp [dropStart?]
  | cons a start ih =>
    cases cs with
    | nil => simp [dropStart?]
    | cons c cs =>
      by_cases same : a = c
      · simp [dropStart?, same, ih]
      · simp [dropStart?, same, Ne.symm same]

def after? (start : String) (cs : List Char) : Option (List Char) := dropStart? start.toList cs

theorem after?_eq_some_iff {start : String} {cs rest : List Char} :
    after? start cs = some rest ↔ cs = start.toList ++ rest :=
  dropStart?_eq_some_iff

def before? (finish : String) (cs : List Char) : Option (List Char) :=
  (dropStart? finish.toList.reverse cs.reverse).map List.reverse

def startsWith (start : String) (cs : List Char) : Bool := (after? start cs).isSome

def afterFirst? (wanted : String) : List Char → Option (List Char)
  | [] => after? wanted []
  | c :: cs => (after? wanted (c :: cs)).or (afterFirst? wanted cs)

def byteSize : List Char → Nat
  | [] => 0
  | c :: rest => c.utf8Size + byteSize rest

end CommandReference.Text
