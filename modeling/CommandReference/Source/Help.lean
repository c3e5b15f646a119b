import CommandReference.Text.Blank
import CommandReference.Text.Lines
import CommandReference.Text.Part

/-! Help texts that run over several lines. An example callout is a `div` with a
`strong` heading on its second line that begins with "Example"; it goes up to the
first closing tag after the heading. Callouts are taken out with the blanks before
them, then trailing blanks and empty lines, and last the indentation that all lines
share. -/
namespace CommandReference.Help
open Text

/-- What follows the callout with which a text begins, blanks before it included. The
heading is longer than the word "Example" by one character at least. -/
def callout? (cs : List Char) : Option (List Char) := do
  let body ← after? "<div>\n" (trimStart cs)
  let heading ← after? "<strong>Example" (trimStart body)
  afterFirst? "</div>" (heading.drop 1)

theorem length_afterFirst?_le {wanted : String} {cs rest : List Char}
    (found : afterFirst? wanted cs = some rest) : rest.length ≤ cs.length := by
  induction cs with
  | nil =>
    rw [afterFirst?, after?_eq_some_iff] at found
    rw [found, List.length_append]
    omega
  | cons c cs ih =>
    rw [afterFirst?, Option.or_eq_some_iff, after?_eq_some_iff] at found
    rcases found with here | ⟨_, later⟩
    · rw [here, List.length_append]
      omega
    · have := ih later
      simp only [List.length_cons]
      omega

theorem length_trimStart_le (cs : List Char) : (trimStart cs).length ≤ cs.length :=
  (List.dropWhile_suffix isBlank).length_le

theorem length_callout?_lt {cs rest : List Char} (found : callout? cs = some rest) :
    rest.length < cs.length := by
  simp only [callout?, Option.bind_eq_bind, Option.bind_eq_some_iff, after?_eq_some_iff] at found
  obtain ⟨body, opened, heading, headed, closed⟩ := found
  have outer := length_trimStart_le cs
  have inner := length_trimStart_le body
  have ended := length_afterFirst?_le closed
  rw [opened, List.length_append] at outer
  rw [headed, List.length_append] at inner
  have : "<div>\n".toList.length = 6 := by decide
  simp only [List.length_drop] at ended
  omega

def withoutCallouts (cs : List Char) : List Char :=
  match _ : callout? cs with
  | some rest => withoutCallouts rest
  | none =>
    match cs with
    | [] => []
    | c :: later => c :: withoutCallouts later
termination_by cs.length
decreasing_by
  · exact length_callout?_lt (by assumption)
  · simp

def isIndent (c : Char) : Bool := c = ' ' || c = '\t'

def indentation (line : List Char) : Nat := (line.takeWhile isIndent).length

/-- Lines without trailing blanks; those that become empty are left out. -/
def retained (cs : List Char) : List (List Char) :=
  ((lines cs).map trimEnd).filter (· ≠ [])

def outdent (texts : List (List Char)) : List (List Char) :=
  let shared := ((texts.map indentation).min?).getD 0
  texts.map (·.drop shared)

def normalize (raw : String) : String :=
  let texts := outdent (retained (withoutCallouts raw.toList))
  String.ofList (List.intercalate ['\n'] texts)

end CommandReference.Help
