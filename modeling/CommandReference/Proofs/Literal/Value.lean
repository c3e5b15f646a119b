import CommandReference.Proofs.Literal.Sequence

/-! What the readers of literals, fields and items do to a text, as equations between
options. -/
namespace CommandReference.Literal.Reader
open Text Grammar

/-- What is read behind an opening parenthesis. -/
def callFrom (callee : String) (w : List Char) : Option (Literal × List Char) :=
  (taken (items ')' w)).map fun found => (.call callee found.1, found.2)

/-- What is read behind a name that is no word of the language; `u` is what follows the trivia
after it. -/
def plainFrom (name : String) (t u : List Char) : Option (Literal × List Char) :=
  if ['=', '>'] <+: u then (left (callback 0 t)).map fun rest => (.callback, rest)
  else if u.head? = some '(' then (left (expect '(' u)).bind fun w => callFrom name w
  else some (.path name, t)

section Plain
variable {u r : List Char} (name : String) (t : List Char)

theorem plainFrom_arrow (arrow : u = '=' :: '>' :: r) :
    plainFrom name t u = (left (callback 0 t)).map fun rest => (.callback, rest) :=
  if_pos ⟨r, arrow.symm⟩

theorem plainFrom_opens (opens : u = '(' :: r) :
    plainFrom name t u = (left (expect '(' u)).bind fun w => callFrom name w := by
  have arrow : ¬ ['=', '>'] <+: u := by
    rw [opens]
    rintro ⟨later, same⟩
    cases same
  exact (if_neg arrow).trans (if_pos (List.head?_eq_some_iff.2 ⟨r, opens⟩))

theorem plainFrom_path (arrow : ∀ r, u ≠ '=' :: '>' :: r) (opens : ∀ r, u ≠ '(' :: r) :
    plainFrom name t u = some (.path name, t) := by
  have noArrow : ¬ ['=', '>'] <+: u := fun ⟨r, same⟩ => arrow r same.symm
  have notOpen : u.head? ≠ some '(' := by
    intro head
    obtain ⟨r, same⟩ := List.head?_eq_some_iff.1 head
    exact opens r same
  exact (if_neg noArrow).trans (if_neg notOpen)

end Plain

/-- What is read behind a name. -/
def namedFrom (name : String) (t : List Char) : Option (Literal × List Char) :=
  match name with
  | "true" => some (.bool true, t)
  | "false" => some (.bool false, t)
  | "null" | "undefined" => some (.null, t)
  | "async" | "function" => (left (callback 0 t)).map fun rest => (.callback, rest)
  | "new" =>
    (left (trivia t)).bind fun u =>
      (taken (path u)).bind fun callee =>
        (left (expect '(' callee.2)).bind fun w => callFrom (String.ofList callee.1) w
  | name => (left (trivia t)).bind fun u => plainFrom name t u

theorem namedFrom_of_notMem {name : String} (free : name ∉ reserved) (t : List Char) :
    namedFrom name t = (left (trivia t)).bind fun u => plainFrom name t u := by
  simp only [reserved, List.mem_cons, List.not_mem_nil, or_false, not_or] at free
  obtain ⟨isTrue, isFalse, isNull, undefined, async, function, new⟩ := free
  rw [namedFrom]
  all_goals assumption

/-- What is read from the first character of a literal on. -/
def valueFrom (c : Char) (r : List Char) : Option (Literal × List Char) :=
  if c = '{' then (taken (fields r)).map fun found => (.object found.1, found.2)
  else if c = '[' then (taken (items ']' r)).map fun found => (.array found.1, found.2)
  else if c = '\'' ∨ c = '"' then
    (taken (quoted (c :: r) c r)).map fun found => (.string (String.ofList found.1), found.2)
  else if c = '`' then
    (taken (template (c :: r) r)).map fun found =>
      (.template (String.ofList (r.take (r.length - found.2.length - 1))) found.1, found.2)
  else if c = '(' then (left (callback 1 r)).map fun rest => (.callback, rest)
  else if c = '-' ∨ c = '+' ∨ isDigit c = true then
    (taken (number c r)).map fun found => (.number (String.ofList found.1), found.2)
  else if isIdentifierStart c = true then
    (taken (path (c :: r))).bind fun found => namedFrom (String.ofList found.1) found.2
  else none

def wordFrom (s : List Char) : Option (Literal × List Char) :=
  match s with
  | [] => none
  | c :: r => valueFrom c r

theorem taken_value (s : List Char) : taken (value s) = (left (trivia s)).bind wordFrom := by
  have step : taken (value s) = (leftNext s).bind fun found =>
      match found with
      | none => none
      | some (c, r) => valueFrom c r := by
    rw [value]
    refine seen_bind fun found => ?_
    rcases found with _ | ⟨c, r⟩
    · rfl
    simp only [Option.map_some, Prod.map_apply, id]
    rw [valueFrom]
    rw [seen_ite, seen_ite, seen_ite, seen_ite, seen_ite, seen_ite, seen_ite]
    congr 1
    · exact seen_map fun found => rfl
    congr 1
    · exact seen_map fun found => rfl
    congr 1
    · exact seen_map fun found => rfl
    congr 1
    · exact seen_map fun found => rfl
    congr 1
    · exact seen_map fun found => rfl
    congr 1
    · exact seen_map fun found => rfl
    congr 1
    · refine seen_bind fun found => ?_
      obtain ⟨name, tail⟩ := found
      simp only [Prod.map_apply, id]
      generalize String.ofList name = name
      split
      · rfl
      · rfl
      · rfl
      · rfl
      · exact seen_map fun rest => rfl
      · exact seen_map fun rest => rfl
      · refine seen_bind fun u => ?_
        refine seen_bind fun callee => ?_
        refine seen_bind fun w => ?_
        exact seen_map fun rest => rfl
      · rw [namedFrom]
        · refine seen_bind fun u => ?_
          split
          · next arrow =>
            rw [plainFrom_arrow name _ arrow]
            exact seen_map fun rest => rfl
          · next opens =>
            rw [plainFrom_opens name _ opens]
            refine seen_bind fun w => ?_
            exact seen_map fun rest => rfl
          · next arrow opens =>
            rw [plainFrom_path name _ arrow opens]
            rfl
        all_goals assumption
  rw [step, leftNext_eq, Option.bind_map]
  congr 1
  funext t
  cases t with
  | nil => rfl
  | cons c r => rfl

/-- One field, with the trivia before it. -/
def fieldFrom (s : List Char) : Option ((String × Literal) × List Char) :=
  (left (trivia s)).bind fun t =>
    match t with
    | [] => none
    | c :: r =>
      (taken (key c r)).bind fun named =>
        (left (expect ':' named.2)).bind fun u =>
          (taken (value u)).map fun content =>
            ((String.ofList named.1, content.1), content.2)

/-- The first item, and the items behind it. -/
def itemsFrom (close : Char) (s : List Char) : Option (List Literal × List Char) :=
  (taken (value s)).bind fun item =>
    (left (separator close (.expected close none) item.2)).bind fun w =>
      (taken (items close w)).map fun later => (item.1 :: later.1, later.2)

theorem readsItems_items (close : Char) :
    ReadsItems close (fun s => taken (value s)) (fun s => taken (items close s)) := by
  refine ⟨.expected close none, fun s => ?_⟩
  have step : taken (items close s) = (leftNext s).bind fun found =>
      match found with
      | none => itemsFrom close s
      | some (c, r) => if c = close then some ([], r) else itemsFrom close s := by
    rw [items]
    refine seen_bind fun found => ?_
    have more : taken (do
        let first ← value s
        let w ← separator close (.expected close none) first.2.1
        let later ← items close w.1
        return (first.1 :: later.1, first.2.andProper (w.andProper later.2))) =
        itemsFrom close s := by
      refine seen_bind fun item => ?_
      refine seen_bind fun w => ?_
      exact seen_map fun later => rfl
    rcases found with _ | ⟨c, r⟩
    · exact more
    · exact (seen_ite _ _ _ _).trans (congrArg _ more)
  dsimp only
  rw [step, leftNext_eq, ← itemsFrom]
  rcases left (trivia s) with _ | _ | ⟨c, r⟩
  · rfl
  · rfl
  · simp only [Option.map_some, Option.bind_some, List.head?_cons, Option.some.injEq,
      List.tail_cons]

theorem readsItems_fields :
    ReadsItems '}' fieldFrom (fun s => taken (fields s)) := by
  refine ⟨.unterminatedObject, fun s => ?_⟩
  have step : taken (fields s) = (leftNext s).bind fun found =>
      match found with
      | none => none
      | some (c, r) =>
        if c = '}' then some ([], r)
        else (taken (key c r)).bind fun named =>
          (left (expect ':' named.2)).bind fun u =>
            (taken (value u)).bind fun content =>
              (left (separator '}' .unterminatedObject content.2)).bind fun w =>
                (taken (fields w)).map fun later =>
                  ((String.ofList named.1, content.1) :: later.1, later.2) := by
    rw [fields]
    refine seen_bind fun found => ?_
    rcases found with _ | ⟨c, r⟩
    · rfl
    · rw [seen_ite]
      refine congrArg _ ?_
      refine seen_bind fun named => ?_
      refine seen_bind fun u => ?_
      refine seen_bind fun content => ?_
      refine seen_bind fun w => ?_
      exact seen_map fun later => rfl
  dsimp only
  rw [step, leftNext_eq, fieldFrom]
  rcases left (trivia s) with _ | _ | ⟨c, r⟩
  · rfl
  · rfl
  · simp only [Option.map_some, Option.bind_some, List.head?_cons, Option.some.injEq,
      List.tail_cons, Option.bind_assoc, Option.bind_map]
    rfl

end CommandReference.Literal.Reader
