import CommandReference.Literal.Reader.Value
import Mathlib.Data.List.Infix

/-! The loops of the readers of literals, round by round. A round of a loop ends it or goes on behind
what it took. Every round that goes on takes something, so a loop ends within one round more than
there are characters, and then with what its reader gives. -/
namespace CommandReference.Literal.Reader
open Text

/-- What a round of a loop comes to: the result of the loop, or the state of the next round and what
is added to the result of the rounds that follow. -/
inductive Round (σ β : Type) where
  | ends (result : β)
  | goesOn (next : σ) (add : β → β)

section Loops
variable {σ β : Type}

/-- So many rounds of a loop, if it ends by then. -/
def runRounds (round : σ → Except Failure (Round σ β)) : Nat → σ → Option (Except Failure β)
  | 0, _ => none
  | count + 1, state =>
    match round state with
    | .error failure => some (.error failure)
    | .ok (.ends result) => some (.ok result)
    | .ok (.goesOn next add) => (runRounds round count next).map (Except.map add)

def Round.resume (reader : σ → Except Failure β) : Round σ β → Except Failure β
  | ends result => .ok result
  | goesOn next add => (reader next).map add

/-- Rounds that go on take something from the text of their state. -/
def Consumes (text : σ → List Char) (s : List Char) (outcome : Except Failure (Round σ β)) : Prop :=
  ∀ next add, outcome = .ok (.goesOn next add) → text next <:+ s ∧ (text next).length < s.length

/-- A reader is a loop of such rounds, which takes something in every round and so ends. -/
structure Loops (round : σ → Except Failure (Round σ β)) (text : σ → List Char)
    (reader : σ → Except Failure β) : Prop where
  consumes : ∀ state, Consumes text (text state) (round state)
  ends : ∀ state, runRounds round ((text state).length + 1) state = some (reader state)

private theorem runRounds_eq {round : σ → Except Failure (Round σ β)} {text : σ → List Char}
    {reader : σ → Except Failure β} (consumes : ∀ state, Consumes text (text state) (round state))
    (unroll : ∀ state, reader state = round state >>= Round.resume reader) {count : Nat} {state : σ}
    (enough : (text state).length < count) : runRounds round count state = some (reader state) := by
  -- Each round that goes on leaves less text, so the rounds left over stay enough for it.
  induction count generalizing state with
  | zero => exact absurd enough (Nat.not_lt_zero _)
  | succ count ih =>
    rw [runRounds, unroll state]
    cases outcome : round state with
    | error failure => rfl
    | ok turn =>
      cases turn with
      | ends result => rfl
      | goesOn next add =>
        have shorter := (consumes state next add outcome).2
        have later := ih (Nat.lt_of_lt_of_le shorter (Nat.le_of_lt_succ enough))
        exact congrArg (Option.map (Except.map add)) later

theorem loops_of_unroll {round : σ → Except Failure (Round σ β)} {text : σ → List Char}
    {reader : σ → Except Failure β} (consumes : ∀ state, Consumes text (text state) (round state))
    (unroll : ∀ state, reader state = round state >>= Round.resume reader) :
    Loops round text reader :=
  ⟨consumes, fun _ => runRounds_eq consumes unroll (Nat.lt_succ_self _)⟩

section Consumes
variable {α : Type} {text : σ → List Char} {s : List Char}

theorem consumes_ends (result : β) :
    Consumes text s (.ok (.ends result) : Except Failure (Round σ β)) := by
  rintro next add ⟨⟩

theorem consumes_error (failure : Failure) :
    Consumes text s (.error failure : Except Failure (Round σ β)) := by
  rintro next add ⟨⟩

theorem consumes_goesOn {next : σ} {add : β → β} (rest : ProperRest s) (here : text next = rest.1) :
    Consumes text s (.ok (.goesOn next add) : Except Failure (Round σ β)) := by
  rintro _ _ ⟨⟩
  exact here ▸ rest.2

theorem consumes_bind {result : Except Failure α} {later : α → Except Failure (Round σ β)}
    (each : ∀ a, Consumes text s (later a)) : Consumes text s (result >>= later) := by
  cases result with
  | error failure => exact consumes_error failure
  | ok a => exact each a

end Consumes

end Loops

/-- What a reader gives, without the proof that it leaves an end of the text. -/
abbrev given {α : Type} {p : List Char → Prop}
    (result : Except Failure (α × { r : List Char // p r })) : Except Failure (α × List Char) :=
  result.map (Prod.map id Subtype.val)

theorem unroll_bind {σ α β γ : Type} {see : γ → β} {result : Except Failure α}
    {later : α → Except Failure γ} {turn : α → Except Failure (Round σ β)}
    {reader : σ → Except Failure β}
    (each : ∀ a, (later a).map see = turn a >>= Round.resume reader) :
    (result >>= later).map see = (result >>= turn) >>= Round.resume reader := by
  cases result with
  | error failure => rfl
  | ok a => exact each a

theorem unroll_last {σ α β γ : Type} {see : γ → β} {seeRest : α → β} {result : Except Failure α}
    {later : α → Except Failure γ} {reader : σ → Except Failure β} {next : σ} {add : β → β}
    (same : reader next = result.map seeRest)
    (each : ∀ a, (later a).map see = .ok (add (seeRest a))) :
    (result >>= later).map see =
      (.ok (.goesOn next add) : Except Failure (Round σ β)) >>= Round.resume reader := by
  refine Eq.trans ?_ (congrArg (Except.map add) same).symm
  cases result with
  | error failure => rfl
  | ok a => exact each a

/-- The closing brace, or a field with what separates it from the next. -/
def fieldRound (s : List Char) :
    Except Failure (Round (List Char) (List (String × Literal) × List Char)) := do
  match ← next s with
  | none => throw ⟨.unterminatedObject, []⟩
  | some (c, r) =>
    if c = '}' then return .ends ([], r.1)
    let (name, t) ← key c r.1
    let u ← expect ':' t.1
    let (content, v) ← value u.1
    let w ← separator '}' .unterminatedObject v.1
    return .goesOn w.1 fun later => ((String.ofList name, content) :: later.1, later.2)

private theorem unroll_fields (s : List Char) :
    given (fields s) = fieldRound s >>= Round.resume fun s => given (fields s) := by
  rw [fields, fieldRound]
  refine unroll_bind fun found => ?_
  rcases found with _ | ⟨c, r⟩
  · rfl
  dsimp only
  split
  · rfl
  refine unroll_bind fun named => ?_
  refine unroll_bind fun u => ?_
  refine unroll_bind fun content => ?_
  refine unroll_bind fun w => ?_
  exact unroll_last rfl fun later => rfl

private theorem consumes_fieldRound (s : List Char) : Consumes id s (fieldRound s) := by
  rw [fieldRound]
  refine consumes_bind fun found => ?_
  rcases found with _ | ⟨c, r⟩
  · exact consumes_error _
  dsimp only
  split
  · exact consumes_ends _
  refine consumes_bind fun ⟨name, t⟩ => ?_
  refine consumes_bind fun u => ?_
  refine consumes_bind fun ⟨content, v⟩ => ?_
  refine consumes_bind fun w => ?_
  exact consumes_goesOn (r.andThen (t.andThen (u.andThen (v.andThen w).weaken).weaken)) rfl

theorem loops_fields : Loops fieldRound id fun s => given (fields s) :=
  loops_of_unroll consumes_fieldRound unroll_fields

/-- An item with what separates it from the next. -/
def oneItem (close : Char) (s : List Char) :
    Except Failure (Round (List Char) (List Literal × List Char)) := do
  let (item, v) ← value s
  let w ← separator close (.expected close none) v.1
  return .goesOn w.1 fun later => (item :: later.1, later.2)

/-- The closing bracket, or an item. -/
def itemRound (close : Char) (s : List Char) :
    Except Failure (Round (List Char) (List Literal × List Char)) := do
  match ← next s with
  | some (c, r) => if c = close then return .ends ([], r.1) else oneItem close s
  | none => oneItem close s

private theorem unroll_items (close : Char) (s : List Char) :
    given (items close s) = itemRound close s >>= Round.resume fun s => given (items close s) := by
  have more : given (do
      let found ← value s
      let w ← separator close (.expected close none) found.2.1
      let later ← items close w.1
      return (found.1 :: later.1, found.2.andProper (w.andProper later.2))) =
      oneItem close s >>= Round.resume fun s => given (items close s) := by
    rw [oneItem]
    refine unroll_bind fun found => ?_
    refine unroll_bind fun w => ?_
    exact unroll_last rfl fun later => rfl
  rw [items, itemRound]
  refine unroll_bind fun found => ?_
  rcases found with _ | ⟨c, r⟩
  · exact more
  · dsimp only
    split
    · rfl
    · exact more

private theorem consumes_itemRound (close : Char) (s : List Char) :
    Consumes id s (itemRound close s) := by
  have more : Consumes id s (oneItem close s) := by
    rw [oneItem]
    refine consumes_bind fun found => ?_
    refine consumes_bind fun w => ?_
    exact consumes_goesOn (found.2.andThen w) rfl
  rw [itemRound]
  refine consumes_bind fun found => ?_
  rcases found with _ | ⟨c, r⟩
  · exact more
  · dsimp only
    split
    · exact consumes_ends _
    · exact more

theorem loops_items (close : Char) : Loops (itemRound close) id fun s => given (items close s) :=
  loops_of_unroll (consumes_itemRound close) (unroll_items close)

/-- A string, a comment or a character of a function, inside so many brackets. -/
def callbackRound (state : Nat × List Char) :
    Except Failure (Round (Nat × List Char) (List Char)) :=
  match state with
  | (depth, []) => if depth = 0 then return .ends [] else throw ⟨.unterminatedCallback, []⟩
  | (depth, c :: r) => do
    if c = '\'' ∨ c = '"' then
      let (_, t) ← quoted (c :: r) c r
      return .goesOn (depth, t.1) id
    else if c = '`' then
      let (_, t) ← template (c :: r) r
      return .goesOn (depth, t.1) id
    else
      match ← comment (c :: r) with
      | some t => return .goesOn (depth, t.1) id
      | none =>
        if opensBracket c then return .goesOn (depth + 1, r) id
        else if depth = 0 ∧ (closesBracket c ∨ c = ',') then return .ends (c :: r)
        else if closesBracket c then return .goesOn (depth - 1, r) id
        else return .goesOn (depth, r) id

theorem unroll_callback (state : Nat × List Char) :
    (callback state.1 state.2).map Subtype.val = callbackRound state >>=
      Round.resume fun state => (callback state.1 state.2).map Subtype.val := by
  obtain ⟨depth, _ | ⟨c, r⟩⟩ := state
  · rw [callback, callbackRound]
    split
    · rfl
    · rfl
  · rw [callback, callbackRound]
    dsimp only
    split
    · refine unroll_bind fun found => ?_
      exact unroll_last rfl fun rest => rfl
    split
    · refine unroll_bind fun found => ?_
      exact unroll_last rfl fun rest => rfl
    refine unroll_bind fun found => ?_
    rcases found with _ | t
    · dsimp only
      split
      · exact unroll_last rfl fun rest => rfl
      split
      · rfl
      split
      · exact unroll_last rfl fun rest => rfl
      · exact unroll_last rfl fun rest => rfl
    · exact unroll_last rfl fun rest => rfl

private theorem consumes_callbackRound (state : Nat × List Char) :
    Consumes Prod.snd state.2 (callbackRound state) := by
  obtain ⟨depth, _ | ⟨c, r⟩⟩ := state
  · rw [callbackRound]
    split
    · exact consumes_ends _
    · exact consumes_error _
  · have next (add : List Char → List Char) (deeper : Nat) : Consumes Prod.snd (c :: r)
        (.ok (.goesOn (deeper, r) add) : Except Failure (Round (Nat × List Char) (List Char))) :=
      consumes_goesOn (ProperRest.tail c r) rfl
    rw [callbackRound]
    split
    · exact consumes_bind fun ⟨_, t⟩ => consumes_goesOn (t.behind c) rfl
    split
    · exact consumes_bind fun ⟨_, t⟩ => consumes_goesOn (t.behind c) rfl
    refine consumes_bind fun found => ?_
    rcases found with _ | t
    · dsimp only
      split
      · exact next _ _
      split
      · exact consumes_ends _
      split
      · exact next _ _
      · exact next _ _
    · exact consumes_goesOn t rfl

theorem loops_callback :
    Loops callbackRound Prod.snd fun state => (callback state.1 state.2).map Subtype.val :=
  loops_of_unroll consumes_callbackRound unroll_callback

end CommandReference.Literal.Reader
