import CommandReference.Proofs.Literal.Accord.Values
import CommandReference.Proofs.Literal.Failures

/-! Positions in a text that is read as a literal. Wherever reading begins between two characters, it
comes to an end between two characters: further on if it succeeds, and not before its start if it
fails. Nothing is cut out of the text on the way but between two characters. -/
namespace CommandReference
open Text

namespace Literal.Reader

/-- Reads the literal that stands at a position, and tells where it ends. -/
def valueAt (text : List Char) (position : Nat) : Option (Except Error (Literal × Nat)) :=
  (restAt? text position).map fun s =>
    ((value s).map fun found => (found.1, byteSize text - byteSize found.2.1)).mapError fun failure =>
      ⟨failure.problem, byteSize text - byteSize failure.rest⟩

section ValueAt
variable {text s : List Char} {position : Nat} (found : restAt? text position = some s)
include found

theorem valueAt_of_ok {result : Literal × ProperRest s} (read : value s = .ok result) :
    valueAt text position = some (.ok (result.1, byteSize text - byteSize result.2.1)) := by
  rw [valueAt, found, Option.map_some, read]
  rfl

theorem valueAt_of_error {failure : Failure} (read : value s = .error failure) :
    valueAt text position =
      some (.error ⟨failure.problem, byteSize text - byteSize failure.rest⟩) := by
  rw [valueAt, found, Option.map_some, read]
  rfl

end ValueAt

private theorem exists_valueAt (text : String) {position : Nat}
    (boundary : String.Pos.Raw.IsValid text ⟨position⟩) :
    ∃ outcome, valueAt text.toList position = some outcome ∧
      (∀ literal stop, outcome = .ok (literal, stop) →
        position < stop ∧ stop ≤ text.utf8ByteSize ∧ String.Pos.Raw.IsValid text ⟨stop⟩) ∧
      ∀ error, outcome = .error error →
        position ≤ error.offset ∧ error.offset ≤ text.utf8ByteSize ∧
          String.Pos.Raw.IsValid text ⟨error.offset⟩ := by
  obtain ⟨s, found⟩ := isValid_iff.1 boundary
  obtain ⟨before, shape, size⟩ := restAt?_eq_some_iff.1 found
  have start : s <:+ text.toList := ⟨before, shape.symm⟩
  have total : byteSize text.toList = position + byteSize s := by
    rw [shape, byteSize_append, size]
  rw [utf8ByteSize_eq]
  -- Both a rest and the place of a failure are ends of `s`, and so of the text.
  cases read : value s with
  | ok result =>
    refine ⟨_, valueAt_of_ok found read, ?_, fun error failed => by cases failed⟩
    rintro literal stop ⟨⟩
    obtain ⟨inside, shorter⟩ := result.2.2
    have less := byteSize_lt_of_suffix inside shorter
    exact ⟨by omega, Nat.sub_le _ _, isValid_of_suffix (inside.trans start)⟩
  | error failure =>
    refine ⟨_, valueAt_of_error found read, fun literal stop done => (by cases done), ?_⟩
    rintro error ⟨⟩
    have inside := failsIn_value_items_fields.1 s failure read
    have less := byteSize_le_of_suffix inside
    refine ⟨?_, Nat.sub_le _ _, isValid_of_suffix (inside.trans start)⟩
    dsimp only
    omega

private theorem outcome_readValue (text : List Char) {rounds : Nat}
    (enough : 2 * text.length + 2 < rounds) (position : Nat) :
    (Walk.readValue text rounds).outcome position = valueAt text position := by
  cases found : restAt? text position with
  | none =>
    obtain ⟨rounds, rfl⟩ := Nat.exists_eq_add_of_lt (Nat.lt_of_le_of_lt (Nat.le_add_left 2 _) enough)
    have nowhere : (Walk.rest text).outcome position = none := by
      change (liftM (restAt? text position) : Walk (List Char)).outcome position = none
      rw [found]
      rfl
    have trivia : (Walk.passTrivia text (2 + rounds)).outcome position = none := by
      rw [Nat.add_comm, Walk.passTrivia]
      exact outcome_bind_of_none nowhere
    rw [valueAt, found, Walk.readValue]
    exact outcome_bind_of_none trivia
  | some s =>
    obtain ⟨rfl, inside⟩ := offset_eq_of_restAt? found
    have fewer := inside.length_le
    rw [((accords_value_items_fields text).1 s rounds (by omega) inside).1]
    cases read : value s with
    | ok result => exact (valueAt_of_ok found read).symm
    | error failure => exact (valueAt_of_error found read).symm

private theorem outcome_readLiteral (text : String) {rounds : Nat}
    (enough : 2 * text.toList.length + 2 < rounds) :
    ((Walk.readLiteral text.toList rounds).outcome 0).map (Except.map Prod.fst) =
      some (parse text) := by
  have start : offset text.toList text.toList = 0 := Nat.sub_self _
  rw [← start, (accords_readLiteral text.toList text.toList enough (List.suffix_refl _)).1, parse]
  cases complete text.toList with
  | ok literal => rfl
  | error failure => rfl

private theorem exists_of_parse {text : String} {error : Error}
    (failed : parse text = .error error) :
    ∃ start, start <+: text.toList ∧ byteSize start = error.offset := by
  rw [parse] at failed
  cases read : complete text.toList with
  | ok literal =>
    rw [read] at failed
    cases failed
  | error failure =>
    rw [read] at failed
    cases failed
    obtain ⟨start, shape⟩ := failsIn_complete _ failure read
    refine ⟨start, ⟨_, shape⟩, ?_⟩
    dsimp only
    rw [← shape, byteSize_append, Nat.add_sub_cancel]

/-- Reading makes progress and never leaves the text. A walk along the text, given rounds enough, has
an outcome from every boundary between characters, so it makes all its cuts at boundaries and comes
to an end: at a later boundary, or with an error at a boundary that is not before its start. The
loops take something in every round that goes on. And a text that is no literal is refused at the
size of one of its beginnings. -/
theorem valueAt_progress (text : String) :
    (∀ rounds, 2 * text.toList.length + 2 < rounds →
      (∀ position,
        (Walk.readValue text.toList rounds).outcome position = valueAt text.toList position) ∧
      ((Walk.readLiteral text.toList rounds).outcome 0).map (Except.map Prod.fst) =
        some (parse text)) ∧
    (∀ position, String.Pos.Raw.IsValid text ⟨position⟩ →
      ∃ outcome, valueAt text.toList position = some outcome ∧
        (∀ literal stop, outcome = .ok (literal, stop) →
          position < stop ∧ stop ≤ text.utf8ByteSize ∧ String.Pos.Raw.IsValid text ⟨stop⟩) ∧
        ∀ error, outcome = .error error →
          position ≤ error.offset ∧ error.offset ≤ text.utf8ByteSize ∧
            String.Pos.Raw.IsValid text ⟨error.offset⟩) ∧
    Loops fieldRound id (fun s => given (fields s)) ∧
    (∀ close, Loops (itemRound close) id fun s => given (items close s)) ∧
    Loops callbackRound Prod.snd (fun state => (callback state.1 state.2).map Subtype.val) ∧
    ∀ error, parse text = .error error →
      ∃ start, start <+: text.toList ∧ byteSize start = error.offset :=
  ⟨fun _ enough => ⟨outcome_readValue _ enough, outcome_readLiteral text enough⟩,
    fun _ => exists_valueAt text, loops_fields, loops_items, loops_callback,
    fun _ => exists_of_parse⟩

theorem eq_error_of_map {α β ε : Type} {result : Except ε α} {f : α → β} {error : ε}
    (failed : result.map f = .error error) : result = .error error := by
  cases result with
  | error cause => exact congrArg Except.error (Except.error.inj failed)
  | ok a => cases failed

/-- The name in front has two bytes, and nothing can be read between them. Reading at its end finds a
string that is not closed, and a whole literal is refused behind the name. -/
theorem valueAt_progress_unclosed :
    (∃ name, (Walk.readValue "é['b".toList 11).outcome 0 = some (.ok (name, 2)) ∧
      0 < 2 ∧ 2 ≤ "é['b".utf8ByteSize ∧ String.Pos.Raw.IsValid "é['b" ⟨2⟩) ∧
    (Walk.readValue "é['b".toList 11).outcome 1 = none ∧
    ((Walk.readValue "é['b".toList 11).outcome 2 = some (.error ⟨.unterminatedString, 3⟩) ∧
      2 ≤ 3 ∧ 3 ≤ "é['b".utf8ByteSize ∧ String.Pos.Raw.IsValid "é['b" ⟨3⟩) ∧
    parse "é['b" = .error ⟨.trailingInput, 2⟩ ∧
      ∃ start, start <+: "é['b".toList ∧ byteSize start = 2 := by
  obtain ⟨follows, reads, -, -, -, places⟩ := valueAt_progress "é['b"
  obtain ⟨walks, -⟩ := follows 11 (by decide)
  obtain ⟨first, named, ends, -⟩ := reads 0 (by decide)
  obtain ⟨second, opened, -, fails⟩ := reads 2 (by decide)
  have atStart : (valueAt "é['b".toList 0).map (Except.map Prod.snd) = some (.ok 2) := by
    decide +kernel
  have behindName : (valueAt "é['b".toList 2).map (Except.map Prod.snd) =
      some (.error ⟨.unterminatedString, 3⟩) := by
    decide +kernel
  have refused : parse "é['b" = .error ⟨.trailingInput, 2⟩ :=
    eq_error_of_map (f := fun _ => ()) (by decide +kernel)
  rw [named] at atStart
  rw [opened] at behindName
  rcases first with error | ⟨name, stop⟩
  · cases atStart
  · cases atStart
    have failed := eq_error_of_map (Option.some.inj behindName)
    exact ⟨⟨name, (walks 0).trans named, ends name 2 rfl⟩, (walks 1).trans rfl,
      ⟨(walks 2).trans (failed ▸ opened), fails _ failed⟩, refused, places _ refused⟩

end Literal.Reader

end CommandReference
