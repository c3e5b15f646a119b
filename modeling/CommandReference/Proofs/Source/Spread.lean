import CommandReference.Proofs.Literal.Balance
import CommandReference.Proofs.Source.Steps
import CommandReference.Proofs.Text.Lines

/-! A declaration on one line and the same declaration over several lines. On one line the literal
is told by its braces, over several lines by the indentation of the last; where the tokens are the
same, the scanner is left in the same state. -/
namespace CommandReference
open Text

def ArgumentKind.opening : ArgumentKind → String
  | named => "SlashCommandNamedArgument.fromProps("
  | unnamed => "SlashCommandArgument.fromProps("

def ArgumentKind.declaration (kind : ArgumentKind) (indent literal : List Char) : List Char :=
  indent ++ kind.opening.toList ++ literal ++ "),".toList

namespace Literal

/-- The text of an object on one line, in which every token stands for itself. -/
structure Compact (text : List Char) (literal : Literal) : Prop where
  opens : text.head? = some '{'
  closes : text.getLast? = some '}'
  oneLine : '\n' ∉ text
  bare : Uncommented text
  reads : parse (String.ofList text) = .ok literal
  still : Static literal

theorem Compact.value {text : List Char} {literal : Literal} (compact : Compact text literal) :
    Grammar.Value text literal :=
  value_of_parse compact.reads compact.still.callbackFree compact.bare
    (trimmed_of_braces compact.opens compact.closes)

theorem tokens_flatMap {whole : List (List Char)}
    (outside : ∀ line ∈ whole, placeAfter .outside line = .outside) (last : List Char) :
    tokens (whole.flatMap (· ++ ['\n']) ++ last) = whole.flatMap tokens ++ tokens last := by
  induction whole with
  | nil => rfl
  | cons line whole ih =>
    rw [List.forall_mem_cons] at outside
    rw [List.flatMap_cons, List.append_assoc, List.append_assoc, List.singleton_append,
      tokens_append_blank outside.1 (by decide), ih outside.2, List.flatMap_cons, List.append_assoc]

private theorem outside_of_lines {whole : List (List Char)} {last : List Char}
    (unbroken : ∀ token ∈ tokens (whole.flatMap (· ++ ['\n']) ++ last), '\n' ∉ token) :
    ∀ line ∈ whole, placeAfter .outside line = .outside := by
  induction whole with
  | nil => exact List.forall_mem_nil _
  | cons line whole ih =>
    rw [List.flatMap_cons, List.append_assoc, List.append_assoc, List.singleton_append] at unbroken
    have outside : placeAfter .outside line = .outside := by
      by_contra inside
      obtain ⟨token, member, broken⟩ := exists_mem_tokens inside '\n' _
      exact unbroken token member broken
    rw [tokens_append_blank outside (by decide)] at unbroken
    exact List.forall_mem_cons.2
      ⟨outside, ih fun token member => unbroken token (List.mem_append_right _ member)⟩

theorem lineContent_outside {line : List Char} (outside : placeAfter .outside line = .outside) :
    placeAfter .outside (lineContent line) = .outside ∧ tokens (lineContent line) = tokens line := by
  rcases lineContent_cases line with same | returned
  · rw [same]
    exact ⟨outside, rfl⟩
  · rw [returned] at outside
    have ahead := tokens_append_return outside
    rw [← returned] at ahead
    exact ⟨ahead.1, ahead.2.symm⟩

private theorem tokens_map_lineContent {whole : List (List Char)}
    (outside : ∀ line ∈ whole, placeAfter .outside line = .outside) (last : List Char) :
    tokens ((whole.map lineContent).flatMap (· ++ ['\n']) ++ last) =
      tokens (whole.flatMap (· ++ ['\n']) ++ last) := by
  have each : ∀ line ∈ whole.map lineContent, placeAfter .outside line = .outside := by
    rw [List.forall_mem_map]
    exact fun line member => (lineContent_outside (outside line member)).1
  rw [tokens_flatMap each, tokens_flatMap outside, List.flatMap_map]
  congr 1
  exact List.flatMap_congr fun line member => (lineContent_outside (outside line member)).2

section Collected
variable {text first : List Char} {literal : Literal} {middle : List (List Char)}
  (compact : Compact text literal) (brace : first.head? = some '{')
  (same : tokens ((first :: middle).flatMap (· ++ ['\n']) ++ ['}']) = tokens text)
include brace

include compact same

end Collected

end Literal

namespace Line

theorem group?_eq_none {line : List Char} (other : startsWith "// GROUP:" line = false) :
    group? line = none := by
  rw [group?, after?_eq_none_iff.2 other]
  rfl

private theorem command?_eq_none {line : List Char}
    (other : startsWith "SlashCommandParser.addCommandObject(SlashCommand.fromProps(\x7b" line =
      false) : command? line = none := by
  rw [command?, after?_eq_none_iff.2 other]
  rfl

theorem head?_opening (kind : ArgumentKind) (body : List Char) :
    ∀ c ∈ (kind.opening.toList ++ body).head?, isBlank c = false := by
  intro c first
  cases kind with
  | named =>
    cases first
    decide
  | unnamed =>
    cases first
    decide

section Indented
variable {indent : List Char} (white : Literal.Blanks indent)
include white

theorem startsWith_indent {start : String} {c : Char} {later text : List Char}
    (begins : start.toList = c :: later) (token : isBlank c = false)
    (other : startsWith start text = false) : startsWith start (indent ++ text) = false := by
  cases indent with
  | nil => exact other
  | cons b indent =>
    rw [← Bool.not_eq_true, startsWith_iff, begins, List.cons_append, List.cons_prefix_cons]
    rintro ⟨rfl, -⟩
    cases token.symm.trans (white c List.mem_cons_self)

theorem inner_indent {text : List Char} (marker : startsWith "// GROUP:" text = false)
    (start : startsWith "SlashCommandParser.addCommandObject(SlashCommand.fromProps(\x7b" text =
      false) : Inner (indent ++ text) :=
  ⟨group?_eq_none (startsWith_indent white rfl (by decide) marker),
    command?_eq_none (startsWith_indent white rfl (by decide) start)⟩

theorem trimStart_indent {text : List Char} (first : ∀ c ∈ text.head?, isBlank c = false) :
    trimStart (indent ++ text) = text := dropWhile_run white first

theorem indented_append {text : List Char} (first : ∀ c ∈ text.head?, isBlank c = false) :
    indented (indent ++ text) = (byteSize indent, text) := by
  rw [indented, trimStart_indent white first, takeWhile_run white first]

theorem inner_opening (kind : ArgumentKind) (body : List Char) :
    Inner (indent ++ (kind.opening.toList ++ body)) := by
  refine inner_indent white ?_ ?_
  · cases kind with
    | named => rfl
    | unnamed => rfl
  · cases kind with
    | named => rfl
    | unnamed => rfl

private theorem helpValue?_opening (kind : ArgumentKind) (body : List Char) :
    helpValue? (indent ++ (kind.opening.toList ++ body)) = none := by
  rw [helpValue?, trimStart_indent white (head?_opening kind body)]
  cases kind with
  | named => rfl
  | unnamed => rfl

private theorem construction?_indent {constructor : String} {body : List Char}
    (token : ∀ c ∈ (constructor.toList ++ body).head?, isBlank c = false)
    (brace : body.head? = some '{') (oneLine : '\n' ∉ body) :
    construction? constructor (indent ++ (constructor.toList ++ body)) =
      some (byteSize indent, body) := by
  have opens : startsWith "\x7b" body = true := by
    obtain ⟨rest, rfl⟩ := List.head?_eq_some_iff.1 brace
    rfl
  have whole : onOneLine body = true := List.all_eq_true.2 (bne_of_notMem oneLine)
  rw [construction?, indented_append white token]
  simp only [after?_append, Option.bind_eq_bind, Option.bind_some, opens, whole, and_self, if_true]

private theorem argumentStart?_opening (kind : ArgumentKind) {body : List Char}
    (brace : body.head? = some '{') (oneLine : '\n' ∉ body) :
    Scanner.argumentStart? (indent ++ (kind.opening.toList ++ body)) =
      some (kind, byteSize indent, body) := by
  have token := head?_opening kind body
  have found := construction?_indent white token brace oneLine
  cases kind with
  | named =>
    rw [Scanner.argumentStart?, namedArgument?]
    rw [ArgumentKind.opening] at found ⊢
    rw [found]
    rfl
  | unnamed =>
    have other : namedArgument? (indent ++ (ArgumentKind.unnamed.opening.toList ++ body)) = none := by
      rw [namedArgument?, construction?, indented_append white token]
      rfl
    rw [Scanner.argumentStart?, other, unnamedArgument?]
    rw [ArgumentKind.opening] at found ⊢
    rw [found]
    rfl

end Indented

theorem inner_of_trimStart {line text : List Char} (begins : trimStart line = text)
    (marker : startsWith "// GROUP:" text = false)
    (start : startsWith "SlashCommandParser.addCommandObject(SlashCommand.fromProps(\x7b" text =
      false) : Inner line := by
  have shape : line = line.takeWhile isBlank ++ text := by
    rw [← begins]
    exact List.takeWhile_append_dropWhile.symm
  rw [shape]
  apply inner_indent
  · intro c member
    exact List.mem_takeWhile_imp member
  · exact marker
  · exact start

end Line

namespace Scanner

/-- Feeds lines that have the numbers from `number` on, whatever becomes of each, and collects the
errors. -/
def feedLines (number : Nat) : List (List Char) → Scanner → Scanner × List SourceError
  | [], scanner => (scanner, [])
  | line :: later, scanner =>
    let fed := scanner.feed number line
    let rest := feedLines (number + 1) later fed.1
    (rest.1, fed.2.toList ++ rest.2)

/-- What a declaration of a literal does: the open command gets the argument, or the literal has
the wrong shape and the command is given up. -/
def declared (number : Nat) (command : CommandRef) (kind : ArgumentKind) (literal : Literal)
    (scanner : Scanner) : Scanner × List SourceError :=
  match Argument.ofLiteral literal with
  | .ok argument =>
    ({ scanner with
        registry := scanner.registry.updateAt command (·.addArgument kind argument)
        state := .opened command }, [])
  | .error cause =>
    let name := ((scanner.registry.command? command).map (·.name)).getD ""
    ({ scanner with state := .idle }, [.field number name cause])

variable {scanner : Scanner} {command : CommandRef}

theorem advanced_opening (opened : scanner.state = .opened command) {indent body : List Char}
    (white : Literal.Blanks indent) (kind : ArgumentKind) (brace : body.head? = some '{')
    (oneLine : '\n' ∉ body) (number : Nat) :
    scanner.advanced number (indent ++ (kind.opening.toList ++ body)) =
      (Literal.balancedBlock? body).elim
        (.ok { scanner with state := .inArgument command kind (byteSize indent) (body ++ ['\n']) })
        (scanner.past <| declare number command kind ·) := by
  have inner := Line.inner_opening white kind body
  have unhelpful := Line.helpValue?_opening white kind body
  have noHelp : Line.help? (indent ++ (kind.opening.toList ++ body)) = none := by
    rw [Line.help?, unhelpful]
    rfl
  have noOpening : Line.opensHelp (indent ++ (kind.opening.toList ++ body)) = false := by
    rw [Line.opensHelp, unhelpful]
  rw [advanced_of_inner inner, opened, advanceState, advanceOpened, noHelp]
  simp only [noOpening, Line.argumentStart?_opening white kind brace oneLine]
  cases Literal.balancedBlock? body with
  | none => rfl
  | some block => rfl

end Scanner

/-- A text with the tokens of a literal, spread over the lines of its declaration. The last line
holds nothing but the end of the declaration, and no line before it would end the declaration or
begin another command. -/
structure ArgumentKind.Spread (kind : ArgumentKind) (indent text spread : List Char) : Prop where
  same : Literal.tokens spread = Literal.tokens text
  opens : spread.head? = some '{'
  broken : ∃ before finish, spread = before ++ '\n' :: finish ++ ['}'] ∧ Literal.Blanks finish ∧
    '\n' ∉ finish ∧ byteSize finish ≤ byteSize indent
  inside : ∀ line ∈ (lines (kind.declaration indent spread)).tail.dropLast,
    Line.command? line = none ∧ (Line.closesArgument? line).any (· ≤ byteSize indent) = false

section Declaration
variable {kind : ArgumentKind} {indent text spread : List Char} {literal : Literal}

private theorem ArgumentKind.notMem_opening (kind : ArgumentKind) : '\n' ∉ kind.opening.toList := by
  cases kind with
  | named => decide
  | unnamed => decide

private theorem lines_declaration (oneLine : '\n' ∉ indent) {first finish : List Char}
    {middle : List (List Char)} (some : first ≠ []) (unbroken : ∀ line ∈ first :: middle, '\n' ∉ line)
    (noBreak : '\n' ∉ finish) :
    lines (kind.declaration indent
      ((first :: middle).flatMap (· ++ ['\n']) ++ (finish ++ ['}']))) =
      (indent ++ (kind.opening.toList ++ lineContent first)) ::
        (middle.map lineContent ++ [finish ++ "\x7d),".toList]) := by
  have shape : kind.declaration indent
      ((first :: middle).flatMap (· ++ ['\n']) ++ (finish ++ ['}'])) =
      ((indent ++ (kind.opening.toList ++ first)) :: middle).flatMap (· ++ ['\n']) ++
        (finish ++ "\x7d),".toList) := by
    simp [ArgumentKind.declaration]
  rw [List.forall_mem_cons] at unbroken
  have each : ∀ line ∈ (indent ++ (kind.opening.toList ++ first)) :: middle, '\n' ∉ line := by
    refine List.forall_mem_cons.2 ⟨?_, unbroken.2⟩
    simp only [List.mem_append, not_or]
    exact ⟨oneLine, kind.notMem_opening, unbroken.1⟩
  have last : '\n' ∉ finish ++ "\x7d),".toList := by
    rw [List.mem_append, not_or]
    exact ⟨noBreak, by decide⟩
  have begun : kind.opening.toList ++ first ≠ [] := by simp [some]
  rw [shape, lines_flatMap_append each last (by simp), List.map_cons, lineContent_append _ begun,
    lineContent_append _ some, List.cons_append]

private theorem count_flatMap {whole : List (List Char)} (unbroken : ∀ line ∈ whole, '\n' ∉ line) :
    (whole.flatMap (· ++ ['\n'])).count '\n' = whole.length := by
  induction whole with
  | nil => rfl
  | cons line whole ih =>
    rw [List.forall_mem_cons] at unbroken
    rw [List.flatMap_cons, List.count_append, List.count_append, List.count_eq_zero.2 unbroken.1,
      ih unbroken.2, List.length_cons]
    simp [Nat.add_comm]

/-- The lines of a spread declaration, and the tokens of what is collected from them. -/
theorem ArgumentKind.Spread.exists_lines (spreads : kind.Spread indent text spread)
    (compact : '\n' ∉ text) (oneLine : '\n' ∉ indent) :
    ∃ first middle finish,
      lines (kind.declaration indent spread) = (indent ++ (kind.opening.toList ++ first)) ::
        (middle ++ [finish ++ "\x7d),".toList]) ∧
      Literal.Blanks finish ∧ byteSize finish ≤ byteSize indent ∧
      first.head? = some '{' ∧ '\n' ∉ first ∧ spread.count '\n' = middle.length + 1 ∧
      Literal.tokens ((first :: middle).flatMap (· ++ ['\n']) ++ ['}']) = Literal.tokens text := by
  obtain ⟨before, finish, rfl, white, noBreak, near⟩ := spreads.broken
  obtain ⟨whole, shape, unbroken⟩ := (ended_concat before).exists_lines
  have split : before ++ '\n' :: finish ++ ['}'] =
      whole.flatMap (· ++ ['\n']) ++ (finish ++ ['}']) := by
    rw [← shape]
    simp
  rw [split] at spreads ⊢
  -- A line feed in a token would stand in the text on one line too.
  have inToken : ∀ token ∈ Literal.tokens (whole.flatMap (· ++ ['\n']) ++ (finish ++ ['}'])),
      '\n' ∉ token := by
    intro token member broken
    rw [spreads.same] at member
    exact compact ((Literal.infix_of_mem_tokens member).subset broken)
  have outside := Literal.outside_of_lines inToken
  have collected : Literal.tokens ((whole.map lineContent).flatMap (· ++ ['\n']) ++ ['}']) =
      Literal.tokens text := by
    rw [Literal.tokens_map_lineContent outside, Literal.tokens_flatMap outside, ← spreads.same,
      Literal.tokens_flatMap outside, Literal.tokens_blanks white]
  have breaks : (whole.flatMap (· ++ ['\n']) ++ (finish ++ ['}'])).count '\n' = whole.length := by
    rw [List.count_append, count_flatMap unbroken, List.count_append, List.count_eq_zero.2 noBreak]
    rfl
  cases whole with
  | nil => simp at shape
  | cons first middle =>
    have brace : first.head? = some '{' := by
      have opens := spreads.opens
      cases first with
      | nil => cases opens
      | cons c more => exact opens
    obtain ⟨more, rfl⟩ := List.head?_eq_some_iff.1 brace
    refine ⟨lineContent ('{' :: more), middle.map lineContent, finish,
      lines_declaration oneLine (List.cons_ne_nil _ _) unbroken noBreak, white, near,
      head?_lineContent (by decide) more, ?_, ?_, collected⟩
    · exact fun broken => unbroken _ List.mem_cons_self ((lineContent_isPrefix _).subset broken)
    · rw [breaks, List.length_cons, List.length_map]

end Declaration

namespace Scanner
open Literal

variable {scanner : Scanner} {command : CommandRef} (opened : scanner.state = .opened command)
  {kind : ArgumentKind} {indent text spread : List Char} {literal : Literal} (white : Blanks indent)
  (compact : Compact text literal)
include opened white compact

end Scanner

namespace Literal
open Grammar Reader

/-- A literal with a brace in a string. -/
def tagged : Literal := .object [("name", .string "x\x7d"), ("typeList", .array [.path "a.b"])]

end Literal

namespace Scanner
open Literal

end Scanner

end CommandReference
