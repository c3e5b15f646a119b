import CommandReference.Proofs.Source.Finality
import CommandReference.Proofs.Source.Spread

/-! How a command gets its help text: on one line between quotes, or from several lines up to one
that ends with a backtick and a comma. Either way the text is taken as it stands, and the command
is closed with it. -/
namespace CommandReference
open Text

theorem Text.before?_trimEnd {blanks : List Char} (white : Literal.Blanks blanks) (quote : Char)
    (cs : List Char) :
    before? (String.ofList [quote, ',']) (trimEnd (cs ++ [quote, ','] ++ blanks)) = some cs := by
  have comma : cs ++ [quote, ','] = cs ++ [quote] ++ [','] := by simp
  rw [before?_eq_some_iff, String.toList_ofList, comma,
    trimEnd_concat_append (by decide) white (cs ++ [quote])]

namespace Line

theorem inner_of_helpValue? {line value : List Char} (helps : helpValue? line = some value) :
    Inner line := by
  obtain ⟨rest, begins, -⟩ := Option.bind_eq_some_iff.1 helps
  exact inner_of_trimStart (after?_eq_some_iff.1 begins) rfl rfl

section Quoted
variable {quote : Char} (quotes : quote = '\'' ∨ quote = '"' ∨ quote = '`')
include quotes

theorem help?_of_helpValue? {line body : List Char}
    (helps : helpValue? line = some (quote :: body)) :
    help? line = (before? (String.ofList [quote, ',']) (trimEnd body)).bind fun text =>
      if onOneLine text ∧ (quote = '`' → text ≠ []) then some text else none := by
  unfold help?
  rw [helps]
  exact if_pos quotes

private theorem not_isBlank_of_quote : isBlank quote = false := by
  rcases quotes with rfl | rfl | rfl
  · decide
  · decide
  · decide

private theorem helpValue?_quoted {indent gap : List Char} (before : Literal.Blanks indent)
    (between : Literal.Blanks gap) (rest : List Char) :
    helpValue? (indent ++ ("helpString:".toList ++ (gap ++ quote :: rest))) =
      some (quote :: rest) := by
  have key : ∀ c ∈ ("helpString:".toList ++ (gap ++ quote :: rest)).head?, isBlank c = false := by
    rintro c ⟨⟩
    decide
  have value : trimStart (gap ++ quote :: rest) = quote :: rest := by
    apply trimStart_indent between
    rintro c ⟨⟩
    exact not_isBlank_of_quote quotes
  rw [helpValue?, trimStart_indent before key, after?_append]
  exact congrArg some value

/-- The text goes up to the last quote, whatever quotes and commas stand in it. -/
theorem help?_quoted {indent gap text blanks : List Char} (before : Literal.Blanks indent)
    (between : Literal.Blanks gap) (behind : Literal.Blanks blanks) (oneLine : '\n' ∉ text)
    (filled : quote = '`' → text ≠ []) :
    help? (indent ++ ("helpString:".toList ++
      (gap ++ quote :: (text ++ [quote, ','] ++ blanks)))) = some text := by
  have whole : onOneLine text = true := List.all_eq_true.2 (bne_of_notMem oneLine)
  have helps := helpValue?_quoted quotes before between (text ++ [quote, ','] ++ blanks)
  rw [help?_of_helpValue? quotes helps, before?_trimEnd behind]
  exact if_pos ⟨whole, filled⟩

end Quoted

theorem exists_of_opensHelp {line : List Char} (opens : opensHelp line = true) :
    ∃ rest, helpValue? line = some ('`' :: rest) ∧ Literal.Blanks rest := by
  unfold opensHelp at opens
  split at opens
  · next rest helps => exact ⟨rest, helps, List.all_eq_true.1 opens⟩
  · cases opens

private theorem help?_of_opensHelp {line : List Char} (opens : opensHelp line = true) :
    help? line = none := by
  obtain ⟨rest, helps, white⟩ := exists_of_opensHelp opens
  have bare : trimEnd rest = [] := List.rdropWhile_eq_nil_iff.2 white
  rw [help?_of_helpValue? (.inr (.inr rfl)) helps, bare]
  rfl

/-- A line that can stand in a help text. It may be a group marker, which is heeded there too. -/
structure InHelp (line : List Char) : Prop where
  noStart : command? line = none
  goesOn : ['`', ','] <:+ trimEnd line → (group? line).isSome = true

theorem InHelp.closesHelp? {line : List Char} (inside : InHelp line) (other : group? line = none) :
    closesHelp? line = none := by
  by_contra closes
  obtain ⟨last, found⟩ := Option.ne_none_iff_exists'.1 closes
  have marks := inside.goesOn ⟨last, (before?_eq_some_iff.1 found).symm⟩
  rw [other] at marks
  cases marks

end Line

/-- Adds the groups that are named by markers among the lines. -/
def Registry.heedMarkers (given : List (List Char)) (registry : Registry) : Registry :=
  (markerNames given).foldl (fun current name => current.ensureGroup name) registry

private theorem Registry.heedMarkers_append (first second : List (List Char))
    (registry : Registry) :
    registry.heedMarkers (first ++ second) = (registry.heedMarkers first).heedMarkers second := by
  unfold Registry.heedMarkers
  rw [markerNames_append, List.foldl_append]

private theorem Registry.heedMarkers_marker {line name : List Char}
    (marks : Line.group? line = some name)
    (registry : Registry) :
    registry.heedMarkers [line] = registry.ensureGroup (String.ofList name) := by
  unfold Registry.heedMarkers
  rw [markerNames_cons_marker marks]
  rfl

private theorem Registry.heedMarkers_other {line : List Char} (other : Line.group? line = none)
    (registry : Registry) : registry.heedMarkers [line] = registry := by
  unfold Registry.heedMarkers
  rw [markerNames_cons_other other]
  rfl

private theorem Registry.command?_heedMarkers (given : List (List Char)) (ref : CommandRef)
    (registry : Registry) : (registry.heedMarkers given).command? ref = registry.command? ref := by
  unfold Registry.heedMarkers
  induction markerNames given generalizing registry with
  | nil => rfl
  | cons name names ih =>
    exact (ih (registry.ensureGroup name)).trans (registry.command?_ensureGroup name ref)

namespace Scanner

variable {scanner : Scanner} {ref : CommandRef}

private theorem feed_opensHelp (opened : scanner.state = .opened ref) {line : List Char}
    (opens : Line.opensHelp line = true) (number : Nat) :
    scanner.feed number line = ({ scanner with state := .inHelp ref [] }, none) := by
  obtain ⟨rest, helps, -⟩ := Line.exists_of_opensHelp opens
  apply feed_of_ok
  rw [advanced_of_inner (Line.inner_of_helpValue? helps), opened, advanceState, advanceOpened,
    Line.help?_of_opensHelp opens]
  dsimp only
  rw [if_pos opens]
  rfl

private theorem feed_inHelp {text line : List Char} (reading : scanner.state = .inHelp ref text)
    (inside : Line.InHelp line) (number : Nat) :
    scanner.feed number line =
      (⟨scanner.registry.heedMarkers [line], groupAfter scanner.group [line],
        .inHelp ref (text ++ Line.collected [line])⟩, none) := by
  cases marks : Line.group? line with
  | some name =>
    rw [feed_of_marker marks, Registry.heedMarkers_marker marks, groupAfter_marker marks,
      Line.collected_marker marks, List.append_nil, ← reading]
    rfl
  | none =>
    have advanced : scanner.advanced number line =
        .ok { scanner with state := .inHelp ref (text ++ line ++ ['\n']) } := by
      rw [advanced_of_inner ⟨marks, inside.noStart⟩, reading, advanceState, advanceHelp,
        inside.closesHelp? marks]
      rfl
    rw [feed_of_ok advanced, Registry.heedMarkers_other marks, groupAfter_other marks,
      Line.collected_other marks, List.append_assoc]
    rfl

private theorem feedAll_inHelp {text : List Char} {given : List (Nat × List Char)}
    (reading : scanner.state = .inHelp ref text) (inside : ∀ item ∈ given, Line.InHelp item.2) :
    scanner.feedAll given =
      ⟨scanner.registry.heedMarkers (given.map (·.2)), groupAfter scanner.group (given.map (·.2)),
        .inHelp ref (text ++ Line.collected (given.map (·.2)))⟩ := by
  -- The state carries what has been collected so far, so the text grows with the induction.
  induction given generalizing scanner text with
  | nil =>
    rw [List.map_nil, Line.collected, List.filter_nil, List.flatMap_nil, List.append_nil, ← reading]
    rfl
  | cons item given ih =>
    rw [List.forall_mem_cons] at inside
    have split : (item :: given).map (·.2) = [item.2] ++ given.map (·.2) := rfl
    rw [feedAll_cons, feed_inHelp reading inside.1, ih rfl inside.2, split,
      Registry.heedMarkers_append, groupAfter_append, Line.collected_append, List.append_assoc]

/-- Whatever lines follow, and also when the text ends, the command stays as it is. -/
def Settled (ref : CommandRef) (command : Command) (scanner : Scanner) : Prop :=
  ∀ more, (scanner.feedAll more).registry.command? ref = some command ∧
    (scanner.feedAll more).finish.command? ref = some command

private theorem command?_finish (apart : scanner.state.held? ≠ some ref) :
    scanner.finish.command? ref = scanner.registry.command? ref := by
  unfold finish
  split
  · next other text reading =>
    have elsewhere : ref ≠ other := by
      rintro rfl
      exact apart (by rw [reading]; rfl)
    exact (Registry.command?_updateAt _ _ _ _).trans (if_neg elsewhere)
  · rfl

theorem settled_of_closed {command : Command} (found : scanner.registry.command? ref = some command)
    (apart : scanner.state.held? ≠ some ref) : scanner.Settled ref command := by
  intro more
  obtain ⟨still, closed⟩ := (keeps_feedAll more scanner).closed ref command found apart
  exact ⟨still, (command?_finish closed).trans still⟩

theorem exists_command_of_opened {group : String} {given : List (Nat × List Char)}
    (reached : (start group).feedAll given = scanner) (opened : scanner.state = .opened ref) :
    ∃ command, scanner.registry.command? ref = some command := by
  have held : scanner.state.held? = some ref := by
    rw [opened]
    rfl
  obtain ⟨-, -, -, command, -, -, found, -⟩ := (tracks_of_reached reached).resolves held
  exact ⟨command, found⟩

theorem command?_setHelp {command : Command} (found : scanner.registry.command? ref = some command)
    (help : String) (other : CommandRef) :
    (scanner.setHelp ref help).registry.command? other =
      if other = ref then some { command with help := help }
      else scanner.registry.command? other := by
  refine (Registry.command?_updateAt _ _ _ _).trans ?_
  split
  · next same =>
    rw [same, found]
    rfl
  · rfl

theorem settled_setHelp {command : Command} (found : scanner.registry.command? ref = some command)
    (help : String) :
    Settled ref { command with help := help } { scanner.setHelp ref help with state := .idle } := by
  apply settled_of_closed
  · exact (command?_setHelp found help ref).trans (if_pos rfl)
  · intro held
    cases held

private theorem feed_help (opened : scanner.state = .opened ref) {line text : List Char}
    (helps : Line.help? line = some text) (number : Nat) :
    scanner.feed number line =
      ({ scanner.setHelp ref (String.ofList text) with state := .idle }, none) := by
  obtain ⟨value, key, -⟩ := Option.bind_eq_some_iff.1 helps
  apply feed_of_ok
  rw [advanced_of_inner (Line.inner_of_helpValue? key), opened, advanceState, advanceOpened, helps]
  rfl

private theorem feed_closesHelp {text line last : List Char}
    (reading : scanner.state = .inHelp ref text)
    (inner : Line.Inner line) (closes : Line.closesHelp? line = some last) (number : Nat) :
    scanner.feed number line =
      ({ scanner.setHelp ref (Help.normalize (String.ofList (text ++ last))) with state := .idle },
        none) := by
  apply feed_of_ok
  rw [advanced_of_inner inner, reading, advanceState, advanceHelp, closes]
  rfl

private theorem settled_openCommand {command : Command}
    (found : scanner.registry.command? ref = some command) (name : String) :
    (scanner.openCommand name).Settled ref command := by
  have apart : ref ≠ scanner.registry.nextRef scanner.group := by
    rintro rfl
    rw [Registry.command?_nextRef] at found
    cases found
  apply settled_of_closed
  · exact (Registry.command?_push_of_ne _ _ _ apart).trans found
  · intro held
    exact apart (Option.some.inj held).symm

/-- A help text on one line is taken as it stands, and no later line changes the command. -/
theorem feed_helpLine {group : String} {given : List (Nat × List Char)}
    (reached : (start group).feedAll given = scanner) (opened : scanner.state = .opened ref)
    {quote : Char} (quotes : quote = '\'' ∨ quote = '"' ∨ quote = '`')
    {indent gap text blanks : List Char} (before : Literal.Blanks indent)
    (between : Literal.Blanks gap) (behind : Literal.Blanks blanks) (oneLine : '\n' ∉ text)
    (filled : quote = '`' → text ≠ []) (number : Nat) :
    ∃ command next, scanner.registry.command? ref = some command ∧
      scanner.feed number (indent ++ ("helpString:".toList ++
        (gap ++ quote :: (text ++ [quote, ','] ++ blanks)))) = (next, none) ∧
      next.state = .idle ∧
      (∀ other, next.registry.command? other =
        if other = ref then some { command with help := String.ofList text }
        else scanner.registry.command? other) ∧
      next.Settled ref { command with help := String.ofList text } := by
  obtain ⟨command, found⟩ := exists_command_of_opened reached opened
  have helps := Line.help?_quoted quotes before between behind oneLine filled
  exact ⟨command, _, found, feed_help opened helps number, rfl, command?_setHelp found _,
    settled_setHelp found _⟩

/-- A command that waits for its help text. -/
def waitingLines : List (Nat × List Char) :=
  [(1, "// GROUP: G".toList),
   (2, "SlashCommandParser.addCommandObject(SlashCommand.fromProps(\x7bname:'a',".toList)]

def waiting : Scanner := (start "Other").feedAll waitingLines

theorem waiting_opened : waiting.state = .opened ⟨"G", 0⟩ ∧
    waiting.registry.command? ⟨"G", 0⟩ = some (.ofName "a") := by
  decide +kernel

theorem feed_helpLine_waiting :
    ∃ next, waiting.feed 3 "  helpString:\t'a',\"`b', ".toList = (next, none) ∧
      next.state = .idle ∧ next.Settled ⟨"G", 0⟩ ⟨"a", none, "a',\"`b", [], [], []⟩ := by
  have reached : (start "Other").feedAll waitingLines = waiting := rfl
  have before : Literal.Blanks "  ".toList := List.all_eq_true.1 (by decide)
  have between : Literal.Blanks "\t".toList := List.all_eq_true.1 (by decide)
  have behind : Literal.Blanks " ".toList := List.all_eq_true.1 (by decide)
  have oneLine : '\n' ∉ "a',\"`b".toList := by decide
  obtain ⟨command, next, found, fed, idle, -, settled⟩ :=
    feed_helpLine reached waiting_opened.1 (.inl rfl) before between behind oneLine (by decide) 3
  have same : command = .ofName "a" := Option.some.inj (found.symm.trans waiting_opened.2)
  subst same
  exact ⟨next, fed, idle, settled⟩

/-- A help text over several lines is collected from all lines but the group markers, whatever they
say, and then put in order. It is given to the command by a line that ends it or by the end of the
text, and dropped if another command starts. -/
theorem feedAll_helpText {group : String} {given : List (Nat × List Char)}
    (reached : (start group).feedAll given = scanner) (opened : scanner.state = .opened ref)
    {number : Nat} {opening : List Char} (opens : Line.opensHelp opening = true)
    {body : List (Nat × List Char)} (inside : ∀ item ∈ body, Line.InHelp item.2)
    {reading : Scanner} (fed : scanner.feedAll ((number, opening) :: body) = reading)
    {text : List Char} (collected : Line.collected (body.map (·.2)) = text) :
    ∃ command, scanner.registry.command? ref = some command ∧
      (∀ other, reading.registry.command? other = scanner.registry.command? other) ∧
      (∀ number last blanks, Literal.Blanks blanks → Line.Inner (last ++ ['`', ','] ++ blanks) →
        ∃ next, reading.feed number (last ++ ['`', ','] ++ blanks) = (next, none) ∧
          next.state = .idle ∧
          (∀ other, next.registry.command? other =
            if other = ref then
              some { command with help := Help.normalize (String.ofList (text ++ last)) }
            else scanner.registry.command? other) ∧
          next.Settled ref
            { command with help := Help.normalize (String.ofList (text ++ last)) }) ∧
      (∀ other, reading.finish.command? other =
        if other = ref then some { command with help := Help.normalize (String.ofList text) }
        else scanner.registry.command? other) ∧
      ∀ number line name, Line.command? line = some name →
        ∃ next, reading.feed number line = (next, none) ∧
          next.state = .opened (reading.registry.nextRef reading.group) ∧
          next.Settled ref command := by
  obtain ⟨command, found⟩ := exists_command_of_opened reached opened
  rw [feedAll_cons, feed_opensHelp opened opens, feedAll_inHelp rfl inside, List.nil_append,
    collected] at fed
  have state : reading.state = .inHelp ref text := by rw [← fed]
  have same (other : CommandRef) :
      reading.registry.command? other = scanner.registry.command? other := by
    rw [← fed]
    exact Registry.command?_heedMarkers _ _ _
  -- Up to the end of the text the command has not been touched.
  have present : reading.registry.command? ref = some command := (same ref).trans found
  have described (help : String) (other : CommandRef) :
      (reading.setHelp ref help).registry.command? other =
        if other = ref then some { command with help := help }
        else scanner.registry.command? other := by
    rw [command?_setHelp present, same]
  refine ⟨command, found, same, ?_, ?_, ?_⟩
  · intro number last blanks white inner
    have closes : Line.closesHelp? (last ++ ['`', ','] ++ blanks) = some last :=
      before?_trimEnd white '`' last
    exact ⟨_, feed_closesHelp state inner closes number, rfl, described _,
      settled_setHelp present _⟩
  · intro other
    rw [finish, state]
    exact described _ other
  · intro number line name starts
    exact ⟨_, feed_of_command starts reading number, rfl, settled_openCommand present _⟩

/-- A help text with a marker, a help line and the end of a declaration in it. -/
def bodyLines : List (Nat × List Char) :=
  [(4, "// GROUP: H`,".toList), (5, "  helpString: 'x',".toList), (6, " \x7d),".toList)]

private theorem inHelp_bodyLines : ∀ item ∈ bodyLines, Line.InHelp item.2 := by
  have each : ∀ item ∈ bodyLines, Line.command? item.2 = none ∧
      (['`', ','] <:+ trimEnd item.2 → (Line.group? item.2).isSome = true) := by
    decide +kernel
  exact fun item member => ⟨(each item member).1, (each item member).2⟩

theorem feedAll_helpText_bodyLines :
    (∃ next, (waiting.feedAll ((3, "helpString: `".toList) :: bodyLines)).feed 7
        "  end`, ".toList = (next, none) ∧
      next.Settled ⟨"G", 0⟩ ⟨"a", none, " helpString: 'x',\n\x7d),\n end", [], [], []⟩) ∧
    (waiting.feedAll ((3, "helpString: `".toList) :: bodyLines)).finish.command? ⟨"G", 0⟩ =
      some ⟨"a", none, " helpString: 'x',\n\x7d),", [], [], []⟩ := by
  have reached : (start "Other").feedAll waitingLines = waiting := rfl
  have opens : Line.opensHelp "helpString: `".toList = true := by decide
  have fed : waiting.feedAll ((3, "helpString: `".toList) :: bodyLines) = _ := rfl
  have collected : Line.collected (bodyLines.map (·.2)) =
      "  helpString: 'x',\n \x7d),\n".toList := by decide +kernel
  obtain ⟨command, found, -, closes, ends, -⟩ :=
    feedAll_helpText reached waiting_opened.1 opens inHelp_bodyLines fed collected
  have same : command = .ofName "a" := Option.some.inj (found.symm.trans waiting_opened.2)
  subst same
  have white : Literal.Blanks " ".toList := List.all_eq_true.1 (by decide)
  have closed : Help.normalize (String.ofList
      ("  helpString: 'x',\n \x7d),\n".toList ++ "  end".toList)) =
      " helpString: 'x',\n\x7d),\n end" := by decide +kernel
  have ended : Help.normalize (String.ofList "  helpString: 'x',\n \x7d),\n".toList) =
      " helpString: 'x',\n\x7d)," := by decide +kernel
  constructor
  · obtain ⟨next, taken, -, -, settled⟩ := closes 7 "  end".toList " ".toList white ⟨rfl, rfl⟩
    rw [closed] at settled
    exact ⟨next, taken, settled⟩
  · rw [ends, if_pos rfl, ended]
    rfl

end Scanner

end CommandReference
