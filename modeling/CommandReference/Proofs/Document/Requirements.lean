import CommandReference.Proofs.Document.Conservation

/-! The requirements of a document. What is kept of them depends on the lines of the document
alone, those from their heading to the next heading of its level. A document that is made from
requirements gives them back with their last line ended. -/
namespace CommandReference.Document
open Text Outline

/-- The lines up to the heading of the next section that are not blank. -/
def proseLines (raws : List (List Char)) : List (List Char) :=
  (raws.takeWhile (!startsWith "## " ·)).filter (trim · ≠ [])

def afterHeading (raws : List (List Char)) : List (List Char) :=
  (raws.dropWhile (!startsWith "## Requirements" ·)).tail

/-- The requirements of a document, told without its outline. -/
def requirementsIn (document : String) : String :=
  String.ofList (proseLines (afterHeading (rawLines document.toList))).flatten

/-- Which of the lines to come are kept. -/
def Region.keptLines : Region → List (List Char) → List (List Char)
  | .preamble, raws => proseLines (afterHeading raws)
  | .requirements, raws => proseLines raws
  | .body, _ => []

private theorem Region.keptLines_nil (region : Region) : region.keptLines [] = [] := by
  cases region <;> rfl

variable {settings : Settings}

/-- What has been kept and what is still to be kept come to the same before and after a line. -/
theorem Reading.read_keptLines {reading next : Reading} {raw : List Char}
    (read : reading.read settings raw = .ok next) (raws : List (List Char)) :
    next.requirements ++ (next.region.keptLines raws).flatten =
      reading.requirements ++ (reading.region.keptLines (raw :: raws)).flatten := by
  obtain ⟨region, requirements, outline⟩ := reading
  unfold Reading.read at read
  cases region with
  | preamble =>
    dsimp only at read
    rw [startsWith_contentOf (by decide) (by decide)] at read
    split at read
    · rename_i heading
      cases read
      simp [Region.keptLines, afterHeading, heading]
    · rename_i noHeading
      obtain ⟨outline, -, rfl⟩ := Reading.readOutline_eq_ok read
      simp [Region.keptLines, afterHeading, noHeading]
  | requirements =>
    dsimp only at read
    rw [startsWith_contentOf (by decide) (by decide)] at read
    split at read
    · rename_i heading
      cases read
      simp [Region.keptLines, proseLines, heading]
    · rename_i noHeading
      have blank := trim_contentOf_eq_nil_iff raw
      split at read
      · rename_i empty
        cases read
        simp [Region.keptLines, proseLines, noHeading, blank.1 empty]
      · rename_i nonempty
        cases read
        simp [Region.keptLines, proseLines, noHeading, mt blank.2 nonempty]
  | body =>
    obtain ⟨outline, -, rfl⟩ := Reading.readOutline_eq_ok read
    rfl

theorem Reading.readAll_keptLines {reading final : Reading} {raws : List (List Char)}
    (read : reading.readAll settings raws = .ok final) :
    final.requirements = reading.requirements ++ (reading.region.keptLines raws).flatten := by
  induction raws generalizing reading with
  | nil =>
    cases read
    simp [Region.keptLines_nil]
  | cons raw raws ih =>
    obtain ⟨next, first, rest⟩ := Reading.readAll_cons_eq_ok read
    rw [ih rest, Reading.read_keptLines first]

/-- The requirements that are recovered are a function of the document alone. Fences, headings of
other levels, the registry and the settings have no part in them. -/
theorem recover_requirements {registry : Registry} {document : String} {recovered : Recovered}
    (done : recover settings registry document = .ok recovered) :
    recovered.requirements = requirementsIn document := by
  obtain ⟨final, read, rfl⟩ := exists_reading done
  have kept := Reading.readAll_keptLines read
  rw [Reading.finish, kept]
  rfl

/-- A document with the heading of the requirements in an open example, with a fence and a
heading of a group among them, and with a second heading of the same name behind them. -/
def buriedDocument : String :=
  "### G\n#### `/a`\n```\n## Requirements\r\nx\r\n \n```\n### y\n## C\n## Requirements\nz"

theorem recover_requirements_buried :
    recover .standard ⟨[⟨"G", [.ofName "a"]⟩]⟩ buriedDocument =
      .ok ⟨⟨[⟨"G", [.ofName "a"]⟩]⟩, "x\r\n```\n### y\n", 0, 1⟩ ∧
    requirementsIn buriedDocument = "x\r\n```\n### y\n" := by
  have done : recover .standard ⟨[⟨"G", [.ofName "a"]⟩]⟩ buriedDocument =
      .ok ⟨⟨[⟨"G", [.ofName "a"]⟩]⟩, "x\r\n```\n### y\n", 0, 1⟩ := by
    decide +kernel
  exact ⟨done, (recover_requirements done).symm⟩

/-- A text with a line feed at its end, unless it is empty or has one. -/
def endLast (cs : List Char) : List Char := if Ended cs then cs else cs ++ ['\n']

theorem ended_endLast (cs : List Char) : Ended (endLast cs) := by
  unfold endLast
  split
  · assumption
  · exact ended_concat cs

theorem endLast_eq_self_iff {cs : List Char} : endLast cs = cs ↔ Ended cs := by
  constructor
  · intro same
    rw [← same]
    exact ended_endLast cs
  · exact fun ended => if_pos ended

/-- Lines that are kept as they are when they are met among the requirements. -/
def Kept (cs : List Char) : Prop :=
  ∀ line ∈ rawLines cs, trim line ≠ [] ∧ startsWith "## " line = false

theorem kept_of_recover {registry : Registry} {document : String} {recovered : Recovered}
    (done : recover settings registry document = .ok recovered) :
    Kept recovered.requirements.toList := by
  obtain ⟨reading, read, rfl⟩ := exists_reading done
  have sound := Reading.sound_readAll (List.append_nil _).symm (Reading.sound_start settings registry)
    (Reading.whole_start settings registry) read
  rw [Reading.finish, String.toList_ofList]
  exact sound.prose

private theorem ended_of_recover {registry : Registry} {document : String} {recovered : Recovered}
    (ended : Ended document.toList)
    (done : recover settings registry document = .ok recovered) :
    Ended recovered.requirements.toList := by
  obtain ⟨reading, read, rfl⟩ := exists_reading done
  obtain ⟨-, whole⟩ := Reading.sound_of_whole (Reading.sound_start settings registry)
    (Reading.whole_start settings registry) (fun _ member => rawLines_of_mem member)
    (fun _ member => ended.of_mem_rawLines member) read
  rw [Reading.finish, String.toList_ofList]
  exact whole.requirements

private theorem Kept.flatten_filter {cs : List Char} (kept : Kept cs) :
    ((rawLines (cs ++ ['\n'])).filter (trim · ≠ [])).flatten = endLast cs := by
  unfold Kept at kept
  unfold endLast
  by_cases ended : Ended cs
  · have all : (rawLines cs).filter (trim · ≠ []) = rawLines cs := by
      rw [List.filter_eq_self]
      intro line member
      simpa using (kept line member).1
    have feed : (rawLines ['\n']).filter (trim · ≠ []) = [] := by decide
    rw [rawLines_append ended, List.filter_append, all, feed, List.append_nil, flatten_rawLines,
      if_pos ended]
  · obtain ⟨whole, last, rfl, before, absent⟩ := exists_ended_append cs
    have nonempty : last ≠ [] := by
      rintro rfl
      exact ended (by simpa using before)
    rw [rawLines_append before, rawLines_last absent nonempty] at kept
    have lines : rawLines (whole ++ last ++ ['\n']) = rawLines whole ++ [last ++ ['\n']] := by
      rw [List.append_assoc, rawLines_append before, rawLines_line absent]
      rfl
    have all : (rawLines whole ++ [last ++ ['\n']]).filter (trim · ≠ []) =
        rawLines whole ++ [last ++ ['\n']] := by
      rw [List.filter_eq_self, List.forall_mem_append, List.forall_mem_singleton]
      rw [List.forall_mem_append, List.forall_mem_singleton] at kept
      constructor
      · intro line member
        simpa using (kept.1 line member).1
      · have nonblank := mt (trim_eq_nil_of_subset (List.subset_append_left last ['\n'])) kept.2.1
        simpa using nonblank
    rw [lines, all, if_neg ended, List.flatten_append, flatten_rawLines, List.flatten_singleton,
      List.append_assoc]

/-- The requirements of a document are followed by blank lines and the heading of the commands. -/
theorem Kept.proseLines_eq {cs : List Char} (kept : Kept cs) (rest : List (List Char)) :
    (proseLines (['\n'] :: (rawLines (cs ++ ['\n']) ++ (List.replicate 5 ['\n'] ++
      ("## Commands".toList ++ ['\n']) :: rest)))).flatten = endLast cs := by
  have plain : ∀ line ∈ ['\n'] :: rawLines (cs ++ ['\n']) ++ List.replicate 5 ['\n'],
      (!startsWith "## " line) = true := by
    rw [List.forall_mem_append, List.forall_mem_cons, List.forall_mem_replicate]
    refine ⟨⟨rfl, ?_⟩, .inr rfl⟩
    intro line member
    rw [rawLines_concat] at member
    rcases mem_closeLast member with inside | rfl | ⟨body, inside, rfl⟩
    · rw [(kept line inside).2]
      rfl
    · rfl
    · rw [startsWith_concat (by decide) (kept body inside).2]
      rfl
  have run : (['\n'] :: (rawLines (cs ++ ['\n']) ++ (List.replicate 5 ['\n'] ++
      ("## Commands".toList ++ ['\n']) :: rest))).takeWhile (!startsWith "## " ·) =
      ['\n'] :: rawLines (cs ++ ['\n']) ++ List.replicate 5 ['\n'] := by
    rw [← List.append_assoc, ← List.cons_append, ← List.cons_append]
    apply takeWhile_run plain
    rintro line ⟨⟩
    rfl
  have blank : [['\n']].filter (trim · ≠ []) = [] := by decide
  have blanks : (List.replicate 5 ['\n']).filter (trim · ≠ []) = [] := by decide
  rw [proseLines, run, ← List.singleton_append, List.filter_append, List.filter_append, blank, blanks,
    List.nil_append, List.append_nil, kept.flatten_filter]

/-- A document gives back the requirements that it was made from, with their last line ended. -/
theorem requirements_of_render (presentable : Presentable settings) {registry : Registry}
    (oneLine : ∀ group ∈ registry.groups, '\n' ∉ group.name.toList)
    (commandsOneLine : ∀ group ∈ registry.groups, ∀ command ∈ group.commands,
      '\n' ∉ command.name.toList)
    {text : String} (kept : Kept text.toList) {reader : Registry} {found : Recovered}
    (done : recover settings reader (render settings text registry) = .ok found) :
    found.requirements.toList = endLast text.toList := by
  obtain ⟨final, read, rfl⟩ := exists_reading done
  have plain : ∀ raw ∈ rawLines (preface settings registry).toList,
      (!startsWith "## Requirements" raw) = true := by
    intro raw member
    have noHeading := plain_preface presentable oneLine commandsOneLine raw member
    rw [startsWith_false_of_isPrefix (by decide) (List.prefix_refl raw) noHeading]
    rfl
  have requirements := Reading.readAll_keptLines read
  rw [rawLines_render_eq] at requirements
  rw [Reading.finish, String.toList_ofList, requirements, Reading.start, Region.keptLines,
    afterHeading, dropWhile_run plain (by rintro line ⟨⟩; rfl), List.tail_cons, kept.proseLines_eq,
    List.nil_append]

/-- Requirements that were recovered, put into a document with the standard settings, come back as
they were exactly if they end with a line feed or are empty. This is so if the old document does.
If they do not, a line feed is added to them, and after that they stay as they are. -/
theorem requirements_again_iff {old : String} {first registry second : Registry}
    {found again : Recovered}
    (oneLine : ∀ group ∈ registry.groups, '\n' ∉ group.name.toList)
    (commandsOneLine : ∀ group ∈ registry.groups, ∀ command ∈ group.commands,
      '\n' ∉ command.name.toList)
    (read : recover .standard first old = .ok found)
    (reread : recover .standard second (render .standard found.requirements registry) = .ok again) :
    (again.requirements = found.requirements ↔ Ended found.requirements.toList) ∧
    (Ended old.toList → Ended found.requirements.toList) ∧
    again.requirements.toList = endLast found.requirements.toList ∧
    ∀ third final,
      recover .standard third (render .standard again.requirements registry) = .ok final →
      final.requirements = again.requirements := by
  have closed := requirements_of_render standard_presentable oneLine commandsOneLine
    (kept_of_recover read) reread
  refine ⟨?_, fun ended => ended_of_recover ended read, closed, ?_⟩
  · rw [← String.toList_inj, closed, endLast_eq_self_iff]
  · intro third final settled
    have stays := requirements_of_render standard_presentable oneLine commandsOneLine
      (kept_of_recover reread) settled
    rw [← String.toList_inj, stays, endLast_eq_self_iff, closed]
    exact ended_endLast _

theorem requirements_again_returned :
    recover .standard ⟨[⟨"G", [.ofName "a"]⟩]⟩ "## Requirements\n\n- x\r\n## C\n" =
      .ok ⟨⟨[⟨"G", [.ofName "a"]⟩]⟩, "- x\r\n", 0, 0⟩ ∧
    ∃ again,
      recover .standard ⟨[⟨"G", [.ofName "a"]⟩]⟩
        (render .standard "- x\r\n" ⟨[⟨"G", [.ofName "a"]⟩]⟩) = .ok again ∧
      again.requirements = "- x\r\n" := by
  have read : recover .standard ⟨[⟨"G", [.ofName "a"]⟩]⟩ "## Requirements\n\n- x\r\n## C\n" =
      .ok ⟨⟨[⟨"G", [.ofName "a"]⟩]⟩, "- x\r\n", 0, 0⟩ := by
    decide +kernel
  have reread : recover .standard ⟨[⟨"G", [.ofName "a"]⟩]⟩
      (render .standard "- x\r\n" ⟨[⟨"G", [.ofName "a"]⟩]⟩) =
      .ok ⟨⟨[⟨"G", [{ Command.ofName "a" with examples := ["some code here\n"] }]⟩]⟩,
        "- x\r\n", 1, 1⟩ := by
    decide +kernel
  have same := requirements_again_iff (by decide +kernel)
    (by decide +kernel) read reread
  exact ⟨read, _, reread, same.1.mpr (by decide +kernel)⟩

/-- A last line without a line feed has one when it comes back. -/
theorem requirements_again_unended :
    recover .standard ⟨[]⟩ "## Requirements\n- x" = .ok ⟨⟨[]⟩, "- x", 0, 0⟩ ∧
    recover .standard ⟨[]⟩ (render .standard "- x" ⟨[]⟩) = .ok ⟨⟨[]⟩, "- x\n", 0, 0⟩ := by
  decide +kernel

end CommandReference.Document
