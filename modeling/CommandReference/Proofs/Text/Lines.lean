import CommandReference.Text.Blank
import CommandReference.Text.Lines
import CommandReference.Text.Part
import Mathlib.Data.List.Basic
import Mathlib.Tactic.Common

/-! How texts fall into lines. A text of whole lines can be cut off in front without
touching the lines behind it, a text without a line feed lengthens the line after it,
and no other line of a text changes when a line feed is added at its end. -/
namespace CommandReference.Text

/-- A text of whole lines: it is empty or ends with a line feed. -/
def Ended (cs : List Char) : Prop := cs.getLast?.all (· == '\n') = true

instance (cs : List Char) : Decidable (Ended cs) :=
  inferInstanceAs (Decidable (cs.getLast?.all (· == '\n') = true))

theorem Ended.eq_of_getLast? {cs : List Char} {c : Char} (ended : Ended cs)
    (last : cs.getLast? = some c) : c = '\n' := by
  simpa [Ended, last] using ended

theorem ended_nil : Ended [] := by simp [Ended]

theorem ended_concat (cs : List Char) : Ended (cs ++ ['\n']) := by simp [Ended]

theorem Ended.append {first second : List Char} (left : Ended first) (right : Ended second) :
    Ended (first ++ second) := by
  rcases List.eq_nil_or_concat second with rfl | ⟨body, last, rfl⟩
  · simpa using left
  · have same : last = '\n' := right.eq_of_getLast? (by simp)
    subst same
    rw [List.concat_eq_append, ← List.append_assoc]
    exact ended_concat _

theorem Ended.append_left {second : List Char} (ended : Ended second) (nonempty : second ≠ [])
    (first : List Char) : Ended (first ++ second) := by
  rw [Ended, List.getLast?_append_of_ne_nil _ nonempty]
  exact ended

theorem Ended.of_cons_cons {c d : Char} {cs : List Char} (ended : Ended (c :: d :: cs)) :
    Ended (d :: cs) := by
  simpa only [Ended, List.getLast?_cons_cons] using ended

theorem ended_flatMap {α : Type} (items : List α) (text : α → List Char)
    (each : ∀ item ∈ items, Ended (text item)) : Ended (items.flatMap text) := by
  induction items with
  | nil => exact ended_nil
  | cons item items ih =>
    rw [List.flatMap_cons]
    exact (each item List.mem_cons_self).append
      (ih fun other member => each other (List.mem_cons_of_mem _ member))

theorem rawLines_ne_nil (c : Char) (cs : List Char) : rawLines (c :: cs) ≠ [] := by
  rw [rawLines]
  split
  · exact List.cons_ne_nil _ _
  · split <;> exact List.cons_ne_nil _ _

theorem rawLines_break (cs : List Char) : rawLines ('\n' :: cs) = ['\n'] :: rawLines cs := rfl

theorem rawLines_cons {c : Char} (other : c ≠ '\n') {cs line : List Char}
    {later : List (List Char)} (lines : rawLines cs = line :: later) :
    rawLines (c :: cs) = (c :: line) :: later := by
  rw [rawLines, if_neg other, lines]

theorem rawLines_append {first : List Char} (ended : Ended first) (second : List Char) :
    rawLines (first ++ second) = rawLines first ++ rawLines second := by
  induction first with
  | nil => rfl
  | cons c cs ih =>
    cases cs with
    | nil =>
      have same : c = '\n' := ended.eq_of_getLast? (by simp)
      simp [rawLines, same]
    | cons d cs =>
      have rest := ih ended.of_cons_cons
      by_cases same : c = '\n'
      · rw [same, List.cons_append, rawLines_break, rawLines_break, rest]
        rfl
      · cases lines : rawLines (d :: cs) with
        | nil => exact absurd lines (rawLines_ne_nil d cs)
        | cons line later =>
          rw [lines] at rest
          rw [List.cons_append, rawLines_cons same rest, rawLines_cons same lines]
          rfl

theorem rawLines_line {cs : List Char} (noBreak : '\n' ∉ cs) (rest : List Char) :
    rawLines (cs ++ '\n' :: rest) = (cs ++ ['\n']) :: rawLines rest := by
  induction cs with
  | nil => simp [rawLines]
  | cons c cs ih =>
    simp only [List.mem_cons, not_or] at noBreak
    rw [List.cons_append, rawLines, if_neg (Ne.symm noBreak.1), ih noBreak.2]
    rfl

theorem rawLines_last {cs : List Char} (noBreak : '\n' ∉ cs) (nonempty : cs ≠ []) :
    rawLines cs = [cs] := by
  induction cs with
  | nil => exact absurd rfl nonempty
  | cons c cs ih =>
    simp only [List.mem_cons, not_or] at noBreak
    rw [rawLines, if_neg (Ne.symm noBreak.1)]
    cases cs with
    | nil => rfl
    | cons d cs => rw [ih noBreak.2 (List.cons_ne_nil _ _)]

theorem rawLines_flatMap (lines : List (List Char)) (oneLine : ∀ line ∈ lines, '\n' ∉ line) :
    rawLines (lines.flatMap (· ++ ['\n'])) = lines.map (· ++ ['\n']) := by
  induction lines with
  | nil => rfl
  | cons line lines ih =>
    rw [List.forall_mem_cons] at oneLine
    rw [List.flatMap_cons, List.append_assoc, List.singleton_append, rawLines_line oneLine.1,
      ih oneLine.2, List.map_cons]

/-- Texts of whole lines, put together, have the lines of each. -/
theorem rawLines_flatMap_of_ended {α : Type} (items : List α) (text : α → List Char)
    (each : ∀ item ∈ items, Ended (text item)) :
    rawLines (items.flatMap text) = items.flatMap fun item => rawLines (text item) := by
  induction items with
  | nil => rfl
  | cons item items ih =>
    rw [List.forall_mem_cons] at each
    rw [List.flatMap_cons, rawLines_append each.1, ih each.2, List.flatMap_cons]

/-- A text of whole lines is put together from them. -/
theorem Ended.exists_lines {cs : List Char} (ended : Ended cs) :
    ∃ lines : List (List Char), cs = lines.flatMap (· ++ ['\n']) ∧ ∀ line ∈ lines, '\n' ∉ line := by
  induction cs with
  | nil => exact ⟨[], rfl, by simp⟩
  | cons c cs ih =>
    cases cs with
    | nil =>
      have same : c = '\n' := by simpa [Ended] using ended
      exact ⟨[[]], by simp [same], by simp⟩
    | cons d cs =>
      obtain ⟨lines, shape, oneLine⟩ := ih ended.of_cons_cons
      by_cases same : c = '\n'
      · refine ⟨[] :: lines, by simp [same, ← shape], ?_⟩
        simpa using oneLine
      · cases lines with
        | nil => cases shape
        | cons line lines =>
          refine ⟨(c :: line) :: lines, by simp [shape], ?_⟩
          simpa [Ne.symm same] using oneLine

theorem Ended.of_mem_rawLines {cs raw : List Char} (ended : Ended cs) (member : raw ∈ rawLines cs) :
    Ended raw := by
  obtain ⟨lines, rfl, oneLine⟩ := ended.exists_lines
  rw [rawLines_flatMap lines oneLine, List.mem_map] at member
  obtain ⟨line, -, rfl⟩ := member
  exact ended_concat line

theorem flatten_rawLines (cs : List Char) : (rawLines cs).flatten = cs := by
  induction cs with
  | nil => rfl
  | cons c cs ih =>
    rw [rawLines]
    split
    · simp [ih]
    · cases lines : rawLines cs with
      | nil => simpa [lines] using ih
      | cons line others => simpa [lines] using ih

/-- A line of a text is, by itself, a text of one line. -/
theorem rawLines_of_mem {raw cs : List Char} (member : raw ∈ rawLines cs) :
    rawLines raw = [raw] := by
  induction cs generalizing raw with
  | nil => cases member
  | cons c cs ih =>
    by_cases same : c = '\n'
    · rw [same, rawLines_break, List.mem_cons] at member
      rcases member with rfl | member
      · rfl
      · exact ih member
    · cases lines : rawLines cs with
      | nil =>
        rw [rawLines, if_neg same, lines, List.mem_singleton] at member
        rw [member, rawLines, if_neg same]
        rfl
      | cons line later =>
        rw [rawLines_cons same lines, List.mem_cons] at member
        rw [lines] at ih
        rcases member with rfl | member
        · exact rawLines_cons same (ih List.mem_cons_self)
        · exact ih (List.mem_cons_of_mem _ member)

theorem exists_body_of_mem_rawLines {raw cs : List Char} (member : raw ∈ rawLines cs) :
    ∃ body, '\n' ∉ body ∧ (raw = body ∨ raw = body ++ ['\n']) := by
  have single := rawLines_of_mem member
  by_cases broken : '\n' ∈ raw
  · obtain ⟨body, rest, shape, absent⟩ := List.eq_append_cons_of_mem broken
    rw [shape, rawLines_line absent, List.cons.injEq] at single
    exact ⟨body, absent, .inr (shape.trans single.1.symm)⟩
  · exact ⟨raw, broken, .inl rfl⟩

theorem notMem_of_mem_lines {line cs : List Char} (member : line ∈ lines cs) : '\n' ∉ line := by
  obtain ⟨raw, inside, rfl⟩ := List.mem_map.1 member
  obtain ⟨body, absent, rfl | rfl⟩ := exists_body_of_mem_rawLines inside
  · have inside : withoutEnding raw ⊆ raw := by
      unfold withoutEnding
      split <;> simp_all [List.reverse_eq_iff]
    exact fun found => absent (inside found)
  · unfold withoutEnding
    rw [List.reverse_append]
    split
    · simp_all [List.reverse_eq_iff]
    · simp_all [List.reverse_eq_iff]
    · rename_i other
      exact absurd rfl (other body.reverse)

/-- All lines of a text but the last are ended. -/
theorem ended_of_mem_dropLast {raw cs : List Char} (member : raw ∈ (rawLines cs).dropLast) :
    Ended raw := by
  induction cs generalizing raw with
  | nil => cases member
  | cons c cs ih =>
    cases lines : rawLines cs with
    | nil =>
      by_cases same : c = '\n'
      · simp [rawLines, same, lines] at member
      · simp [rawLines, same, lines] at member
    | cons line later =>
      rw [lines] at ih
      by_cases same : c = '\n'
      · rw [same, rawLines_break, lines, List.dropLast_cons_cons, List.mem_cons] at member
        rcases member with rfl | member
        · decide
        · exact ih member
      · rw [rawLines_cons same lines] at member
        cases later with
        | nil => cases member
        | cons next later =>
          rw [List.dropLast_cons_cons, List.mem_cons] at member
          rw [List.dropLast_cons_cons] at ih
          rcases member with rfl | member
          · have ended := ih List.mem_cons_self
            cases line with
            | nil => exact absurd (rawLines_of_mem (lines ▸ List.mem_cons_self)) (by simp [rawLines])
            | cons d line => exact ended.append_left (List.cons_ne_nil _ _) [c]
          · exact ih (List.mem_cons_of_mem _ member)

/-- A text without a line feed, put before a text, becomes the start of its first line. -/
theorem rawLines_lengthened {start : List Char} (noBreak : '\n' ∉ start) {cs line : List Char}
    {others : List (List Char)} (lines : rawLines cs = line :: others) :
    rawLines (start ++ cs) = (start ++ line) :: others := by
  induction start with
  | nil => exact lines
  | cons c start ih =>
    simp only [List.mem_cons, not_or] at noBreak
    rw [List.cons_append, rawLines, if_neg (Ne.symm noBreak.1), ih noBreak.2]
    rfl

/-- The lines of a text after a line feed has been added at its end. -/
def closeLast : List (List Char) → List (List Char)
  | [] => [['\n']]
  | [line] => if line.getLast? = some '\n' then [line, ['\n']] else [line ++ ['\n']]
  | line :: next :: later => line :: closeLast (next :: later)

theorem closeLast_ne_nil (lines : List (List Char)) : closeLast lines ≠ [] := by
  fun_cases closeLast lines <;> simp

theorem mem_closeLast {line : List Char} {lines : List (List Char)}
    (member : line ∈ closeLast lines) :
    line ∈ lines ∨ line = ['\n'] ∨ ∃ body ∈ lines, line = body ++ ['\n'] := by
  induction lines using closeLast.induct with
  | case1 => simpa [closeLast] using member
  | case2 last ended =>
    simp only [closeLast, ended, if_true, List.mem_cons, List.not_mem_nil, or_false] at member
    rcases member with rfl | rfl <;> simp
  | case3 last ended => simp_all [closeLast]
  | case4 first next later ih =>
    rw [closeLast, List.mem_cons] at member
    rcases member with rfl | member
    · simp
    · rcases ih member with inside | rfl | ⟨body, inside, rfl⟩
      · exact .inl (List.mem_cons_of_mem _ inside)
      · exact .inr (.inl rfl)
      · exact .inr (.inr ⟨body, List.mem_cons_of_mem _ inside, rfl⟩)

theorem mem_tail_closeLast {line : List Char} {lines : List (List Char)}
    (member : line ∈ (closeLast lines).tail) :
    line ∈ lines.tail ∨ line = ['\n'] ∨ ∃ body ∈ lines.tail, line = body ++ ['\n'] := by
  cases lines with
  | nil => simp [closeLast] at member
  | cons first later =>
    cases later with
    | nil =>
      rw [closeLast] at member
      split at member
      · exact .inr (.inl (by simpa using member))
      · simp at member
    | cons next later => exact mem_closeLast member

theorem rawLines_concat (cs : List Char) : rawLines (cs ++ ['\n']) = closeLast (rawLines cs) := by
  induction cs with
  | nil => rfl
  | cons c cs ih =>
    cases lines : rawLines cs with
    | nil =>
      cases cs with
      | nil => by_cases same : c = '\n' <;> simp [rawLines, closeLast, same]
      | cons d cs => exact absurd lines (rawLines_ne_nil d cs)
    | cons line later =>
      rw [lines] at ih
      by_cases same : c = '\n'
      · rw [same, List.cons_append, rawLines_break, rawLines_break, ih, lines]
        rfl
      · rw [rawLines_cons same lines, List.cons_append]
        cases later with
        | nil =>
          rw [closeLast] at ih ⊢
          cases line with
          | nil => simpa [same] using rawLines_cons same ih
          | cons d line =>
            rw [List.getLast?_cons_cons]
            split at ih <;> rename_i last
            · simpa [last] using rawLines_cons same ih
            · simpa [last] using rawLines_cons same ih
        | cons next later => exact rawLines_cons same ih

theorem exists_rawLines_cons {c : Char} (other : c ≠ '\n') (cs : List Char) :
    ∃ more others, rawLines (c :: cs) = (c :: more) :: others := by
  rw [rawLines, if_neg other]
  cases rawLines cs with
  | nil => exact ⟨[], [], rfl⟩
  | cons line later => exact ⟨line, later, rfl⟩

theorem exists_ended_append (cs : List Char) :
    ∃ whole last, cs = whole ++ last ∧ Ended whole ∧ '\n' ∉ last := by
  induction cs with
  | nil => exact ⟨[], [], rfl, ended_nil, by simp⟩
  | cons c cs ih =>
    obtain ⟨whole, last, rfl, ended, absent⟩ := ih
    cases whole with
    | nil =>
      by_cases same : c = '\n'
      · exact ⟨['\n'], last, by simp [same], ended_concat [], absent⟩
      · exact ⟨[], c :: last, rfl, ended_nil, by simp [Ne.symm same, absent]⟩
    | cons d whole =>
      exact ⟨c :: d :: whole, last, rfl, ended.append_left (List.cons_ne_nil _ _) [c], absent⟩

private theorem Ended.exists_concat {cs : List Char} (ended : Ended cs) (nonempty : cs ≠ []) :
    ∃ body, cs = body ++ ['\n'] := by
  obtain rfl | ⟨body, last, rfl⟩ := List.eq_nil_or_concat cs
  · exact absurd rfl nonempty
  · have same : last = '\n' := ended.eq_of_getLast? (by simp)
    exact ⟨body, by rw [same, List.concat_eq_append]⟩

theorem tail_rawLines_lengthened {start : List Char} (noBreak : '\n' ∉ start) (cs : List Char) :
    (rawLines (start ++ cs)).tail = (rawLines cs).tail := by
  cases lines : rawLines cs with
  | cons line others => rw [rawLines_lengthened noBreak lines, List.tail_cons, List.tail_cons]
  | nil =>
    cases cs with
    | cons c cs => exact absurd lines (rawLines_ne_nil c cs)
    | nil =>
      cases start with
      | nil => rfl
      | cons c start =>
        rw [List.append_nil, rawLines_last noBreak (List.cons_ne_nil _ _)]
        rfl

/-- The later lines of a text with another one behind it. One of them may be put together from
the last line of the first text and the first line of the second. -/
theorem mem_tail_rawLines_append {text rest line raw : List Char} {others : List (List Char)}
    (lines : rawLines rest = line :: others) (member : raw ∈ (rawLines (text ++ rest)).tail) :
    raw ∈ (rawLines text).tail ∨ raw ∈ others ∨
      ∃ last, raw = last ++ line ∧ '\n' :: last <:+ text ∧
        (last = [] ∨ last ∈ (rawLines text).tail) := by
  obtain ⟨whole, last, rfl, ended, absent⟩ := exists_ended_append text
  have joint := rawLines_lengthened absent lines
  rw [List.append_assoc, rawLines_append ended, joint] at member
  rw [rawLines_append ended]
  cases first : rawLines whole with
  | nil =>
    rw [first, List.nil_append, List.tail_cons] at member
    exact .inr (.inl member)
  | cons start between =>
    have nonempty : whole ≠ [] := by
      rintro rfl
      cases first
    obtain ⟨body, rfl⟩ := ended.exists_concat nonempty
    rw [first, List.cons_append, List.tail_cons, List.mem_append, List.mem_cons] at member
    rw [List.cons_append, List.tail_cons]
    rcases member with inside | rfl | later
    · exact .inl (List.mem_append_left _ inside)
    · refine .inr (.inr ⟨last, rfl, by simp, ?_⟩)
      cases last with
      | nil => exact .inl rfl
      | cons c last =>
        right
        rw [rawLines_last absent (List.cons_ne_nil _ _)]
        simp
    · exact .inr (.inl later)

/-- What a line that is ended by a line feed holds. -/
def lineContent (line : List Char) : List Char := withoutEnding (line ++ ['\n'])

theorem lineContent_concat (body : List Char) (c : Char) :
    lineContent (body ++ [c]) = if c = '\r' then body else body ++ [c] := by
  rw [lineContent, withoutEnding, List.reverse_append, List.reverse_append]
  split
  · next rest same =>
    cases same
    rw [if_pos rfl]
    exact List.reverse_reverse body
  · next rest other same =>
    cases same
    rw [if_neg fun same => other body.reverse (by rw [same]; rfl)]
    simp
  · next other => exact absurd rfl (other _)

theorem lineContent_cases (line : List Char) :
    lineContent line = line ∨ line = lineContent line ++ ['\r'] := by
  rcases line.eq_nil_or_concat with rfl | ⟨body, c, rfl⟩
  · exact .inl rfl
  · rw [List.concat_eq_append, lineContent_concat]
    split
    · next same => exact .inr (by rw [same])
    · exact .inl rfl

theorem lineContent_isPrefix (line : List Char) : lineContent line <+: line := by
  rcases lineContent_cases line with same | returned
  · exact ⟨[], by rw [same, List.append_nil]⟩
  · exact ⟨['\r'], returned.symm⟩

theorem head?_lineContent {c : Char} (other : c ≠ '\r') (line : List Char) :
    (lineContent (c :: line)).head? = some c := by
  rcases lineContent_cases (c :: line) with same | returned
  · rw [same]
    rfl
  · cases shape : lineContent (c :: line) with
    | nil =>
      rw [shape] at returned
      cases returned
      exact absurd rfl other
    | cons d later =>
      rw [shape] at returned
      cases returned
      rfl

theorem lineContent_append (start : List Char) {line : List Char} (some : line ≠ []) :
    lineContent (start ++ line) = start ++ lineContent line := by
  obtain rfl | ⟨body, c, rfl⟩ := line.eq_nil_or_concat
  · exact absurd rfl some
  · rw [List.concat_eq_append, ← List.append_assoc, lineContent_concat, lineContent_concat]
    split
    · rfl
    · rw [List.append_assoc]

theorem withoutEnding_of_notMem {line : List Char} (noBreak : '\n' ∉ line) :
    withoutEnding line = line := by
  have last : ∀ rest, line.reverse ≠ '\n' :: rest := by
    intro rest same
    exact noBreak (List.mem_reverse.1 (same ▸ List.mem_cons_self))
  rw [withoutEnding]
  split
  · next same => exact absurd same (last _)
  · next same => exact absurd same (last _)
  · rfl

/-- The lines of a text that is put together from lines, the last of which is not ended. -/
theorem lines_flatMap_append {whole : List (List Char)} (oneLine : ∀ line ∈ whole, '\n' ∉ line)
    {last : List Char} (noBreak : '\n' ∉ last) (some : last ≠ []) :
    lines (whole.flatMap (· ++ ['\n']) ++ last) = whole.map lineContent ++ [last] := by
  have ended : Ended (whole.flatMap (· ++ ['\n'])) :=
    ended_flatMap whole _ fun line _ => ended_concat line
  rw [lines, rawLines_append ended, rawLines_flatMap whole oneLine, rawLines_last noBreak some,
    List.map_append, List.map_map, List.map_singleton, withoutEnding_of_notMem noBreak]
  rfl

end CommandReference.Text
