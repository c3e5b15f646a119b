import CommandReference.Proofs.Text.Lines
import CommandReference.Proofs.Text.Part
import CommandReference.Source.Help

/-! The layout of a help text. Its lines are those that are not blank, without the blanks at their
ends and without the indentation that all of them share; what one line is indented more than another
is kept. -/
namespace CommandReference
open Text

namespace Text

private theorem lineContent_of_trimEnd {line : List Char} (trimmed : trimEnd line = line) :
    lineContent line = line := by
  rcases lineContent_cases line with same | returned
  · exact same
  · have last : line.getLast? = some '\r' := by
      rw [returned]
      exact List.getLast?_concat
    cases trimEnd_eq_self_iff.1 trimmed '\r' last

/-- A line of text as it stands between line feeds, with no blank at its end. -/
structure Tidy (line : List Char) : Prop where
  oneLine : '\n' ∉ line
  nonempty : line ≠ []
  trimmed : trimEnd line = line

theorem lines_intercalate {texts : List (List Char)} (each : ∀ text ∈ texts, Tidy text) :
    lines (List.intercalate ['\n'] texts) = texts := by
  induction texts with
  | nil => rfl
  | cons text texts ih =>
    rw [List.forall_mem_cons] at each
    obtain ⟨tidy, each⟩ := each
    cases texts with
    | nil =>
      rw [List.intercalate_singleton, lines, rawLines_last tidy.oneLine tidy.nonempty,
        List.map_singleton, withoutEnding_of_notMem tidy.oneLine]
    | cons next texts =>
      have first : withoutEnding (text ++ ['\n']) = text := lineContent_of_trimEnd tidy.trimmed
      rw [List.intercalate_cons_cons, List.append_assoc, List.singleton_append, lines,
        rawLines_line tidy.oneLine, List.map_cons, first]
      exact congrArg _ (ih each)

end Text

namespace Help

theorem isBlank_of_isIndent {c : Char} (indents : isIndent c = true) : isBlank c = true := by
  simp only [isIndent, Bool.or_eq_true, decide_eq_true_eq] at indents
  rcases indents with rfl | rfl
  · decide
  · decide

theorem tidy_of_mem_retained {cs line : List Char} (member : line ∈ retained cs) : Tidy line := by
  obtain ⟨inside, nonempty⟩ := List.mem_filter.1 member
  obtain ⟨whole, among, rfl⟩ := List.mem_map.1 inside
  refine ⟨?_, of_decide_eq_true nonempty, ?_⟩
  · intro broken
    exact notMem_of_mem_lines among ((List.rdropWhile_prefix isBlank whole).subset broken)
  · rw [trimEnd_eq_self_iff]
    exact fun c => not_isBlank_of_getLast?_trimEnd

private theorem byteSize_of_isIndent {cs : List Char} (indents : ∀ c ∈ cs, isIndent c = true) :
    byteSize cs = cs.length := by
  induction cs with
  | nil => rfl
  | cons c cs ih =>
    rw [List.forall_mem_cons] at indents
    have narrow : c.utf8Size = 1 := by
      have either := indents.1
      simp only [isIndent, Bool.or_eq_true, decide_eq_true_eq] at either
      rcases either with rfl | rfl
      · decide
      · decide
    rw [byteSize, narrow, ih indents.2, List.length_cons, Nat.add_comm]

/-- A line that is indented by as much as its own indentation begins without any. -/
theorem head?_drop_indentation {line : List Char} {c : Char}
    (first : (line.drop (indentation line)).head? = some c) : isIndent c = false := by
  have rest : line.drop (indentation line) = line.dropWhile isIndent := by
    calc line.drop (indentation line)
        = (line.takeWhile isIndent ++ line.dropWhile isIndent).drop (indentation line) := by
          rw [List.takeWhile_append_dropWhile]
      _ = line.dropWhile isIndent := List.drop_left
  have solid := List.head?_dropWhile_not isIndent line
  rw [← rest, first] at solid
  exact solid

section Shared
variable {line : List Char} {shared : Nat} (reaches : shared ≤ indentation line)
include reaches

theorem isIndent_of_mem_take {c : Char} (member : c ∈ line.take shared) : isIndent c = true := by
  have short : (line.take shared).length ≤ (line.takeWhile isIndent).length :=
    (List.length_take_le _ _).trans reaches
  have start : line.take shared <+: line.takeWhile isIndent :=
    List.prefix_of_prefix_length_le (List.take_prefix _ _) (List.takeWhile_prefix _) short
  exact List.mem_takeWhile_imp (start.subset member)

private theorem byteSize_take : byteSize (line.take shared) = shared := by
  have inside : shared ≤ line.length := reaches.trans (List.takeWhile_prefix _).length_le
  rw [byteSize_of_isIndent fun c => isIndent_of_mem_take reaches, List.length_take_of_le inside]

theorem tidy_drop (tidy : Tidy line) : Tidy (line.drop shared) := by
  have parts : line.take shared ++ line.drop shared = line := List.take_append_drop _ _
  have nonempty : line.drop shared ≠ [] := by
    -- A line of nothing but indentation would end with a blank.
    intro bare
    rw [bare, List.append_nil] at parts
    obtain ⟨c, last⟩ := Option.ne_none_iff_exists'.1 (mt List.getLast?_eq_none_iff.1 tidy.nonempty)
    have solid := trimEnd_eq_self_iff.1 tidy.trimmed c last
    rw [← parts] at last
    rw [isBlank_of_isIndent (isIndent_of_mem_take reaches (List.mem_of_getLast? last))] at solid
    cases solid
  refine ⟨?_, nonempty, ?_⟩
  · intro broken
    exact tidy.oneLine (List.mem_of_mem_drop broken)
  · rw [trimEnd_eq_self_iff]
    intro c last
    apply trimEnd_eq_self_iff.1 tidy.trimmed c
    rw [← parts, List.getLast?_append_of_ne_nil _ nonempty]
    exact last

end Shared

/-- What is taken off is the least indentation. -/
theorem exists_outdent {texts : List (List Char)} (nonempty : texts ≠ []) :
    ∃ shared, (∀ line ∈ texts, shared ≤ indentation line) ∧
      (∃ line ∈ texts, indentation line = shared) ∧ outdent texts = texts.map (·.drop shared) := by
  obtain ⟨shared, least⟩ : ∃ shared, (texts.map indentation).min? = some shared := by
    apply Option.ne_none_iff_exists'.1
    rw [Ne, List.min?_eq_none_iff, List.map_eq_nil_iff]
    exact nonempty
  have both := List.min?_eq_some_iff.1 least
  refine ⟨shared, ?_, List.mem_map.1 both.1, ?_⟩
  · intro line member
    exact both.2 _ (List.mem_map_of_mem member)
  · unfold outdent
    rw [least]
    rfl

/-- The lines of a help text are those that are not blank, in order, each without its trailing
blanks and without the indentation that all of them share. The cut is between two characters, no
line becomes empty or ends with a blank, and at least one line is not indented any more. -/
theorem normalize_layout (raw : String) {kept : List (List Char)}
    (keeps : ((lines (withoutCallouts raw.toList)).map trimEnd).filter (· ≠ []) = kept) :
    (kept = [] → normalize raw = "") ∧
    (kept ≠ [] → ∃ shared,
      (∀ line ∈ kept, shared ≤ indentation line ∧
        (∀ c ∈ line.take shared, c = ' ' ∨ c = '\t') ∧ byteSize (line.take shared) = shared) ∧
      (∃ line ∈ kept, indentation line = shared) ∧
      normalize raw = String.ofList (List.intercalate ['\n'] (kept.map (·.drop shared))) ∧
      lines (normalize raw).toList = kept.map (·.drop shared) ∧
      (∀ line ∈ lines (normalize raw).toList, line ≠ [] ∧ trimEnd line = line) ∧
      ∃ line ∈ lines (normalize raw).toList, ∃ c, line.head? = some c ∧ c ≠ ' ' ∧ c ≠ '\t') := by
  change retained (withoutCallouts raw.toList) = kept at keeps
  have text : normalize raw = String.ofList (List.intercalate ['\n'] (outdent kept)) := by
    rw [normalize, keeps]
  constructor
  · rintro rfl
    exact text
  · intro nonempty
    obtain ⟨shared, reaches, ⟨first, among, least⟩, outdented⟩ := exists_outdent nonempty
    rw [outdented] at text
    have tidy : ∀ line ∈ kept.map (·.drop shared), Tidy line := by
      rw [List.forall_mem_map]
      intro line member
      rw [← keeps] at member
      exact tidy_drop (reaches line (keeps ▸ member)) (tidy_of_mem_retained member)
    have broken : lines (normalize raw).toList = kept.map (·.drop shared) := by
      rw [text, String.toList_ofList, lines_intercalate tidy]
    refine ⟨shared, ?_, ⟨first, among, least⟩, text, broken, ?_, ?_⟩
    · intro line member
      refine ⟨reaches line member, ?_, byteSize_take (reaches line member)⟩
      intro c inside
      simpa [isIndent] using isIndent_of_mem_take (reaches line member) inside
    · rw [broken]
      intro line member
      exact ⟨(tidy line member).nonempty, (tidy line member).trimmed⟩
    · rw [broken]
      have member := List.mem_map_of_mem (f := (·.drop shared)) among
      obtain ⟨c, more, shape⟩ := List.exists_cons_of_ne_nil (tidy _ member).nonempty
      have start : (first.drop shared).head? = some c := by
        rw [shape]
        rfl
      refine ⟨_, member, c, start, ?_⟩
      rw [← least] at start
      simpa [isIndent] using head?_drop_indentation start

/-- Tabs and spaces, a blank line, a carriage return within a line and one at its end. -/
def mixedText : String := "\t a\rb\r\n \t\n    é  \n"

theorem normalize_layout_mixed :
    ((lines (withoutCallouts mixedText.toList)).map trimEnd).filter (· ≠ []) =
        ["\t a\rb".toList, "    é".toList] ∧
      normalize mixedText = "a\rb\n  é" ∧
      lines (normalize mixedText).toList = ["a\rb".toList, "  é".toList] := by
  have keeps : ((lines (withoutCallouts mixedText.toList)).map trimEnd).filter (· ≠ []) =
      ["\t a\rb".toList, "    é".toList] := by
    decide +kernel
  obtain ⟨-, laid⟩ := normalize_layout mixedText keeps
  obtain ⟨shared, reaches, ⟨line, among, least⟩, text, broken, -⟩ := laid (List.cons_ne_nil _ _)
  have bound : shared ≤ 2 := (reaches _ List.mem_cons_self).1
  have two : shared = 2 := by
    rw [List.mem_cons, List.mem_singleton] at among
    rcases among with rfl | rfl
    · exact least.symm
    · cases least
      exact absurd bound (by decide)
  subst two
  exact ⟨keeps, text, broken⟩

end Help

end CommandReference
