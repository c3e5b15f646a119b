import CommandReference.Text.Blank
import CommandReference.Text.Part
import Mathlib.Data.List.DropRight
import Mathlib.Data.List.TakeWhile
import Mathlib.Tactic.Common

/-! Beginnings of texts, and what is left of a text when its end is trimmed. -/
namespace CommandReference.Text

theorem startsWith_iff {start : String} {cs : List Char} :
    startsWith start cs = true ↔ start.toList <+: cs := by
  rw [startsWith, Option.isSome_iff_exists]
  constructor
  · rintro ⟨rest, found⟩
    exact ⟨rest, (after?_eq_some_iff.1 found).symm⟩
  · rintro ⟨rest, rfl⟩
    exact ⟨rest, after?_eq_some_iff.2 rfl⟩

theorem after?_append (start : String) (rest : List Char) :
    after? start (start.toList ++ rest) = some rest :=
  after?_eq_some_iff.2 rfl

theorem after?_eq_none_iff {start : String} {cs : List Char} :
    after? start cs = none ↔ startsWith start cs = false := by
  simp [startsWith]

theorem before?_eq_some_iff {finish : String} {cs rest : List Char} :
    before? finish cs = some rest ↔ cs = rest ++ finish.toList := by
  rw [before?, Option.map_eq_some_iff]
  constructor
  · rintro ⟨reversed, found, rfl⟩
    rw [← List.reverse_inj, dropStart?_eq_some_iff.1 found, List.reverse_append,
      List.reverse_reverse]
  · intro shape
    refine ⟨rest.reverse, dropStart?_eq_some_iff.2 ?_, List.reverse_reverse rest⟩
    rw [shape, List.reverse_append]

/-- A text has only one of two beginnings that do not go on from each other. -/
theorem startsWith_eq_false_of_apart {start other : String} {cs : List Char}
    (begins : startsWith start cs = true)
    (apart : ¬ start.toList <+: other.toList ∧ ¬ other.toList <+: start.toList) :
    startsWith other cs = false := by
  by_contra both
  have both := startsWith_iff.1 (by simpa using both)
  rcases List.prefix_or_prefix_of_prefix (startsWith_iff.1 begins) both with inside | inside
  · exact apart.1 inside
  · exact apart.2 inside

theorem length_le_byteSize (cs : List Char) : cs.length ≤ byteSize cs := by
  induction cs with
  | nil => exact Nat.le_refl 0
  | cons c cs ih =>
    have size := c.utf8Size_pos
    rw [List.length_cons, byteSize]
    omega

/-- A longer text begins as its beginnings do. -/
theorem startsWith_of_isPrefix {start : String} {cs longer : List Char} (inside : cs <+: longer)
    (begins : startsWith start cs = true) : startsWith start longer = true :=
  startsWith_iff.2 ((startsWith_iff.1 begins).trans inside)

/-- A beginning without a character does not reach beyond the first place where it stands. -/
theorem isPrefix_of_append_cons {start line more : List Char} {c : Char} (absent : c ∉ start)
    (begins : start <+: line ++ c :: more) : start <+: line := by
  rcases List.prefix_or_prefix_of_prefix begins (List.prefix_append line (c :: more)) with
    inside | ⟨rest, rfl⟩
  · exact inside
  · rw [List.prefix_append_right_inj] at begins
    cases rest with
    | nil => simp
    | cons d rest =>
      rw [List.cons_prefix_cons] at begins
      simp [begins.1] at absent

/-- What a computation finds for each character of a list holds for all of them. -/
theorem forall_mem_of_all {p : Char → Prop} [DecidablePred p] {cs : List Char}
    (all : cs.all (fun c => decide (p c)) = true) : ∀ c ∈ cs, p c :=
  fun c member => of_decide_eq_true (List.all_eq_true.1 all c member)

/-- A run of characters or lines ends where one stands that does not belong to it. -/
theorem takeWhile_run {α : Type} {p : α → Bool} {word rest : List α}
    (inside : ∀ c ∈ word, p c = true)
    (stop : ∀ c ∈ rest.head?, p c = false) : (word ++ rest).takeWhile p = word := by
  rw [List.takeWhile_append_of_pos inside]
  cases rest with
  | nil => exact List.append_nil word
  | cons c r => rw [List.takeWhile_cons_of_neg (by simp [stop c rfl]), List.append_nil]

theorem dropWhile_run {α : Type} {p : α → Bool} {word rest : List α}
    (inside : ∀ c ∈ word, p c = true)
    (stop : ∀ c ∈ rest.head?, p c = false) : (word ++ rest).dropWhile p = rest := by
  rw [List.dropWhile_append_of_pos inside]
  cases rest with
  | nil => rfl
  | cons c r => rw [List.dropWhile_cons_of_neg (by simp [stop c rfl])]

theorem bne_of_notMem {finish : Char} {body : List Char} (inside : finish ∉ body) :
    ∀ c ∈ body, (c != finish) = true := by
  rintro c member
  simp only [bne_iff_ne]
  rintro rfl
  exact inside member

theorem notMem_or_exists_append (finish : Char) (cs : List Char) :
    finish ∉ cs ∨ ∃ body later, cs = body ++ finish :: later ∧ finish ∉ body := by
  by_cases member : finish ∈ cs
  · exact .inr (List.eq_append_cons_of_mem member)
  · exact .inl member

/-- Facts about trimmed ends are facts about `List.rdropWhile`. -/
theorem dropEndWhile_eq_rdropWhile (p : Char → Bool) (cs : List Char) :
    dropEndWhile p cs = cs.rdropWhile p := rfl

theorem exists_append_dropEndWhile (p : Char → Bool) (cs : List Char) :
    ∃ dropped, cs = dropEndWhile p cs ++ dropped ∧ ∀ c ∈ dropped, p c = true := by
  refine ⟨(cs.reverse.takeWhile p).reverse, ?_, ?_⟩
  · rw [dropEndWhile, ← List.reverse_append, List.takeWhile_append_dropWhile, List.reverse_reverse]
  · intro c member
    exact List.mem_takeWhile_imp (List.mem_reverse.1 member)

theorem trim_eq_nil_iff {cs : List Char} : trim cs = [] ↔ ∀ c ∈ cs, isBlank c = true := by
  rw [trim, trimEnd, dropEndWhile_eq_rdropWhile, List.rdropWhile_eq_nil_iff, trimStart]
  constructor
  · intro blank c member
    rw [← List.takeWhile_append_dropWhile (p := isBlank) (l := cs), List.mem_append] at member
    rcases member with member | member
    · exact List.mem_takeWhile_imp member
    · exact blank c member
  · intro blank c member
    exact blank c ((List.dropWhile_suffix isBlank).subset member)

theorem trim_eq_nil_of_subset {cs longer : List Char} (inside : cs ⊆ longer)
    (blank : trim longer = []) : trim cs = [] := by
  rw [trim_eq_nil_iff] at blank ⊢
  intro c member
  exact blank c (inside member)

/-- A blank text begins with no text that has another character. -/
theorem startsWith_eq_false_of_blank {start : String} {c : Char} (member : c ∈ start.toList)
    (solid : isBlank c = false) {line : List Char} (blank : trim line = []) :
    startsWith start line = false := by
  by_contra begins
  have inside := (startsWith_iff.1 (by simpa using begins)).subset member
  rw [trim_eq_nil_iff.1 blank c inside] at solid
  cases solid

theorem trimEnd_concat_append {c : Char} {blanks : List Char} (solid : isBlank c = false)
    (white : ∀ c ∈ blanks, isBlank c = true) (cs : List Char) :
    trimEnd (cs ++ [c] ++ blanks) = cs ++ [c] := by
  have dropped : (cs ++ [c] ++ blanks).reverse.dropWhile isBlank = (cs ++ [c]).reverse := by
    rw [List.reverse_append]
    apply dropWhile_run
    · intro d member
      exact white d (List.mem_reverse.1 member)
    · rw [List.reverse_append]
      rintro d ⟨⟩
      exact solid
  rw [trimEnd, dropEndWhile, dropped, List.reverse_reverse]

theorem not_isBlank_of_getLast?_trimEnd {cs : List Char} {c : Char}
    (last : (trimEnd cs).getLast? = some c) : isBlank c = false := by
  have solid := List.head?_dropWhile_not isBlank cs.reverse
  rw [trimEnd, dropEndWhile, List.getLast?_reverse] at last
  rw [last] at solid
  exact solid

theorem trimEnd_eq_self_iff {cs : List Char} :
    trimEnd cs = cs ↔ ∀ c, cs.getLast? = some c → isBlank c = false := by
  constructor
  · intro same c last
    rw [← same] at last
    exact not_isBlank_of_getLast?_trimEnd last
  · intro solid
    rcases cs.eq_nil_or_concat with rfl | ⟨body, c, rfl⟩
    · rfl
    · rw [List.concat_eq_append] at solid ⊢
      exact List.rdropWhile_concat_neg _ _ _ (by simp [solid c List.getLast?_concat])

private theorem trimEnd_of_trim {cs : List Char} (trimmed : trim cs = cs) : trimEnd cs = cs := by
  have long : cs.length ≤ (trimStart cs).length := by
    conv_lhs => rw [← trimmed]
    exact (List.rdropWhile_prefix isBlank _).length_le
  have same : trimStart cs = cs := (List.dropWhile_suffix isBlank).eq_of_length_le long
  rwa [trim, same] at trimmed

/-- A text that trimming leaves as it is does not end with a blank. -/
theorem not_isBlank_of_trim {cs : List Char} {c : Char} (trimmed : trim (cs ++ [c]) = cs ++ [c]) :
    isBlank c = false := by
  by_contra blank
  have dropped := List.rdropWhile_concat_pos isBlank cs c (by simpa using blank)
  have shorter := (List.rdropWhile_prefix isBlank cs).length_le
  rw [← dropped, ← dropEndWhile_eq_rdropWhile, ← trimEnd, trimEnd_of_trim trimmed,
    List.length_append] at shorter
  exact absurd shorter (Nat.not_succ_le_self _)

theorem trim_trim (cs : List Char) : trim (trim cs) = trim cs := by
  have starts : trimStart (trim cs) = trim cs := by
    have solid := List.head?_dropWhile_not isBlank cs
    unfold trim trimEnd trimStart
    generalize cs.dropWhile isBlank = rest at solid
    obtain ⟨dropped, shape, -⟩ := exists_append_dropEndWhile isBlank rest
    cases shown : dropEndWhile isBlank rest with
    | nil => rfl
    | cons c body =>
      rw [shape, shown] at solid
      exact List.dropWhile_cons_of_neg (by simpa using solid)
  have ends : trimEnd (trim cs) = trim cs := List.rdropWhile_idempotent isBlank (trimStart cs)
  rw [trim, starts, ends]

end CommandReference.Text
