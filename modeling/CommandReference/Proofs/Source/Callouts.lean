import CommandReference.Proofs.Literal.Spacing
import CommandReference.Proofs.Source.HelpLayout
import Mathlib.Data.List.Chain
import Mathlib.Data.List.Infix

/-! Example callouts in help texts, and what a second normalization does. Callouts are taken out in
one pass, before the layout is changed, so a callout can come about where an opening tag had blanks
behind it, and where the parts of a callout are joined because another one between them is taken
out. A text without callouts is not changed any more. -/
namespace CommandReference.Help
open Text
open Literal (Blanks)

/-- The shape of a callout. -/
inductive IsCallout : List Char → Prop where
  | mk {before between text : List Char} : Blanks before → Blanks between → text ≠ [] →
      IsCallout (before ++ ("<div>\n".toList ++ (between ++ ("<strong>Example".toList ++
        (text ++ "</div>".toList)))))

def HasCallout (cs : List Char) : Prop := ∃ part, part <:+: cs ∧ IsCallout part

/-- The shape of a callout, with any blanks around the line feed behind the opening tag. -/
inductive IsLooseCallout : List Char → Prop where
  | mk {gap text : List Char} : Blanks gap → '\n' ∈ gap → text ≠ [] →
      IsLooseCallout ("<div>".toList ++ (gap ++ ("<strong>Example".toList ++
        (text ++ "</div>".toList))))

def HasLooseCallout (cs : List Char) : Prop := ∃ part, part <:+: cs ∧ IsLooseCallout part

private theorem HasCallout.loose {cs : List Char} (has : HasCallout cs) : HasLooseCallout cs := by
  obtain ⟨_, inside, ⟨-, between, some⟩⟩ := has
  have white : Blanks ('\n' :: _) := List.forall_mem_cons.2 ⟨by decide, between⟩
  exact ⟨_, (List.suffix_append _ _).isInfix.trans inside, .mk white List.mem_cons_self some⟩

/-- What is left when callouts are taken out from left to right, each up to the first closing tag
behind its heading. -/
inductive Strips : List Char → List Char → Prop where
  | done : Strips [] []
  | kept {c : Char} {cs left : List Char} : (∀ part, part <+: c :: cs → ¬ IsCallout part) →
      Strips cs left → Strips (c :: cs) (c :: left)
  | removed {callout cs left : List Char} : IsCallout callout →
      (∀ part, part <+: callout → IsCallout part → part = callout) →
      Strips cs left → Strips (callout ++ cs) left

private theorem afterFirst?_eq_some {wanted : String} {cs rest : List Char}
    (found : afterFirst? wanted cs = some rest) :
    ∃ before, cs = before ++ (wanted.toList ++ rest) ∧
      ∀ other, other ++ wanted.toList <+: cs → before.length ≤ other.length := by
  induction cs with
  | nil =>
    rw [afterFirst?, after?_eq_some_iff] at found
    exact ⟨[], found, fun _ _ => Nat.zero_le _⟩
  | cons c cs ih =>
    rw [afterFirst?, Option.or_eq_some_iff, after?_eq_some_iff, after?_eq_none_iff] at found
    rcases found with here | ⟨absent, later⟩
    · exact ⟨[], here, fun _ _ => Nat.zero_le _⟩
    · obtain ⟨before, rfl, first⟩ := ih later
      refine ⟨c :: before, rfl, fun other inside => ?_⟩
      cases other with
      | nil =>
        rw [startsWith_iff.2 inside] at absent
        cases absent
      | cons d other => exact Nat.succ_le_succ (first other (List.cons_prefix_cons.1 inside).2)

private theorem isSome_afterFirst?_append (wanted : String) (before rest : List Char) :
    (afterFirst? wanted (before ++ (wanted.toList ++ rest))).isSome = true := by
  induction before with
  | nil =>
    have here : after? wanted (wanted.toList ++ rest) = some rest := after?_append wanted rest
    rw [List.nil_append]
    cases shape : wanted.toList ++ rest with
    | nil => rw [afterFirst?, ← shape, here]; rfl
    | cons c cs => rw [afterFirst?, ← shape, here]; rfl
  | cons c before ih => rw [List.cons_append, afterFirst?, Option.isSome_or, ih, Bool.or_true]

/-- The blanks with which a text begins go up to its first other character. -/
theorem blanks_append_inj {first second cs ds : List Char} (left : Blanks first)
    (right : Blanks second) (leftEnds : ∀ c ∈ cs.head?, isBlank c = false)
    (rightEnds : ∀ c ∈ ds.head?, isBlank c = false) (same : first ++ cs = second ++ ds) :
    first = second ∧ cs = ds := by
  have begins := congrArg (List.takeWhile isBlank) same
  have rest := congrArg (List.dropWhile isBlank) same
  rw [takeWhile_run left leftEnds, takeWhile_run right rightEnds] at begins
  rw [dropWhile_run left leftEnds, dropWhile_run right rightEnds] at rest
  exact ⟨begins, rest⟩

theorem solid_tag (tag rest : List Char) :
    ∀ c ∈ ('<' :: tag ++ rest).head?, isBlank c = false := by
  rintro c ⟨⟩
  decide

/-- A text begins with the head of a callout in at most one way. -/
theorem calloutHead_inj {before between heading before' between' heading' : List Char}
    (white : Blanks before) (white' : Blanks before') (gap : Blanks between)
    (gap' : Blanks between')
    (same : before ++ ("<div>\n".toList ++ (between ++ ("<strong>Example".toList ++ heading))) =
      before' ++ ("<div>\n".toList ++ (between' ++ ("<strong>Example".toList ++ heading')))) :
    before = before' ∧ between = between' ∧ heading = heading' := by
  obtain ⟨sameBefore, same⟩ := blanks_append_inj white white' (solid_tag _ _) (solid_tag _ _) same
  obtain ⟨sameBetween, same⟩ :=
    blanks_append_inj gap gap' (solid_tag _ _) (solid_tag _ _) (List.append_cancel_left same)
  exact ⟨sameBefore, sameBetween, List.append_cancel_left same⟩

/-- A callout that ends with the first closing tag behind its heading has no other one within it
that begins where it does. -/
theorem eq_of_isPrefix_callout {before between more part : List Char} {c : Char}
    (white : Blanks before) (gap : Blanks between)
    (first : ∀ other, other ++ "</div>".toList <+: more ++ "</div>".toList →
      more.length ≤ other.length)
    (begins : part <+: before ++ ("<div>\n".toList ++ (between ++ ("<strong>Example".toList ++
      (c :: more ++ "</div>".toList)))))
    (callout : IsCallout part) :
    part = before ++ ("<div>\n".toList ++ (between ++ ("<strong>Example".toList ++
      (c :: more ++ "</div>".toList)))) := by
  obtain ⟨behind, whole⟩ := begins
  cases callout with
  | mk partWhite partGap some =>
    simp only [List.append_assoc] at whole
    obtain ⟨rfl, rfl, heading⟩ := calloutHead_inj partWhite white partGap gap whole
    obtain ⟨d, text, rfl⟩ := List.exists_cons_of_ne_nil some
    rw [List.cons_append, List.cons_append, List.cons.injEq] at heading
    obtain ⟨rfl, same⟩ := heading
    have near := first text ⟨behind, by rw [List.append_assoc, same]⟩
    have lengths := congrArg List.length same
    simp only [List.length_append] at lengths
    have none : behind = [] := List.eq_nil_of_length_eq_zero (by omega)
    rw [none, List.append_nil] at same
    rw [List.cons_append, List.cons_append, same]

theorem callout?_eq_some {cs rest : List Char} (found : callout? cs = some rest) :
    ∃ callout, cs = callout ++ rest ∧ IsCallout callout ∧
      ∀ part, part <+: callout → IsCallout part → part = callout := by
  simp only [callout?, Option.bind_eq_bind, Option.bind_eq_some_iff, after?_eq_some_iff] at found
  obtain ⟨body, opened, heading, headed, closed⟩ := found
  obtain ⟨more, shape, first⟩ := afterFirst?_eq_some closed
  obtain ⟨c, tail, rfl⟩ : ∃ c tail, heading = c :: tail := by
    cases heading with
    | nil => simp at shape
    | cons c tail => exact ⟨c, tail, rfl⟩
  rw [List.drop_one, List.tail_cons] at shape first
  have outer := List.takeWhile_append_dropWhile (p := isBlank) (l := cs)
  have inner := List.takeWhile_append_dropWhile (p := isBlank) (l := body)
  have white : Blanks (cs.takeWhile isBlank) := fun d => List.mem_takeWhile_imp
  have gap : Blanks (body.takeWhile isBlank) := fun d => List.mem_takeWhile_imp
  rw [← trimStart, opened] at outer
  rw [← trimStart, headed] at inner
  refine ⟨_, ?_, .mk white gap (List.cons_ne_nil c more), ?_⟩
  · conv_lhs => rw [← outer, ← inner, shape]
    simp only [List.append_assoc, List.cons_append]
  · intro part begins callout
    refine eq_of_isPrefix_callout white gap (fun other inside => ?_) begins callout
    apply first other (inside.trans ?_)
    rw [shape, ← List.append_assoc]
    exact List.prefix_append _ _

theorem isSome_callout? {cs part : List Char} (begins : part <+: cs) (callout : IsCallout part) :
    (callout? cs).isSome = true := by
  obtain ⟨rest, rfl⟩ := begins
  cases callout with
  | @mk before between text white gap some =>
    obtain ⟨c, text, rfl⟩ := List.exists_cons_of_ne_nil some
    have outer (cs : List Char) :
        trimStart (before ++ ("<div>\n".toList ++ cs)) = "<div>\n".toList ++ cs :=
      dropWhile_run white (solid_tag "div>\n".toList cs)
    have inner (cs : List Char) :
        trimStart (between ++ ("<strong>Example".toList ++ cs)) = "<strong>Example".toList ++ cs :=
      dropWhile_run gap (solid_tag "strong>Example".toList cs)
    simp only [callout?, List.append_assoc, Option.bind_eq_bind, outer, inner, after?_append,
      Option.bind_some]
    exact isSome_afterFirst?_append "</div>" text rest

private theorem withoutCallouts_of_some {cs rest : List Char} (found : callout? cs = some rest) :
    withoutCallouts cs = withoutCallouts rest := by
  rw [withoutCallouts]
  split
  · next other same =>
    rw [found, Option.some.injEq] at same
    rw [same]
  · next none =>
    rw [found] at none
    cases none

private theorem withoutCallouts_cons {c : Char} {cs : List Char}
    (none : callout? (c :: cs) = none) :
    withoutCallouts (c :: cs) = c :: withoutCallouts cs := by
  rw [withoutCallouts]
  split
  · next rest found =>
    rw [none] at found
    cases found
  · rfl

theorem strips_withoutCallouts (cs : List Char) : Strips cs (withoutCallouts cs) := by
  fun_induction withoutCallouts cs with
  | case1 cs rest found ih =>
    obtain ⟨callout, rfl, shape, shortest⟩ := callout?_eq_some found
    exact .removed shape shortest ih
  | case2 => exact .done
  | case3 c later none ih =>
    refine .kept (fun part begins callout => ?_) ih
    have found := isSome_callout? begins callout
    rw [none] at found
    cases found

theorem Strips.eq_withoutCallouts {cs left : List Char} (strips : Strips cs left) :
    left = withoutCallouts cs := by
  induction strips with
  | done => decide +kernel
  | @kept c cs left absent _ ih =>
    have none : callout? (c :: cs) = none := by
      rw [Option.eq_none_iff_forall_ne_some]
      intro rest found
      obtain ⟨callout, shape, isCallout, -⟩ := callout?_eq_some found
      exact absent callout ⟨rest, shape.symm⟩ isCallout
    rw [withoutCallouts_cons none, ih]
  | @removed callout cs left isCallout shortest _ ih =>
    obtain ⟨rest, found⟩ := Option.isSome_iff_exists.1
      (isSome_callout? (List.prefix_append callout cs) isCallout)
    obtain ⟨other, shape, otherCallout, otherShortest⟩ := callout?_eq_some found
    -- Of two callouts that begin a text the shorter one begins the longer one.
    have same : callout = other := by
      rcases List.prefix_or_prefix_of_prefix (List.prefix_append callout cs)
        ⟨rest, shape.symm⟩ with inside | inside
      · exact otherShortest callout inside isCallout
      · exact (shortest other inside otherCallout).symm
    rw [same, List.append_cancel_left_eq] at shape
    rw [withoutCallouts_of_some found, ih, shape]

private theorem strips_iff {cs left : List Char} : Strips cs left ↔ left = withoutCallouts cs := by
  constructor
  · exact Strips.eq_withoutCallouts
  · rintro rfl
    exact strips_withoutCallouts cs

/-- Texts that differ only in blanks at their ends and in runs of blanks with a line feed. -/
inductive Respaced : List Char → List Char → Prop where
  | blanks {first second : List Char} : Blanks first → Blanks second → Respaced first second
  | same (c : Char) {first second : List Char} : Respaced first second →
      Respaced (c :: first) (c :: second)
  | broken {gap other first second : List Char} : Blanks gap → Blanks other → '\n' ∈ gap →
      '\n' ∈ other → Respaced first second → Respaced (gap ++ first) (other ++ second)

namespace Respaced
variable {first second : List Char}

theorem symm (respaced : Respaced first second) : Respaced second first := by
  induction respaced with
  | blanks left right => exact .blanks right left
  | same c _ ih => exact .same c ih
  | broken left right leftBreak rightBreak _ ih => exact .broken right left rightBreak leftBreak ih

theorem append (respaced : Respaced first second) (start : List Char) :
    Respaced (start ++ first) (start ++ second) := by
  induction start with
  | nil => exact respaced
  | cons c start ih => exact .same c ih

private theorem blanks_of_nil (respaced : Respaced first []) : Blanks first := by
  generalize none : [] = second at respaced
  cases respaced with
  | blanks left _ => exact left
  | same c _ => cases none
  | broken _ _ _ rightBreak _ =>
    rw [(List.append_eq_nil_iff.1 none.symm).1] at rightBreak
    cases rightBreak

private theorem countP_eq (respaced : Respaced first second) :
    first.countP (!isBlank ·) = second.countP (!isBlank ·) := by
  have none {cs : List Char} (white : Blanks cs) : cs.countP (!isBlank ·) = 0 := by
    rw [List.countP_eq_zero]
    intro c member
    simp [white c member]
  induction respaced with
  | blanks left right => rw [none left, none right]
  | same c _ ih => rw [List.countP_cons, List.countP_cons, ih]
  | broken left right _ _ _ ih =>
    rw [List.countP_append, List.countP_append, none left, none right, ih]

/-- A character that is not blank stands in both texts, and so does what is behind it. In front of
it there is nothing, a run of blanks or a line feed in one text just as in the other. -/
theorem cut {before after : List Char} {c : Char} (solid : isBlank c = false)
    (respaced : Respaced (before ++ c :: after) second) :
    ∃ before' after', second = before' ++ c :: after' ∧ Respaced after after' ∧
      (before = [] ↔ before' = []) ∧ (Blanks before → Blanks before') ∧
      ('\n' ∈ before → '\n' ∈ before') := by
  generalize shape : before ++ c :: after = first at respaced
  induction respaced generalizing before with
  | blanks left _ =>
    rw [left c (shape ▸ by simp)] at solid
    cases solid
  | @same d first second respaced ih =>
    cases before with
    | nil =>
      obtain ⟨rfl, rfl⟩ := List.cons.inj shape
      exact ⟨[], second, rfl, respaced, Iff.rfl, id, id⟩
    | cons e before =>
      obtain ⟨rfl, behind⟩ := List.cons.inj shape
      obtain ⟨before', after', rfl, rest, -, white, line⟩ := ih behind
      refine ⟨e :: before', after', rfl, rest, by simp, fun blank => ?_, fun member => ?_⟩
      · rw [Blanks, List.forall_mem_cons] at blank ⊢
        exact ⟨blank.1, white blank.2⟩
      · rw [List.mem_cons] at member ⊢
        exact member.imp_right line
  | @broken gap other first second left right leftBreak rightBreak _ ih =>
    -- The character is not one of the gap, so the gap lies in front of it.
    obtain ⟨more, rfl, rest⟩ : ∃ more, before = gap ++ more ∧ first = more ++ c :: after := by
      rcases List.append_eq_append_iff.1 shape with ⟨more, rfl, rest⟩ | ⟨more, rfl, rest⟩
      · cases more with
        | nil => exact ⟨[], by simp, by simpa using rest.symm⟩
        | cons d more =>
          obtain ⟨rfl, -⟩ := List.cons.inj rest
          rw [left c (by simp)] at solid
          cases solid
      · exact ⟨more, rfl, rest⟩
    obtain ⟨before', after', rfl, respaced, -, white, -⟩ := ih rest.symm
    refine ⟨other ++ before', after', by rw [List.append_assoc], respaced, ?_, ?_, ?_⟩
    · rw [List.append_eq_nil_iff, List.append_eq_nil_iff]
      exact ⟨fun none => absurd (none.1 ▸ leftBreak) List.not_mem_nil,
        fun none => absurd (none.1 ▸ rightBreak) List.not_mem_nil⟩
    · intro blank
      rw [Blanks, List.forall_mem_append] at blank ⊢
      exact ⟨right, white blank.2⟩
    · exact fun _ => List.mem_append_left _ rightBreak

/-- A word without blanks stands in both texts. -/
theorem cutWord {before after : List Char} (word : List Char) (some : word ≠ [])
    (solid : ∀ c ∈ word, isBlank c = false)
    (respaced : Respaced (before ++ (word ++ after)) second) :
    ∃ before' after', second = before' ++ (word ++ after') ∧ Respaced after after' ∧
      (before = [] ↔ before' = []) ∧ (Blanks before → Blanks before') ∧
      ('\n' ∈ before → '\n' ∈ before') := by
  induction word generalizing before second with
  | nil => exact absurd rfl some
  | cons c word ih =>
    rw [List.forall_mem_cons] at solid
    obtain ⟨before', rest, rfl, behind, none, white, line⟩ := respaced.cut solid.1
    cases word with
    | nil => exact ⟨before', rest, rfl, behind, none, white, line⟩
    | cons d word =>
      have adjacent : Respaced ([] ++ (d :: word ++ after)) rest := behind
      obtain ⟨between, after', rfl, remaining, nothing, -, -⟩ :=
        ih (List.cons_ne_nil d word) solid.2 adjacent
      obtain rfl := nothing.1 rfl
      exact ⟨before', after', rfl, remaining, none, white, line⟩

theorem hasLooseCallout (respaced : Respaced first second) (has : HasLooseCallout first) :
    HasLooseCallout second := by
  obtain ⟨_, ⟨before, after, rfl⟩, ⟨white, line, some⟩⟩ := has
  have solid {tag : String} (all : tag.toList.all (fun c => decide (isBlank c = false)) = true) :
      ∀ c ∈ tag.toList, isBlank c = false := forall_mem_of_all all
  simp only [List.append_assoc] at respaced
  obtain ⟨before', _, rfl, inner, -⟩ := respaced.cutWord _ (by decide) (solid (by decide))
  obtain ⟨gap', _, rfl, heading, -, white', line'⟩ :=
    inner.cutWord _ (by decide) (solid (by decide))
  obtain ⟨text', after', rfl, -, none, -⟩ := heading.cutWord _ (by decide) (solid (by decide))
  refine ⟨_, ⟨before', after', ?_⟩, .mk (white' white) (line' line) (mt none.2 some)⟩
  simp only [List.append_assoc]

end Respaced

def layout (cs : List Char) : List Char := List.intercalate ['\n'] (outdent (retained cs))

theorem toList_normalize (raw : String) :
    (normalize raw).toList = layout (withoutCallouts raw.toList) := String.toList_ofList

private theorem trimEnd_lineContent (line : List Char) :
    trimEnd (lineContent line) = trimEnd line := by
  rcases lineContent_cases line with same | returned
  · rw [same]
  · conv_rhs => rw [returned]
    exact (List.rdropWhile_concat_pos isBlank _ _ rfl).symm

private theorem cons_flatMap_concat (texts : List (List Char)) :
    '\n' :: texts.flatMap (· ++ ['\n']) = texts.flatMap ('\n' :: ·) ++ ['\n'] := by
  induction texts with
  | nil => rfl
  | cons text texts ih =>
    rw [List.flatMap_cons, List.flatMap_cons, List.append_assoc, List.singleton_append, ih,
      List.cons_append, List.cons_append, List.append_assoc]

private theorem cons_intercalate {texts : List (List Char)} (some : texts ≠ []) :
    '\n' :: List.intercalate ['\n'] texts = texts.flatMap ('\n' :: ·) := by
  induction texts with
  | nil => exact absurd rfl some
  | cons text texts ih =>
    cases texts with
    | nil => simp
    | cons next texts =>
      rw [List.intercalate_cons_cons, List.flatMap_cons, ← ih (List.cons_ne_nil _ _),
        List.append_assoc]
      rfl

/-- The texts between line feeds, which are the lines of a text up to carriage returns. -/
theorem exists_texts (cs : List Char) :
    ∃ texts : List (List Char), '\n' :: cs = texts.flatMap ('\n' :: ·) ∧
      retained cs = (texts.map trimEnd).filter (· ≠ []) := by
  obtain ⟨whole, last, rfl, ended, absent⟩ := exists_ended_append cs
  obtain ⟨texts, rfl, oneLine⟩ := ended.exists_lines
  have contents : (texts.map lineContent).map trimEnd = texts.map trimEnd := by
    rw [List.map_map]
    exact List.map_congr_left fun text _ => trimEnd_lineContent text
  refine ⟨texts ++ [last], ?_, ?_⟩
  · rw [← List.cons_append, cons_flatMap_concat]
    simp
  · unfold retained
    by_cases none : last = []
    · have ended : lines (texts.flatMap (· ++ ['\n'])) = texts.map lineContent := by
        rw [lines, rawLines_flatMap texts oneLine, List.map_map]
        rfl
      rw [none, List.append_nil, ended, contents, List.map_append, List.filter_append]
      exact (List.append_nil _).symm
    · rw [lines_flatMap_append oneLine absent none, List.map_append, contents, List.map_append]

private theorem respaced_line {line gap rest other : List Char} {shared : Nat}
    (reaches : shared ≤ indentation (trimEnd line)) (white : Blanks gap)
    (later : ∀ blanks, Blanks blanks → Respaced (blanks ++ rest) other) :
    Respaced (gap ++ ('\n' :: line ++ rest)) ('\n' :: (trimEnd line).drop shared ++ other) := by
  obtain ⟨dropped, shape, trailing⟩ := exists_append_dropEndWhile isBlank line
  have parts : line = (trimEnd line).take shared ++ ((trimEnd line).drop shared ++ dropped) := by
    rw [← List.append_assoc, List.take_append_drop]
    exact shape
  have whole : gap ++ ('\n' :: line ++ rest) = (gap ++ '\n' :: (trimEnd line).take shared) ++
      ((trimEnd line).drop shared ++ (dropped ++ rest)) := by
    conv_lhs => rw [parts]
    simp only [List.append_assoc, List.cons_append]
  have indent : Blanks (gap ++ '\n' :: (trimEnd line).take shared) := by
    rw [Blanks, List.forall_mem_append, List.forall_mem_cons]
    exact ⟨white, by decide, fun c member =>
      isBlank_of_isIndent (isIndent_of_mem_take reaches member)⟩
  have feed : Blanks ['\n'] := List.forall_mem_singleton.2 (by decide)
  have both := Respaced.broken indent feed (by simp) List.mem_cons_self
    ((later dropped trailing).append ((trimEnd line).drop shared))
  rw [whole]
  exact both

theorem respaced_texts {shared : Nat} {texts : List (List Char)}
    (reaches : ∀ text ∈ (texts.map trimEnd).filter (· ≠ []), shared ≤ indentation text)
    (gap : List Char) (white : Blanks gap) :
    Respaced (gap ++ texts.flatMap ('\n' :: ·))
      (((texts.map trimEnd).filter (· ≠ [])).flatMap fun text => '\n' :: text.drop shared) := by
  induction texts generalizing gap with
  | nil => exact .blanks (by simpa using white) (List.forall_mem_nil _)
  | cons text texts ih =>
    rw [List.map_cons, List.filter_cons] at reaches ⊢
    by_cases blank : trimEnd text = []
    · -- A blank line becomes a part of the gap.
      have more : Blanks (gap ++ '\n' :: text) := by
        rw [Blanks, List.forall_mem_append, List.forall_mem_cons]
        exact ⟨white, by decide, List.rdropWhile_eq_nil_iff.1 blank⟩
      rw [if_neg (by simpa using blank)] at reaches ⊢
      rw [List.flatMap_cons, ← List.append_assoc]
      exact ih reaches _ more
    · rw [if_pos (by simpa using blank)] at reaches ⊢
      rw [List.forall_mem_cons] at reaches
      exact respaced_line reaches.1 white (ih reaches.2)

theorem respaced_layout (cs : List Char) : Respaced ('\n' :: cs) ('\n' :: layout cs) := by
  obtain ⟨texts, shape, kept⟩ := exists_texts cs
  by_cases none : retained cs = []
  · have blank : Respaced ('\n' :: cs) [] := by
      have reaches : ∀ text ∈ (texts.map trimEnd).filter (· ≠ []), 0 ≤ indentation text :=
        fun text _ => Nat.zero_le _
      have gone := respaced_texts reaches [] (List.forall_mem_nil _)
      rw [← kept, none, List.nil_append, ← shape] at gone
      exact gone
    rw [layout, none]
    exact .blanks blank.blanks_of_nil (List.forall_mem_singleton.2 (by decide))
  · obtain ⟨shared, reaches, -, outdented⟩ := exists_outdent none
    have some : (retained cs).map (·.drop shared) ≠ [] := mt List.map_eq_nil_iff.1 none
    rw [kept] at reaches
    rw [layout, outdented, cons_intercalate some, List.flatMap_map, kept, shape]
    exact respaced_texts reaches [] (List.forall_mem_nil _)

theorem hasLooseCallout_cons_break (cs : List Char) :
    HasLooseCallout ('\n' :: cs) ↔ HasLooseCallout cs := by
  constructor
  · rintro ⟨part, inside, callout⟩
    rcases List.infix_cons_iff.1 inside with begins | later
    · cases callout
      cases (List.cons_prefix_cons.1 begins).1
    · exact ⟨part, later, callout⟩
  · rintro ⟨part, inside, callout⟩
    exact ⟨part, List.infix_cons inside, callout⟩

theorem hasLooseCallout_layout (cs : List Char) :
    HasLooseCallout (layout cs) ↔ HasLooseCallout cs := by
  rw [← hasLooseCallout_cons_break, ← hasLooseCallout_cons_break cs]
  exact ⟨(respaced_layout cs).symm.hasLooseCallout, (respaced_layout cs).hasLooseCallout⟩

private theorem countP_layout (cs : List Char) :
    (layout cs).countP (!isBlank ·) = cs.countP (!isBlank ·) := by
  have counts := (respaced_layout cs).countP_eq
  rw [List.countP_cons_of_neg (by decide), List.countP_cons_of_neg (by decide)] at counts
  exact counts.symm

theorem tidy_of_mem_outdent {cs line : List Char} (member : line ∈ outdent (retained cs)) :
    Tidy line := by
  have some : retained cs ≠ [] := by
    intro none
    rw [none] at member
    cases member
  obtain ⟨shared, reaches, -, outdented⟩ := exists_outdent some
  rw [outdented, List.mem_map] at member
  obtain ⟨whole, among, rfl⟩ := member
  exact tidy_drop (reaches whole among) (tidy_of_mem_retained among)

/-- No line of a text ends with a blank, the last one apart. -/
def Flush (cs : List Char) : Prop := cs.IsChain fun c d => d = '\n' → isBlank c = false

private theorem flush_of_notMem {cs : List Char} (oneLine : '\n' ∉ cs) : Flush cs := by
  refine List.isChain_iff_forall_rel_of_append_cons_cons.2 ?_
  rintro c d before after rfl rfl
  simp at oneLine

private theorem head?_intercalate {text : List Char} (tidy : Tidy text) (texts : List (List Char)) :
    ∀ c ∈ (List.intercalate ['\n'] (text :: texts)).head?, c ≠ '\n' := by
  obtain ⟨d, more, rfl⟩ := List.exists_cons_of_ne_nil tidy.nonempty
  have first : (List.intercalate ['\n'] ((d :: more) :: texts)).head? = some d := by
    cases texts with
    | nil => rw [List.intercalate_singleton]; rfl
    | cons next texts => rw [List.intercalate_cons_cons]; rfl
  rw [first]
  rintro c ⟨⟩ rfl
  exact tidy.oneLine List.mem_cons_self

private theorem flush_intercalate {texts : List (List Char)} (each : ∀ text ∈ texts, Tidy text) :
    Flush (List.intercalate ['\n'] texts) := by
  induction texts with
  | nil => exact .nil
  | cons text texts ih =>
    rw [List.forall_mem_cons] at each
    have first : Flush text := flush_of_notMem each.1.oneLine
    cases texts with
    | nil =>
      rw [List.intercalate_singleton]
      exact first
    | cons next texts =>
      have begins := head?_intercalate (each.2 next List.mem_cons_self) texts
      rw [List.intercalate_cons_cons]
      refine List.isChain_append.2 ⟨List.isChain_append.2 ⟨first, .singleton _, ?_⟩, ih each.2, ?_⟩
      · intro c last _ _ _
        exact trimEnd_eq_self_iff.1 each.1.trimmed c last
      · intro c _ d next broken
        exact absurd broken (begins d next)

private theorem flush_layout (cs : List Char) : Flush (layout cs) :=
  flush_intercalate fun _ => tidy_of_mem_outdent

/-- Where no line ends with a blank, all callouts have the exact shape. -/
theorem HasLooseCallout.tight {cs : List Char} (flush : Flush cs) (has : HasLooseCallout cs) :
    HasCallout cs := by
  obtain ⟨_, inside, callout⟩ := has
  cases callout with
  | @mk gap text white line some =>
    obtain ⟨front, between, rfl, absent⟩ := List.eq_append_cons_of_mem line
    rw [Blanks, List.forall_mem_append, List.forall_mem_cons] at white
    obtain rfl | ⟨body, c, rfl⟩ := front.eq_nil_or_concat
    · exact ⟨_, inside, @IsCallout.mk [] between text (List.forall_mem_nil _) white.2.2 some⟩
    · obtain ⟨before, after, rfl⟩ := inside
      simp only [List.concat_eq_append, List.append_assoc, List.cons_append,
        List.nil_append] at flush white
      have behind := (List.isChain_append.1 (List.isChain_append.1 flush).2.1).2.1
      have solid := (List.isChain_append_cons_cons.1 behind).2.1 rfl
      rw [white.1 c (by simp)] at solid
      cases solid

private theorem hasCallout_layout_iff (cs : List Char) :
    HasCallout (layout cs) ↔ HasLooseCallout cs := by
  constructor
  · intro has
    exact (hasLooseCallout_layout cs).1 has.loose
  · intro has
    exact ((hasLooseCallout_layout cs).2 has).tight (flush_layout cs)

/-- Callouts do survive. What one pass leaves of a text is determined, and after the layout has been
changed there is a callout exactly if one stood there already, apart from blanks around the line
feed behind its opening tag. -/
theorem hasCallout_normalize_iff (raw : String) :
    ∃ left, (∀ other, Strips raw.toList other ↔ other = left) ∧
      (HasCallout (normalize raw).toList ↔ HasLooseCallout left) := by
  refine ⟨withoutCallouts raw.toList, fun _ => strips_iff, ?_⟩
  rw [toList_normalize]
  exact hasCallout_layout_iff _

/-- An opening tag with a blank behind it. -/
def spacedText : String := "<div> \n<strong>Example.</div>"

/-- A callout between an opening tag and a heading. -/
def nestedText : String := "<div>\n<div>\n<strong>Example 1</div>\n<strong>Example 2</div>"

theorem hasCallout_normalize_remains :
    HasCallout (normalize spacedText).toList ∧ HasCallout (normalize nestedText).toList := by
  have blanks : Blanks [] := List.forall_mem_nil _
  constructor
  · have shown : (normalize spacedText).toList = "<div>\n<strong>Example.</div>".toList := by
      decide +kernel
    rw [shown]
    exact ⟨_, List.infix_rfl, .mk blanks blanks (List.cons_ne_nil '.' [])⟩
  · have shown : (normalize nestedText).toList = "<div>\n<strong>Example 2</div>".toList := by
      decide +kernel
    rw [shown]
    exact ⟨_, List.infix_rfl, .mk blanks blanks (List.cons_ne_nil ' ' ['2'])⟩

private theorem indentation_drop (line : List Char) :
    indentation (line.drop (indentation line)) = 0 := by
  cases shape : line.drop (indentation line) with
  | nil => rfl
  | cons c rest =>
    have solid : isIndent c = false := head?_drop_indentation (by rw [shape]; rfl)
    rw [indentation, List.takeWhile_cons_of_neg (by simp [solid])]
    rfl

private theorem outdent_outdent (texts : List (List Char)) :
    outdent (outdent texts) = outdent texts := by
  by_cases none : texts = []
  · rw [none]
    rfl
  · obtain ⟨shared, -, ⟨line, among, least⟩, outdented⟩ := exists_outdent none
    have member := List.mem_map_of_mem (f := (·.drop shared)) among
    rw [outdented]
    obtain ⟨again, reaches, -, same⟩ := exists_outdent (List.ne_nil_of_mem member)
    have zero : again = 0 := by
      have bound := reaches _ member
      rw [← least, indentation_drop] at bound
      exact Nat.le_zero.1 bound
    rw [same, zero]
    exact List.map_id _

private theorem retained_intercalate {texts : List (List Char)} (each : ∀ text ∈ texts, Tidy text) :
    retained (List.intercalate ['\n'] texts) = texts := by
  have trimmed : texts.map trimEnd = texts :=
    (List.map_congr_left fun text member => (each text member).trimmed).trans (List.map_id texts)
  rw [retained, lines_intercalate each, trimmed, List.filter_eq_self]
  intro text member
  simpa using (each text member).nonempty

private theorem layout_layout (cs : List Char) : layout (layout cs) = layout cs := by
  unfold layout
  rw [retained_intercalate fun _ => tidy_of_mem_outdent, outdent_outdent]

private theorem strips_self {cs : List Char} (absent : ¬ HasCallout cs) : Strips cs cs := by
  induction cs with
  | nil => exact .done
  | cons c cs ih =>
    refine .kept (fun part begins callout => absent ⟨part, begins.isInfix, callout⟩) (ih ?_)
    rintro ⟨part, inside, callout⟩
    exact absent ⟨part, List.infix_cons inside, callout⟩

private theorem Strips.countP_le {cs left : List Char} (strips : Strips cs left) :
    left.countP (!isBlank ·) ≤ cs.countP (!isBlank ·) := by
  induction strips with
  | done => exact Nat.le_refl _
  | kept _ _ ih =>
    rw [List.countP_cons, List.countP_cons]
    exact Nat.add_le_add_right ih _
  | removed _ _ _ ih =>
    rw [List.countP_append]
    exact Nat.le_add_left_of_le ih

theorem IsCallout.countP_pos {callout : List Char} (shape : IsCallout callout) :
    0 < callout.countP (!isBlank ·) := by
  cases shape
  rw [List.countP_pos_iff]
  exact ⟨'<', by simp, by decide⟩

/-- Where there is a callout, one pass takes out more than blanks. -/
theorem Strips.countP_lt {cs left : List Char} (strips : Strips cs left) (has : HasCallout cs) :
    left.countP (!isBlank ·) < cs.countP (!isBlank ·) := by
  induction strips with
  | done =>
    obtain ⟨part, inside, shape⟩ := has
    rw [List.infix_nil.1 inside] at shape
    exact absurd shape.countP_pos (by decide)
  | kept absent _ ih =>
    obtain ⟨part, inside, shape⟩ := has
    rcases List.infix_cons_iff.1 inside with begins | later
    · exact absurd shape (absent part begins)
    · rw [List.countP_cons, List.countP_cons]
      exact Nat.add_lt_add_right (ih ⟨part, later, shape⟩) _
  | removed shape _ rest _ =>
    rw [List.countP_append]
    have positive := shape.countP_pos
    have fewer := rest.countP_le
    omega

/-- A second normalization changes nothing exactly if the first one has left no callout. -/
theorem normalize_normalize_iff (raw : String) :
    normalize (normalize raw) = normalize raw ↔ ¬ HasCallout (normalize raw).toList := by
  have laid := toList_normalize raw
  rw [← String.toList_inj, toList_normalize (normalize raw)]
  constructor
  · intro same has
    have counts := congrArg (List.countP (!isBlank ·)) same
    rw [countP_layout] at counts
    have fewer := (strips_withoutCallouts _).countP_lt has
    omega
  · intro absent
    rw [← (strips_self absent).eq_withoutCallouts, laid, layout_layout]

end CommandReference.Help
