import CommandReference.Proofs.Document.Parts
import CommandReference.Proofs.Source.Steps

/-! The names that a source can give, line by line. The name in a marker can stand in a heading, the
name in a start is on one line, and what every step keeps is kept by the whole scan. -/
namespace CommandReference
open Text

theorem Line.infix_of_command? {line name : List Char} (starts : Line.command? line = some name) :
    name ≠ [] ∧ name <:+: line := by
  unfold Line.command? at starts
  obtain ⟨rest, begins, starts⟩ := Option.bind_eq_some_iff.1 starts
  obtain ⟨value, key, starts⟩ := Option.bind_eq_some_iff.1 starts
  rw [after?_eq_some_iff] at begins key
  have inside : trimStart value <:+ line := by
    rw [begins]
    refine (List.dropWhile_suffix _).trans ?_
    refine (List.IsSuffix.trans ?_ (List.dropWhile_suffix isBlank)).trans (List.suffix_append _ _)
    exact ⟨_, key.symm⟩
  split at starts
  · rename_i quote body shape
    rw [shape] at inside
    split at starts
    · obtain ⟨⟨text, rest⟩, quoted, starts⟩ := Option.bind_eq_some_iff.1 starts
      obtain ⟨finish, comma, starts⟩ := Option.bind_eq_some_iff.1 starts
      split at starts
      · rename_i shown
        cases starts
        refine ⟨shown.1, ?_⟩
        unfold Line.quotedBy at quoted
        split at quoted
        · cases quoted
        · cases quoted
          have behind : body <:+ line := (List.suffix_cons quote body).trans inside
          exact (List.takeWhile_prefix _).isInfix.trans behind.isInfix
      · cases starts
    · cases starts
  · cases starts

theorem Line.headable_of_group? {line name : List Char} (marks : Line.group? line = some name) :
    name ≠ [] ∧ Document.Headable (String.ofList name) := by
  unfold Line.group? at marks
  obtain ⟨rest, -, marks⟩ := Option.bind_eq_some_iff.1 marks
  dsimp only at marks
  split at marks
  · rename_i shown
    cases marks
    refine ⟨shown.1, ?_, ?_⟩
    · rw [String.toList_ofList]
      intro found
      simpa using List.all_eq_true.1 shown.2 _ found
    · rw [String.toList_ofList, trim_trim]
  · cases marks

/-- A command as a source declares it. -/
structure Command.Fresh (command : Command) : Prop where
  oneLine : '\n' ∉ command.name.toList
  bare : command.examples = []

/-- A registry as a source declares it. -/
structure Registry.Fresh (registry : Registry) : Prop where
  distinct : registry.groupNames.Nodup
  headable : ∀ group ∈ registry.groups, Document.Headable group.name
  commands : ∀ group ∈ registry.groups, ∀ command ∈ group.commands, command.Fresh

theorem mem_updateFirst {α : Type} {p : α → Bool} {change : α → α} {items : List α} {item : α}
    (member : item ∈ updateFirst p change items) :
    item ∈ items ∨ ∃ old ∈ items, item = change old := by
  induction items with
  | nil => cases member
  | cons first items ih =>
    unfold updateFirst at member
    split at member
    · rcases List.mem_cons.1 member with rfl | inside
      · exact .inr ⟨first, List.mem_cons_self, rfl⟩
      · exact .inl (List.mem_cons_of_mem _ inside)
    · rcases List.mem_cons.1 member with rfl | inside
      · exact .inl List.mem_cons_self
      · rcases ih inside with before | ⟨old, before, rfl⟩
        · exact .inl (List.mem_cons_of_mem _ before)
        · exact .inr ⟨old, List.mem_cons_of_mem _ before, rfl⟩

/-- What all commands of a registry have in common. -/
def Registry.Every (P : Command → Prop) (registry : Registry) : Prop :=
  ∀ group ∈ registry.groups, ∀ command ∈ group.commands, P command

namespace Registry.Every

variable {P : Command → Prop} {registry : Registry} (every : registry.Every P)
include every

theorem ensureGroup (name : String) : (registry.ensureGroup name).Every P := by
  intro group member
  unfold Registry.ensureGroup at member
  split at member
  · exact every group member
  · rcases List.mem_append.1 member with inside | last
    · exact every group inside
    · rw [List.mem_singleton.1 last]
      simp

theorem updateGroup {name : String} {change : Group → Group}
    (keeps : ∀ group, (∀ command ∈ group.commands, P command) →
      ∀ command ∈ (change group).commands, P command) :
    (registry.updateGroup name change).Every P := by
  intro group member
  rcases mem_updateFirst member with before | ⟨old, before, rfl⟩
  · exact every group before
  · exact keeps old (every old before)

theorem push (group : String) {command : Command} (added : P command) :
    (registry.push group command).Every P := by
  apply (every.ensureGroup group).updateGroup
  intro found others other member
  rcases List.mem_append.1 member with inside | last
  · exact others other inside
  · rw [List.mem_singleton.1 last]
    exact added

theorem updateAt (ref : CommandRef) {change : Command → Command}
    (keeps : ∀ command, P command → P (change command)) : (registry.updateAt ref change).Every P := by
  apply every.updateGroup
  intro found others command member
  obtain ⟨index, inside, rfl⟩ := List.getElem_of_mem member
  simp only [List.getElem_modify]
  split
  · exact keeps _ (others _ (List.getElem_mem _))
  · exact others _ (List.getElem_mem _)

end Registry.Every

namespace Scanner

private theorem step_of_advanced {scanner next : Scanner} {number : Nat} {line : List Char}
    (done : scanner.advanced number line = .ok next) : scanner.Step line next := by
  have step := scanner.step_feed number line
  rw [fst_feed, done] at step
  exact step

/-- What every step keeps, a run keeps. -/
theorem run_preserves (Holds : List (List Char) → Scanner → Prop) {given : List (List Char)}
    (keeps : ∀ line ∈ given, ∀ before (scanner next : Scanner), scanner.Step line next →
      Holds before scanner → Holds (before ++ [line]) next)
    (before : List (List Char)) {number : Nat} {scanner final : Scanner}
    (holds : Holds before scanner) (done : scanner.run number given = .ok final) :
    Holds (before ++ given) final := by
  induction given generalizing before number scanner with
  | nil =>
    cases done
    rw [List.append_nil]
    exact holds
  | cons line given ih =>
    rw [run_cons] at done
    cases first : scanner.advanced number line with
    | error error =>
      rw [first] at done
      cases done
    | ok next =>
      rw [first] at done
      rw [List.forall_mem_cons] at keeps
      have kept := keeps.1 before scanner next (step_of_advanced first) holds
      have later := ih keeps.2 (before ++ [line]) kept done
      rw [List.append_assoc] at later
      exact later

end Scanner

theorem Registry.exists_run_of_ofSource {group source : String} {registry : Registry}
    (done : Registry.ofSource group source = .ok registry) :
    ∃ final, (Scanner.start group).run 1 (lines source.toList) = .ok final ∧
      final.finish = registry := by
  rw [ofSource, Scanner.scan_eq_run] at done
  cases scanned : (Scanner.start group).run 1 (lines source.toList) with
  | error error =>
    rw [scanned] at done
    cases done
  | ok final =>
    rw [scanned] at done
    cases done
    exact ⟨final, rfl, rfl⟩

end CommandReference
