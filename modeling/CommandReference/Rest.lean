/-! Rests of lists. A reader takes a list and returns what is left of it: an end of the
list, and a proper one if the reader took something, so readers that call one another
end. -/
namespace CommandReference

universe u

abbrev Rest {α : Type u} (s : List α) := { r : List α // r <:+ s }

/-- The ends of a list that leave out at least one element. -/
abbrev ProperRest {α : Type u} (s : List α) := { r : List α // r <:+ s ∧ r.length < s.length }

variable {α : Type u} {s r : List α}

theorem Rest.length_le (t : Rest s) : t.1.length ≤ s.length := t.2.length_le

theorem ProperRest.length_lt (t : ProperRest s) : t.1.length < s.length := t.2.2

def Rest.all (s : List α) : Rest s := ⟨s, List.suffix_refl s⟩

def Rest.drop (count : Nat) (s : List α) : Rest s := ⟨s.drop count, List.drop_suffix count s⟩

def Rest.pastWhile (p : α → Bool) (s : List α) : Rest s := ⟨s.dropWhile p, List.dropWhile_suffix p⟩

def ProperRest.tail (a : α) (r : List α) : ProperRest (a :: r) :=
  ⟨r, List.suffix_cons a r, Nat.lt_succ_self _⟩

def ProperRest.pastWhile? (p : α → Bool) (s : List α) : Option (ProperRest s) :=
  match s with
  | [] => none
  | a :: r =>
    if p a then
      some ⟨r.dropWhile p, (List.dropWhile_suffix p).trans (List.suffix_cons a r),
        Nat.lt_succ_of_le (List.dropWhile_suffix p).length_le⟩
    else none

def ProperRest.weaken (rest : ProperRest s) : Rest s := ⟨rest.1, rest.2.1⟩

def Rest.andThen (t : Rest s) (rest : Rest t.1) : Rest s := ⟨rest.1, rest.2.trans t.2⟩

def Rest.andProper (t : Rest s) (rest : ProperRest t.1) : ProperRest s :=
  ⟨rest.1, rest.2.1.trans t.2, Nat.lt_of_lt_of_le rest.2.2 t.2.length_le⟩

def ProperRest.andThen (t : ProperRest s) (rest : Rest t.1) : ProperRest s :=
  ⟨rest.1, rest.2.trans t.2.1, Nat.lt_of_le_of_lt rest.2.length_le t.2.2⟩

def ProperRest.andProper (t : ProperRest s) (rest : ProperRest t.1) : ProperRest s :=
  t.andThen rest.weaken

def Rest.behind (a : α) (rest : Rest r) : ProperRest (a :: r) :=
  (ProperRest.tail a r).andThen rest

def ProperRest.behind (a : α) (rest : ProperRest r) : ProperRest (a :: r) := rest.weaken.behind a

theorem suffix_of_suffix_cons {a : α} {t : List α} (inside : r <:+ a :: t)
    (shorter : r.length < (a :: t).length) : r <:+ t := by
  rcases List.suffix_cons_iff.1 inside with whole | inside
  · rw [whole] at shorter
    exact absurd shorter (Nat.lt_irrefl _)
  · exact inside

/-- A rest that was read from one element before a rest. -/
def ProperRest.insteadOf (t : ProperRest s) (a : α) (rest : ProperRest (a :: t.1)) :
    ProperRest s :=
  t.andThen ⟨rest.1, suffix_of_suffix_cons rest.2.1 rest.2.2⟩

def Rest.uncons? (t : Rest s) : Option (α × ProperRest s) :=
  match t with
  | ⟨[], _⟩ => none
  | ⟨a :: r, inside⟩ => some (a, Rest.andProper ⟨a :: r, inside⟩ (ProperRest.tail a r))

end CommandReference
