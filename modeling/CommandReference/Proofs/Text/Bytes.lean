import CommandReference.Proofs.Text.Part

/-! Positions in a text, in bytes. A position is a boundary if it lies between two characters or at
an end; only there can a text be cut. -/
namespace CommandReference.Text

theorem byteSize_append (first second : List Char) :
    byteSize (first ++ second) = byteSize first + byteSize second := by
  induction first with
  | nil => exact (Nat.zero_add _).symm
  | cons c first ih => rw [List.cons_append, byteSize, ih, byteSize, Nat.add_assoc]

theorem utf8ByteSize_ofList (cs : List Char) : (String.ofList cs).utf8ByteSize = byteSize cs := by
  induction cs with
  | nil => rfl
  | cons c cs ih =>
    rw [String.ofList_cons, String.utf8ByteSize_append, String.utf8ByteSize_singleton, ih, byteSize]

theorem utf8ByteSize_eq (text : String) : text.utf8ByteSize = byteSize text.toList := by
  rw [← utf8ByteSize_ofList, String.ofList_toList]

theorem byteSize_le_of_suffix {rest s : List Char} (inside : rest <:+ s) :
    byteSize rest ≤ byteSize s := by
  obtain ⟨before, rfl⟩ := inside
  rw [byteSize_append]
  exact Nat.le_add_left _ _

theorem byteSize_lt_of_suffix {rest s : List Char} (inside : rest <:+ s)
    (shorter : rest.length < s.length) : byteSize rest < byteSize s := by
  obtain ⟨before, rfl⟩ := inside
  have some := length_le_byteSize before
  rw [List.length_append] at shorter
  rw [byteSize_append]
  omega

/-- What is left of a text at a position in bytes, unless the position lies within a character or
behind the end. -/
def restAt? : List Char → Nat → Option (List Char)
  | cs, 0 => some cs
  | [], _ + 1 => none
  | c :: cs, position + 1 =>
    if c.utf8Size ≤ position + 1 then restAt? cs (position + 1 - c.utf8Size) else none

theorem restAt?_eq_some_iff {text rest : List Char} {position : Nat} :
    restAt? text position = some rest ↔
      ∃ before, text = before ++ rest ∧ byteSize before = position := by
  fun_induction restAt? text position with
  | case1 cs =>
    constructor
    · rintro ⟨⟩
      exact ⟨[], rfl, rfl⟩
    · rintro ⟨_ | ⟨c, before⟩, rfl, empty⟩
      · rfl
      · have := c.utf8Size_pos
        rw [byteSize] at empty
        omega
  | case2 position =>
    constructor
    · rintro ⟨⟩
    · rintro ⟨before, none, size⟩
      rw [(List.append_eq_nil_iff.1 none.symm).1] at size
      cases size
  | case3 c cs position fits ih =>
    rw [ih]
    clear ih
    constructor
    · rintro ⟨before, rfl, size⟩
      refine ⟨c :: before, rfl, ?_⟩
      rw [byteSize]
      omega
    · rintro ⟨_ | ⟨d, before⟩, same, size⟩
      · cases size
      · cases same
        refine ⟨before, rfl, ?_⟩
        rw [byteSize] at size
        omega
  | case4 c cs position splits =>
    constructor
    · rintro ⟨⟩
    · rintro ⟨_ | ⟨d, before⟩, same, size⟩
      · cases size
      · cases same
        rw [byteSize] at size
        omega

/-- The boundaries between characters are the positions at which something is left. -/
theorem isValid_iff {text : String} {position : Nat} :
    String.Pos.Raw.IsValid text ⟨position⟩ ↔ ∃ rest, restAt? text.toList position = some rest := by
  rw [String.Pos.Raw.isValid_iff_exists_append]
  constructor
  · rintro ⟨first, second, rfl, ends⟩
    refine ⟨second.toList, restAt?_eq_some_iff.2 ⟨first.toList, String.toList_append, ?_⟩⟩
    rw [← utf8ByteSize_eq]
    exact (congrArg String.Pos.Raw.byteIdx ends).symm
  · rintro ⟨rest, found⟩
    obtain ⟨before, shape, size⟩ := restAt?_eq_some_iff.1 found
    refine ⟨String.ofList before, String.ofList rest, ?_, ?_⟩
    · rw [← String.ofList_append, ← shape, String.ofList_toList]
    · rw [← size, ← utf8ByteSize_ofList]
      rfl

/-- Where a rest of a text begins there is a boundary. -/
theorem isValid_of_suffix {text : String} {rest : List Char} (inside : rest <:+ text.toList) :
    String.Pos.Raw.IsValid text ⟨byteSize text.toList - byteSize rest⟩ := by
  obtain ⟨before, shape⟩ := inside
  refine isValid_iff.2 ⟨rest, restAt?_eq_some_iff.2 ⟨before, shape.symm, ?_⟩⟩
  rw [← shape, byteSize_append, Nat.add_sub_cancel]

/-- The text between two positions, unless one of them is no boundary or they are out of order. -/
def slice? (text : List Char) (start stop : Nat) : Option (List Char) :=
  if start ≤ stop then do
    let rest ← restAt? text start
    let after ← restAt? text stop
    return rest.take (rest.length - after.length)
  else none

/-- Where the first such character of a text begins. -/
def byteIndexOf? (c : Char) (cs : List Char) : Option Nat :=
  if c ∈ cs then some (byteSize (cs.takeWhile (· != c))) else none

/-- Where the first occurrence of a text begins. -/
def byteIndex? (wanted : String) : List Char → Option Nat
  | [] => none
  | c :: cs =>
    if startsWith wanted (c :: cs) then some 0 else (byteIndex? wanted cs).map (c.utf8Size + ·)

/-- Where a rest of a text begins. -/
def offset (text rest : List Char) : Nat := byteSize text - byteSize rest

section Offset
variable {text part rest : List Char}

theorem offset_append (before rest : List Char) : offset (before ++ rest) rest = byteSize before := by
  rw [offset, byteSize_append, Nat.add_sub_cancel]

theorem restAt?_offset (inside : rest <:+ text) : restAt? text (offset text rest) = some rest := by
  obtain ⟨before, rfl⟩ := inside
  exact restAt?_eq_some_iff.2 ⟨before, rfl, (offset_append before rest).symm⟩

theorem offset_eq_of_restAt? {position : Nat} (found : restAt? text position = some rest) :
    offset text rest = position ∧ rest <:+ text := by
  obtain ⟨before, rfl, size⟩ := restAt?_eq_some_iff.1 found
  exact ⟨(offset_append before rest).trans size, before, rfl⟩

theorem offset_lt_iff (inside : rest <:+ text) : offset text rest < byteSize text ↔ rest ≠ [] := by
  obtain ⟨before, rfl⟩ := inside
  rw [offset_append, byteSize_append, Nat.lt_add_right_iff_pos]
  cases rest with
  | nil => simp [byteSize]
  | cons c rest =>
    have size := c.utf8Size_pos
    rw [byteSize]
    exact iff_of_true (by omega) (List.cons_ne_nil c rest)

theorem offset_add (inside : part ++ rest <:+ text) :
    offset text (part ++ rest) + byteSize part = offset text rest := by
  obtain ⟨before, rfl⟩ := inside
  have further := offset_append (before ++ part) rest
  rw [List.append_assoc, byteSize_append] at further
  rw [offset_append, further]

theorem slice?_offset (inside : part ++ rest <:+ text) :
    slice? text (offset text (part ++ rest)) (offset text rest) = some part := by
  have behind : rest <:+ text := (List.suffix_append part rest).trans inside
  rw [slice?, if_pos ((offset_add inside).symm ▸ Nat.le_add_right _ _), restAt?_offset inside,
    restAt?_offset behind]
  change some ((part ++ rest).take ((part ++ rest).length - rest.length)) = some part
  rw [List.length_append, Nat.add_sub_cancel, List.take_left]

theorem slice?_append (part rest : List Char) :
    slice? (part ++ rest) 0 (byteSize part) = some part := by
  have found := slice?_offset (List.suffix_refl (part ++ rest))
  rw [offset_append, offset, Nat.sub_self] at found
  exact found

end Offset

end CommandReference.Text
