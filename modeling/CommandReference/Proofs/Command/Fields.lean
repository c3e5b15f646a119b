import CommandReference.Proofs.Command.Callback
import Mathlib.Data.List.Forall2
import Mathlib.Data.List.Induction

/-! How the fields of an object declare an argument. What a literal stands for depends on the key of
its field alone; the fields are gone through in order, the last one of a key counts, and the first
one that stands for nothing is at fault. -/
namespace CommandReference.Argument

inductive IsText : Literal → String → Prop where
  | string (text : String) : IsText (.string text) text
  | template (raw : String) (interpolated : Bool) : IsText (.template raw interpolated) raw

inductive IsFlag : Literal → Bool → Prop where
  | bool (value : Bool) : IsFlag (.bool value) value
  | null : IsFlag .null false

inductive IsTag : Literal → String → Prop where
  | path (name : String) : IsTag (.path name) name
  | string (text : String) : IsTag (.string text) text

inductive IsTags : Literal → List String → Prop where
  | array {items : List Literal} {tags : List String} : List.Forall₂ IsTag items tags →
      IsTags (.array items) tags
  | single {literal : Literal} {tag : String} : IsTag literal tag → IsTags literal [tag]

inductive IsDefault : Literal → Option String → Prop where
  | string (text : String) : IsDefault (.string text) (some text)
  | template (raw : String) (interpolated : Bool) :
      IsDefault (.template raw interpolated) (some "...")
  | number (text : String) : IsDefault (.number text) (some text)
  | yes : IsDefault (.bool true) (some "true")
  | no : IsDefault (.bool false) (some "false")
  | path (name : String) : IsDefault (.path name) (some name)
  | null : IsDefault .null none

/-- A value, and a description if the second part is a text; other parts are left aside. -/
inductive IsChoiceOfParts : List Literal → Choice → Prop where
  | mk {first : Literal} {rest : List Literal} {value : String} {description : Option String} :
      IsText first value →
      (∀ text, description = some text ↔
        ∃ second more, rest = second :: more ∧ IsText second text) →
      IsChoiceOfParts (first :: rest) ⟨value, description⟩

inductive IsChoice : Literal → Choice → Prop where
  | string (text : String) : IsChoice (.string text) ⟨text, none⟩
  | array {parts : List Literal} {choice : Choice} : IsChoiceOfParts parts choice →
      IsChoice (.array parts) choice
  | call (callee : String) {parts : List Literal} {choice : Choice} :
      IsChoiceOfParts parts choice → IsChoice (.call callee parts) choice

inductive IsChoices : Literal → List Choice → Prop where
  | array {items : List Literal} {choices : List Choice} : List.Forall₂ IsChoice items choices →
      IsChoices (.array items) choices

theorem text?_eq_some_iff {literal : Literal} {text : String} :
    literal.text? = some text ↔ IsText literal text := by
  cases literal <;> constructor <;> intro given <;> cases given <;> constructor

theorem textOf_eq_ok_iff {key : String} {literal : Literal} {text : String} :
    textOf key literal = .ok text ↔ IsText literal text := by
  rw [← text?_eq_some_iff, textOf]
  cases literal.text? <;> simp

theorem boolOf_eq_ok_iff {key : String} {literal : Literal} {value : Bool} :
    boolOf key literal = .ok value ↔ IsFlag literal value := by
  cases literal <;> constructor <;> intro given <;> cases given <;> constructor

theorem typeTagOf_eq_ok_iff {literal : Literal} {tag : String} :
    typeTagOf literal = .ok tag ↔ IsTag literal tag := by
  cases literal <;> constructor <;> intro given <;> cases given <;> constructor

theorem defaultOf_eq_ok_iff {literal : Literal} {shown : Option String} :
    defaultOf literal = .ok shown ↔ IsDefault literal shown := by
  cases literal with
  | bool value => cases value <;> constructor <;> intro given <;> cases given <;> constructor
  | _ => constructor <;> intro given <;> cases given <;> constructor

private theorem description_eq_iff {rest : List Literal} {description : Option String} :
    rest[0]?.bind Literal.text? = description ↔ ∀ text, description = some text ↔
      ∃ second more, rest = second :: more ∧ IsText second text := by
  rw [eq_comm, Option.ext_iff]
  apply forall_congr'
  intro text
  cases rest <;> simp [text?_eq_some_iff]

theorem choiceOfParts_eq_ok_iff {parts : List Literal} {choice : Choice} :
    choiceOfParts parts = .ok choice ↔ IsChoiceOfParts parts choice := by
  obtain ⟨value, description⟩ := choice
  cases parts with
  | nil => constructor <;> intro given <;> cases given
  | cons first rest =>
    have shape : choiceOfParts (first :: rest) = .ok ⟨value, description⟩ ↔
        first.text? = some value ∧ rest[0]?.bind Literal.text? = description := by
      rw [choiceOfParts, List.head?_cons, Option.bind_some]
      cases first.text? <;> simp
    rw [shape, text?_eq_some_iff, description_eq_iff]
    constructor
    · rintro ⟨isValue, describes⟩
      exact .mk isValue describes
    · rintro ⟨isValue, describes⟩
      exact ⟨isValue, describes⟩

theorem choiceOf_eq_ok_iff {literal : Literal} {choice : Choice} :
    choiceOf literal = .ok choice ↔ IsChoice literal choice := by
  cases literal with
  | array parts =>
    rw [choiceOf, choiceOfParts_eq_ok_iff]
    exact ⟨.array, fun | .array given => given⟩
  | call callee parts =>
    rw [choiceOf, choiceOfParts_eq_ok_iff]
    exact ⟨.call callee, fun | .call _ given => given⟩
  | _ => constructor <;> intro given <;> cases given <;> constructor

theorem bind_eq_ok_iff {α β ε : Type} {result : Except ε α} {next : α → Except ε β} {value : β} :
    result >>= next = .ok value ↔ ∃ middle, result = .ok middle ∧ next middle = .ok value := by
  cases result <;> simp [bind, Except.bind]

theorem bind_pure_eq_ok_iff {α β ε : Type} {result : Except ε α} {change : α → β} {next : β} :
    (result >>= fun value => pure (change value)) = .ok next ↔
      ∃ value, result = .ok value ∧ change value = next := by
  simp only [bind_eq_ok_iff, pure, Except.pure, Except.ok.injEq]

theorem bind_pure_eq_error_iff {α β ε : Type} {result : Except ε α} {change : α → β} {error : ε} :
    (result >>= fun value => pure (change value)) = .error error ↔ result = .error error := by
  cases result <;> simp [bind, Except.bind, pure, Except.pure]

theorem mapM_eq_ok_iff {α β ε : Type} {f : α → Except ε β} {items : List α} {values : List β} :
    items.mapM f = .ok values ↔
      List.Forall₂ (fun item value => f item = .ok value) items values := by
  induction items generalizing values with
  | nil =>
    rw [List.mapM_nil, List.forall₂_nil_left_iff, eq_comm]
    exact Except.ok.injEq .. |>.to_iff
  | cons item items ih =>
    rw [List.mapM_cons, bind_eq_ok_iff, List.forall₂_cons_left_iff]
    simp only [bind_pure_eq_ok_iff, ih]
    constructor
    · rintro ⟨value, first, others, rest, rfl⟩
      exact ⟨value, others, first, rest, rfl⟩
    · rintro ⟨value, others, first, rest, rfl⟩
      exact ⟨value, first, others, rest, rfl⟩

theorem typeTagsOf_array_eq_ok_iff {items : List Literal} {tags : List String} :
    typeTagsOf (.array items) = .ok tags ↔ List.Forall₂ IsTag items tags := by
  simp only [typeTagsOf, mapM_eq_ok_iff, typeTagOf_eq_ok_iff]

theorem choicesOf_array_eq_ok_iff {items : List Literal} {choices : List Choice} :
    choicesOf (.array items) = .ok choices ↔ List.Forall₂ IsChoice items choices := by
  simp only [choicesOf, mapM_eq_ok_iff, choiceOf_eq_ok_iff]

theorem typeTagsOf_eq_ok_iff {literal : Literal} {tags : List String} :
    typeTagsOf literal = .ok tags ↔ IsTags literal tags := by
  cases literal with
  | array items =>
    rw [typeTagsOf_array_eq_ok_iff]
    exact ⟨.array, fun | .array given => given⟩
  | path name => exact ⟨by rintro ⟨⟩; exact .single (.path name), by rintro (_ | ⟨⟨⟩⟩); rfl⟩
  | string text => exact ⟨by rintro ⟨⟩; exact .single (.string text), by rintro (_ | ⟨⟨⟩⟩); rfl⟩
  | _ => exact ⟨by rintro ⟨⟩, by rintro (_ | ⟨⟨⟩⟩)⟩

theorem choicesOf_eq_ok_iff {literal : Literal} {choices : List Choice} :
    choicesOf literal = .ok choices ↔ IsChoices literal choices := by
  cases literal with
  | array items =>
    rw [choicesOf_array_eq_ok_iff]
    exact ⟨.array, fun | .array given => given⟩
  | _ => constructor <;> intro given <;> cases given

/-- An item at fault behind others that fit. -/
def FirstFault {α : Type} (Fits : α → Prop) (Fault : α → FieldError → Prop) (items : List α)
    (error : FieldError) : Prop :=
  ∃ before item after, items = before ++ item :: after ∧ (∀ other ∈ before, Fits other) ∧
    Fault item error

section FirstFault
variable {α : Type} {Fits : α → Prop} {Fault : α → FieldError → Prop} {error : FieldError}

theorem not_firstFault_nil : ¬ FirstFault Fits Fault [] error := by
  rintro ⟨before, item, after, shape, -⟩
  simp at shape

theorem firstFault_cons_iff {item : α} {items : List α} :
    FirstFault Fits Fault (item :: items) error ↔
      Fault item error ∨ Fits item ∧ FirstFault Fits Fault items error := by
  constructor
  · rintro ⟨_ | ⟨first, before⟩, found, after, shape, fit, fault⟩
    · obtain ⟨rfl, -⟩ := List.cons.inj shape
      exact .inl fault
    · obtain ⟨rfl, rfl⟩ := List.cons.inj shape
      rw [List.forall_mem_cons] at fit
      exact .inr ⟨fit.1, before, found, after, rfl, fit.2, fault⟩
  · rintro (fault | ⟨fits, before, found, after, rfl, fit, fault⟩)
    · exact ⟨[], item, items, rfl, List.forall_mem_nil _, fault⟩
    · exact ⟨item :: before, found, after, rfl, List.forall_mem_cons.2 ⟨fits, fit⟩, fault⟩

theorem mapM_eq_error_iff {β : Type} {f : α → Except FieldError β} {items : List α}
    (fits : ∀ item, (∃ value, f item = .ok value) ↔ Fits item)
    (fails : ∀ item error, f item = .error error ↔ Fault item error) :
    items.mapM f = .error error ↔ FirstFault Fits Fault items error := by
  induction items with
  | nil => simp [pure, Except.pure, not_firstFault_nil]
  | cons item items ih =>
    rw [List.mapM_cons, firstFault_cons_iff, ← ih, ← fits, ← fails]
    cases f item with
    | error error => simp [bind, Except.bind]
    | ok value => cases items.mapM f <;> simp [bind, Except.bind, pure, Except.pure]

private theorem foldlM_eq_error_iff {β : Type} {f : β → α → Except FieldError β} {items : List α}
    (fits : ∀ state item, (∃ next, f state item = .ok next) ↔ Fits item)
    (fails : ∀ state item error, f state item = .error error ↔ Fault item error) (start : β) :
    items.foldlM f start = .error error ↔ FirstFault Fits Fault items error := by
  induction items generalizing start with
  | nil => simp [pure, Except.pure, not_firstFault_nil]
  | cons item items ih =>
    rw [List.foldlM_cons, firstFault_cons_iff, ← fits start, ← fails start]
    cases f start item with
    | error error => simp [bind, Except.bind]
    | ok next => simp [bind, Except.bind, ih]

end FirstFault

private theorem exists_error_iff {α ε : Type} {result : Except ε α} :
    (∃ error, result = .error error) ↔ ∀ value, result ≠ .ok value := by
  cases result <;> simp

theorem exists_mapM_error_iff {α β ε : Type} {f : α → Except ε β} {items : List α} :
    (∃ error, items.mapM f = .error error) ↔ ∃ item ∈ items, ∀ value, f item ≠ .ok value := by
  induction items with
  | nil => simp [pure, Except.pure]
  | cons item items ih =>
    rw [List.exists_mem_cons_iff, ← ih, ← exists_error_iff, List.mapM_cons]
    cases f item with
    | error error => simp [bind, Except.bind]
    | ok value => cases items.mapM f <;> simp [bind, Except.bind, pure, Except.pure]

private theorem exists_foldlM_iff {α β ε : Type} {f : β → α → Except ε β} {Fits : α → Prop}
    (fits : ∀ state item, (∃ next, f state item = .ok next) ↔ Fits item) (items : List α)
    (start : β) : (∃ final, items.foldlM f start = .ok final) ↔ ∀ item ∈ items, Fits item := by
  induction items generalizing start with
  | nil => simp [pure, Except.pure]
  | cons item items ih =>
    rw [List.forall_mem_cons, ← fits start]
    simp only [List.foldlM_cons, bind_eq_ok_iff]
    constructor
    · rintro ⟨final, next, first, rest⟩
      exact ⟨⟨next, first⟩, (ih next).1 ⟨final, rest⟩⟩
    · rintro ⟨⟨next, first⟩, others⟩
      obtain ⟨final, rest⟩ := (ih next).2 others
      exact ⟨final, next, first, rest⟩

def TagFault (item : Literal) (error : FieldError) : Prop :=
  (∀ tag, ¬ IsTag item tag) ∧ error = .notTypeTag item.kind

inductive ChoiceFault : Literal → FieldError → Prop where
  | other {item : Literal} : item.kind ≠ .string → item.kind ≠ .array → item.kind ≠ .call →
      ChoiceFault item (.notChoice item.kind)
  | array {parts : List Literal} : (∀ first ∈ parts.head?, ∀ text, ¬ IsText first text) →
      ChoiceFault (.array parts) .choiceWithoutText
  | call (callee : String) {parts : List Literal} :
      (∀ first ∈ parts.head?, ∀ text, ¬ IsText first text) →
      ChoiceFault (.call callee parts) .choiceWithoutText

/-- What is reported about a field by itself. -/
inductive FieldFault : String → Literal → FieldError → Prop where
  | text {key : String} {literal : Literal} : key = "name" ∨ key = "description" →
      (∀ text, ¬ IsText literal text) → FieldFault key literal (.notText key literal.kind)
  | flag {key : String} {literal : Literal} : key = "isRequired" ∨ key = "acceptsMultiple" →
      (∀ value, ¬ IsFlag literal value) → FieldFault key literal (.notBool key literal.kind)
  | types {literal : Literal} : literal.kind ≠ .array → (∀ tag, ¬ IsTag literal tag) →
      FieldFault "typeList" literal (.typesNotArray literal.kind)
  | tag {items : List Literal} {error : FieldError} :
      FirstFault (fun item => ∃ tag, IsTag item tag) TagFault items error →
      FieldFault "typeList" (.array items) error
  | value {literal : Literal} : (∀ shown, ¬ IsDefault literal shown) →
      FieldFault "defaultValue" literal (.defaultNotScalar literal.kind)
  | choices {literal : Literal} : literal.kind ≠ .array →
      FieldFault "enumList" literal (.choicesNotArray literal.kind)
  | choice {items : List Literal} {error : FieldError} :
      FirstFault (fun item => ∃ choice, IsChoice item choice) ChoiceFault items error →
      FieldFault "enumList" (.array items) error

theorem eq_error_iff {α : Type} {result : Except FieldError α} {Means : α → Prop}
    {cause error : FieldError} (stands : ∀ value, result = .ok value ↔ Means value)
    (only : ∀ error, result = .error error → error = cause) :
    result = .error error ↔ (∀ value, ¬ Means value) ∧ error = cause := by
  cases result with
  | error found =>
    have same := only found rfl
    have none (value : α) : ¬ Means value := fun said => by cases (stands value).2 said
    rw [Except.error.injEq, same, eq_comm, and_iff_right none]
  | ok value =>
    have said := (stands value).1 rfl
    constructor
    · intro failed
      cases failed
    · intro none
      exact absurd said (none.1 value)

theorem textOf_eq_error_iff {key : String} {literal : Literal} {error : FieldError} :
    textOf key literal = .error error ↔
      (∀ text, ¬ IsText literal text) ∧ error = .notText key literal.kind := by
  apply eq_error_iff fun _ => textOf_eq_ok_iff
  cases literal <;> rintro _ ⟨⟩ <;> rfl

theorem boolOf_eq_error_iff {key : String} {literal : Literal} {error : FieldError} :
    boolOf key literal = .error error ↔
      (∀ value, ¬ IsFlag literal value) ∧ error = .notBool key literal.kind := by
  apply eq_error_iff fun _ => boolOf_eq_ok_iff
  cases literal <;> rintro _ ⟨⟩ <;> rfl

private theorem typeTagOf_eq_error_iff {literal : Literal} {error : FieldError} :
    typeTagOf literal = .error error ↔ TagFault literal error := by
  apply eq_error_iff fun _ => typeTagOf_eq_ok_iff
  cases literal <;> rintro _ ⟨⟩ <;> rfl

theorem defaultOf_eq_error_iff {literal : Literal} {error : FieldError} :
    defaultOf literal = .error error ↔
      (∀ shown, ¬ IsDefault literal shown) ∧ error = .defaultNotScalar literal.kind := by
  apply eq_error_iff fun _ => defaultOf_eq_ok_iff
  cases literal <;> rintro _ ⟨⟩ <;> rfl

theorem choiceOfParts_eq_error_iff {parts : List Literal} {error : FieldError} :
    choiceOfParts parts = .error error ↔
      (∀ first ∈ parts.head?, ∀ text, ¬ IsText first text) ∧ error = .choiceWithoutText := by
  simp only [← text?_eq_some_iff, choiceOfParts]
  cases parts with
  | nil => simp [eq_comm]
  | cons first rest => cases value : first.text? <;> simp [value, eq_comm]

private theorem choiceOf_eq_error_iff {literal : Literal} {error : FieldError} :
    choiceOf literal = .error error ↔ ChoiceFault literal error := by
  cases literal with
  | string text =>
    constructor
    · rintro ⟨⟩
    · rintro ⟨noString, -, -⟩
      exact absurd rfl noString
  | array parts =>
    rw [choiceOf, choiceOfParts_eq_error_iff]
    constructor
    · rintro ⟨noText, rfl⟩
      exact .array noText
    · rintro (⟨-, noArray, -⟩ | noText)
      · exact absurd rfl noArray
      · exact ⟨noText, rfl⟩
  | call callee parts =>
    rw [choiceOf, choiceOfParts_eq_error_iff]
    constructor
    · rintro ⟨noText, rfl⟩
      exact .call callee noText
    · rintro (⟨-, -, noCall⟩ | _ | ⟨_, noText⟩)
      · exact absurd rfl noCall
      · exact ⟨noText, rfl⟩
  | _ =>
    constructor
    · rintro ⟨⟩
      exact .other nofun nofun nofun
    · rintro ⟨⟩
      rfl

theorem typeTagsOf_array_eq_error_iff {items : List Literal} {error : FieldError} :
    typeTagsOf (.array items) = .error error ↔
      FirstFault (fun item => ∃ tag, IsTag item tag) TagFault items error := by
  apply mapM_eq_error_iff
  · intro item
    simp only [typeTagOf_eq_ok_iff]
  · intro item error
    exact typeTagOf_eq_error_iff

theorem choicesOf_array_eq_error_iff {items : List Literal} {error : FieldError} :
    choicesOf (.array items) = .error error ↔
      FirstFault (fun item => ∃ choice, IsChoice item choice) ChoiceFault items error := by
  apply mapM_eq_error_iff
  · intro item
    simp only [choiceOf_eq_ok_iff]
  · intro item error
    exact choiceOf_eq_error_iff

/-- A key that is known stands before a literal of a shape that it admits. -/
structure Admissible (key : String) (literal : Literal) : Prop where
  text : key = "name" ∨ key = "description" → ∃ text, IsText literal text
  types : key = "typeList" → ∃ tags, IsTags literal tags
  flag : key = "isRequired" ∨ key = "acceptsMultiple" → ∃ value, IsFlag literal value
  value : key = "defaultValue" → ∃ shown, IsDefault literal shown
  choices : key = "enumList" → ∃ choices, IsChoices literal choices

/-- A part that is there with what a literal stands for. -/
def Present {α : Type} (Means : Literal → α → Prop) (literal : Literal) (part : Option α) : Prop :=
  ∃ value, Means literal value ∧ part = some value

/-- A part of an argument before and after a field: it changes with its own key only. -/
def SetsPart {α : Type} (Means : Literal → α → Prop) (own key : String) (literal : Literal)
    (old new : α) : Prop :=
  if key = own then Means literal new else new = old

structure Sets (key : String) (literal : Literal) (argument next : Argument) : Prop where
  name : SetsPart (Present IsText) "name" key literal argument.name next.name
  description : SetsPart (Present IsText) "description" key literal argument.description
    next.description
  typeTags : SetsPart (Present IsTags) "typeList" key literal argument.typeTags next.typeTags
  isRequired : SetsPart IsFlag "isRequired" key literal argument.isRequired next.isRequired
  acceptsMultiple : SetsPart IsFlag "acceptsMultiple" key literal argument.acceptsMultiple
    next.acceptsMultiple
  defaultValue : SetsPart IsDefault "defaultValue" key literal argument.defaultValue
    next.defaultValue
  choices : SetsPart IsChoices "enumList" key literal argument.choices next.choices

theorem sets_of_setField {key : String} {literal : Literal} {argument next : Argument}
    (set : argument.setField key literal = .ok next) : Sets key literal argument next := by
  unfold setField at set
  split at set
  · obtain ⟨text, given, rfl⟩ := bind_pure_eq_ok_iff.1 set
    rw [textOf_eq_ok_iff] at given
    constructor <;> simp [SetsPart, Present, given]
  · obtain ⟨text, given, rfl⟩ := bind_pure_eq_ok_iff.1 set
    rw [textOf_eq_ok_iff] at given
    constructor <;> simp [SetsPart, Present, given]
  · obtain ⟨tags, given, rfl⟩ := bind_pure_eq_ok_iff.1 set
    rw [typeTagsOf_eq_ok_iff] at given
    constructor <;> simp [SetsPart, Present, given]
  · obtain ⟨value, given, rfl⟩ := bind_pure_eq_ok_iff.1 set
    rw [boolOf_eq_ok_iff] at given
    constructor <;> simp [SetsPart, given]
  · obtain ⟨value, given, rfl⟩ := bind_pure_eq_ok_iff.1 set
    rw [boolOf_eq_ok_iff] at given
    constructor <;> simp [SetsPart, given]
  · obtain ⟨shown, given, rfl⟩ := bind_pure_eq_ok_iff.1 set
    rw [defaultOf_eq_ok_iff] at given
    constructor <;> simp [SetsPart, given]
  · obtain ⟨choices, given, rfl⟩ := bind_pure_eq_ok_iff.1 set
    rw [choicesOf_eq_ok_iff] at given
    constructor <;> simp [SetsPart, given]
  · cases set
    constructor <;> simp_all [SetsPart]

theorem Sets.admissible {key : String} {literal : Literal} {argument next : Argument}
    (sets : Sets key literal argument next) : Admissible key literal where
  text := by
    rintro (rfl | rfl)
    · obtain ⟨text, given, -⟩ := sets.name
      exact ⟨text, given⟩
    · obtain ⟨text, given, -⟩ := sets.description
      exact ⟨text, given⟩
  types := by
    rintro rfl
    obtain ⟨tags, given, -⟩ := sets.typeTags
    exact ⟨tags, given⟩
  flag := by
    rintro (rfl | rfl)
    · exact ⟨_, sets.isRequired⟩
    · exact ⟨_, sets.acceptsMultiple⟩
  value := by
    rintro rfl
    exact ⟨_, sets.defaultValue⟩
  choices := by
    rintro rfl
    exact ⟨_, sets.choices⟩

theorem exists_setField_iff {key : String} {literal : Literal} {argument : Argument} :
    (∃ next, argument.setField key literal = .ok next) ↔ Admissible key literal := by
  constructor
  · rintro ⟨next, set⟩
    exact (sets_of_setField set).admissible
  · intro admissible
    unfold setField
    split
    · obtain ⟨text, given⟩ := admissible.text (.inl rfl)
      exact ⟨_, bind_pure_eq_ok_iff.2 ⟨text, textOf_eq_ok_iff.2 given, rfl⟩⟩
    · obtain ⟨text, given⟩ := admissible.text (.inr rfl)
      exact ⟨_, bind_pure_eq_ok_iff.2 ⟨text, textOf_eq_ok_iff.2 given, rfl⟩⟩
    · obtain ⟨tags, given⟩ := admissible.types rfl
      exact ⟨_, bind_pure_eq_ok_iff.2 ⟨tags, typeTagsOf_eq_ok_iff.2 given, rfl⟩⟩
    · obtain ⟨value, given⟩ := admissible.flag (.inl rfl)
      exact ⟨_, bind_pure_eq_ok_iff.2 ⟨value, boolOf_eq_ok_iff.2 given, rfl⟩⟩
    · obtain ⟨value, given⟩ := admissible.flag (.inr rfl)
      exact ⟨_, bind_pure_eq_ok_iff.2 ⟨value, boolOf_eq_ok_iff.2 given, rfl⟩⟩
    · obtain ⟨shown, given⟩ := admissible.value rfl
      exact ⟨_, bind_pure_eq_ok_iff.2 ⟨shown, defaultOf_eq_ok_iff.2 given, rfl⟩⟩
    · obtain ⟨choices, given⟩ := admissible.choices rfl
      exact ⟨_, bind_pure_eq_ok_iff.2 ⟨choices, choicesOf_eq_ok_iff.2 given, rfl⟩⟩
    · exact ⟨argument, rfl⟩

private theorem fieldFault_of_typeTagsOf {literal : Literal} {error : FieldError}
    (failed : typeTagsOf literal = .error error) : FieldFault "typeList" literal error := by
  cases literal with
  | array items => exact .tag (typeTagsOf_array_eq_error_iff.1 failed)
  | path name => cases failed
  | string text => cases failed
  | _ =>
    cases failed
    exact .types nofun nofun

private theorem typeTagsOf_of_noTag {literal : Literal} (noArray : literal.kind ≠ .array)
    (noTag : ∀ tag, ¬ IsTag literal tag) :
    typeTagsOf literal = .error (.typesNotArray literal.kind) := by
  cases literal with
  | array items => exact absurd rfl noArray
  | path name => exact absurd (.path name) (noTag name)
  | string text => exact absurd (.string text) (noTag text)
  | _ => rfl

private theorem fieldFault_of_choicesOf {literal : Literal} {error : FieldError}
    (failed : choicesOf literal = .error error) : FieldFault "enumList" literal error := by
  cases literal with
  | array items => exact .choice (choicesOf_array_eq_error_iff.1 failed)
  | _ =>
    cases failed
    exact .choices nofun

private theorem choicesOf_of_ne {literal : Literal} (noArray : literal.kind ≠ .array) :
    choicesOf literal = .error (.choicesNotArray literal.kind) := by
  cases literal with
  | array items => exact absurd rfl noArray
  | _ => rfl

private theorem setField_eq_error_iff {key : String} {literal : Literal} {argument : Argument}
    {error : FieldError} :
    argument.setField key literal = .error error ↔ FieldFault key literal error := by
  constructor
  · intro failed
    unfold setField at failed
    split at failed
    · obtain ⟨noText, rfl⟩ := textOf_eq_error_iff.1 (bind_pure_eq_error_iff.1 failed)
      exact .text (.inl rfl) noText
    · obtain ⟨noText, rfl⟩ := textOf_eq_error_iff.1 (bind_pure_eq_error_iff.1 failed)
      exact .text (.inr rfl) noText
    · exact fieldFault_of_typeTagsOf (bind_pure_eq_error_iff.1 failed)
    · obtain ⟨noFlag, rfl⟩ := boolOf_eq_error_iff.1 (bind_pure_eq_error_iff.1 failed)
      exact .flag (.inl rfl) noFlag
    · obtain ⟨noFlag, rfl⟩ := boolOf_eq_error_iff.1 (bind_pure_eq_error_iff.1 failed)
      exact .flag (.inr rfl) noFlag
    · obtain ⟨noValue, rfl⟩ := defaultOf_eq_error_iff.1 (bind_pure_eq_error_iff.1 failed)
      exact .value noValue
    · exact fieldFault_of_choicesOf (bind_pure_eq_error_iff.1 failed)
    · cases failed
  · intro fault
    cases fault with
    | text own noText =>
      obtain rfl | rfl := own
      · exact bind_pure_eq_error_iff.2 (textOf_eq_error_iff.2 ⟨noText, rfl⟩)
      · exact bind_pure_eq_error_iff.2 (textOf_eq_error_iff.2 ⟨noText, rfl⟩)
    | flag own noFlag =>
      obtain rfl | rfl := own
      · exact bind_pure_eq_error_iff.2 (boolOf_eq_error_iff.2 ⟨noFlag, rfl⟩)
      · exact bind_pure_eq_error_iff.2 (boolOf_eq_error_iff.2 ⟨noFlag, rfl⟩)
    | types noArray noTag => exact bind_pure_eq_error_iff.2 (typeTagsOf_of_noTag noArray noTag)
    | tag first => exact bind_pure_eq_error_iff.2 (typeTagsOf_array_eq_error_iff.2 first)
    | value noValue => exact bind_pure_eq_error_iff.2 (defaultOf_eq_error_iff.2 ⟨noValue, rfl⟩)
    | choices noArray => exact bind_pure_eq_error_iff.2 (choicesOf_of_ne noArray)
    | choice first => exact bind_pure_eq_error_iff.2 (choicesOf_array_eq_error_iff.2 first)

/-- What stands behind the last occurrence of a key. -/
def lastOf? (key : String) (fields : List (String × Literal)) : Option Literal :=
  (fields.filter (·.1 == key)).getLast?.map (·.2)

private theorem lastOf?_concat (own key : String) (literal : Literal)
    (fields : List (String × Literal)) :
    lastOf? own (fields ++ [(key, literal)]) =
      if key = own then some literal else lastOf? own fields := by
  unfold lastOf?
  rw [List.filter_append]
  split_ifs with same
  · have kept : [(key, literal)].filter (·.1 == own) = [(key, literal)] := by simp [same]
    rw [kept, List.getLast?_concat, Option.map_some]
  · have dropped : [(key, literal)].filter (·.1 == own) = [] := by simp [same]
    rw [dropped, List.append_nil]

/-- A part of an argument: what the last field of its key stands for, or as it is without one. -/
def Given {α : Type} (Means : Literal → α → Prop) (unset : α) (own : String)
    (fields : List (String × Literal)) (part : α) : Prop :=
  (lastOf? own fields).elim (part = unset) (Means · part)

section Given
variable {α : Type} {Means : Literal → α → Prop} {unset : α} {own : String}
  {fields : List (String × Literal)}

theorem Given.concat {key : String} {literal : Literal} {old new : α}
    (given : Given Means unset own fields old) (sets : SetsPart Means own key literal old new) :
    Given Means unset own (fields ++ [(key, literal)]) new := by
  rw [Given, lastOf?_concat]
  rw [SetsPart] at sets
  split_ifs at sets ⊢
  · exact sets
  · rw [sets]
    exact given

theorem Given.unique (functional : ∀ literal a b, Means literal a → Means literal b → a = b)
    {a b : α} (first : Given Means unset own fields a) (second : Given Means unset own fields b) :
    a = b := by
  unfold Given at first second
  cases found : lastOf? own fields with
  | none =>
    rw [found] at first second
    exact first.trans second.symm
  | some literal =>
    rw [found] at first second
    exact functional literal a b first second

theorem Given.congr {others : List (String × Literal)} {part : α}
    (same : others.filter (·.1 == own) = fields.filter (·.1 == own))
    (given : Given Means unset own others part) : Given Means unset own fields part := by
  rw [Given, lastOf?, same] at given
  exact given

end Given

/-- Each part of the argument is given by the fields of its own key. -/
structure DeclaredBy (fields : List (String × Literal)) (argument : Argument) : Prop where
  name : Given (Present IsText) none "name" fields argument.name
  description : Given (Present IsText) none "description" fields argument.description
  typeTags : Given (Present IsTags) none "typeList" fields argument.typeTags
  isRequired : Given IsFlag false "isRequired" fields argument.isRequired
  acceptsMultiple : Given IsFlag false "acceptsMultiple" fields argument.acceptsMultiple
  defaultValue : Given IsDefault none "defaultValue" fields argument.defaultValue
  choices : Given IsChoices [] "enumList" fields argument.choices

private theorem declaredBy_nil : DeclaredBy [] blank := by
  constructor <;> rfl

theorem DeclaredBy.concat {fields : List (String × Literal)} {key : String} {literal : Literal}
    {argument next : Argument} (declared : DeclaredBy fields argument)
    (sets : Sets key literal argument next) : DeclaredBy (fields ++ [(key, literal)]) next where
  name := declared.name.concat sets.name
  description := declared.description.concat sets.description
  typeTags := declared.typeTags.concat sets.typeTags
  isRequired := declared.isRequired.concat sets.isRequired
  acceptsMultiple := declared.acceptsMultiple.concat sets.acceptsMultiple
  defaultValue := declared.defaultValue.concat sets.defaultValue
  choices := declared.choices.concat sets.choices

theorem DeclaredBy.congr {fields others : List (String × Literal)} {argument : Argument}
    (same : ∀ key ∈ knownKeys, others.filter (·.1 == key) = fields.filter (·.1 == key))
    (declared : DeclaredBy others argument) : DeclaredBy fields argument where
  name := declared.name.congr (same _ (by decide))
  description := declared.description.congr (same _ (by decide))
  typeTags := declared.typeTags.congr (same _ (by decide))
  isRequired := declared.isRequired.congr (same _ (by decide))
  acceptsMultiple := declared.acceptsMultiple.congr (same _ (by decide))
  defaultValue := declared.defaultValue.congr (same _ (by decide))
  choices := declared.choices.congr (same _ (by decide))

theorem functional_of_ok_iff {α : Type} {Means : Literal → α → Prop}
    (f : Literal → Except FieldError α)
    (stands : ∀ literal value, f literal = .ok value ↔ Means literal value)
    (literal : Literal) (a b : α) (first : Means literal a) (second : Means literal b) : a = b := by
  have one := (stands literal a).2 first
  have two := (stands literal b).2 second
  exact Except.ok.inj (one.symm.trans two)

theorem functional_present {α : Type} {Means : Literal → α → Prop}
    (functional : ∀ literal a b, Means literal a → Means literal b → a = b)
    (literal : Literal) (a b : Option α) (first : Present Means literal a)
    (second : Present Means literal b) : a = b := by
  obtain ⟨value, means, rfl⟩ := first
  obtain ⟨other, meansOther, rfl⟩ := second
  rw [functional literal value other means meansOther]

theorem DeclaredBy.unique {fields : List (String × Literal)} {a b : Argument}
    (first : DeclaredBy fields a) (second : DeclaredBy fields b) : a = b := by
  have text := functional_of_ok_iff (textOf "name") fun _ _ => textOf_eq_ok_iff
  have tags := functional_of_ok_iff typeTagsOf fun _ _ => typeTagsOf_eq_ok_iff
  have flag := functional_of_ok_iff (boolOf "isRequired") fun _ _ => boolOf_eq_ok_iff
  have value := functional_of_ok_iff defaultOf fun _ _ => defaultOf_eq_ok_iff
  have choices := functional_of_ok_iff choicesOf fun _ _ => choicesOf_eq_ok_iff
  cases a
  cases b
  rw [Argument.mk.injEq]
  exact ⟨first.name.unique (functional_present text) second.name,
    first.description.unique (functional_present text) second.description,
    first.typeTags.unique (functional_present tags) second.typeTags,
    first.isRequired.unique flag second.isRequired,
    first.acceptsMultiple.unique flag second.acceptsMultiple,
    first.defaultValue.unique value second.defaultValue,
    first.choices.unique choices second.choices⟩

theorem ofLiteral_object (fields : List (String × Literal)) : ofLiteral (.object fields) =
    fields.foldlM (fun argument field => argument.setField field.1 field.2) blank :=
  rfl

theorem declaredBy_of_ofLiteral {fields : List (String × Literal)} {argument : Argument}
    (done : ofLiteral (.object fields) = .ok argument) : DeclaredBy fields argument := by
  rw [ofLiteral_object] at done
  -- From the end, since it is the last field of a key that counts.
  induction fields using List.reverseRecOn generalizing argument with
  | nil =>
    cases done
    exact declaredBy_nil
  | append_singleton fields field ih =>
    rw [List.foldlM_append, bind_eq_ok_iff] at done
    obtain ⟨before, run, last⟩ := done
    rw [List.foldlM_cons, bind_eq_ok_iff] at last
    obtain ⟨next, set, last⟩ := last
    cases last
    exact (ih run).concat (sets_of_setField set)

theorem exists_ofLiteral_iff {fields : List (String × Literal)} :
    (∃ argument, ofLiteral (.object fields) = .ok argument) ↔
      ∀ field ∈ fields, Admissible field.1 field.2 := by
  rw [ofLiteral_object]
  apply exists_foldlM_iff
  intro argument field
  exact exists_setField_iff

theorem ofLiteral_eq_ok_iff {fields : List (String × Literal)} {argument : Argument} :
    ofLiteral (.object fields) = .ok argument ↔
      (∀ field ∈ fields, Admissible field.1 field.2) ∧ DeclaredBy fields argument := by
  constructor
  · intro done
    exact ⟨exists_ofLiteral_iff.1 ⟨argument, done⟩, declaredBy_of_ofLiteral done⟩
  · rintro ⟨admissible, declared⟩
    obtain ⟨found, done⟩ := exists_ofLiteral_iff.2 admissible
    rw [done, (declaredBy_of_ofLiteral done).unique declared]

theorem admissible_of_notMem {key : String} (unknown : key ∉ knownKeys) (literal : Literal) :
    Admissible key literal :=
  exists_setField_iff.1 ⟨blank, setField_of_notMem unknown blank literal⟩

theorem ofLiteral_ok_of_filter_eq {fields others : List (String × Literal)} {argument : Argument}
    (same : ∀ key ∈ knownKeys, others.filter (·.1 == key) = fields.filter (·.1 == key))
    (done : ofLiteral (.object others) = .ok argument) :
    ofLiteral (.object fields) = .ok argument := by
  obtain ⟨admissible, declared⟩ := ofLiteral_eq_ok_iff.1 done
  refine ofLiteral_eq_ok_iff.2 ⟨fun field inFields => ?_, declared.congr same⟩
  -- A field of a known key is one of the other list too, any other field is admissible by itself.
  by_cases known : field.1 ∈ knownKeys
  · have kept : field ∈ fields.filter (·.1 == field.1) :=
      List.mem_filter.2 ⟨inFields, beq_self_eq_true _⟩
    rw [← same field.1 known] at kept
    exact admissible field (List.mem_filter.1 kept).1
  · exact admissible_of_notMem known field.2

/-- An argument is declared field by field. It is declared if and only if each field is admissible;
each of its parts is then given by the last field of the part's key, so fields of other keys and
the order of fields of different keys do not matter. Otherwise the first field that is not
admissible is reported. Lists are converted item by item. -/
theorem ofLiteral_fieldwise (fields : List (String × Literal)) :
    ((∃ argument, ofLiteral (.object fields) = .ok argument) ↔
      ∀ field ∈ fields, Admissible field.1 field.2) ∧
    (∀ argument, ofLiteral (.object fields) = .ok argument ↔
      (∀ field ∈ fields, Admissible field.1 field.2) ∧ DeclaredBy fields argument) ∧
    (∀ others,
      (∀ key ∈ knownKeys, others.filter (·.1 == key) = fields.filter (·.1 == key)) →
      ∀ argument, ofLiteral (.object others) = .ok argument ↔
        ofLiteral (.object fields) = .ok argument) ∧
    (∀ error, ofLiteral (.object fields) = .error error ↔
      FirstFault (fun field => Admissible field.1 field.2)
        (fun field => FieldFault field.1 field.2) fields error) ∧
    ∀ items,
      (∀ tags, typeTagsOf (.array items) = .ok tags ↔ List.Forall₂ IsTag items tags) ∧
      ((∃ error, typeTagsOf (.array items) = .error error) ↔
        ∃ item ∈ items, ∀ tag, ¬ IsTag item tag) ∧
      (∀ choices, choicesOf (.array items) = .ok choices ↔ List.Forall₂ IsChoice items choices) ∧
      ((∃ error, choicesOf (.array items) = .error error) ↔
        ∃ item ∈ items, ∀ choice, ¬ IsChoice item choice) := by
  refine ⟨exists_ofLiteral_iff, fun argument => ofLiteral_eq_ok_iff, fun others same argument => ?_,
    fun error => ?_, fun items => ⟨fun tags => typeTagsOf_array_eq_ok_iff, ?_,
      fun choices => choicesOf_array_eq_ok_iff, ?_⟩⟩
  · exact ⟨ofLiteral_ok_of_filter_eq same,
      ofLiteral_ok_of_filter_eq fun key known => (same key known).symm⟩
  · rw [ofLiteral_object]
    apply foldlM_eq_error_iff
    · intro argument field
      exact exists_setField_iff
    · intro argument field error
      exact setField_eq_error_iff
  · simp only [typeTagsOf, exists_mapM_error_iff, ne_eq, typeTagOf_eq_ok_iff]
  · simp only [choicesOf, exists_mapM_error_iff, ne_eq, choiceOf_eq_ok_iff]

/-- The name given last counts, the note and the order of the other fields do not; with a list of
types that is none, the name behind it is not looked at. -/
theorem ofLiteral_fieldwise_repeated :
    ofLiteral (.object [("isRequired", .null), ("name", .string "a"), ("name", .string "b")]) =
      .ok ⟨some "b", none, none, false, false, none, []⟩ ∧
    ofLiteral (.object [("note", .callback), ("typeList", .null), ("name", .null)]) =
      .error (.typesNotArray .null) := by
  constructor
  · refine ((ofLiteral_fieldwise [("name", .string "a"), ("note", .number "1"),
      ("name", .string "b"), ("isRequired", .null)]).2.2.1 _ ?_ _).2 rfl
    simp [knownKeys]
  · refine ((ofLiteral_fieldwise _).2.2.2.1 _).2
      ⟨[("note", .callback)], ("typeList", .null), [("name", .null)], rfl, ?_, .types ?_ ?_⟩
    · rw [List.forall_mem_singleton]
      exact admissible_of_notMem (by decide) .callback
    · decide
    · rintro tag ⟨⟩

end CommandReference.Argument
