import CommandReference.Command.Dump
import CommandReference.Proofs.Json.RoundTrip

/-! The registry read back from its dump. A record is a list of slots, one for each key,
and an empty slot is not written; reading finds the slots again, and each kind of slot
gives its value back. -/
namespace CommandReference
open Json

/-- The entries of the slots that are filled. -/
def filled (slots : List (String × Option Json)) : List (String × Json) :=
  slots.flatMap fun slot => optionEntry slot.1 id slot.2

private theorem keys_filled {slots : List (String × Option Json)} {entry : String × Json}
    (inside : entry ∈ filled slots) : entry.1 ∈ slots.map (·.1) := by
  obtain ⟨slot, among, written⟩ := List.mem_flatMap.1 inside
  obtain ⟨key, value⟩ := slot
  cases value with
  | none => cases written
  | some json =>
    cases List.mem_singleton.1 written
    exact List.mem_map_of_mem among

private theorem filter_filled_of_not_mem {slots : List (String × Option Json)} {key : String}
    (absent : key ∉ slots.map (·.1)) : (filled slots).filter (·.1 == key) = [] := by
  rw [List.filter_eq_nil_iff]
  intro entry inside same
  rw [beq_iff_eq] at same
  exact absent (same ▸ keys_filled inside)

/-- The entries of one key, which has one slot. -/
theorem filter_filled {slots : List (String × Option Json)}
    (distinct : (slots.map (·.1)).Nodup) {key : String} {value : Option Json}
    (inside : (key, value) ∈ slots) :
    (filled slots).filter (·.1 == key) = optionEntry key id value := by
  induction slots with
  | nil => cases inside
  | cons slot slots ih =>
    rw [List.map_cons, List.nodup_cons] at distinct
    obtain ⟨other, json⟩ := slot
    have split : (filled ((other, json) :: slots)).filter (·.1 == key) =
        (optionEntry other id json).filter (·.1 == key) ++ (filled slots).filter (·.1 == key) := by
      rw [filled, List.flatMap_cons, List.filter_append]
      rfl
    rw [split]
    rcases List.mem_cons.1 inside with same | inside
    · cases same
      rw [filter_filled_of_not_mem distinct.1, List.append_nil]
      cases value with
      | none => rfl
      | some json => simp [optionEntry]
    · have apart : (other == key) = false := by
        rw [beq_eq_false_iff_ne]
        rintro rfl
        exact distinct.1 (List.mem_map.2 ⟨_, inside, rfl⟩)
      rw [ih distinct.2 inside]
      cases json with
      | none => rfl
      | some json => simp [optionEntry, apart]

private theorem lookup_eq_head?_filter (entries : List (String × Json)) (key : String) :
    entries.lookup key = (entries.filter (·.1 == key)).head?.map (·.2) := by
  induction entries with
  | nil => rfl
  | cons entry entries ih =>
    rw [List.lookup_cons, List.filter_cons, BEq.comm, ih]
    cases entry.1 == key with
    | true => rfl
    | false => rfl

theorem fields?_filled {slots : List (String × Option Json)}
    (distinct : (slots.map (·.1)).Nodup) :
    fields? (slots.map (·.1)) (object (filled slots)) = some (slots.map (·.2)) := by
  have single : (slots.map (·.1)).all
      (fun key => decide (((filled slots).filter (·.1 == key)).length ≤ 1)) = true := by
    rw [List.all_map, List.all_eq_true]
    intro slot inside
    rw [Function.comp_apply, filter_filled distinct inside, decide_eq_true_iff]
    cases slot.2 with
    | none => exact Nat.zero_le 1
    | some json => exact Nat.le_refl 1
  rw [fields?, if_pos single, List.map_map]
  refine congrArg some (List.map_congr_left ?_)
  intro slot inside
  rw [Function.comp_apply, lookup_eq_head?_filter, filter_filled distinct inside]
  cases slot.2 with
  | none => rfl
  | some json => rfl

theorem numberless_filled {slots : List (String × Option Json)}
    (numberless : ∀ slot ∈ slots, ∀ json ∈ slot.2, Numberless json) :
    Numberless (object (filled slots)) := by
  refine .object ?_
  intro entry inside
  obtain ⟨slot, among, written⟩ := List.mem_flatMap.1 inside
  obtain ⟨key, value⟩ := slot
  cases value with
  | none => cases written
  | some json =>
    cases List.mem_singleton.1 written
    exact numberless _ among json rfl

section Slots
variable {α : Type} {write : α → Json} {item? : Json → Option α}

def listSlot (write : α → Json) (items : List α) : Option Json :=
  if items.isEmpty then none else some (array (items.map write))

theorem optionEntry_eq (key : String) (write : α → Json) (value : Option α) :
    optionEntry key write value = optionEntry key id (value.map write) := by
  cases value with
  | none => rfl
  | some value => rfl

theorem optionEntry_some (key : String) (write : α → Json) (value : α) :
    optionEntry key write (some value) = [(key, write value)] := rfl

theorem listEntry_eq (key : String) (write : α → Json) (items : List α) :
    listEntry key write items = optionEntry key id (listSlot write items) := by
  rw [listEntry, listSlot]
  split
  · rfl
  · rfl

theorem list?_map (back : ∀ item, item? (write item) = some item) (items : List α) :
    list? item? (array (items.map write)) = some items := by
  rw [list?]
  induction items with
  | nil => rfl
  | cons item items ih =>
    rw [List.map_cons, List.mapM_cons, back, ih]
    rfl

theorem fieldOr_some (absent : α) (item? : Json → Option α) (json : Json) :
    fieldOr absent item? (some json) = item? json := rfl

theorem fieldOr_map (back : ∀ value, nullable? item? (write value) = some (some value))
    (value : Option α) : fieldOr none (nullable? item?) (value.map write) = some value := by
  cases value with
  | none => rfl
  | some value => exact back value

theorem fieldOr_listSlot (back : ∀ item, item? (write item) = some item) (items : List α) :
    fieldOr [] (list? item?) (listSlot write items) = some items := by
  cases items with
  | nil => rfl
  | cons item items => exact list?_map back (item :: items)

theorem numberless_array_map (numberless : ∀ item, Numberless (write item)) (items : List α) :
    Numberless (array (items.map write)) :=
  .array (List.forall_mem_map.2 fun item _ => numberless item)

theorem numberless_map (numberless : ∀ value, Numberless (write value)) {value : Option α}
    {json : Json} (filled : json ∈ value.map write) : Numberless json := by
  obtain ⟨value, -, rfl⟩ := Option.map_eq_some_iff.1 filled
  exact numberless value

theorem numberless_listSlot (numberless : ∀ item, Numberless (write item)) {items : List α}
    {json : Json} (filled : json ∈ listSlot write items) : Numberless json := by
  rw [listSlot] at filled
  split at filled
  · cases filled
  · cases filled
    exact numberless_array_map numberless items

theorem numberless_some {json written : Json} (numberless : Numberless written)
    (filled : json ∈ some written) : Numberless json := by
  cases filled
  exact numberless

theorem string?_string (text : String) : string? (string text) = some text := rfl

theorem fieldOr_string (value : Option String) :
    fieldOr none (nullable? string?) (value.map string) = some value :=
  fieldOr_map (fun _ => rfl) value

private theorem fieldOr_texts (value : Option (List String)) :
    fieldOr none (nullable? (list? string?)) (value.map texts) = some value := by
  refine fieldOr_map ?_ value
  intro items
  rw [texts, nullable?, list?_map string?_string, Option.map_some]
  -- a list is not null
  intro null
  cases null

end Slots

namespace Choice

def slots (choice : Choice) : List (String × Option Json) :=
  [("value", some (string choice.value)), ("description", choice.description.map string)]

theorem toJson_eq (choice : Choice) : choice.toJson = object (filled choice.slots) := by
  rw [toJson, optionEntry_eq]
  simp [filled, slots, optionEntry_some]

theorem ofJson?_toJson (choice : Choice) : ofJson? choice.toJson = some choice := by
  have fields : fields? ["value", "description"] choice.toJson = some (choice.slots.map (·.2)) := by
    rw [toJson_eq]
    exact fields?_filled (show (choice.slots.map (·.1)).Nodup by simp [slots])
  rw [ofJson?, fields]
  simp only [slots, List.map_cons, List.map_nil, Option.bind_eq_bind, Option.bind_some, string?,
    fieldOr_string]
  rfl

theorem numberless_toJson (choice : Choice) : Numberless choice.toJson := by
  rw [toJson_eq]
  refine numberless_filled ?_
  simp only [slots, List.forall_mem_cons]
  exact ⟨fun _ => numberless_some (.string _), fun _ => numberless_map .string, List.forall_mem_nil _⟩

end Choice

namespace Argument

def slots (argument : Argument) : List (String × Option Json) :=
  [("name", argument.name.map string), ("description", argument.description.map string),
    ("type_list", argument.typeTags.map CommandReference.texts),
    ("is_required", some (bool argument.isRequired)),
    ("accepts_multiple", some (bool argument.acceptsMultiple)),
    ("default_value", argument.defaultValue.map string),
    ("enum_list", listSlot Choice.toJson argument.choices)]

theorem toJson_eq (argument : Argument) : argument.toJson = object (filled argument.slots) := by
  rw [toJson, optionEntry_eq "name", optionEntry_eq "description", optionEntry_eq "type_list",
    optionEntry_eq "default_value", listEntry_eq]
  simp [filled, slots, optionEntry_some]

theorem ofJson?_toJson (argument : Argument) : ofJson? argument.toJson = some argument := by
  have fields : fields? ["name", "description", "type_list", "is_required", "accepts_multiple",
      "default_value", "enum_list"] argument.toJson = some (argument.slots.map (·.2)) := by
    rw [toJson_eq]
    exact fields?_filled (show (argument.slots.map (·.1)).Nodup by simp [slots])
  rw [ofJson?, fields]
  simp only [slots, List.map_cons, List.map_nil, Option.bind_eq_bind, Option.bind_some,
    fieldOr_string, fieldOr_texts, fieldOr_some, bool?,
    fieldOr_listSlot Choice.ofJson?_toJson]
  rfl

theorem numberless_toJson (argument : Argument) : Numberless argument.toJson := by
  rw [toJson_eq]
  refine numberless_filled ?_
  simp only [slots, List.forall_mem_cons]
  exact ⟨fun _ => numberless_map .string, fun _ => numberless_map .string,
    fun _ => numberless_map (numberless_array_map .string), fun _ => numberless_some (.bool _),
    fun _ => numberless_some (.bool _), fun _ => numberless_map .string,
    fun _ => numberless_listSlot Choice.numberless_toJson, List.forall_mem_nil _⟩

end Argument

namespace Command

def slots (command : Command) : List (String × Option Json) :=
  [("name", some (string command.name)), ("args", command.usage.map string),
    ("help", some (string command.help)), ("named", listSlot Argument.toJson command.named),
    ("unnamed", listSlot Argument.toJson command.unnamed),
    ("examples", listSlot string command.examples)]

theorem toJson_eq (command : Command) : command.toJson = object (filled command.slots) := by
  rw [toJson, optionEntry_eq "args", listEntry_eq, listEntry_eq, listEntry_eq]
  simp [filled, slots, optionEntry_some]

theorem ofJson?_toJson (command : Command) : ofJson? command.toJson = some command := by
  have fields : fields? ["name", "args", "help", "named", "unnamed", "examples"] command.toJson =
      some (command.slots.map (·.2)) := by
    rw [toJson_eq]
    exact fields?_filled (show (command.slots.map (·.1)).Nodup by simp [slots])
  rw [ofJson?, fields]
  simp only [slots, List.map_cons, List.map_nil, Option.bind_eq_bind, Option.bind_some,
    fieldOr_string, fieldOr_some, string?, fieldOr_listSlot Argument.ofJson?_toJson,
    fieldOr_listSlot string?_string]
  rfl

theorem numberless_toJson (command : Command) : Numberless command.toJson := by
  rw [toJson_eq]
  refine numberless_filled ?_
  simp only [slots, List.forall_mem_cons]
  exact ⟨fun _ => numberless_some (.string _), fun _ => numberless_map .string,
    fun _ => numberless_some (.string _), fun _ => numberless_listSlot Argument.numberless_toJson,
    fun _ => numberless_listSlot Argument.numberless_toJson, fun _ => numberless_listSlot .string,
    List.forall_mem_nil _⟩

end Command

namespace Group

def slots (group : Group) : List (String × Option Json) :=
  [("name", some (string group.name)),
    ("commands", some (array (group.commands.map Command.toJson)))]

theorem toJson_eq (group : Group) : group.toJson = object (filled group.slots) := rfl

theorem ofJson?_toJson (group : Group) : ofJson? group.toJson = some group := by
  have fields : fields? ["name", "commands"] group.toJson = some (group.slots.map (·.2)) := by
    rw [toJson_eq]
    exact fields?_filled (show (group.slots.map (·.1)).Nodup by simp [slots])
  rw [ofJson?, fields]
  simp only [slots, List.map_cons, List.map_nil, Option.bind_eq_bind, Option.bind_some, string?,
    list?_map Command.ofJson?_toJson]
  rfl

theorem numberless_toJson (group : Group) : Numberless group.toJson := by
  rw [toJson_eq]
  refine numberless_filled ?_
  simp only [slots, List.forall_mem_cons]
  exact ⟨fun _ => numberless_some (.string _),
    fun _ => numberless_some (numberless_array_map Command.numberless_toJson _),
    List.forall_mem_nil _⟩

end Group

namespace Registry

theorem ofJson?_toJson (registry : Registry) : ofJson? registry.toJson = some registry := by
  rw [ofJson?, toJson, list?_map Group.ofJson?_toJson]
  rfl

theorem parse?_dump (registry : Registry) : parse? (registry.dump .json) = some registry.toJson := by
  have numberless : Numberless registry.toJson :=
    numberless_array_map Group.numberless_toJson registry.groups
  exact parse?_pretty numberless (List.forall_mem_singleton.2 rfl)

/-- A dump is the text of the registry's value and is read back as the registry, so two
registries that differ anywhere, if only by an option that is absent in one and empty in the
other, have different dumps. -/
theorem ofDump?_dump (registry : Registry) :
    parse? (registry.dump .json) = some registry.toJson ∧
      ofDump? (registry.dump .json) = some registry ∧
      ∀ other : Registry, other.dump .json = registry.dump .json → other = registry := by
  have back (registry : Registry) : ofDump? (registry.dump .json) = some registry := by
    rw [ofDump?, parse?_dump, Option.bind_some, ofJson?_toJson]
  refine ⟨parse?_dump registry, back registry, ?_⟩
  intro other same
  have both : some other = some registry := by
    rw [← back other, same, back registry]
  exact Option.some.inj both

/-- One command with one argument, which declares the given tags. -/
def tagged (tags : Option (List String)) : Registry :=
  ⟨[⟨"", [{ Command.ofName "" with named := [{ Argument.blank with typeTags := tags }] }]⟩]⟩

theorem dump_tagged_ne : (tagged none).dump .json ≠ (tagged (some [])).dump .json :=
  fun same => absurd ((ofDump?_dump (tagged (some []))).2.2 (tagged none) same) (by decide)

end Registry

end CommandReference
