/-! JSON values and how records are read from them. The entries of an object keep their
order, and numbers stay as written. -/
namespace CommandReference

inductive Json where
  | null
  | bool (value : Bool)
  | number (text : String)
  | string (text : String)
  | array (items : List Json)
  | object (entries : List (String × Json))
  deriving Repr, Inhabited

namespace Json

def string? : Json → Option String
  | string text => some text
  | _ => none

def bool? : Json → Option Bool
  | bool value => some value
  | _ => none

def list? {α : Type} (item? : Json → Option α) : Json → Option (List α)
  | array items => items.mapM item?
  | _ => none

def nullable? {α : Type} (item? : Json → Option α) : Json → Option (Option α)
  | null => some none
  | json => (item? json).map some

/-- The fields of a record, `none` for those that are absent. A record is an object, in
which other keys are left aside and none of these keys is repeated, or an array of the
fields in their order, of which the last ones may be absent. -/
def fields? (keys : List String) : Json → Option (List (Option Json))
  | object entries =>
    if keys.all fun key => (entries.filter (·.1 == key)).length ≤ 1 then
      some (keys.map fun key => entries.lookup key)
    else none
  | array items =>
    if items.length ≤ keys.length then some (keys.zipIdx.map fun (_, index) => items[index]?)
    else none
  | _ => none

def fieldOr {α : Type} (absent : α) (item? : Json → Option α) : Option Json → Option α
  | none => some absent
  | some json => item? json

end Json

end CommandReference
