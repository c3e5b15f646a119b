/-! YAML documents as trees. Anchors and aliases carry labels: names as written, or the
numbers that stand for them once a document has been read. -/
namespace CommandReference.Yaml

inductive Node (label : Type) where
  | reference (target : label)
  | scalar (anchor : Option label) (text : String) (isPlain : Bool)
  | sequence (anchor : Option label) (items : List (Node label))
  | mapping (anchor : Option label) (entries : List (Node label × Node label))
  deriving Repr, Inhabited

def Node.omitted {label : Type} : Node label := .scalar none "" true

end CommandReference.Yaml
