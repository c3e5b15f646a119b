import CommandReference.Rest
import CommandReference.Yaml.Node.Basic
import CommandReference.Yaml.Token.Layout

/-! The tree that tokens write. -/
namespace CommandReference.Yaml

namespace NodeReader

/-- The properties of a node: an anchor and a tag, in either order, each at most once. -/
structure Properties where
  anchor : Option String
  tag : Option String
  deriving Repr

def properties : (tokens : List Token) → Properties × Rest tokens
  | .anchor name :: .tag handle :: rest =>
    (⟨some name, some handle⟩, ((ProperRest.tail (.tag handle) rest).behind (.anchor name)).weaken)
  | .tag handle :: .anchor name :: rest =>
    (⟨some name, some handle⟩, ((ProperRest.tail (.anchor name) rest).behind (.tag handle)).weaken)
  | .anchor name :: rest => (⟨some name, none⟩, (ProperRest.tail (.anchor name) rest).weaken)
  | .tag handle :: rest => (⟨none, some handle⟩, (ProperRest.tail (.tag handle) rest).weaken)
  | tokens => (⟨none, none⟩, Rest.all tokens)

/-- Whether the handle of a tag is known; the empty handle belongs to a tag in full. -/
def Properties.hasKnownTag (handles : List String) (given : Properties) : Bool :=
  given.tag.all fun handle => handle = "" || handles.contains handle

def nextIn (stops : List Token) (tokens : List Token) : Bool :=
  tokens.head?.any (stops.contains ·)

def comma (isFirst : Bool) (tokens : List Token) : Option (Rest tokens) :=
  if isFirst then some (Rest.all tokens)
  else
    match tokens with
    | .flowEntry :: rest => some (ProperRest.tail .flowEntry rest).weaken
    | _ => none

def nothing {tokens : List Token} (given : Properties) (rest : Rest tokens) :
    Option (Node String × ProperRest tokens) :=
  if fewer : rest.1.length < tokens.length then
    some (.scalar given.anchor "" true, ⟨rest.1, rest.2, fewer⟩)
  else none

def alignedStops : List Token := [.blockEntry, .key, .value, .blockEnd]

def entryStops : List Token := [.key, .value, .blockEnd]

mutual

/-- Reads a node. Block collections stand only in block style, and only below a key may
the items of a sequence stand at the column of the key. A node that has properties may
be left out otherwise. -/
def node (handles : List String) (inBlock mayAlign : Bool) (tokens : List Token) :
    Option (Node String × ProperRest tokens) :=
  match tokens with
  | .reference name :: rest => some (.reference name, ProperRest.tail (.reference name) rest)
  | tokens => do
    let (given, content) := properties tokens
    if !given.hasKnownTag handles then none
    match content.uncons? with
    | some (.scalar text isPlain, rest) => return (.scalar given.anchor text isPlain, rest)
    | some (.flowSequenceStart, rest) =>
      let (items, following) ← flowItems handles true rest.1
      return (.sequence given.anchor items, rest.andProper following)
    | some (.flowMappingStart, rest) =>
      let (entries, following) ← flowEntries handles true rest.1
      return (.mapping given.anchor entries, rest.andProper following)
    | some (.blockSequenceStart, rest) =>
      if !inBlock then nothing given content
      else
        let (items, following) ← blockItems handles rest.1
        return (.sequence given.anchor items, rest.andProper following)
    | some (.blockMappingStart, rest) =>
      if !inBlock then nothing given content
      else
        let (entries, following) ← blockEntries handles rest.1
        return (.mapping given.anchor entries, rest.andProper following)
    | some (.blockEntry, rest) =>
      if !mayAlign then nothing given content
      else
        let (item, middle) ← nodeUnless handles alignedStops true false rest.1
        let (items, following) ← alignedItems handles middle.1
        return (.sequence given.anchor (item :: items),
          rest.andThen (middle.andThen following))
    | _ => nothing given content
termination_by 2 * tokens.length + 1
decreasing_by
  · have := rest.length_lt; omega
  · have := rest.length_lt; omega
  · have := rest.length_lt; omega
  · have := rest.length_lt; omega
  · have := rest.length_lt; omega
  · have := rest.length_lt; have := middle.length_le; omega

def nodeUnless (handles : List String) (stops : List Token) (inBlock mayAlign : Bool)
    (tokens : List Token) : Option (Node String × Rest tokens) :=
  if nextIn stops tokens then some (.omitted, Rest.all tokens)
  else do
    let (read, rest) ← node handles inBlock mayAlign tokens
    return (read, rest.weaken)
termination_by 2 * tokens.length + 2
decreasing_by omega

def valueAfterKey (handles : List String) (stops : List Token) (inBlock : Bool)
    (tokens : List Token) : Option (Node String × Rest tokens) :=
  match tokens with
  | .value :: rest => do
    let (read, following) ← nodeUnless handles stops inBlock inBlock rest
    return (read, (following.behind .value).weaken)
  | tokens => some (.omitted, Rest.all tokens)
termination_by 2 * tokens.length + 1
decreasing_by simp only [List.length_cons]; omega

def blockItems (handles : List String) (tokens : List Token) :
    Option (List (Node String) × ProperRest tokens) :=
  match tokens with
  | .blockEntry :: rest => do
    let (item, middle) ← nodeUnless handles [.blockEntry, .blockEnd] true false rest
    let (items, following) ← blockItems handles middle.1
    return (item :: items, (middle.andProper following).behind .blockEntry)
  | .blockEnd :: rest => some ([], ProperRest.tail .blockEnd rest)
  | _ => none
termination_by 2 * tokens.length + 2
decreasing_by
  · simp only [List.length_cons]; omega
  · have := middle.length_le; simp only [List.length_cons]; omega

def alignedItems (handles : List String) (tokens : List Token) :
    Option (List (Node String) × Rest tokens) :=
  match tokens with
  | .blockEntry :: rest => do
    let (item, middle) ← nodeUnless handles alignedStops true false rest
    let (items, following) ← alignedItems handles middle.1
    return (item :: items, ((middle.andThen following).behind .blockEntry).weaken)
  | tokens => some ([], Rest.all tokens)
termination_by 2 * tokens.length + 2
decreasing_by
  · simp only [List.length_cons]; omega
  · have := middle.length_le; simp only [List.length_cons]; omega

def blockEntries (handles : List String) (tokens : List Token) :
    Option (List (Node String × Node String) × ProperRest tokens) :=
  match tokens with
  | .key :: rest => do
    let (key, middle) ← nodeUnless handles entryStops true true rest
    let (value, later) ← valueAfterKey handles entryStops true middle.1
    let (entries, following) ← blockEntries handles later.1
    return ((key, value) :: entries, (middle.andProper (later.andProper following)).behind .key)
  | .blockEnd :: rest => some ([], ProperRest.tail .blockEnd rest)
  | _ => none
termination_by 2 * tokens.length + 2
decreasing_by
  · simp only [List.length_cons]; omega
  · have := middle.length_le; simp only [List.length_cons]; omega
  · have := middle.length_le; have := later.length_le; simp only [List.length_cons]; omega

/-- Reads the key of an item of a flow sequence. Where it is left out, the token in its
place is passed over. -/
def flowItemKey (handles : List String) (tokens : List Token) :
    Option (Node String × Rest tokens) :=
  if nextIn [.value, .flowEntry, .flowSequenceEnd] tokens then
    some (.omitted, Rest.drop 1 tokens)
  else do
    let (read, rest) ← node handles false false tokens
    return (read, rest.weaken)
termination_by 2 * tokens.length + 2
decreasing_by omega

/-- Reads the items of a flow sequence and its end. An item with the mark of a key is a
mapping of one entry. -/
def flowItems (handles : List String) (isFirst : Bool) (tokens : List Token) :
    Option (List (Node String) × ProperRest tokens) :=
  match tokens with
  | .flowSequenceEnd :: rest => some ([], ProperRest.tail .flowSequenceEnd rest)
  | tokens => do
    let start ← comma isFirst tokens
    match start.uncons? with
    | some (.flowSequenceEnd, rest) => return ([], rest)
    | some (.key, rest) =>
      let (key, middle) ← flowItemKey handles rest.1
      let (value, later) ← valueAfterKey handles [.flowEntry, .flowSequenceEnd] false middle.1
      let (items, following) ← flowItems handles false later.1
      return (.mapping none [(key, value)] :: items,
        rest.andThen (middle.andThen (later.andProper following).weaken))
    | _ =>
      let (item, middle) ← node handles false false start.1
      let (items, following) ← flowItems handles false middle.1
      return (item :: items, start.andProper (middle.andProper following))
termination_by 2 * tokens.length + 2
decreasing_by
  · have := rest.length_lt; omega
  · have := rest.length_lt; have := middle.length_le; omega
  · have := rest.length_lt; have := middle.length_le; have := later.length_le; omega
  · have := start.length_le; omega
  · have := start.length_le; have := middle.length_lt; omega

/-- Reads the entries of a flow mapping and its end. A node without the mark of a key is
a key without a value. -/
def flowEntries (handles : List String) (isFirst : Bool) (tokens : List Token) :
    Option (List (Node String × Node String) × ProperRest tokens) :=
  match tokens with
  | .flowMappingEnd :: rest => some ([], ProperRest.tail .flowMappingEnd rest)
  | tokens => do
    let start ← comma isFirst tokens
    match start.uncons? with
    | some (.flowMappingEnd, rest) => return ([], rest)
    | some (.key, rest) =>
      let (key, middle) ←
        nodeUnless handles [.value, .flowEntry, .flowMappingEnd] false false rest.1
      let (value, later) ← valueAfterKey handles [.flowEntry, .flowMappingEnd] false middle.1
      let (entries, following) ← flowEntries handles false later.1
      return ((key, value) :: entries,
        rest.andThen (middle.andThen (later.andProper following).weaken))
    | _ =>
      let (key, middle) ← node handles false false start.1
      let (entries, following) ← flowEntries handles false middle.1
      return ((key, .omitted) :: entries, start.andProper (middle.andProper following))
termination_by 2 * tokens.length + 2
decreasing_by
  · have := rest.length_lt; omega
  · have := rest.length_lt; have := middle.length_le; omega
  · have := rest.length_lt; have := middle.length_le; have := later.length_le; omega
  · have := start.length_le; omega
  · have := start.length_le; have := middle.length_lt; omega

end

def isDocumentToken : Token → Bool
  | .versionDirective _ _ | .tagDirective _ | .documentStart | .documentEnd => true
  | _ => false

/-- The directives before a document. Only versions 1.1 and 1.2 are known, and neither the
version nor a handle may be given twice. -/
def directives (versioned : Bool) (handles : List String) :
    List Token → Option (List String × List Token)
  | .versionDirective major minor :: rest =>
    if versioned || major ≠ 1 || !(minor = 1 || minor = 2) then none
    else directives true handles rest
  | .tagDirective handle :: rest =>
    if handles.contains handle then none else directives versioned (handle :: handles) rest
  | tokens => some (handles, tokens)

def knownHandles : List String := ["!", "!!"]

def markedDocument (tokens : List Token) : Option (Node String × List Token) := do
  let (handles, rest) ← directives false [] tokens
  match rest with
  | .documentStart :: content =>
    if content.head?.all isDocumentToken then return (.omitted, content)
    let (root, following) ← node (handles ++ knownHandles) true false content
    return (root, following.1)
  | _ => none

end NodeReader

def Node.ofText? (text : List Char) : Option (Node String) := do
  match ← tokens? text with
  | [] => return .omitted
  | .documentEnd :: _ => none
  | first :: rest =>
    let (root, following) ←
      if NodeReader.isDocumentToken first then NodeReader.markedDocument (first :: rest)
      else do
        let (root, following) ← NodeReader.node NodeReader.knownHandles true false (first :: rest)
        pure (root, following.1)
    if following.all (· = .documentEnd) then return root else none

end CommandReference.Yaml
