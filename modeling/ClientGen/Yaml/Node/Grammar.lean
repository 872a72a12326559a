import ClientGen.Entries
import ClientGen.Yaml.Node

/-! The nodes that tokens make up. -/
namespace ClientGen.Yaml

/-- The starts of tags, by handle. -/
abbrev Handles := Entries String Tag

/-- The tokens still to be read, and the numbers of the anchors so far. An anchor takes the number of
distinct names before it, also where it binds a name again. -/
structure Rest where
  tokens : List Token
  anchors : Entries String Nat

/-- Which collections may begin at a place. -/
inductive Place.Kind
  | flow
  | block
  /-- In a block mapping a list needs no indentation. -/
  | member
deriving DecidableEq, Repr

namespace Node
open Place (Kind)

/-- The tag that a handle and the text after it stand for. -/
def tag? (handles : Handles) (handle : String) (rest : Tag) : Option Tag :=
  if handle.isEmpty then some rest else (Entries.get? handles handle).map (· ++ rest)

def bind (r : Rest) (name : String) : Nat × Rest :=
  (r.anchors.length, { r with anchors := Entries.put r.anchors name r.anchors.length })

/-- An anchor and a tag, in either order. -/
def properties? (handles : Handles) (r : Rest) : Option (Properties × Rest) :=
  match r.tokens with
  | .anchor name :: .tag handle rest :: tokens => do
    let tag ← tag? handles handle rest
    let (anchor, r) := bind { r with tokens } name
    return (⟨anchor, tag⟩, r)
  | .tag handle rest :: .anchor name :: tokens => do
    let tag ← tag? handles handle rest
    let (anchor, r) := bind { r with tokens } name
    return (⟨anchor, tag⟩, r)
  | .anchor name :: tokens =>
    let (anchor, r) := bind { r with tokens } name
    some (⟨anchor, none⟩, r)
  | .tag handle rest :: tokens => do
    let tag ← tag? handles handle rest
    return (⟨none, tag⟩, { r with tokens })
  | _ => some (.none, r)

def isAt (r : Rest) (tokens : List Token) : Bool := r.tokens.head?.any (· ∈ tokens)

mutual
/-- Every two steps take a token. -/
def node? (handles : Handles) : Nat → Kind → Rest → Option (Node × Rest)
  | 0, _, _ => none
  | n + 1, kind, r =>
    match r.tokens with
    | .reference name :: tokens =>
      (Entries.get? r.anchors name).map fun anchor => (.reference anchor, { r with tokens })
    | _ => do
      let (p, r) ← properties? handles r
      match r.tokens with
      | .scalar text style :: tokens =>
        return (.scalar p text style, { r with tokens })
      | .flowSequenceStart :: tokens => do
        let (items, r) ← flowItems? handles n true { r with tokens }
        return (.list p items, r)
      | .flowMappingStart :: tokens => do
        let (members, r) ← flowMembers? handles n true { r with tokens }
        return (.map p members, r)
      | .blockEntry :: _ =>
        if kind = .member then
          let (items, r) ← looseItems? handles n r
          return (.list p items, r)
        else noContent? p r
      | .blockSequenceStart :: tokens =>
        if kind = .flow then noContent? p r
        else
          let (items, r) ← blockItems? handles n { r with tokens }
          return (.list p items, r)
      | .blockMappingStart :: tokens =>
        if kind = .flow then noContent? p r
        else
          let (members, r) ← blockMembers? handles n { r with tokens }
          return (.map p members, r)
      | _ => noContent? p r

/-- Properties may stand alone. -/
def noContent? (p : Properties) (r : Rest) : Option (Node × Rest) :=
  if p.anchor.isSome || p.tag.isSome then some (.scalar p "" .plain, r) else none

/-- A node, or the empty one where one of the given tokens comes next. -/
def nodeUnless? (handles : Handles) : Nat → List Token → Kind → Rest → Option (Node × Rest)
  | 0, _, _, _ => none
  | n + 1, tokens, kind, r => if isAt r tokens then some (empty, r) else node? handles n kind r

def blockItems? (handles : Handles) : Nat → Rest → Option (List Node × Rest)
  | 0, _ => none
  | n + 1, r =>
    match r.tokens with
    | .blockEntry :: tokens => do
      let (item, r) ← nodeUnless? handles n [.blockEntry, .blockEnd] .block { r with tokens }
      let (items, r) ← blockItems? handles n r
      return (item :: items, r)
    | .blockEnd :: tokens => some ([], { r with tokens })
    | _ => none

/-- The items of a list that is not indented further than the mapping around it. -/
def looseItems? (handles : Handles) : Nat → Rest → Option (List Node × Rest)
  | 0, _ => none
  | n + 1, r =>
    match r.tokens with
    | .blockEntry :: tokens => do
      let (item, r) ← nodeUnless? handles n [.blockEntry, .key, .value, .blockEnd] .block
        { r with tokens }
      let (items, r) ← looseItems? handles n r
      return (item :: items, r)
    | _ => some ([], r)

def blockMembers? (handles : Handles) : Nat → Rest → Option (List (Node × Node) × Rest)
  | 0, _ => none
  | n + 1, r =>
    match r.tokens with
    | .key :: tokens => do
      let ends := [Token.key, .value, .blockEnd]
      let (key, r) ← nodeUnless? handles n ends .member { r with tokens }
      let (value, r) ← match r.tokens with
        | .value :: tokens => nodeUnless? handles n ends .member { r with tokens }
        | _ => some (empty, r)
      let (members, r) ← blockMembers? handles n r
      return ((key, value) :: members, r)
    | .blockEnd :: tokens => some ([], { r with tokens })
    | _ => none

/-- The rest of a list in brackets; its items, but for the first, come after commas. -/
def flowItems? (handles : Handles) : Nat → Bool → Rest → Option (List Node × Rest)
  | 0, _, _ => none
  | n + 1, first, r =>
    match r.tokens with
    | .flowSequenceEnd :: tokens => some ([], { r with tokens })
    | tokens => do
      let tokens ← match tokens with
        | .flowEntry :: tokens => if first then some (.flowEntry :: tokens) else some tokens
        | tokens => if first then some tokens else none
      match tokens with
      | .flowSequenceEnd :: tokens => return ([], { r with tokens })
      | .key :: tokens => do
        let (pair, r) ← flowPair? handles n { r with tokens }
        let (items, r) ← flowItems? handles n false r
        return (.map .none [pair] :: items, r)
      | tokens => do
        let (item, r) ← node? handles n .flow { r with tokens }
        let (items, r) ← flowItems? handles n false r
        return (item :: items, r)

/-- A single member within brackets. Where its key is left out, the token in its place is lost. -/
def flowPair? (handles : Handles) : Nat → Rest → Option ((Node × Node) × Rest)
  | 0, _ => none
  | n + 1, r => do
    let (key, r) ←
      if isAt r [.value, .flowEntry, .flowSequenceEnd] then
        some (empty, { r with tokens := r.tokens.tail })
      else node? handles n .flow r
    let (value, r) ← match r.tokens with
      | .value :: tokens => nodeUnless? handles n [.flowEntry, .flowSequenceEnd] .flow { r with tokens }
      | _ => some (empty, r)
    return ((key, value), r)

/-- The rest of a mapping in braces; its members, but for the first, come after commas. -/
def flowMembers? (handles : Handles) : Nat → Bool → Rest → Option (List (Node × Node) × Rest)
  | 0, _, _ => none
  | n + 1, first, r =>
    match r.tokens with
    | .flowMappingEnd :: tokens => some ([], { r with tokens })
    | tokens => do
      let tokens ← match tokens with
        | .flowEntry :: tokens => if first then some (.flowEntry :: tokens) else some tokens
        | tokens => if first then some tokens else none
      match tokens with
      | .flowMappingEnd :: tokens => return ([], { r with tokens })
      | .key :: tokens => do
        let (key, r) ← nodeUnless? handles n [.value, .flowEntry, .flowMappingEnd] .flow
          { r with tokens }
        let (value, r) ← match r.tokens with
          | .value :: tokens =>
            nodeUnless? handles n [.flowEntry, .flowMappingEnd] .flow { r with tokens }
          | _ => some (empty, r)
        let (members, r) ← flowMembers? handles n false r
        return ((key, value) :: members, r)
      | tokens => do
        let (key, r) ← node? handles n .flow { r with tokens }
        let (members, r) ← flowMembers? handles n false r
        return ((key, empty) :: members, r)
end

/-- The directives before a document, if all are allowed: one version and one start for a handle. -/
def directives? : List Token → Bool → Handles → Option (Handles × List Token)
  | .versionDirective major minor :: tokens, versioned, handles =>
    if versioned || major ≠ 1 || (minor ≠ 1 && minor ≠ 2) then none
    else directives? tokens true handles
  | .tagDirective handle start :: tokens, versioned, handles =>
    if Entries.has handles handle then none
    else directives? tokens versioned (handles ++ [(handle, start)])
  | tokens, _, handles => some (handles, tokens)

/-- The handles that need no directive. -/
def standardHandles : Handles := [("!", [Tag.mark]), ("!!", Tag.standard "")]

/-- Whether a document ends before the token, or another one begins. -/
def isOutside : Token → Bool
  | .versionDirective .. | .tagDirective .. | .documentStart | .documentEnd | .streamEnd => true
  | _ => false

def root? (handles : Handles) (tokens : List Token) : Option (Node × Rest) :=
  node? handles (2 * tokens.length + 2) .block ⟨tokens, []⟩

/-- A document that its marks and directives open. -/
def explicit? (tokens : List Token) : Option (Node × Rest) := do
  let (handles, tokens) ← directives? tokens false []
  match tokens with
  | .documentStart :: tokens =>
    if tokens.head?.any isOutside then return (empty, ⟨tokens, []⟩)
    else root? (handles ++ standardHandles) tokens
  | _ => none

/-- The tokens of the one document of a text. -/
def ofTokens? (tokens : List Token) : Option Node := do
  match tokens with
  | [.streamEnd] => return .void
  | _ =>
    let (node, r) ← match tokens with
      | .versionDirective .. :: _ | .tagDirective .. :: _ | .documentStart :: _ => explicit? tokens
      | _ => root? standardHandles tokens
    match r.tokens.dropWhile (· = .documentEnd) with
    | [.streamEnd] => return node
    | _ => none

end Node
end ClientGen.Yaml
