import Workflow.Yaml.Token

/-! The tree of a YAML document as far as its tokens go. Taken front to back, a tree meets the
fault of its text where the tokens stop. Aliases stay references to anchored nodes. -/

namespace Workflow.Yaml

/-- A node as far as it was read; `nothing` is the content of a text without a document. -/
inductive Node where
  | broken
  | nothing
  | scalar (tag : Option String) (text : String) (style : Style)
  | alias (anchor : Nat)
  | sequence (tag : Option String) (items : List Node) (whole : Bool)
  | mapping (tag : Option String) (entries : List (Node × Node)) (whole : Bool)
deriving Inhabited

def Node.absent : Node :=
  .scalar none "" .plain

/-- The tokens still to come, the numbers of the anchors named so far, and the nodes at them. -/
structure Growing where
  tokens : List Token
  names : List (String × Nat) := []
  anchored : List (Nat × Node) := []

namespace Growing

def fail (state : Growing) : Growing :=
  { state with tokens := [] }

def take (state : Growing) (rest : List Token) : Growing :=
  { state with tokens := rest }

/-- Names an anchor before the node at it is read; a name given again refers to the newer node. -/
def nameAnchor (name : String) (state : Growing) : Nat × Growing :=
  let number := state.names.length
  let others := state.names.filter fun entry => entry.1 ≠ name
  (number, { state with names := (name, number) :: others })

def anchor (number : Option Nat) (node : Node) (state : Growing) : Growing :=
  match number with
  | some number => { state with anchored := (number, node) :: state.anchored }
  | none => state

end Growing

/-- What stands before the content of a node. -/
structure Properties where
  anchor : Option String := none
  tag : Option (String × String) := none

def Properties.read : List Token → Properties × List Token
  | .anchor name :: .tag handle suffix :: rest => (⟨some name, some (handle, suffix)⟩, rest)
  | .anchor name :: rest => (⟨some name, none⟩, rest)
  | .tag handle suffix :: .anchor name :: rest => (⟨some name, some (handle, suffix)⟩, rest)
  | .tag handle suffix :: rest => (⟨none, some (handle, suffix)⟩, rest)
  | tokens => (⟨none, none⟩, tokens)

/-- The handles of tags and what they stand for. -/
abbrev Handles := List (String × String)

def Handles.usual : Handles :=
  [("!", "!"), ("!!", "tag:yaml.org,2002:")]

/-- The full name of a tag; the outer `none` is for a handle nobody defined. -/
def Properties.fullTag (handles : Handles) (properties : Properties) : Option (Option String) :=
  match properties.tag with
  | none => some none
  | some ("", suffix) => some (some suffix)
  | some (handle, suffix) => (handles.lookup handle).map fun expansion => some (expansion ++ suffix)

/-- Marks after which the part of a block mapping before them is empty. -/
def endsBlockPart : Token → Bool
  | .key | .value | .blockEnd => true
  | _ => false

def endsFlowPart (closing : Token) : Token → Bool
  | .flowEntry => true
  | token => token = closing

namespace Growing

mutual
/-- Reads a node, with tokens of indentation where `block` allows them, and with a list at the
indentation of its key where `indentless` does. A tag of nothing but its mark has no meaning before
a scalar. -/
def node (handles : Handles) (block indentless : Bool) : Nat → Growing → Node × Growing
  | 0, state => (.broken, state.fail)
  | fuel + 1, state =>
    match state.tokens with
    | .alias name :: rest =>
      match state.names.lookup name with
      | some number => (.alias number, state.take rest)
      | none => (.broken, state.fail)
    | tokens =>
      let (properties, tokens) := Properties.read tokens
      match tokens, properties.fullTag handles with
      | [], _ => (.broken, state.fail)
      | _, none => (.broken, state.fail)
      | token :: rest, some tag =>
        let (number, state) := match properties.anchor with
          | some name => (some (state.nameAnchor name).1, (state.nameAnchor name).2)
          | none => (none, state)
        let (read, state) : Node × Growing :=
          match token with
          | .scalar text style => (.scalar (tag.filter (· ≠ "!")) text style, state.take rest)
          | .flowSequenceStart =>
            let (items, whole, state) := flowItems handles true fuel (state.take rest)
            (.sequence tag items whole, state)
          | .flowMappingStart =>
            let (entries, whole, state) := flowEntries handles true fuel (state.take rest)
            (.mapping tag entries whole, state)
          | token =>
            if indentless ∧ token = Token.blockEntry then
              let (items, whole, state) := indentlessItems handles fuel (state.take (token :: rest))
              (.sequence tag items whole, state)
            else if block ∧ token = Token.blockSequenceStart then
              let (items, whole, state) := blockItems handles fuel (state.take rest)
              (.sequence tag items whole, state)
            else if block ∧ token = Token.blockMappingStart then
              let (entries, whole, state) := blockEntries handles fuel (state.take rest)
              (.mapping tag entries whole, state)
            else if number.isSome ∨ tag.isSome then
              (.scalar tag "" .plain, state.take (token :: rest))
            else (.broken, state.fail)
        (read, state.anchor number read)

/-- Items behind hyphens, up to the end of their block. -/
def blockItems (handles : Handles) : Nat → Growing → List Node × Bool × Growing
  | 0, state => ([], false, state.fail)
  | fuel + 1, state =>
    match state.tokens with
    | .blockEnd :: rest => ([], true, state.take rest)
    | .blockEntry :: next :: rest =>
      let state := state.take (next :: rest)
      let (item, state) :=
        if next = .blockEntry ∨ next = .blockEnd then (.absent, state)
        else node handles true false fuel state
      let (items, whole, state) := blockItems handles fuel state
      (item :: items, whole, state)
    | _ => ([], false, state.fail)

/-- Items behind hyphens that stand at the indentation of the key they belong to. -/
def indentlessItems (handles : Handles) : Nat → Growing → List Node × Bool × Growing
  | 0, state => ([], false, state.fail)
  | fuel + 1, state =>
    match state.tokens with
    | [] => ([], false, state.fail)
    | .blockEntry :: [] => ([], false, state.fail)
    | .blockEntry :: next :: rest =>
      let state := state.take (next :: rest)
      let (item, state) :=
        if next = .blockEntry ∨ endsBlockPart next then (.absent, state)
        else node handles true false fuel state
      let (items, whole, state) := indentlessItems handles fuel state
      (item :: items, whole, state)
    | _ => ([], true, state)

def blockEntries (handles : Handles) : Nat → Growing → List (Node × Node) × Bool × Growing
  | 0, state => ([], false, state.fail)
  | fuel + 1, state =>
    match state.tokens with
    | .blockEnd :: rest => ([], true, state.take rest)
    | .key :: next :: rest =>
      let state := state.take (next :: rest)
      let (key, state) :=
        if endsBlockPart next then (.absent, state) else node handles true true fuel state
      let (value, state) :=
        match state.tokens with
        | [] => (.broken, state)
        | .value :: [] => (.broken, state.fail)
        | .value :: next :: rest =>
          let state := state.take (next :: rest)
          if endsBlockPart next then (.absent, state) else node handles true true fuel state
        | _ => (.absent, state)
      let (entries, whole, state) := blockEntries handles fuel state
      ((key, value) :: entries, whole, state)
    | _ => ([], false, state.fail)

/-- The part of a pair that a mark inside brackets announces, up to a comma or the closing
bracket. -/
def flowPart (handles : Handles) (closing : Token) : Nat → Growing → Node × Growing
  | 0, state => (.broken, state.fail)
  | fuel + 1, state =>
    match state.tokens with
    | [] => (.broken, state)
    | .value :: [] => (.broken, state.fail)
    | .value :: next :: rest =>
      let state := state.take (next :: rest)
      if endsFlowPart closing next then (.absent, state)
      else node handles false false fuel state
    | _ => (.absent, state)

def flowItems (handles : Handles) (first : Bool) : Nat → Growing → List Node × Bool × Growing
  | 0, state => ([], false, state.fail)
  | fuel + 1, state =>
    let opened :=
      match first, state.tokens with
      | false, .flowEntry :: rest => some rest
      | false, .flowSequenceEnd :: rest => some (.flowSequenceEnd :: rest)
      | false, _ => none
      | true, tokens => some tokens
    match opened with
    | none | some [] => ([], false, state.fail)
    | some (.flowSequenceEnd :: rest) => ([], true, state.take rest)
    | some (.key :: []) => ([], false, state.fail)
    | some (.key :: next :: rest) =>
      let (key, state) :=
        if next = .value ∨ endsFlowPart .flowSequenceEnd next then (.absent, state.take rest)
        else node handles false false fuel (state.take (next :: rest))
      let (value, state) := flowPart handles .flowSequenceEnd fuel state
      let pair := .mapping none [(key, value)] !state.tokens.isEmpty
      let (items, whole, state) := flowItems handles false fuel state
      (pair :: items, whole, state)
    | some tokens =>
      let (item, state) := node handles false false fuel (state.take tokens)
      let (items, whole, state) := flowItems handles false fuel state
      (item :: items, whole, state)

def flowEntries (handles : Handles) (first : Bool) :
    Nat → Growing → List (Node × Node) × Bool × Growing
  | 0, state => ([], false, state.fail)
  | fuel + 1, state =>
    let opened :=
      match first, state.tokens with
      | false, .flowEntry :: rest => some rest
      | false, .flowMappingEnd :: rest => some (.flowMappingEnd :: rest)
      | false, _ => none
      | true, tokens => some tokens
    match opened with
    | none | some [] => ([], false, state.fail)
    | some (.flowMappingEnd :: rest) => ([], true, state.take rest)
    | some (.key :: []) => ([], false, state.fail)
    | some (.key :: next :: rest) =>
      let state := state.take (next :: rest)
      let (key, state) :=
        if next = .value ∨ endsFlowPart .flowMappingEnd next then (.absent, state)
        else node handles false false fuel state
      let (value, state) := flowPart handles .flowMappingEnd fuel state
      let (entries, whole, state) := flowEntries handles false fuel state
      ((key, value) :: entries, whole, state)
    | some tokens =>
      let (key, state) := node handles false false fuel (state.take tokens)
      let value := if state.tokens.isEmpty then .broken else .absent
      let (entries, whole, state) := flowEntries handles false fuel state
      ((key, value) :: entries, whole, state)
end

end Growing

/-- A document: its root, the nodes at its anchors, and whether the text ends properly after it. -/
structure Tree where
  root : Node
  anchored : List (Nat × Node) := []
  ended : Bool := true

namespace Tree

/-- Directives in front of a document; a repeated one and an unknown version are refused. -/
def directives : (version : Bool) → Handles → List Token → Option (Handles × List Token)
  | version, handles, .directive (.version major minor) :: rest =>
    if version ∨ major ≠ 1 ∨ (minor ≠ 1 ∧ minor ≠ 2) then none
    else directives true handles rest
  | version, handles, .directive (.tag handle expansion) :: rest =>
    if (handles.lookup handle).isSome then none
    else directives version (handles ++ [(handle, expansion)]) rest
  | _, handles, rest => some (handles, rest)

/-- Nothing but marks of a document's end may follow the first document. -/
def properEnd : List Token → Bool
  | .documentEnd :: rest => properEnd rest
  | .streamEnd :: _ => true
  | _ => false

def finish (read : Node × Growing) : Tree :=
  ⟨read.1, read.2.anchored, properEnd read.2.tokens⟩

def isContent : Token → Bool
  | .directive _ | .documentStart | .documentEnd | .streamEnd => false
  | _ => true

/-- The tree of the one document of a text. -/
def ofTokens (tokens : List Token) : Tree :=
  let fuel := 4 * tokens.length + 8
  match tokens with
  | .streamStart :: .streamEnd :: _ => ⟨.nothing, [], true⟩
  | .streamStart :: token :: rest =>
    match token with
    | .directive _ | .documentStart =>
      match directives false [] (token :: rest) with
      | some (handles, .documentStart :: next :: rest) =>
        if isContent next then
          let handles := handles ++ Handles.usual
          finish (Growing.node handles true false fuel { tokens := next :: rest })
        else
          ⟨.absent, [], properEnd (next :: rest)⟩
      | _ => ⟨.broken, [], false⟩
    | token => finish (Growing.node Handles.usual true false fuel { tokens := token :: rest })
  | _ => ⟨.broken, [], false⟩

def ofText (text : String) : Tree :=
  ofTokens (tokens text)

end Tree

end Workflow.Yaml
