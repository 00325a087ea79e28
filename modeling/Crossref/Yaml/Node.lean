/-
The tree of a document, made from its tokens. An alias stands for a copy of the node with its anchor; a node that stands
for one around itself is kept as such. Nodes, collections and documents take the tokens in order, so the first fault met
is the one reported.
-/
import Crossref.Yaml.Lexer
import Crossref.Yaml.Tag

namespace Crossref.Yaml

inductive Node where
  | scalar (tag : Tag) (text : String)
  | sequence (tag : Tag) (items : List Node)
  | mapping (tag : Tag) (entries : List (Node × Node))
  /-- An alias for a node around it. -/
  | enclosing
  deriving Repr

/-- What is known while a document is read. -/
structure Composer where
  tokens : List Token
  /-- The fault that ended the tokens. -/
  fault : Option Fault
  /-- What the handles of tags stand for. -/
  handles : List (String × String) := []
  /-- Nodes by anchor; a node that is still being read is not there yet. -/
  anchors : List (String × Option Node) := []

abbrev ComposeM := StateT Composer (Except Fault)

namespace Compose

/-- The next token; it stays next. -/
def peek : ComposeM Token := do
  let c ← get
  match c.tokens with
  | t :: _ => pure t
  | [] => throw (c.fault.getD .grammar)

/-- Passes the next token. -/
def pass : ComposeM PUnit :=
  modify fun c => { c with tokens := c.tokens.tail }

def fault {α : Type} (f : Fault) : ComposeM α :=
  throw f

/-! Tags and anchors -/

def fullName (t : TagName) : ComposeM String := do
  match t.handle with
  | none => pure t.suffix
  | some handle =>
    match (← get).handles.lookup handle with
    | some leading => pure (leading ++ t.suffix)
    | none => fault .grammar

/-- What stands in front of a node. -/
structure Properties where
  anchor : Option String := none
  tag : Option String := none

def passAnchor (p : Properties) : ComposeM Properties := do
  match ← peek with
  | .anchor name => pass; pure { p with anchor := some name }
  | _ => pure p

/-- An anchor and a tag, in either order and both optional. -/
def properties : ComposeM Properties := do
  match ← peek with
  | .anchor name =>
    pass
    match ← peek with
    | .tag t => pass; pure { anchor := some name, tag := some (← fullName t) }
    | _ => pure { anchor := some name }
  | .tag t =>
    pass
    let p ← passAnchor {}
    pure { p with tag := some (← fullName t) }
  | _ => pure {}

/-- An anchor is not given twice. -/
def openAnchor (p : Properties) : ComposeM PUnit := do
  match p.anchor with
  | none => pure ()
  | some name =>
    if ((← get).anchors.lookup name).isSome then fault .reference
    else modify fun c => { c with anchors := (name, none) :: c.anchors }

/-- The node with an anchor is complete. -/
def closeAnchor (p : Properties) (n : Node) : ComposeM PUnit :=
  match p.anchor with
  | none => pure ()
  | some name =>
    modify fun c => { c with anchors := (name, some n) :: c.anchors }

def finish (p : Properties) (n : Node) : ComposeM Node := do
  closeAnchor p n
  pure n

/-- The type of a collection. -/
def collectionTag (p : Properties) (default : Tag) : Tag :=
  match p.tag with
  | none | some "!" => default
  | some name => .ofName name

/-- The type of a scalar; without a tag a quoted one is a text. -/
def scalarTag (p : Properties) (plain : Bool) (text : String) : Tag :=
  match p.tag with
  | none => if plain then .ofPlain text.toList else .str
  | some "!" => .ofPlain text.toList
  | some name => .ofName name

def empty : Node :=
  .scalar .null ""

def anchored (name : String) : ComposeM Node := do
  match (← get).anchors.lookup name with
  | none => fault .reference
  | some none => pure .enclosing
  | some (some n) => pure n

/-- A scalar without text, behind properties only. -/
def bare (p : Properties) : ComposeM Node := do
  if p.anchor.isNone && p.tag.isNone then fault .grammar
  else
    openAnchor p
    let tag := match p.tag with
      | some "!" => .null
      | _ => scalarTag p true ""
    finish p (.scalar tag "")

/-- No node begins with the token; it stands where a node may be left out. -/
def isOneOf (ends : List Token) : ComposeM Bool := do
  pure (ends.contains (← peek))

def comma : ComposeM PUnit := do
  if ← isOneOf [.flowEntry] then pass else fault .grammar

mutual

/-- A node. Block collections may only begin where `block` says so, and a block sequence without indentation of its own
only where `loose` does. -/
def node (block loose : Bool) : Nat → ComposeM Node
  | 0 => fault .grammar
  | fuel + 1 => do
    match ← peek with
    | .reference name => pass; anchored name
    | _ =>
      let p ← properties
      content block loose p fuel

def content (block loose : Bool) (p : Properties) : Nat → ComposeM Node
  | 0 => fault .grammar
  | fuel + 1 => do
    match ← peek with
    | .entry =>
      if loose then do
        openAnchor p
        finish p (.sequence (collectionTag p .seq) (← looseItems fuel))
      else bare p
    | .scalar plain text => do
      pass
      openAnchor p
      finish p (.scalar (scalarTag p plain text) text)
    | .flowSequenceStart => do
      pass
      openAnchor p
      finish p (.sequence (collectionTag p .seq) (← flowItems true fuel))
    | .flowMappingStart => do
      pass
      openAnchor p
      finish p (.mapping (collectionTag p .map) (← flowEntries true fuel))
    | .blockSequenceStart =>
      if block then do
        pass
        openAnchor p
        finish p (.sequence (collectionTag p .seq) (← blockItems fuel))
      else bare p
    | .blockMappingStart =>
      if block then do
        pass
        openAnchor p
        finish p (.mapping (collectionTag p .map) (← blockEntries fuel))
      else bare p
    | _ => bare p

/-- A node, or nothing in front of one of the tokens. -/
def optional (ends : List Token) (block loose : Bool) : Nat → ComposeM Node
  | 0 => fault .grammar
  | fuel + 1 => do
    if ← isOneOf ends then pure empty else node block loose fuel

def blockItems : Nat → ComposeM (List Node)
  | 0 => fault .grammar
  | fuel + 1 => do
    match ← peek with
    | .entry =>
      pass
      let item ← optional [.entry, .blockEnd] true false fuel
      pure (item :: (← blockItems fuel))
    | .blockEnd => pass; pure []
    | _ => fault .grammar

def looseItems : Nat → ComposeM (List Node)
  | 0 => fault .grammar
  | fuel + 1 => do
    match ← peek with
    | .entry =>
      pass
      let item ← optional [.entry, .key, .value, .blockEnd] true false fuel
      pure (item :: (← looseItems fuel))
    | _ => pure []

/-- The value of an entry of a block mapping. -/
def blockValue : Nat → ComposeM Node
  | 0 => fault .grammar
  | fuel + 1 => do
    match ← peek with
    | .value => pass; optional [.key, .value, .blockEnd] true true fuel
    | _ => pure empty

def blockEntries : Nat → ComposeM (List (Node × Node))
  | 0 => fault .grammar
  | fuel + 1 => do
    match ← peek with
    | .key =>
      pass
      let key ← optional [.key, .value, .blockEnd] true true fuel
      let value ← blockValue fuel
      pure ((key, value) :: (← blockEntries fuel))
    | .blockEnd => pass; pure []
    | _ => fault .grammar

/-- The value of an entry of a flow collection that ends with the given token. -/
def flowValue (close : Token) : Nat → ComposeM Node
  | 0 => fault .grammar
  | fuel + 1 => do
    match ← peek with
    | .value => pass; optional [.flowEntry, close] false false fuel
    | _ => pure empty

def flowItem : Nat → ComposeM Node
  | 0 => fault .grammar
  | fuel + 1 => do
    match ← peek with
    | .key =>
      pass
      let key ← optional [.value, .flowEntry, .flowSequenceEnd] false false fuel
      let value ← flowValue .flowSequenceEnd fuel
      pure (.mapping .map [(key, value)])
    | _ => node false false fuel

/-- A comma stands between items, and may stand behind the last. -/
def flowItems (first : Bool) : Nat → ComposeM (List Node)
  | 0 => fault .grammar
  | fuel + 1 => do
    if ← isOneOf [.flowSequenceEnd] then pass; pure []
    else
      if !first then comma
      if ← isOneOf [.flowSequenceEnd] then pass; pure []
      else
        let item ← flowItem fuel
        pure (item :: (← flowItems false fuel))

def flowEntry : Nat → ComposeM (Node × Node)
  | 0 => fault .grammar
  | fuel + 1 => do
    match ← peek with
    | .key =>
      pass
      let key ← optional [.value, .flowEntry, .flowMappingEnd] false false fuel
      let value ← flowValue .flowMappingEnd fuel
      pure (key, value)
    | _ => pure (← node false false fuel, empty)

def flowEntries (first : Bool) : Nat → ComposeM (List (Node × Node))
  | 0 => fault .grammar
  | fuel + 1 => do
    if ← isOneOf [.flowMappingEnd] then pass; pure []
    else
      if !first then comma
      if ← isOneOf [.flowMappingEnd] then pass; pure []
      else
        let entry ← flowEntry fuel
        pure (entry :: (← flowEntries false fuel))

end

/-! Documents -/

def defaultHandles : List (String × String) :=
  [("!", "!"), ("!!", commonLeading)]

/-- Adds what a directive says; of each sort there is one, and the version has to begin with one. -/
def addDirective (seen : Bool × List (String × String)) : Directive → ComposeM (Bool × List (String × String))
  | .version major => if seen.1 || major ≠ 1 then fault .grammar else pure (true, seen.2)
  | .tag handle leading =>
    if (seen.2.lookup handle).isSome then fault .grammar else pure (seen.1, (handle, leading) :: seen.2)
  | .unknown => pure seen

/-- Passes directives, up to `fuel` of them. -/
def directives : Nat → Bool × List (String × String) → ComposeM (List (String × String))
  | 0, seen => pure seen.2
  | fuel + 1, seen => do
    match ← peek with
    | .directive d => pass; directives fuel (← addDirective seen d)
    | _ => pure seen.2

/-- Passes the directives and the mark at the beginning of a document. -/
def documentStart (fuel : Nat) : ComposeM PUnit := do
  let handles ← directives fuel (false, [])
  modify fun c => { c with handles := handles ++ defaultHandles }
  if ← isOneOf [.documentStart] then pass else fault .grammar

/-- The tree of a document behind its mark. -/
def documentContent (fuel : Nat) : ComposeM Node := do
  match ← peek with
  | .directive _ | .documentStart | .documentEnd | .streamEnd => pure empty
  | _ => node true false fuel

def passEnds : Nat → ComposeM PUnit
  | 0 => pure ()
  | fuel + 1 => do
    if ← isOneOf [.documentEnd] then pass; passEnds fuel

/-- The first document; a mark in front of it may be left out if there is something else. -/
def firstDocument (fuel : Nat) : ComposeM (Option Node) := do
  match ← peek with
  | .streamEnd => pure none
  | .directive _ | .documentStart => do
    documentStart fuel
    pure (some (← documentContent fuel))
  | _ => do
    modify fun c => { c with handles := defaultHandles }
    pure (some (← node true false fuel))

/-- Nothing but the end may follow the first document. -/
def lastDocument (fuel : Nat) : ComposeM PUnit := do
  passEnds fuel
  if ← isOneOf [.streamEnd] then pure ()
  else
    documentStart fuel
    fault .reference

def stream (fuel : Nat) : ComposeM (Option Node) := do
  let first ← firstDocument fuel
  if first.isSome then lastDocument fuel
  pure first

end Compose

/-- The tree of the only document, if there is one. -/
def Node.ofChars (text : List Char) : Except Fault (Option Node) :=
  let l := TokenList.ofChars text
  (Compose.stream (4 * l.tokens.length + 8)).run' { tokens := l.tokens, fault := l.fault }

end Crossref.Yaml
