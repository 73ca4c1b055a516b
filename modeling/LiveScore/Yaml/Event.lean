import LiveScore.Yaml.Token.Lexer

/-!
# The structure of a YAML stream

The tokens of a stream tell its documents, and each document its nodes, as a sequence of events: a
collection is an event that starts it, the events of its content, and an event that ends it. A
parser holds the places that are still to be filled, the next one first; each step fills a place, or
tells that a collection or document has ended.
-/

namespace LiveScore.Yaml

/-- A text with what says how to understand it. -/
structure Scalar where
  text : String
  style : ScalarStyle := .plain
  /-- Its tag in full, if it has one. -/
  tag : Option String := none
deriving DecidableEq

/-- What a stream tells next. -/
inductive Event where
  | scalar (anchor : Option String) (scalar : Scalar)
  | aliasOf (name : String)
  | sequenceStart (anchor : Option String)
  | sequenceEnd
  | mappingStart (anchor : Option String)
  | mappingEnd
  | documentStart
  | documentEnd
  | streamEnd
deriving DecidableEq

/-- A place that is to be filled. Within a collection it knows where the collection starts. -/
inductive Place where
  /-- A document; the first one may start without a marker. -/
  | document (first : Bool)
  | content
  /-- The content of a document without a marker. -/
  | node
  | documentEnd
  | blockEntry (start : Mark)
  /-- An entry of a block sequence that is not indented. -/
  | indentlessEntry
  | blockKey (start : Mark)
  | blockValue (start : Mark)
  | flowEntry (start : Mark) (first : Bool)
  | pairKey (start : Mark)
  | pairValue (start : Mark)
  | pairEnd (start : Mark)
  | flowKey (start : Mark) (first : Bool)
  | flowValue (start : Mark)
  /-- The value of a mapping in braces after a key that no question mark or colon shows. -/
  | flowNoValue (start : Mark)

/-- What tags stand for that need no directive. -/
def defaultHandles : List (String × String) := [("!", "!"), ("!!", "tag:yaml.org,2002:")]

/-- A stream as far as its structure has been read. -/
structure Parser where
  lexer : Lexer
  places : List Place := [.document true]
  handles : List (String × String) := defaultHandles

namespace Parser

/-- An event, its place, and the parser behind it. -/
abbrev Step : Type := Event × Mark × Parser

/-- The next token, which stays where it is. -/
def peek (parser : Parser) : Except SyntaxError (Token × Parser) := do
  let (token, lexer) ← parser.lexer.peek
  return (token, { parser with lexer })

/-- The token behind the next one. -/
def peekNext (parser : Parser) : Except SyntaxError (Token × Parser) :=
  { parser with lexer := parser.lexer.drop }.peek

/-- Leaves out the next token. -/
def drop (parser : Parser) : Parser := { parser with lexer := parser.lexer.drop }

/-- The parser with other places to go on at. -/
def expecting (parser : Parser) (places : List Place) : Parser := { parser with places }

/-- Tells an event and goes on at some places. -/
def tell (parser : Parser) (event : Event) (mark : Mark) (places : List Place) :
    Except SyntaxError Step :=
  .ok (event, mark, { parser with places })

/-- Fills a place with nothing, which is an empty plain scalar. -/
def tellEmpty (parser : Parser) (mark : Mark) (places : List Place) : Except SyntaxError Step :=
  parser.tell (.scalar none { text := "" }) mark places

/-! ### Nodes -/

/-- What stands before a node. -/
structure Properties where
  anchor : Option String := none
  tag : Option (TagName × Mark) := none

/-- Reads an anchor and a tag in either order, each of them optional. -/
def readProperties (parser : Parser) : Except SyntaxError (Properties × Token × Parser) := do
  let (token, parser) ← parser.peek
  match token.kind with
  | .anchor anchor =>
    let (token, parser) ← parser.peekNext
    match token.kind with
    | .tag name =>
      let (next, parser) ← parser.peekNext
      return ({ anchor := some anchor, tag := some (name, token.start) }, next, parser)
    | _ => return ({ anchor := some anchor }, token, parser)
  | .tag name =>
    let tag := some (name, token.start)
    let (token, parser) ← parser.peekNext
    match token.kind with
    | .anchor anchor =>
      let (next, parser) ← parser.peekNext
      return ({ anchor := some anchor, tag }, next, parser)
    | _ => return ({ tag }, token, parser)
  | _ => return ({}, token, parser)

/-- A tag in full. -/
def resolveTag (parser : Parser) (start : Mark) :
    Option (TagName × Mark) → Except SyntaxError (Option String)
  | none => .ok none
  | some (name, mark) =>
    if name.handle = "" then .ok (some name.suffix)
    else match parser.handles.lookup name.handle with
      | some uri => .ok (some (uri ++ name.suffix))
      | none => .error (.within .node start .undefinedTagHandle mark)

/-- Reads a node, or the start of one. Block collections may not stand within brackets, and a
sequence without indentation only within a block mapping. -/
def readNode (parser : Parser) (block indentless : Bool) (places : List Place) :
    Except SyntaxError Step := do
  let (token, parser) ← parser.peek
  if let .aliasOf name := token.kind then
    return (.aliasOf name, token.start, parser.drop.expecting places)
  let start := token.start
  let (properties, token, parser) ← parser.readProperties
  let tag ← parser.resolveTag start properties.tag
  let anchor := properties.anchor
  match token.kind, block with
  | .blockEntry, _ =>
    if indentless then parser.tell (.sequenceStart anchor) start (.indentlessEntry :: places)
    else finish parser token start anchor tag
  | .scalar text style, _ =>
    let tag := if tag = some "!" then none else tag
    parser.drop.tell (.scalar anchor { text, style, tag }) start places
  | .flowSequenceStart, _ =>
    parser.drop.tell (.sequenceStart anchor) start (.flowEntry token.start true :: places)
  | .flowMappingStart, _ =>
    parser.drop.tell (.mappingStart anchor) start (.flowKey token.start true :: places)
  | .blockSequenceStart, true =>
    parser.drop.tell (.sequenceStart anchor) start (.blockEntry token.start :: places)
  | .blockMappingStart, true =>
    parser.drop.tell (.mappingStart anchor) start (.blockKey token.start :: places)
  | _, _ => finish parser token start anchor tag
where
  /-- A node of which nothing but an anchor or a tag is written is an empty scalar. -/
  finish (parser : Parser) (token : Token) (start : Mark) (anchor tag : Option String) :
      Except SyntaxError Step :=
    if anchor.isSome || tag.isSome then
      parser.tell (.scalar anchor { text := "", tag }) start places
    else
      let part := if block then .blockNode else .flowNode
      .error (.within part start .missingContent token.start)

/-! ### Documents -/

/-- Whether a token can only stand between documents. -/
def isBetweenDocuments : TokenKind → Bool
  | .versionDirective _ _ | .tagDirective _ _ | .documentStart | .documentEnd | .streamEnd => true
  | _ => false

/-- Passes the markers that end documents. -/
def skipDocumentEnds : Nat → Parser → Except SyntaxError (Token × Parser)
  | 0, parser => parser.peek
  | count + 1, parser => do
    let (token, parser) ← parser.peek
    if token.kind = .documentEnd then skipDocumentEnds count parser.drop else return (token, parser)

/-- Reads the directives before a document. -/
def readDirectives : Nat → Bool → List (String × String) → Parser →
    Except SyntaxError (List (String × String) × Token × Parser)
  | 0, _, handles, parser => do
    let (token, parser) ← parser.peek
    return (handles, token, parser)
  | count + 1, versioned, handles, parser => do
    let (token, parser) ← parser.peek
    let fail (problem : Problem) :=
      throw { problem, mark := token.start, context := none }
    match token.kind with
    | .versionDirective major minor =>
      if versioned then fail .repeatedVersion
      else if major ≠ 1 ∨ (minor ≠ 1 ∧ minor ≠ 2) then fail .incompatibleVersion
      else readDirectives count true handles parser.drop
    | .tagDirective handle uri =>
      if (handles.lookup handle).isSome then fail .repeatedTagHandle
      else readDirectives count versioned (handles ++ [(handle, uri)]) parser.drop
    | _ => return (handles, token, parser)

/-- A number of rounds that no loop over the tokens exceeds. -/
def rounds (parser : Parser) : Nat :=
  parser.lexer.source.rest.length + parser.lexer.queue.length + 1

/-- Reads the start of a document, or the end of the stream. -/
def readDocument (parser : Parser) (first : Bool) : Except SyntaxError Step := do
  let (token, parser) ←
    if first then parser.peek else skipDocumentEnds parser.rounds parser
  if first && (token.kind = .documentEnd || !isBetweenDocuments token.kind) then
    let parser := { parser with handles := defaultHandles }
    parser.tell .documentStart token.start [.node, .documentEnd]
  else if token.kind = .streamEnd then parser.drop.tell .streamEnd token.start []
  else
    let start := token.start
    let (handles, token, parser) ← readDirectives parser.rounds false [] parser
    if token.kind ≠ .documentStart then
      throw { problem := .missingDocumentStart, mark := token.start, context := none }
    { parser.drop with handles := handles ++ defaultHandles }.tell .documentStart start
      [.content, .documentEnd]

/-! ### Steps -/

/-- A token which shows that the node before it has no content. -/
def endsBlockNode : TokenKind → Bool
  | .key | .value | .blockEnd => true
  | _ => false

/-- Reads an entry of a block sequence, or its end. -/
def readBlockEntry (parser : Parser) (start : Mark) (places : List Place) :
    Except SyntaxError Step := do
  let (token, parser) ← parser.peek
  match token.kind with
  | .blockEntry =>
    let (next, parser) ← parser.peekNext
    let places := .blockEntry start :: places
    if next.kind = .blockEntry || next.kind = .blockEnd then parser.tellEmpty token.stop places
    else parser.readNode true false places
  | .blockEnd => parser.drop.tell .sequenceEnd token.start places
  | _ => throw (.within .blockCollection start .missingEntryIndicator token.start)

/-- Reads an entry of a block sequence that is not indented, or its end. -/
def readIndentlessEntry (parser : Parser) (places : List Place) : Except SyntaxError Step := do
  let (token, parser) ← parser.peek
  if token.kind = .blockEntry then
    let (next, parser) ← parser.peekNext
    if next.kind = .blockEntry || endsBlockNode next.kind then
      parser.tellEmpty token.stop (.indentlessEntry :: places)
    else parser.readNode true false (.indentlessEntry :: places)
  else parser.tell .sequenceEnd token.start places

/-- Reads a key of a block mapping, or its end. -/
def readBlockKey (parser : Parser) (start : Mark) (places : List Place) :
    Except SyntaxError Step := do
  let (token, parser) ← parser.peek
  match token.kind with
  | .key =>
    let (next, parser) ← parser.peekNext
    let places := .blockValue start :: places
    if endsBlockNode next.kind then parser.tellEmpty token.stop places
    else parser.readNode true true places
  | .blockEnd => parser.drop.tell .mappingEnd token.start places
  | _ => throw (.within .blockMapping start .missingKey token.start)

/-- Reads a value of a block mapping; one that has no colon is empty. -/
def readBlockValue (parser : Parser) (start : Mark) (places : List Place) :
    Except SyntaxError Step := do
  let (token, parser) ← parser.peek
  let places := .blockKey start :: places
  if token.kind = .value then
    let (next, parser) ← parser.peekNext
    if endsBlockNode next.kind then parser.tellEmpty token.stop places
    else parser.readNode true true places
  else parser.tellEmpty token.start places

/-- Passes the comma before an entry that is not the first. -/
def passComma (parser : Parser) (context : Context) (start : Mark) (problem : Problem)
    (first : Bool) : Except SyntaxError (Token × Parser) := do
  let (token, parser) ← parser.peek
  if first then return (token, parser)
  if token.kind = .flowEntry then parser.peekNext
  else throw (.within context start problem token.start)

/-- Reads an entry of a sequence in brackets, or its end. An entry may be a single pair. -/
def readFlowEntry (parser : Parser) (start : Mark) (first : Bool) (places : List Place) :
    Except SyntaxError Step := do
  let (token, parser) ← parser.peek
  let (token, parser) ←
    if token.kind = .flowSequenceEnd then pure (token, parser)
    else parser.passComma .flowSequence start .missingCommaInSequence first
  match token.kind with
  | .flowSequenceEnd => parser.drop.tell .sequenceEnd token.start places
  | .key => parser.drop.tell (.mappingStart none) token.start (.pairKey start :: places)
  | _ => parser.readNode false false (.flowEntry start false :: places)

/-- Reads the key of a single pair. -/
def readPairKey (parser : Parser) (start : Mark) (places : List Place) :
    Except SyntaxError Step := do
  let (token, parser) ← parser.peek
  let places := .pairValue start :: places
  match token.kind with
  | .value | .flowEntry | .flowSequenceEnd => parser.drop.tellEmpty token.stop places
  | _ => parser.readNode false false places

/-- Reads the value of a single pair. -/
def readPairValue (parser : Parser) (start : Mark) (places : List Place) :
    Except SyntaxError Step := do
  let (token, parser) ← parser.peek
  let places := .pairEnd start :: places
  if token.kind = .value then
    let (token, parser) ← parser.peekNext
    if token.kind = .flowEntry || token.kind = .flowSequenceEnd then
      parser.tellEmpty token.start places
    else parser.readNode false false places
  else parser.tellEmpty token.start places

/-- Reads a key of a mapping in braces, or its end. -/
def readFlowKey (parser : Parser) (start : Mark) (first : Bool) (places : List Place) :
    Except SyntaxError Step := do
  let (token, parser) ← parser.peek
  let (token, parser) ←
    if token.kind = .flowMappingEnd then pure (token, parser)
    else parser.passComma .flowMapping start .missingCommaInMapping first
  match token.kind with
  | .flowMappingEnd => parser.drop.tell .mappingEnd token.start places
  | .key =>
    let (token, parser) ← parser.peekNext
    let places := .flowValue start :: places
    match token.kind with
    | .value | .flowEntry | .flowMappingEnd => parser.tellEmpty token.start places
    | _ => parser.readNode false false places
  | _ => parser.readNode false false (.flowNoValue start :: places)

/-- Reads a value of a mapping in braces. -/
def readFlowValue (parser : Parser) (start : Mark) (places : List Place) :
    Except SyntaxError Step := do
  let (token, parser) ← parser.peek
  let places := .flowKey start false :: places
  if token.kind = .value then
    let (token, parser) ← parser.peekNext
    if token.kind = .flowEntry || token.kind = .flowMappingEnd then
      parser.tellEmpty token.start places
    else parser.readNode false false places
  else parser.tellEmpty token.start places

/-- Fills the next place; a stream without places has ended. -/
def next (parser : Parser) : Except SyntaxError Step :=
  match parser.places with
  | [] => parser.tell .streamEnd parser.lexer.mark []
  | .document first :: _ => parser.readDocument first
  | .content :: places => do
    let (token, parser) ← parser.peek
    if isBetweenDocuments token.kind then parser.tellEmpty token.start places
    else parser.readNode true false places
  | .node :: places => parser.readNode true false places
  | .documentEnd :: _ => do
    let (token, parser) ← parser.peek
    let parser := if token.kind = .documentEnd then parser.drop else parser
    parser.tell .documentEnd token.start [.document false]
  | .blockEntry start :: places => parser.readBlockEntry start places
  | .indentlessEntry :: places => parser.readIndentlessEntry places
  | .blockKey start :: places => parser.readBlockKey start places
  | .blockValue start :: places => parser.readBlockValue start places
  | .flowEntry start first :: places => parser.readFlowEntry start first places
  | .pairKey start :: places => parser.readPairKey start places
  | .pairValue start :: places => parser.readPairValue start places
  | .pairEnd start :: places => do
    let (token, parser) ← parser.peek
    parser.tell .mappingEnd token.start (.flowEntry start false :: places)
  | .flowKey start first :: places => parser.readFlowKey start first places
  | .flowValue start :: places => parser.readFlowValue start places
  | .flowNoValue start :: places => do
    let (token, parser) ← parser.peek
    parser.tellEmpty token.start (.flowKey start false :: places)

end Parser

end LiveScore.Yaml
