import LiveScore.Yaml.Token.Property

/-!
# The tokens of a text

A lexer holds what it has not read yet and a queue of tokens that are read but not taken. The queue
is there because a mapping key shows itself only by the colon after it: a token that may start a key
waits until the colon is found or can no longer come, and then the tokens that announce the key and
its mapping are put in front of it.

Indentation opens and closes block collections outside brackets; within brackets it means nothing.
-/

namespace LiveScore.Yaml

/-- A token that starts a key if a colon follows. -/
structure KeyCandidate where
  mark : Mark
  position : Nat
  /-- Whether nothing but a key may start there. -/
  required : Bool

/-- A text as far as its tokens have been read. -/
structure Lexer where
  /-- What has not been read. -/
  source : Source
  /-- The tokens that have been read and not taken. -/
  queue : List Token := []
  taken : Nat := 0
  /-- The column of the innermost block collection, −1 outside any. -/
  indent : Int := -1
  outerIndents : List Int := []
  keyAllowed : Bool := true
  candidate : Option KeyCandidate := none
  outerCandidates : List (Option KeyCandidate) := []
  finished : Bool := false

namespace Lexer

/-- The lexer is in a flow collection. -/
def inFlow (lexer : Lexer) : Bool := !lexer.outerCandidates.isEmpty

/-- Where the lexer is. -/
def mark (lexer : Lexer) : Mark := lexer.source.mark

/-- The number of the token that is to come into the queue. -/
def position (lexer : Lexer) : Nat := lexer.taken + lexer.queue.length

/-- Puts a token into the queue. -/
def push (lexer : Lexer) (kind : TokenKind) (start stop : Mark) : Lexer :=
  { lexer with queue := lexer.queue ++ [{ kind, start, stop }] }

/-- Puts a token without extent before the one at a position. -/
def insert (lexer : Lexer) (position : Nat) (kind : TokenKind) (mark : Mark) : Lexer :=
  let index := position - lexer.taken
  { lexer with
    queue := lexer.queue.take index ++ { kind, start := mark, stop := mark }
      :: lexer.queue.drop index }

/-! ### Keys -/

/-- The error of a place where a key must start and no colon follows. -/
def missingColon (candidate : KeyCandidate) (mark : Mark) : SyntaxError :=
  .within .simpleKey candidate.mark .missingColon mark

/-- Gives up the last token that might start a key. -/
def dropCandidate (lexer : Lexer) : Except SyntaxError Lexer :=
  match lexer.candidate with
  | some candidate =>
    if candidate.required then .error (missingColon candidate lexer.mark)
    else .ok { lexer with candidate := none }
  | none => .ok lexer

/-- Notes that the next token may start a key. -/
def noteCandidate (lexer : Lexer) : Except SyntaxError Lexer := do
  if !lexer.keyAllowed then return lexer
  let lexer ← lexer.dropCandidate
  let required := !lexer.inFlow && lexer.indent = lexer.mark.column
  return { lexer with
    candidate := some { mark := lexer.mark, position := lexer.position, required } }

/-- A key ends in the line in which it starts and has at most 1024 characters. -/
def isStale (mark : Mark) (candidate : KeyCandidate) : Bool :=
  candidate.mark.line < mark.line || candidate.mark.index + 1024 < mark.index

/-- Gives up a candidate that the lexer has left behind. -/
def refresh (mark : Mark) : Option KeyCandidate → Except SyntaxError (Option KeyCandidate)
  | some candidate =>
    if isStale mark candidate then
      if candidate.required then .error (missingColon candidate mark) else .ok none
    else .ok (some candidate)
  | none => .ok none

/-- Gives up the candidates that the lexer has left behind, the outermost first. -/
def dropStale (lexer : Lexer) : Except SyntaxError Lexer := do
  let outer ← lexer.outerCandidates.reverse.mapM (refresh lexer.mark)
  let candidate ← refresh lexer.mark lexer.candidate
  return { lexer with candidate, outerCandidates := outer.reverse }

/-! ### Indentation -/

/-- Opens a block collection at a column deeper than the innermost one. -/
def indentTo (lexer : Lexer) (mark : Mark) (position : Nat) (kind : TokenKind) : Lexer :=
  if lexer.inFlow || (mark.column : Int) ≤ lexer.indent then lexer
  else
    { lexer.insert position kind mark with
      indent := mark.column, outerIndents := lexer.indent :: lexer.outerIndents }

/-- Closes the block collections that lie deeper than a column. -/
def closeDeeper (column : Int) (mark : Mark) (indent : Int) (outer : List Int)
    (queue : List Token) : Int × List Int × List Token :=
  if indent ≤ column then (indent, outer, queue)
  else
    let queue := queue ++ [{ kind := .blockEnd, start := mark, stop := mark }]
    match outer with
    | [] => (-1, [], queue)
    | next :: outer => closeDeeper column mark next outer queue

/-- Closes the block collections that lie deeper than a column, outside brackets. -/
def unindentTo (lexer : Lexer) (column : Int) : Lexer :=
  if lexer.inFlow then lexer
  else
    let (indent, outerIndents, queue) :=
      closeDeeper column lexer.mark lexer.indent lexer.outerIndents lexer.queue
    { lexer with indent, outerIndents, queue }

/-! ### White space -/

/-- Passes blanks, comments and line breaks. A tab may not stand where a key may start. After a line
break a key may start, outside brackets. -/
def skipSpace (inFlow : Bool) : Nat → Bool → Source → Bool × Source
  | 0, keyAllowed, source => (keyAllowed, source)
  | count + 1, keyAllowed, source =>
    let source := if source.mark.column = 0 && source.has '\ufeff' then source.skip 1 else source
    let source := source.skipWhile fun c => c = ' ' || ((inFlow || !keyAllowed) && c = '\t')
    let source := if source.has '#' then source.skipWhile fun c => !isBreak c else source
    if source.testAt 0 isBreak then
      skipSpace inFlow count (keyAllowed || !inFlow) source.takeBreak.2
    else (keyAllowed, source)

/-! ### Kinds of tokens -/

/-- Reads a token of a known length. -/
def readMark (lexer : Lexer) (kind : TokenKind) (length : Nat) : Lexer :=
  let source := lexer.source.skip length
  { lexer.push kind lexer.mark source.mark with source }

/-- Reads the end of the text, as if it were on a line of its own. -/
def readEnd (lexer : Lexer) : Except SyntaxError Lexer := do
  let mark := lexer.mark
  let mark := if mark.column = 0 then mark else { mark with line := mark.line + 1, column := 0 }
  let lexer := { lexer with source := { lexer.source with mark } }
  let lexer ← (lexer.unindentTo (-1)).dropCandidate
  return { lexer.push .streamEnd mark mark with keyAllowed := false, finished := true }

/-- Ends all block collections, as at the end of a document. -/
def leaveBlocks (lexer : Lexer) : Except SyntaxError Lexer := do
  let lexer ← (lexer.unindentTo (-1)).dropCandidate
  return { lexer with keyAllowed := false }

/-- Reads a directive. -/
def readDirective (lexer : Lexer) : Except SyntaxError Lexer := do
  let lexer ← lexer.leaveBlocks
  let (token, source) ← Directive.read lexer.source
  return { lexer with queue := lexer.queue ++ [token], source }

/-- Reads a marker between documents. -/
def readDocumentMarker (lexer : Lexer) (kind : TokenKind) : Except SyntaxError Lexer := do
  let lexer ← lexer.leaveBlocks
  return lexer.readMark kind 3

/-- Reads an opening bracket, which may start a key. -/
def openFlow (lexer : Lexer) (kind : TokenKind) : Except SyntaxError Lexer := do
  let lexer ← lexer.noteCandidate
  let lexer := { lexer with
    candidate := none
    outerCandidates := lexer.candidate :: lexer.outerCandidates
    keyAllowed := true }
  return lexer.readMark kind 1

/-- Reads a closing bracket. -/
def closeFlow (lexer : Lexer) (kind : TokenKind) : Except SyntaxError Lexer := do
  let lexer ← lexer.dropCandidate
  let lexer := match lexer.outerCandidates with
    | candidate :: outerCandidates => { lexer with candidate, outerCandidates }
    | [] => lexer
  return { lexer with keyAllowed := false }.readMark kind 1

/-- Reads the comma between entries of a flow collection. -/
def readFlowEntry (lexer : Lexer) : Except SyntaxError Lexer := do
  let lexer ← lexer.dropCandidate
  return { lexer with keyAllowed := true }.readMark .flowEntry 1

/-- An error that belongs to no construct. -/
def misplaced (lexer : Lexer) (problem : Problem) : SyntaxError :=
  { problem, mark := lexer.mark, context := none }

/-- Opens a block collection here, where one may start. -/
def openBlock (lexer : Lexer) (kind : TokenKind) (problem : Problem) : Except SyntaxError Lexer :=
  if lexer.inFlow then .ok lexer
  else if lexer.keyAllowed then .ok (lexer.indentTo lexer.mark lexer.position kind)
  else .error (lexer.misplaced problem)

/-- Reads the hyphen of a block sequence. -/
def readBlockEntry (lexer : Lexer) : Except SyntaxError Lexer := do
  let lexer ← lexer.openBlock .blockSequenceStart .misplacedEntry
  let lexer ← lexer.dropCandidate
  return { lexer with keyAllowed := true }.readMark .blockEntry 1

/-- Reads the question mark of a key. -/
def readKey (lexer : Lexer) : Except SyntaxError Lexer := do
  let lexer ← lexer.openBlock .blockMappingStart .misplacedKey
  let lexer ← lexer.dropCandidate
  return { lexer with keyAllowed := !lexer.inFlow }.readMark .key 1

/-- Reads the colon of a value; what might start a key now does. -/
def readValue (lexer : Lexer) : Except SyntaxError Lexer := do
  match lexer.candidate with
  | some candidate =>
    let lexer := lexer.insert candidate.position .key candidate.mark
    let lexer := lexer.indentTo candidate.mark candidate.position .blockMappingStart
    return { lexer with candidate := none, keyAllowed := false }.readMark .value 1
  | none =>
    let lexer ← lexer.openBlock .blockMappingStart .misplacedValue
    return { lexer with keyAllowed := !lexer.inFlow }.readMark .value 1

/-- Notes that a key may start here, and that none may start after the token that follows. -/
def startNode (lexer : Lexer) : Except SyntaxError Lexer := do
  let lexer ← lexer.noteCandidate
  return { lexer with keyAllowed := false }

/-- Puts a token into the queue and goes on behind it. -/
def advance (lexer : Lexer) (kind : TokenKind) (source : Source) : Lexer :=
  { lexer.push kind lexer.mark source.mark with source }

/-- Reads an alias. -/
def readAlias (lexer : Lexer) : Except SyntaxError Lexer := do
  let lexer ← lexer.startNode
  let (name, source) ← readName .aliasOf lexer.source
  return lexer.advance (.aliasOf name) source

/-- Reads an anchor. -/
def readAnchor (lexer : Lexer) : Except SyntaxError Lexer := do
  let lexer ← lexer.startNode
  let (name, source) ← readName .anchor lexer.source
  return lexer.advance (.anchor name) source

/-- Reads a tag. -/
def readTag (lexer : Lexer) : Except SyntaxError Lexer := do
  let lexer ← lexer.startNode
  let (name, source) ← Yaml.readTag lexer.inFlow lexer.source
  return lexer.advance (.tag name) source

/-- Reads a block scalar, which cannot be a key. -/
def readBlockScalar (lexer : Lexer) (folded : Bool) : Except SyntaxError Lexer := do
  let lexer ← lexer.dropCandidate
  let (text, source) ← Block.read folded lexer.indent lexer.source
  let style := if folded then .folded else .literal
  return { lexer with keyAllowed := true }.advance (.scalar (String.ofList text) style) source

/-- Reads a quoted scalar. -/
def readQuoted (lexer : Lexer) (single : Bool) : Except SyntaxError Lexer := do
  let lexer ← lexer.startNode
  let (text, source) ← Quoted.read single lexer.source
  let style := if single then .singleQuoted else .doubleQuoted
  return lexer.advance (.scalar (String.ofList text) style) source

/-- Reads a plain scalar. If a line has ended after it, a key may start. -/
def readPlain (lexer : Lexer) : Except SyntaxError Lexer := do
  let lexer ← lexer.startNode
  let (text, broken, source) ← Plain.read lexer.inFlow lexer.indent lexer.source
  return { lexer with keyAllowed := broken }.advance (.scalar (String.ofList text) .plain) source

/-- Whether a plain scalar starts here, given that no indicator does. -/
def startsPlain (lexer : Lexer) : Bool :=
  let source := lexer.source
  let indicators := ['-', '?', ':', ',', '[', ']', '\x7b', '\x7d', '#', '&', '*', '!', '|', '>',
    '\x27', '"', '%', '@', '\x60']
  (source.testAt 0 fun c => !isBlank c && !isBreak c && !indicators.contains c)
    || (source.has '-' && !source.testAt 1 isBlank)
    || (!lexer.inFlow && (source.has '?' || source.has ':') && !source.separatesAt 1)

/-- Reads the token that starts here. -/
def readToken (lexer : Lexer) : Except SyntaxError Lexer :=
  let source := lexer.source
  let separate := lexer.inFlow || source.separatesAt 1
  match source.peek? 0 with
  | none => lexer.readEnd
  | some c =>
    if source.mark.column = 0 && c = '%' then lexer.readDirective
    else if source.atMarker '-' then lexer.readDocumentMarker .documentStart
    else if source.atMarker '.' then lexer.readDocumentMarker .documentEnd
    else if c = '[' then lexer.openFlow .flowSequenceStart
    else if c = '\x7b' then lexer.openFlow .flowMappingStart
    else if c = ']' then lexer.closeFlow .flowSequenceEnd
    else if c = '\x7d' then lexer.closeFlow .flowMappingEnd
    else if c = ',' then lexer.readFlowEntry
    else if c = '-' && source.separatesAt 1 then lexer.readBlockEntry
    else if c = '?' && separate then lexer.readKey
    else if c = ':' && separate then lexer.readValue
    else if c = '*' then lexer.readAlias
    else if c = '&' then lexer.readAnchor
    else if c = '!' then lexer.readTag
    else if c = '|' && !lexer.inFlow then lexer.readBlockScalar false
    else if c = '>' && !lexer.inFlow then lexer.readBlockScalar true
    else if c = '\x27' then lexer.readQuoted true
    else if c = '"' then lexer.readQuoted false
    else if lexer.startsPlain then lexer.readPlain
    else .error (.within .nextToken lexer.mark .noTokenStart lexer.mark)

/-- Reads on by one token, and by the tokens that it implies. -/
def readNext (lexer : Lexer) : Except SyntaxError Lexer := do
  let (keyAllowed, source) :=
    skipSpace lexer.inFlow (lexer.source.rest.length + 1) lexer.keyAllowed lexer.source
  let lexer ← { lexer with keyAllowed, source }.dropStale
  (lexer.unindentTo lexer.mark.column).readToken

/-- Whether the first token of the queue may still turn out to start a key. -/
def isHeadOpen (lexer : Lexer) : Bool :=
  (lexer.candidate :: lexer.outerCandidates).any fun candidate =>
    candidate.any (·.position = lexer.taken)

/-- Reads on until the first token of the queue is settled. -/
def settle : Nat → Lexer → Except SyntaxError Lexer
  | 0, lexer => .ok lexer
  | count + 1, lexer => do
    let lexer ← if lexer.queue.isEmpty then pure lexer else lexer.dropStale
    if !lexer.finished && (lexer.queue.isEmpty || lexer.isHeadOpen) then
      settle count (← lexer.readNext)
    else return lexer

/-- The next token, and the lexer that holds it ready. The text ends with a token, beyond which
there is none. -/
def peek (lexer : Lexer) : Except SyntaxError (Token × Lexer) := do
  let lexer ← settle (lexer.source.rest.length + 2) lexer
  let ending : Token := { kind := .streamEnd, start := lexer.mark, stop := lexer.mark }
  return (lexer.queue.head?.getD ending, lexer)

/-- Takes the first token of the queue. -/
def drop (lexer : Lexer) : Lexer :=
  match lexer.queue with
  | [] => lexer
  | _ :: queue => { lexer with queue, taken := lexer.taken + 1 }

/-- The place of a character that no stream may hold, counted in octets. -/
def forbidden? : Nat → List Char → Option Nat
  | _, [] => none
  | octets, c :: rest => if isAllowed c then forbidden? (octets + c.utf8Size) rest else some octets

/-- A lexer at the start of a text. -/
def ofString (text : String) : Except SyntaxError Lexer :=
  match forbidden? 0 text.toList with
  | some index => .error { problem := .forbiddenCharacter, mark := { index } }
  | none => .ok { source := { rest := text.toList } }

end Lexer

end LiveScore.Yaml
