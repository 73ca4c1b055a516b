import LiveScore.Yaml.Source

/-!
# YAML syntax errors

What can be wrong with a YAML stream, in what construct, and where.
-/

namespace LiveScore.Yaml

/-- What is wrong at a place. -/
inductive Problem where
  | forbiddenCharacter
  | noTokenStart
  | missingColon
  | misplacedEntry
  | misplacedKey
  | misplacedValue
  | missingDirectiveName
  | badDirectiveName
  | unknownDirective
  | missingLineEnd
  | missingVersion
  | missingVersionPoint
  | longVersion
  | missingBlank
  | missingTagMark
  | missingTagUri
  | missingTagEnd
  | missingTagSeparator
  | missingOctet
  | badLeadingOctet
  | badTrailingOctet
  | missingName
  | zeroIndentation
  | tabInIndentation
  | markerInQuotes
  | endInQuotes
  | unknownEscape
  | missingHexDigit
  | invalidCodePoint
  | colonInPlain
  | tabInPlain
  | missingDocumentStart
  | repeatedVersion
  | incompatibleVersion
  | repeatedTagHandle
  | undefinedTagHandle
  | missingContent
  | missingEntryIndicator
  | missingKey
  | missingCommaInSequence
  | missingCommaInMapping
  | unknownAnchor
deriving DecidableEq

/-- The sentence that reports a problem. -/
def Problem.message : Problem → String
  | forbiddenCharacter => "control characters are not allowed"
  | noTokenStart => "found character that cannot start any token"
  | missingColon => "could not find expected ':'"
  | misplacedEntry => "block sequence entries are not allowed in this context"
  | misplacedKey => "mapping keys are not allowed in this context"
  | misplacedValue => "mapping values are not allowed in this context"
  | missingDirectiveName => "could not find expected directive name"
  | badDirectiveName => "found unexpected non-alphabetical character"
  | unknownDirective => "found unknown directive name"
  | missingLineEnd => "did not find expected comment or line break"
  | missingVersion => "did not find expected version number"
  | missingVersionPoint => "did not find expected digit or '.' character"
  | longVersion => "found extremely long version number"
  | missingBlank => "did not find expected whitespace"
  | missingTagMark => "did not find expected '!'"
  | missingTagUri => "did not find expected tag URI"
  | missingTagEnd => "did not find the expected '>'"
  | missingTagSeparator => "did not find expected whitespace or line break"
  | missingOctet => "did not find URI escaped octet"
  | badLeadingOctet => "found an incorrect leading UTF-8 octet"
  | badTrailingOctet => "found an incorrect trailing UTF-8 octet"
  | missingName => "did not find expected alphabetic or numeric character"
  | zeroIndentation => "found an indentation indicator equal to 0"
  | tabInIndentation => "found a tab character where an indentation space is expected"
  | markerInQuotes => "found unexpected document indicator"
  | endInQuotes => "found unexpected end of stream"
  | unknownEscape => "found unknown escape character"
  | missingHexDigit => "did not find expected hexdecimal number"
  | invalidCodePoint => "found invalid Unicode character escape code"
  | colonInPlain => "found unexpected ':'"
  | tabInPlain => "found a tab character that violates indentation"
  | missingDocumentStart => "did not find expected <document start>"
  | repeatedVersion => "found duplicate %YAML directive"
  | incompatibleVersion => "found incompatible YAML document"
  | repeatedTagHandle => "found duplicate %TAG directive"
  | undefinedTagHandle => "found undefined tag handle"
  | missingContent => "did not find expected node content"
  | missingEntryIndicator => "did not find expected '-' indicator"
  | missingKey => "did not find expected key"
  | missingCommaInSequence => "did not find expected ',' or ']'"
  | missingCommaInMapping => "did not find expected ',' or '\x7d'"
  | unknownAnchor => "unknown anchor"

/-- The construct in which something is wrong. -/
inductive Context where
  | nextToken
  | simpleKey
  | directive
  | versionDirective
  | tagDirective
  | tagDirectiveMark
  | tagDirectiveHandle
  | tagDirectiveUri
  | tag
  | tagUri
  | anchor
  | aliasOf
  | blockScalar
  | quotedScalar
  | escapeSequence
  | plainScalar
  | node
  | blockNode
  | flowNode
  | blockCollection
  | blockMapping
  | flowSequence
  | flowMapping
deriving DecidableEq

/-- The words that name the construct. -/
def Context.message : Context → String
  | nextToken => "while scanning for the next token"
  | simpleKey => "while scanning a simple key"
  | directive => "while scanning a directive"
  | versionDirective => "while scanning a %YAML directive"
  | tagDirective => "while scanning a %TAG directive"
  | tagDirectiveMark => "while scanning a tag directive"
  | tagDirectiveHandle => "while parsing a tag directive"
  | tagDirectiveUri => "while parsing a %TAG directive"
  | tag => "while scanning a tag"
  | tagUri => "while parsing a tag"
  | anchor => "while scanning an anchor"
  | aliasOf => "while scanning an alias"
  | blockScalar => "while scanning a block scalar"
  | quotedScalar => "while scanning a quoted scalar"
  | escapeSequence => "while parsing a quoted scalar"
  | plainScalar => "while scanning a plain scalar"
  | node => "while parsing a node"
  | blockNode => "while parsing a block node"
  | flowNode => "while parsing a flow node"
  | blockCollection => "while parsing a block collection"
  | blockMapping => "while parsing a block mapping"
  | flowSequence => "while parsing a flow sequence"
  | flowMapping => "while parsing a flow mapping"

/-- A syntax error. -/
structure SyntaxError where
  problem : Problem
  mark : Mark
  context : Option (Context × Mark) := none
deriving DecidableEq

/-- The mark is behind the start of the text. -/
def Mark.isLater (mark : Mark) : Bool := mark.line ≠ 0 || mark.column ≠ 0

/-- The sentence that reports an error. The place of the construct is told where it differs. -/
def SyntaxError.message (error : SyntaxError) : String :=
  let place :=
    if error.problem = .forbiddenCharacter then
      if error.mark.index = 0 then "" else s!" at position {error.mark.index}"
    else if error.mark.isLater then " at " ++ error.mark.describe
    else ""
  let context := match error.context with
    | none => ""
    | some (context, mark) =>
      ", " ++ context.message
        ++ if mark.isLater && (mark.line ≠ error.mark.line || mark.column ≠ error.mark.column) then
          " at " ++ mark.describe
        else ""
  error.problem.message ++ place ++ context

/-- A problem that was met while something else was being read. -/
def SyntaxError.within (context : Context) (start : Mark) (problem : Problem) (mark : Mark) :
    SyntaxError :=
  { problem, mark, context := some (context, start) }

end LiveScore.Yaml
