import LiveScore.Yaml.Event

/-!
# YAML documents

The events of the first document of a text, with every alias replaced by what it stands for. A text
that breaks the rules still has the events before the fault: whoever understands the document reads
them first, and may find them wrong before the fault is met.
-/

namespace LiveScore.Yaml

/-- What a node is, apart from the content of a collection. -/
inductive Head where
  | scalar (scalar : Scalar)
  | sequence
  | mapping
deriving DecidableEq

/-- What a document tells next. -/
inductive Item where
  | node (head : Head)
  | aliasOf (head : Head) (target : Mark)
  | sequenceEnd
  | mappingEnd
deriving DecidableEq

/-- What breaks a document off. -/
inductive Fault where
  | badSyntax (error : SyntaxError)
  /-- An alias has no anchor before it. -/
  | unknownAnchor (mark : Mark)
deriving DecidableEq

/-- The sentence that reports a fault. -/
def Fault.message : Fault → String
  | badSyntax error => error.message
  | unknownAnchor mark =>
    Problem.unknownAnchor.message ++ if mark.isLater then " at " ++ mark.describe else ""

/-- The first document of a text. -/
structure Document where
  items : List (Item × Mark) := []
  /-- What broke it off, if anything. -/
  fault : Option Fault := none
  /-- Whether anything but the end of the text follows it. -/
  continued : Bool := false
deriving DecidableEq

namespace Document

/-- The anchors so far, each with the head of its node and its place. -/
abbrev Anchors : Type := List (String × Head × Mark)

/-- Whether a document or a fault comes next. -/
def isContinued (parser : Parser) : Bool :=
  match parser.next with
  | .ok (.streamEnd, _, _) => false
  | _ => true

/-- Reads the events of a document. -/
def collect : Nat → Anchors → List (Item × Mark) → Parser → Document
  | 0, _, items, _ => { items := items.reverse }
  | count + 1, anchors, items, parser =>
    match parser.next with
    | .error error => { items := items.reverse, fault := some (.badSyntax error) }
    | .ok (event, mark, parser) =>
      let start (anchor : Option String) (head : Head) : Document :=
        let anchors := match anchor with
          | some name => (name, head, mark) :: anchors
          | none => anchors
        collect count anchors ((.node head, mark) :: items) parser
      match event with
      | .scalar anchor scalar => start anchor (.scalar scalar)
      | .sequenceStart anchor => start anchor .sequence
      | .mappingStart anchor => start anchor .mapping
      | .sequenceEnd => collect count anchors ((.sequenceEnd, mark) :: items) parser
      | .mappingEnd => collect count anchors ((.mappingEnd, mark) :: items) parser
      | .documentStart => collect count anchors items parser
      | .documentEnd => { items := items.reverse, continued := isContinued parser }
      | .streamEnd => { items := items.reverse }
      | .aliasOf name =>
        match anchors.lookup name with
        | some (head, target) =>
          collect count anchors ((.aliasOf head target, mark) :: items) parser
        | none => { items := items.reverse, fault := some (.unknownAnchor mark) }

/-- The first document of a text. Every event but a few needs a character of the text, and no
character serves more than a few events. -/
def ofString (text : String) : Document :=
  match Lexer.ofString text with
  | .error error => { fault := some (.badSyntax error) }
  | .ok lexer => collect (16 * (text.length + 4)) [] [] { lexer }

/-- Passes the content of a collection with its end, `depth` being the number of collections around.
-/
def skipContent : Nat → List (Item × Mark) → List (Item × Mark)
  | _, [] => []
  | depth, (item, _) :: rest =>
    match item with
    | .node (.scalar _) | .aliasOf _ _ => skipContent depth rest
    | .node .sequence | .node .mapping => skipContent (depth + 1) rest
    | .sequenceEnd | .mappingEnd => if depth = 0 then rest else skipContent (depth - 1) rest

/-- Passes a whole node. -/
def skipNode : List (Item × Mark) → List (Item × Mark)
  | [] => []
  | (item, _) :: rest =>
    match item with
    | .node .sequence | .node .mapping => skipContent 0 rest
    | _ => rest

end Document

end LiveScore.Yaml
