/-
What a document holds, as far as it can be read.

The tree of a broken document is kept: its arrays and objects say whether their
closing bracket was reached, and `missing` stands where a value had to stand and none
could be read.  Walking such a tree in order meets the faults of the document in the
order in which a reader of the text meets them, so a decoder needs to know nothing
about characters to report the first one.

The tree is built by a machine with a stack of the arrays and objects still open, so
nesting has no limit here.
-/
import AccessStore.Json.Numeral
import AccessStore.Json.Token

namespace AccessStore.Json

/-- How an array or object ends. -/
inductive Ending
  /-- With its closing bracket. -/
  | closed
  /-- The text goes on with nothing that could follow. -/
  | cut
  deriving DecidableEq, Repr

/-- A value of a document, as far as it can be read. -/
inductive Node
  | null
  | flag (value : Bool)
  | number (spelling : List Char)
  | text (content : Option String)
  | array (items : List Node) (ending : Ending)
  | object (members : List (Option String × Node)) (ending : Ending)
  /-- A value had to stand here and none can be read. -/
  | missing
  deriving Inhabited, Repr

/-- A member of an object: its name, if the name is a text, and its value. -/
abbrev Member := Option String × Node

namespace Node

/-- The spelled number fits in a double. -/
def fits (spelling : List Char) : Bool := (Numeral.ofSpelling spelling).inRange

/-! ### Building a tree -/

/-- An array or object that is still open; what it holds so far, last first. -/
inductive Frame
  | items (before : List Node)
  /-- An object with a name that waits for its value. -/
  | members (before : List Member) (name : Option String)

/-- Close every open array and object as broken off, the node being the last thing read. -/
def collapse (node : Node) : List Frame → Node
  | [] => node
  | .items before :: above => collapse (.array (before.reverse ++ [node]) .cut) above
  | .members before name :: above =>
      collapse (.object (before.reverse ++ [(name, node)]) .cut) above

/-- What the tokens read so far call for. -/
inductive Building
  /-- A value. -/
  | value (above : List Frame)
  /-- After an opening bracket: a value or the closing one. -/
  | firstItem (above : List Frame)
  /-- After an opening brace: a name or the closing one. -/
  | firstName (above : List Frame)
  /-- After a comma in an object: a name. -/
  | name (before : List Member) (above : List Frame)
  /-- After a name: a colon. -/
  | colon (before : List Member) (name : Option String) (above : List Frame)
  /-- After a value: a comma, a closing bracket, or the end. -/
  | after (node : Node) (above : List Frame)
  /-- Nothing: the tree is complete, and something follows it. -/
  | excess (node : Node)
  /-- Nothing: the tree broke off. -/
  | broken (node : Node)

/-- The values that consist of one token. -/
def ofToken? : Token → Option Node
  | .null => some .null
  | .flag value => some (.flag value)
  | .number spelling => some (.number spelling)
  | .text content => some (.text content)
  | _ => none

/-- A token where a value is called for. -/
def begin (token : Token) (above : List Frame) : Building :=
  match token with
  | .openArray => .firstItem above
  | .openObject => .firstName above
  | token =>
      match ofToken? token with
      | some node => .after node above
      | none => .broken (collapse .missing above)

/-- Read one token. -/
def step (state : Building) (token : Token) : Building :=
  match state with
  | .value above => begin token above
  | .firstItem above =>
      match token with
      | .closeArray => .after (.array [] .closed) above
      | token => begin token (.items [] :: above)
  | .firstName above =>
      match token with
      | .text name => .colon [] name above
      | .closeObject => .after (.object [] .closed) above
      | _ => .broken (collapse (.object [] .cut) above)
  | .name before above =>
      match token with
      | .text name => .colon before name above
      | _ => .broken (collapse (.object before.reverse .cut) above)
  | .colon before name above =>
      match token with
      | .colon => .value (.members before name :: above)
      | _ => .broken (collapse .missing (.members before name :: above))
  | .after node [] => .excess node
  | .after node (.items before :: above) =>
      match token with
      | .comma => .value (.items (node :: before) :: above)
      | .closeArray => .after (.array (node :: before).reverse .closed) above
      | _ => .broken (collapse node (.items before :: above))
  | .after node (.members before name :: above) =>
      match token with
      | .comma => .name ((name, node) :: before) above
      | .closeObject => .after (.object ((name, node) :: before).reverse .closed) above
      | _ => .broken (collapse node (.members before name :: above))
  | .excess node => .excess node
  | .broken node => .broken node

/-- The tree where the tokens end. -/
def finish : Building → Node
  | .value above => collapse .missing above
  | .firstItem above => collapse (.array [] .cut) above
  | .firstName above => collapse (.object [] .cut) above
  | .name before above => collapse (.object before.reverse .cut) above
  | .colon before name above => collapse .missing (.members before name :: above)
  | .after node above => collapse node above
  | .excess node => node
  | .broken node => node

/-- Read tokens on from a state. -/
def build (state : Building) (tokens : List Token) : Building := tokens.foldl step state

/-! ### Judging a tree that is not wanted -/

mutual
/-- Every part could be read; what the parts are does not matter. -/
def isWhole : Node → Bool
  | .missing => false
  | .array items ending => ending = .closed && areWhole items
  | .object members ending => ending = .closed && membersWhole members
  | _ => true
/-- Every listed value is whole. -/
def areWhole : List Node → Bool
  | [] => true
  | node :: rest => isWhole node && areWhole rest
/-- Every listed member's value is whole. -/
def membersWhole : List Member → Bool
  | [] => true
  | (_, node) :: rest => isWhole node && membersWhole rest
end

mutual
/-- The value can be set aside for later: it is whole, its numbers and texts can be held, and
its arrays and objects are nested at most `room` deep. -/
def keeps (room : Nat) : Node → Bool
  | .missing => false
  | .null | .flag _ => true
  | .number spelling => fits spelling
  | .text content => content.isSome
  | .array items ending =>
      match room with
      | 0 => false
      | room + 1 => ending = .closed && allKeep room items
  | .object members ending =>
      match room with
      | 0 => false
      | room + 1 => ending = .closed && membersKeep room members
/-- Every listed value can be set aside. -/
def allKeep (room : Nat) : List Node → Bool
  | [] => true
  | node :: rest => keeps room node && allKeep room rest
/-- Every listed member has a name and a value that can be set aside. -/
def membersKeep (room : Nat) : List Member → Bool
  | [] => true
  | (name, node) :: rest => name.isSome && keeps room node && membersKeep room rest
end

end Node

/-- A document: its value, and whether something follows the value. -/
structure Document where
  root : Node
  /-- More than white space follows the value. -/
  excess : Bool

namespace Document

/-- The document that the tokens make. -/
def ofTokens (tokens : List Token) : Document :=
  let state := Node.build (.value []) tokens
  { root := Node.finish state
    excess := match state with
      | .excess _ => true
      | _ => false }

/-- The document written by the text. -/
def ofText (s : String) : Document := ofTokens (Token.ofChars s.toList)

end Document

end AccessStore.Json
