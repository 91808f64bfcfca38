/-
Tokens of a JSON document.

A document is read in three steps: characters to tokens, tokens to a tree, tree to the
value that is wanted.  Reading never fails in the first step: where the characters
stop making sense a last token, `unreadable`, stands for all the rest, and it is up
to the later steps whether anything before it is at fault already.

The scanner is an automaton over single characters.  A text between quotes is scanned
without asking whether its escapes name whole characters: an escape that names one
half of a surrogate pair makes the text's content unknown, which matters only to those
who want the content.
-/
import AccessStore.Text.Hexadecimal

namespace AccessStore.Json

/-- The smallest parts of a document, white space left out. -/
inductive Token
  | openArray
  | closeArray
  | openObject
  | closeObject
  | comma
  | colon
  | null
  | flag (value : Bool)
  /-- A number, as spelled. -/
  | number (spelling : List Char)
  /-- A text and its content; none when an escape names half a surrogate pair. -/
  | text (content : Option String)
  /-- No token can be made of the characters from here on. -/
  | unreadable
  deriving DecidableEq, Repr

/-! ### Contents of texts -/

/-- What a text is spelled with: a character, or the number of a `\u` escape. -/
inductive Piece
  | char (c : Char)
  | unit (value : Nat)
  deriving DecidableEq, Repr

/-- First halves of surrogate pairs. -/
def isHighSurrogate (value : Nat) : Bool := 0xD800 ≤ value && value ≤ 0xDBFF

/-- Second halves of surrogate pairs. -/
def isLowSurrogate (value : Nat) : Bool := 0xDC00 ≤ value && value ≤ 0xDFFF

/-- The characters spelled by the pieces, if every surrogate has its partner right after it. -/
def Piece.content? : List Piece → Option (List Char)
  | [] => some []
  | .char c :: rest => (content? rest).map (c :: ·)
  | .unit high :: .unit low :: rest =>
      if isHighSurrogate high then
        if isLowSurrogate low then
          (content? rest).map (Char.ofNat ((high - 0xD800) * 0x400 + (low - 0xDC00) + 0x10000) :: ·)
        else none
      else if isLowSurrogate high then none
      else (content? (.unit low :: rest)).map (Char.ofNat high :: ·)
  | .unit value :: rest =>
      if isHighSurrogate value || isLowSurrogate value then none
      else (content? rest).map (Char.ofNat value :: ·)

/-- The character that a backslash and this letter stand for. -/
def escaped? (c : Char) : Option Char :=
  match c with
  | '"' => some '"'
  | '\\' => some '\\'
  | '/' => some '/'
  | 'b' => some '\x08'
  | 'f' => some '\x0c'
  | 'n' => some '\n'
  | 'r' => some '\r'
  | 't' => some '\t'
  | _ => none

/-! ### The grammar of numbers -/

/-- How far the spelling of a number has come. -/
inductive NumberPhase
  /-- After the minus sign. -/
  | sign
  /-- After a leading zero, which no digit may follow. -/
  | zero
  /-- Within the digits before the point. -/
  | whole
  /-- After the point. -/
  | point
  /-- Within the digits after the point. -/
  | fraction
  /-- After the exponent's letter. -/
  | mark
  /-- After the exponent's sign. -/
  | markSign
  /-- Within the exponent's digits. -/
  | exponent
  deriving DecidableEq, Repr

/-- What the next character does to a number. -/
inductive NumberStep
  | more (phase : NumberPhase)
  /-- The number is complete without this character. -/
  | complete
  | broken
  deriving DecidableEq, Repr

namespace NumberPhase

/-- A number may end here. -/
def isComplete : NumberPhase → Bool
  | zero | whole | fraction | exponent => true
  | sign | point | mark | markSign => false

/-- Read one more character of a number. -/
def step (phase : NumberPhase) (c : Char) : NumberStep :=
  match phase with
  | sign => if c = '0' then .more zero else if c.isDigit then .more whole else .broken
  | zero => if c.isDigit then .broken else afterWhole c
  | whole => if c.isDigit then .more whole else afterWhole c
  | point => if c.isDigit then .more fraction else .broken
  | fraction =>
      if c.isDigit then .more fraction
      else if c = 'e' || c = 'E' then .more mark
      else .complete
  | mark =>
      if c.isDigit then .more exponent
      else if c = '+' || c = '-' then .more markSign
      else .broken
  | markSign => if c.isDigit then .more exponent else .broken
  | exponent => if c.isDigit then .more exponent else .complete
where
  /-- What may follow the digits before the point. -/
  afterWhole (c : Char) : NumberStep :=
    if c = '.' then .more point
    else if c = 'e' || c = 'E' then .more mark
    else .complete

end NumberPhase

/-! ### The scanner -/

/-- What the characters read last are part of. -/
inductive Scanning
  /-- Between tokens. -/
  | between
  /-- In a word, of which these letters are still to come. -/
  | word (left : List Char) (token : Token)
  /-- In a number; its characters so far, last first. -/
  | number (phase : NumberPhase) (spelling : List Char)
  /-- In a text; its pieces so far, last first. -/
  | text (pieces : List Piece)
  /-- After a backslash in a text. -/
  | escape (pieces : List Piece)
  /-- After `\u` in a text: how many digits are to come, and the value of those read. -/
  | hex (pieces : List Piece) (left : Nat) (value : Nat)
  /-- After the characters stopped making sense. -/
  | lost
  deriving DecidableEq, Repr

namespace Scanning

/-- The token of a text that has been scanned; its pieces, last first. -/
def closeText (pieces : List Piece) : Token :=
  .text ((Piece.content? pieces.reverse).map String.ofList)

/-- Give up: one token stands for all the rest. -/
def lose : List Token × Scanning := ([.unreadable], lost)

/-- A character between tokens. -/
def start (c : Char) : List Token × Scanning :=
  match c with
  | ' ' | '\n' | '\t' | '\r' => ([], between)
  | '[' => ([.openArray], between)
  | ']' => ([.closeArray], between)
  | '{' => ([.openObject], between)
  | '}' => ([.closeObject], between)
  | ',' => ([.comma], between)
  | ':' => ([.colon], between)
  | '"' => ([], text [])
  | 'n' => ([], word ['u', 'l', 'l'] .null)
  | 't' => ([], word ['r', 'u', 'e'] (.flag true))
  | 'f' => ([], word ['a', 'l', 's', 'e'] (.flag false))
  | '-' => ([], number .sign ['-'])
  | '0' => ([], number .zero ['0'])
  | c => if c.isDigit then ([], number .whole [c]) else lose

/-- Read one character: the tokens it completes, and where it leaves the scanner. -/
def step (state : Scanning) (c : Char) : List Token × Scanning :=
  match state with
  | between => start c
  | word [] token => (token :: (start c).1, (start c).2)
  | word [l] token => if c = l then ([token], between) else lose
  | word (l :: left) token => if c = l then ([], word left token) else lose
  | number phase spelling =>
      match phase.step c with
      | .more phase => ([], number phase (c :: spelling))
      | .complete => (.number spelling.reverse :: (start c).1, (start c).2)
      | .broken => lose
  | text pieces =>
      if c = '"' then ([closeText pieces], between)
      else if c = '\\' then ([], escape pieces)
      else if c.toNat < 0x20 then lose
      else ([], text (.char c :: pieces))
  | escape pieces =>
      if c = 'u' then ([], hex pieces 4 0)
      else
        match escaped? c with
        | some e => ([], text (.char e :: pieces))
        | none => lose
  | hex pieces left value =>
      match Text.hexValue? c with
      | none => lose
      | some digit =>
          if left ≤ 1 then ([], text (.unit (value * 16 + digit) :: pieces))
          else ([], hex pieces (left - 1) (value * 16 + digit))
  | lost => ([], lost)

/-- The tokens still owed where the characters end. -/
def finish : Scanning → List Token
  | between | lost => []
  | number phase spelling =>
      if phase.isComplete then [.number spelling.reverse] else [.unreadable]
  | word [] token => [token]
  | word _ _ | text _ | escape _ | hex _ _ _ => [.unreadable]

/-- Read characters on from a state: the tokens, last first, and the state reached. -/
def run (tokens : List Token) (state : Scanning) (cs : List Char) : List Token × Scanning :=
  cs.foldl (fun reached c =>
    let (completed, state) := reached.2.step c
    (completed.reverse ++ reached.1, state)) (tokens, state)

end Scanning

/-- The tokens of a document. -/
def Token.ofChars (cs : List Char) : List Token :=
  let (tokens, state) := Scanning.run [] .between cs
  tokens.reverse ++ state.finish

end AccessStore.Json
