import Questionnaire.Json.Token

/-! The shape of a JSON text before anyone says what it should hold. Every text has a shape: what
is wrong in it stays where it is, as an invalid node or as the way in which an array or object
ends, and is reported by the reader that comes upon it. Behind the first fault that no reader can
pass the rest of the text is left unread. -/
namespace Questionnaire.Json

/-- How an array or an object comes to its end. -/
inductive Ending where
  /-- With its closing bracket. -/
  | closed
  /-- With the text, behind the opening bracket or behind an item. -/
  | endOfText
  /-- With something else than a separator behind an item. -/
  | unseparated
  /-- With the closing bracket directly behind a comma. -/
  | danglingComma
  /-- With the text directly behind a comma. -/
  | endBehindComma
  /-- With something else than a string where a key should be. -/
  | strayKey
deriving DecidableEq, Repr

/-- The shape of a JSON text. -/
inductive Node where
  | null
  | bool (value : Bool)
  | number (number : Lexeme Number)
  | string (text : Lexeme String)
  | array (items : List Node) (ending : Ending)
  | object (members : List (Lexeme String × Node)) (ending : Ending)
  /-- No value, with the complaint of a reader who wants one. -/
  | invalid (error : ReadError)

/-- An array or object that is still open around the value being read; what it holds so far comes
last first. -/
inductive Frame where
  | array (items : List Node)
  | object (members : List (Lexeme String × Node)) (key : Lexeme String)

/-- What has been read so far, and what may come next. -/
inductive State where
  | value (outer : List Frame)
  /-- Directly behind the bracket that opens an array. -/
  | firstItem (outer : List Frame)
  /-- Directly behind a comma in an array. -/
  | nextItem (items : List Node) (outer : List Frame)
  | behindItem (items : List Node) (outer : List Frame)
  /-- Directly behind the brace that opens an object. -/
  | firstKey (outer : List Frame)
  /-- Directly behind a comma in an object. -/
  | nextKey (members : List (Lexeme String × Node)) (outer : List Frame)
  | behindKey (members : List (Lexeme String × Node)) (key : Lexeme String) (outer : List Frame)
  | behindMember (members : List (Lexeme String × Node)) (outer : List Frame)
  | finished (root : Node) (trailing : Bool)

/-- Goes on behind a value that is complete. -/
def State.behind (node : Node) : List Frame → State
  | [] => .finished node false
  | .array items :: outer => .behindItem (node :: items) outer
  | .object members key :: outer => .behindMember ((key, node) :: members) outer

/-- The root of a text that is not read further than a node. -/
def rootFrom (node : Node) : List Frame → Node
  | [] => node
  | .array items :: outer => rootFrom (.array (node :: items).reverse .endOfText) outer
  | .object members key :: outer =>
    rootFrom (.object ((key, node) :: members).reverse .endOfText) outer

/-- Leaves the rest of the text unread. -/
def State.halt (node : Node) (outer : List Frame) : State :=
  .finished (rootFrom node outer) true

/-- Takes the token where a value should begin. -/
def State.takeValue (outer : List Frame) : Token → State
  | .null => .behind .null outer
  | .bool truth => .behind (.bool truth) outer
  | .number lexeme => .behind (.number lexeme) outer
  | .string lexeme => .behind (.string lexeme) outer
  | .invalid error => .behind (.invalid error) outer
  | .openArray => .firstItem outer
  | .openObject => .firstKey outer
  | .closeArray | .closeObject | .colon | .comma => .halt (.invalid .expectedValue) outer

/-- Takes the token where a key should be. -/
def State.takeKey (members : List (Lexeme String × Node)) (outer : List Frame) : Token → State
  | .string key => .behindKey members key outer
  | _ => .halt (.object members.reverse .strayKey) outer

/-- Takes one token. -/
def State.take : State → Token → State
  | .value outer, token => .takeValue outer token
  | .firstItem outer, .closeArray => .behind (.array [] .closed) outer
  | .firstItem outer, token => .takeValue (.array [] :: outer) token
  | .nextItem items outer, .closeArray => .halt (.array items.reverse .danglingComma) outer
  | .nextItem items outer, token => .takeValue (.array items :: outer) token
  | .behindItem items outer, .comma => .nextItem items outer
  | .behindItem items outer, .closeArray => .behind (.array items.reverse .closed) outer
  | .behindItem items outer, _ => .halt (.array items.reverse .unseparated) outer
  | .firstKey outer, .closeObject => .behind (.object [] .closed) outer
  | .firstKey outer, token => .takeKey [] outer token
  | .nextKey members outer, .closeObject => .halt (.object members.reverse .danglingComma) outer
  | .nextKey members outer, token => .takeKey members outer token
  | .behindKey members key outer, .colon => .value (.object members key :: outer)
  | .behindKey members key outer, _ =>
    .halt (.invalid .expectedColon) (.object members key :: outer)
  | .behindMember members outer, .comma => .nextKey members outer
  | .behindMember members outer, .closeObject => .behind (.object members.reverse .closed) outer
  | .behindMember members outer, _ => .halt (.object members.reverse .unseparated) outer
  | .finished root _, _ => .finished root true

/-- The shape of a whole text: its first value, and whether anything follows. -/
structure Shape where
  root : Node
  trailing : Bool

/-- What has been read when the text ends. -/
def State.shape : State → Shape
  | .value outer => ⟨rootFrom (.invalid (.endOfText .value)) outer, false⟩
  | .firstItem outer => ⟨rootFrom (.array [] .endOfText) outer, false⟩
  | .nextItem items outer => ⟨rootFrom (.array items.reverse .endBehindComma) outer, false⟩
  | .behindItem items outer => ⟨rootFrom (.array items.reverse .endOfText) outer, false⟩
  | .firstKey outer => ⟨rootFrom (.object [] .endOfText) outer, false⟩
  | .nextKey members outer => ⟨rootFrom (.object members.reverse .endBehindComma) outer, false⟩
  | .behindKey members key outer =>
    ⟨rootFrom (.invalid (.endOfText .object)) (.object members key :: outer), false⟩
  | .behindMember members outer => ⟨rootFrom (.object members.reverse .endOfText) outer, false⟩
  | .finished root trailing => ⟨root, trailing⟩

/-- The shape that tokens spell. -/
def Shape.ofTokens (tokens : List Token) : Shape :=
  (tokens.foldl State.take (.value [])).shape

/-- The shape of a text. -/
def Shape.ofText (text : String) : Shape :=
  Shape.ofTokens (scan text.toList)

/-- The complaint of a reader of list items about an ending. -/
def Ending.itemsError? : Ending → Option ReadError
  | .closed => none
  | .endOfText => some (.endOfText .list)
  | .unseparated => some .expectedItemSeparator
  | .danglingComma => some .trailingComma
  | .endBehindComma => some (.endOfText .value)
  | .strayKey => some .expectedValue

/-- The complaint of a reader of members about an ending. -/
def Ending.membersError? : Ending → Option ReadError
  | .closed => none
  | .endOfText => some (.endOfText .object)
  | .unseparated => some .expectedMemberSeparator
  | .danglingComma => some .trailingComma
  | .endBehindComma => some (.endOfText .value)
  | .strayKey => some .keyNotString

/-- The complaint of a reader who has all the items that a record has. -/
def Ending.recordError? : Ending → Option ReadError
  | .closed => none
  | .endOfText => some (.endOfText .list)
  | .danglingComma => some .trailingComma
  | .unseparated | .endBehindComma | .strayKey => some .trailingCharacters

/-- The complaint about the ending of an array that is skipped. -/
def Ending.skippedItemsError? : Ending → Option ReadError
  | .danglingComma => some .expectedValue
  | ending => ending.itemsError?

/-- The complaint about the ending of an object that is skipped. -/
def Ending.skippedMembersError? : Ending → Option ReadError
  | .danglingComma => some .keyNotString
  | .endBehindComma => some (.endOfText .object)
  | ending => ending.membersError?

mutual

/-- The first complaint about a node that is skipped: its values do not matter, but it must be
written correctly. -/
def Node.skipError? : Node → Option ReadError
  | .null => none
  | .bool _ => none
  | .number lexeme => lexeme.skip
  | .string lexeme => lexeme.skip
  | .invalid error => some error
  | .array items ending => (skipItemsError? items).or ending.skippedItemsError?
  | .object members ending => (skipMembersError? members).or ending.skippedMembersError?
termination_by structural node => node

/-- The first complaint about items that are skipped. -/
def skipItemsError? : List Node → Option ReadError
  | [] => none
  | item :: items => item.skipError?.or (skipItemsError? items)
termination_by structural items => items

/-- The first complaint about members that are skipped. -/
def skipMembersError? : List (Lexeme String × Node) → Option ReadError
  | [] => none
  | (key, value) :: members => (key.skip.or value.skipError?).or (skipMembersError? members)
termination_by structural members => members

end

/-- The kind of value that a node is, or why it is none. -/
def Node.found : Node → Except ReadError Found
  | .null => .ok .null
  | .bool value => .ok (.bool value)
  | .number lexeme => lexeme.read.map .number
  | .string lexeme => lexeme.read.map .string
  | .array _ _ => .ok .sequence
  | .object _ _ => .ok .map
  | .invalid error => .error error

/-- The complaint about a node of another kind than was wanted. -/
def Node.mismatch {α : Type} (node : Node) (wanted : String) : Except ReadError α :=
  match node.found with
  | .ok found => .error (.wrongKind found wanted)
  | .error error => .error error

end Questionnaire.Json
