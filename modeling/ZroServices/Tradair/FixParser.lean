import Mathlib.Data.Int.Notation
import ZroServices.Foundation.Effect

/-!
# Tradair — FIX messages

`FixParser` builds the text of a FIX message from its value, and parses the text back, by a model of
the message types: the fields of each, and its repeating groups, which have fields and groups of
their own.  A text is a sequence of tokens `tag=value|`; a group is the token of the number of its
entries and then their tokens.

A message is the list of its items in the order of their keys.  The parser takes a token at a time;
where an entry ends it sees by a field that comes a second time.  How numbers print and how they are
read is a parameter (`Numbers`), of what the language says of its own.
-/

namespace ZroServices

open Foundation

namespace Tradair

abbrev Text := List Char
abbrev Name := String

/-! ### Models -/

/-- The types of fields, but for the two of dates. -/
inductive FieldType where
  | AMT
  | BOOLEAN
  | CHAR
  | CURRENCY
  | DATA
  | DAYOFMONTH
  | EXCHANGE
  | FLOAT
  | INT
  | MONTHYEAR
  | MULTIPLEVALUESTRING
  | NUMINGROUP
  | PRICE
  | PRICEOFFSET
  | QTY
  | STRING
  | UTCDATE
  | UTCTIMEONLY
  deriving DecidableEq, Repr

/-- A field; `value` has the values of an enumeration and is empty for any other field. -/
structure FixFieldInfo where
  number : Text
  name : Name
  type : FieldType
  value : List Text
  deriving DecidableEq, Repr

structure FixField where
  name : Name
  required : Bool
  deriving DecidableEq, Repr

/-- The fields of a structure, which has a first one. -/
structure FixFields where
  first : FixField
  others : List FixField
  deriving DecidableEq, Repr

def FixFields.list (fs : FixFields) : List FixField := fs.first :: fs.others

inductive FixGroup where
  | mk (name : Name) (field : FixFields) (group : List FixGroup)

structure FixStructure where
  field : FixFields
  group : List FixGroup

def FixGroup.name : FixGroup → Name
  | mk name _ _ => name

def FixGroup.structure : FixGroup → FixStructure
  | mk _ field group => ⟨field, group⟩

structure FixMessage extends FixStructure where
  name : Name
  msgtype : Text

structure FixModel where
  header : FixFields
  trailer : FixFields
  fields : List FixFieldInfo
  messages : List FixMessage

namespace FixStructure

def fieldNames (S : FixStructure) : List Name := S.field.list.map (·.name)

def groupNames (S : FixStructure) : List Name := S.group.map (·.name)

end FixStructure

namespace FixModel

variable (m : FixModel)

/-- `fixFieldInfoNumberDict`, where the last of a number stands. -/
def byNumber (tag : Text) : Option FixFieldInfo := m.fields.reverse.find? (·.number = tag)

/-- `fixFieldInfoNameDict`. -/
def byName (name : Name) : Option FixFieldInfo := m.fields.reverse.find? (·.name = name)

/-- `fixMessageTypeDict`. -/
def messageOfType (msgtype : Text) : Option FixMessage :=
  m.messages.reverse.find? (·.msgtype = msgtype)

/-- `fixMessageNameDict`. -/
def messageOfName (name : Name) : Option FixMessage := m.messages.reverse.find? (·.name = name)

def numbers (fs : FixFields) : List Text :=
  fs.list.filterMap fun field => (m.byName field.name).map (·.number)

end FixModel

/-! ### Values -/

/-- The numbers of the language: how they print and what `parseFloat` reads.  A number is read as it
was printed, and prints without the characters of a token; `toNat?` is the natural number that it
is. -/
structure Numbers (ν : Type) where
  toText : ν → Text
  parseFloat : Text → ν
  toNat? : ν → Option ℕ
  truthy : ν → Bool
  parseFloat_toText : ∀ x, parseFloat (toText x) = x
  toText_clean : ∀ x, '|' ∉ toText x ∧ '=' ∉ toText x
  toNat?_parseFloat : ∀ n : ℕ, toNat? (parseFloat (Nat.toDigits 10 n)) = some n

/-- A value that is no array; an integer is none when it is not a number. -/
inductive Scalar (ν : Type) where
  | text (s : Text)
  | int (i : Option ℤ)
  | number (x : ν)
  | bool (b : Bool)
  | undefined
  deriving DecidableEq

/-- A key of a message and its value: a field has a scalar, and a group has its entries. -/
inductive Item (ν : Type) where
  | field (name : Name) (value : Scalar ν)
  | group (name : Name) (entries : List (List (Item ν)))

def Item.name {ν : Type} : Item ν → Name
  | field name _ => name
  | group name _ => name

/-- `FixDecodedMessage`. -/
structure FixDecodedMessage (ν : Type) where
  name : Name
  header : List (Item ν)
  body : List (Item ν)
  trailer : List (Item ν)

/-- `Object.keys`. -/
def keys {ν : Type} (body : List (Item ν)) : List Name := body.map (·.name)

/-- `Object.assign` of one key. -/
def assign {ν : Type} (body : List (Item ν)) (item : Item ν) : List (Item ν) :=
  if item.name ∈ keys body then body.map fun x => if x.name = item.name then item else x
  else body ++ [item]

structure FixToken where
  tag : Text
  value : Option Text
  deriving DecidableEq, Repr

inductive FixError where
  | parserNotImplemented (type : FieldType)
  | builderNotImplemented (type : FieldType)
  | missingRequiredFields (names : List Name)
  | fieldTagNotFound
  | tagNotFound (tag : Text)
  | numberOfGroups (name : Name)
  | messageNameNotFound
  | modelFieldNotFound (key : Name)
  | typeError
  /-- The parser never ends so (`getStructureValue_fuel`). -/
  | outOfFuel
  deriving DecidableEq, Repr

/-! ### Numbers -/

/-- The decimals of an integer. -/
def intText : ℤ → Text
  | .ofNat n => Nat.toDigits 10 n
  | .negSucc n => '-' :: Nat.toDigits 10 (n + 1)

/-- The digits that a text begins with. -/
def parseDigits (s : Text) : Option ℕ :=
  match s.takeWhile Char.isDigit with
  | [] => none
  | ds => some (Nat.ofDigitChars 10 ds 0)

def hexDigit (c : Char) : Option ℕ :=
  if c.isDigit then some (c.toNat - '0'.toNat)
  else if 'a' ≤ c ∧ c ≤ 'f' then some (c.toNat - 'a'.toNat + 10)
  else if 'A' ≤ c ∧ c ≤ 'F' then some (c.toNat - 'A'.toNat + 10)
  else none

/-- The hexadecimal digits that a text begins with. -/
def parseHexDigits (s : Text) : Option ℕ :=
  match s.takeWhile fun c => (hexDigit c).isSome with
  | [] => none
  | ds => some (ds.foldl (fun n c => 16 * n + (hexDigit c).getD 0) 0)

/-- The integer that a text without a sign begins with. -/
def parseUnsigned : Text → Option ℕ
  | '0' :: 'x' :: s => parseHexDigits s
  | '0' :: 'X' :: s => parseHexDigits s
  | s => parseDigits s

/-- `parseInt`. -/
def parseInt (s : Text) : Option ℤ :=
  match s.dropWhile Char.isWhitespace with
  | '-' :: s => (parseUnsigned s).map fun n => -(n : ℤ)
  | '+' :: s => (parseUnsigned s).map (↑)
  | s => (parseUnsigned s).map (↑)

section

variable {ν : Type} (js : Numbers ν)

/-- A value in a template. -/
def Scalar.toText : Scalar ν → Text
  | text s => s
  | int i => (i.map intText).getD "NaN".toList
  | number x => js.toText x
  | bool b => if b then "true".toList else "false".toList
  | undefined => "undefined".toList

def Scalar.truthy : Scalar ν → Bool
  | text s => s ≠ []
  | int i => i.isSome && decide (i ≠ some 0)
  | number x => js.truthy x
  | bool b => b
  | undefined => false

/-- The natural number that a value is. -/
def Scalar.toNat? : Scalar ν → Option ℕ
  | int (some (.ofNat n)) => some n
  | number x => js.toNat? x
  | _ => none

/-! ### The fields -/

/-- `fixFieldParsers`; the value is `undefined` when there is none. -/
def fixFieldParsers (x : Option Text) : FieldType → Except FixError (Scalar ν)
  | .BOOLEAN => .ok (.bool (x = some ['Y']))
  | .CHAR | .CURRENCY | .STRING => .ok ((x.map Scalar.text).getD .undefined)
  | .FLOAT | .PRICE | .PRICEOFFSET | .QTY =>
      .ok (.number (js.parseFloat (x.getD "undefined".toList)))
  | .INT => .ok (.int (parseInt (x.getD "undefined".toList)))
  | type => .error (.parserNotImplemented type)

/-- `fixFieldBuilders`, in a template. -/
def fixFieldBuilders (x : Scalar ν) : FieldType → Except FixError Text
  | .BOOLEAN => .ok (if x.truthy js then ['Y'] else ['N'])
  | .CHAR | .CURRENCY | .STRING | .FLOAT | .INT | .PRICE | .PRICEOFFSET | .QTY =>
      .ok (x.toText js)
  | type => .error (.builderNotImplemented type)

/-! ### The parser -/

namespace FixParser

variable (m : FixModel)

/-- Of the parts between the signs `=`, the first is the tag and the second the value. -/
def token (s : Text) : FixToken where
  tag := (s.splitOn '=').headD []
  value := (s.splitOn '=')[1]?

def tokens (fixMessage : Text) : List FixToken :=
  ((fixMessage.splitOn '|').filter (· ≠ [])).map token

/-- `getValue`. -/
def getValue (t : FixToken) : Except FixError (Item ν) :=
  match m.byNumber t.tag with
  | none => throw .fieldTagNotFound
  | some field => do
      let value ← fixFieldParsers js t.value field.type
      return .field field.name value

/-- `n` values, one after the other. -/
def times {σ α : Type} (parse : σ → Except FixError (α × σ)) : ℕ → σ → Except FixError (List α × σ)
  | 0, s => .ok ([], s)
  | n + 1, s => do
      let (a, s) ← parse s
      let (as, s) ← times parse n s
      return (a :: as, s)

/-- `getStructureValue`, from the keys that `message` has: the message, and the tokens that are left
where it ends. -/
def getStructureValue : ℕ → FixStructure → List (Item ν) → List FixToken →
    Except FixError (List (Item ν) × List FixToken)
  | _, _, message, [] => .ok (message, [])
  | 0, _, _, _ :: _ => .error .outOfFuel
  | fuel + 1, S, message, t :: tokens =>
      match m.byNumber t.tag with
      | none => throw (.tagNotFound t.tag)
      | some field => do
          let value ← fixFieldParsers js t.value field.type
          if field.name ∈ S.fieldNames then
            if field.name ∈ keys message then return (message, t :: tokens)
            else getStructureValue fuel S (message ++ [.field field.name value]) tokens
          else
            match S.group.find? fun group => group.name = field.name with
            | none => throw .typeError
            | some group =>
                -- What is no natural number is not the length of an array.
                match value.toNat? js with
                | none => throw (.numberOfGroups field.name)
                | some n => do
                    let (entries, tokens) ←
                      times (getStructureValue fuel group.structure []) n tokens
                    getStructureValue fuel S (assign message (.group field.name entries)) tokens

/-- The values of tokens, the last of a key. -/
def getValues (ts : List FixToken) : Except FixError (List (Item ν)) := do
  let values ← ts.mapM (getValue js m)
  return values.foldl assign []

/-- The type of a message, as its header has it. -/
def msgType (header : List (Item ν)) : Text :=
  match header.find? fun item => item.name = "MsgType" with
  | some (.field _ value) => value.toText js
  | _ => "undefined".toList

/-- `getFixMessage`. -/
def getFixMessage (ts : List FixToken) : Except FixError (FixDecodedMessage ν) := do
  let headerTokens := ts.filter fun t => t.tag ∈ m.numbers m.header
  let trailerTokens := ts.filter fun t => t.tag ∈ m.numbers m.trailer
  let messageTokens := ts.filter fun t => t.tag ∉ m.numbers m.header ∧ t.tag ∉ m.numbers m.trailer
  let header ← getValues js m headerTokens
  let trailer ← getValues js m trailerTokens
  match m.messageOfType (msgType js header) with
  | none => throw .typeError
  | some fixMessage => do
      let (body, _) ← getStructureValue js m messageTokens.length fixMessage.toFixStructure []
        messageTokens
      return ⟨fixMessage.name, header, body, trailer⟩

/-- The required fields that a message does not have. -/
def missingRequired (fs : FixFields) (body : List (Item ν)) : List Name :=
  ((fs.list.filter (·.required)).map (·.name)).filter (· ∉ keys body)

/-- The value of a key, when it has one that is not `undefined`. -/
def valueOf (body : List (Item ν)) (name : Name) : Option (Item ν) :=
  match body.find? fun item => item.name = name with
  | some (.field _ .undefined) => none
  | item => item

/-- `checkRequired` of a group, with the value of its name: nothing has no keys, an array has none
of the names of the groups of a group, and what is missing in it is not reported. -/
def checkRequiredGroup (body : List (Item ν)) (group : FixGroup) : Except FixError Unit :=
  if valueOf body group.name = none ∨ group.structure.group ≠ [] then throw .typeError else pure ()

/-- `checkRequired`. -/
def checkRequired (S : FixStructure) (body : List (Item ν)) : Except FixError (List Name) := do
  S.group.forM (checkRequiredGroup body)
  return missingRequired S.field body

/-- `checkRequiredFields`. -/
def checkRequiredFields (message : FixDecodedMessage ν) : Except FixError (List Name) :=
  match m.messageOfName message.name with
  | none => throw .messageNameNotFound
  | some fixMessage => do
      let missing ← checkRequired fixMessage.toFixStructure message.body
      return missingRequired m.header message.header ++ missing ++
        missingRequired m.trailer message.trailer

def parse (fixMessage : Text) : Except FixError (FixDecodedMessage ν) := do
  let message ← getFixMessage js m (tokens fixMessage)
  let missing ← checkRequiredFields m message
  if missing ≠ [] then throw (.missingRequiredFields missing)
  else return message

/-! ### The builder -/

/-- `number=value|`. -/
def tokenText (number value : Text) : Text := number ++ '=' :: value ++ ['|']

mutual

/-- The text of a key.  A scalar where the model has a group, or entries where it has a field, are
no value of the model, and throw. -/
def buildItem (S : FixStructure) : Item ν → Except FixError Text
  | .field key value =>
      match m.byName key with
      | none => throw (.modelFieldNotFound key)
      | some field =>
          if key ∈ S.fieldNames then do
            let tokenValue ← fixFieldBuilders js value field.type
            return tokenText field.number tokenValue
          else throw .typeError
  | .group key entries =>
      match m.byName key with
      | none => throw (.modelFieldNotFound key)
      | some field =>
          if key ∈ S.fieldNames then throw .typeError
          else
            match S.group.find? fun group => group.name = key with
            | none => throw .typeError
            | some group => do
                let texts ← buildEntries group.structure entries
                return tokenText field.number (Nat.toDigits 10 entries.length) ++ texts

/-- `buildMessage`. -/
def buildMessage (S : FixStructure) : List (Item ν) → Except FixError Text
  | [] => pure []
  | item :: body => do
      let text ← buildItem S item
      let texts ← buildMessage S body
      return text ++ texts

def buildEntries (S : FixStructure) : List (List (Item ν)) → Except FixError Text
  | [] => pure []
  | entry :: entries => do
      let text ← buildMessage S entry
      let texts ← buildEntries S entries
      return text ++ texts

end

def build (message : FixDecodedMessage ν) : Except FixError Text :=
  match m.messageOfName message.name with
  | none => throw .messageNameNotFound
  | some fixMessage => do
      let header ← buildMessage js m ⟨m.header, []⟩ message.header
      let body ← buildMessage js m fixMessage.toFixStructure message.body
      let trailer ← buildMessage js m ⟨m.trailer, []⟩ message.trailer
      return header ++ body ++ trailer

end FixParser

end

end Tradair

end ZroServices
