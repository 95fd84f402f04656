import Orchestrator.Python.Number

/-!
`json.loads` on every text, code points that stand alone for half a pair included:
the tokens of a text, and a machine that reads them with the containers still open.
-/

namespace Orchestrator.Json

open Python

abbrev Text := List Nat

def text (s : String) : Text := s.toList.map Char.toNat

inductive Value where
  | null
  | bool (b : Bool)
  | int (n : Int)
  | float (literal : Text)
  | text (s : Text)
  | list (items : List Value)
  | object (entries : List (Text × Value))

abbrev Entries := List (Text × Value)

/-- What `json.loads` raises; only the first is a `JSONDecodeError`. -/
inductive LoadsError where
  | decodeError
  | valueError
  | recursionError
deriving DecidableEq

structure Limits where
  depth : Nat
  digits : Nat

inductive Token where
  | openObject
  | closeObject
  | openList
  | closeList
  | comma
  | colon
  | text (s : Text)
  | null
  | bool (b : Bool)
  | int (n : Int)
  | float (literal : Text)
  | tooLong
  | bad

def isWhitespace (c : Nat) : Bool := c == 0x20 || c == 0x9 || c == 0xa || c == 0xd

def isDigit (c : Nat) : Bool := 0x30 ≤ c && c ≤ 0x39

def hexValue (c : Nat) : Option Nat :=
  if isDigit c then some (c - 0x30)
  else if 0x61 ≤ c && c ≤ 0x66 then some (c - 0x61 + 10)
  else if 0x41 ≤ c && c ≤ 0x46 then some (c - 0x41 + 10)
  else none

def hexUnit (a b c d : Nat) : Option Nat := do
  let a ← hexValue a
  let b ← hexValue b
  let c ← hexValue c
  let d ← hexValue d
  pure (((a * 16 + b) * 16 + c) * 16 + d)

def isHighSurrogate (u : Nat) : Bool := 0xd800 ≤ u && u ≤ 0xdbff

def isLowSurrogate (u : Nat) : Bool := 0xdc00 ≤ u && u ≤ 0xdfff

def lowHalf : Text → Option Nat
  | 0x5c :: 0x75 :: a :: b :: c :: d :: _ => (hexUnit a b c d).filter isLowSurrogate
  | _ => none

def simpleEscape (c : Nat) : Option Nat :=
  if c == 0x22 || c == 0x5c || c == 0x2f then some c
  else if c == 0x62 then some 0x8
  else if c == 0x66 then some 0xc
  else if c == 0x6e then some 0xa
  else if c == 0x72 then some 0xd
  else if c == 0x74 then some 0x9
  else none

def prepend (c consumed : Nat) (scanned : Option (Text × Nat)) : Option (Text × Nat) :=
  scanned.map fun found => (c :: found.1, found.2 + consumed)

def scanString : Text → Option (Text × Nat)
  | [] => none
  | 0x22 :: _ => some ([], 1)
  | 0x5c :: 0x75 :: a :: b :: c :: d :: rest => match hexUnit a b c d with
    | none => none
    | some u => match isHighSurrogate u, lowHalf rest, rest with
      | true, some low, _ :: _ :: _ :: _ :: _ :: _ :: after =>
        prepend (0x10000 + (u - 0xd800) * 0x400 + (low - 0xdc00)) 12 (scanString after)
      | _, _, rest => prepend u 6 (scanString rest)
  | 0x5c :: c :: rest => match simpleEscape c with
    | none => none
    | some e => prepend e 2 (scanString rest)
  | c :: rest => if c < 0x20 || c == 0x5c then none else prepend c 1 (scanString rest)

def digitsValue (digits : Text) : Nat := digits.foldl (fun n c => 10 * n + (c - 0x30)) 0

def fractionLength : Text → Nat
  | 0x2e :: rest => if (rest.takeWhile isDigit).isEmpty then 0 else 1 + (rest.takeWhile isDigit).length
  | _ => 0

def signLength : Text → Nat
  | c :: _ => if c = 0x2b ∨ c = 0x2d then 1 else 0
  | [] => 0

def exponentLength : Text → Nat
  | e :: rest =>
    if e = 0x65 ∨ e = 0x45 then
      let digits := (rest.drop (signLength rest)).takeWhile isDigit
      if digits.isEmpty then 0 else 1 + (signLength rest + digits.length)
    else 0
  | [] => 0

def minusLength (document : Text) : Nat := if document.head? = some 0x2d then 1 else 0

def integerDigits (document : Text) : Text :=
  if document.head? = some 0x30 then [0x30] else document.takeWhile isDigit

def scanNumber (limits : Limits) (document : Text) : Token × Nat :=
  let minus := minusLength document
  let digits := integerDigits (document.drop minus)
  let integer := minus + digits.length
  let fraction := fractionLength (document.drop integer)
  let length := integer + fraction + exponentLength (document.drop (integer + fraction))
  if digits.isEmpty then (.bad, 1)
  else if integer < length then (.float (document.take length), length)
  else if limits.digits ≠ 0 ∧ limits.digits < digits.length then (.tooLong, length)
  else (.int (if minus = 1 then -Int.ofNat (digitsValue digits) else Int.ofNat (digitsValue digits)), length)

def words : List (Text × Token) :=
  [(text "null", .null), (text "true", .bool true), (text "false", .bool false), (text "NaN", .float (text "NaN")),
    (text "Infinity", .float (text "Infinity")), (text "-Infinity", .float (text "-Infinity"))]

def punctuation : List (Nat × Token) :=
  [(0x7b, .openObject), (0x7d, .closeObject), (0x5b, .openList), (0x5d, .closeList), (0x2c, .comma), (0x3a, .colon)]

def scan (limits : Limits) (c : Nat) (rest : Text) : Token × Nat :=
  if c = 0x22 then match scanString rest with
    | some found => (.text found.1, found.2)
    | none => (.bad, 0)
  else match punctuation.find? fun mark => mark.1 = c with
    | some mark => (mark.2, 0)
    | none => match words.find? fun word => word.1.isPrefixOf (c :: rest) with
      | some word => (word.2, word.1.length - 1)
      | none => ((scanNumber limits (c :: rest)).1, (scanNumber limits (c :: rest)).2 - 1)

/-- The tokens after the next `skip` code points. -/
def tokensFrom (limits : Limits) : Nat → Text → List Token
  | _, [] => []
  | skip + 1, _ :: rest => tokensFrom limits skip rest
  | 0, c :: rest =>
    if isWhitespace c then tokensFrom limits 0 rest
    else (scan limits c rest).1 :: tokensFrom limits (scan limits c rest).2 rest

inductive Frame where
  | list (items : List Value)
  | object (entries : Entries) (key : Text)

inductive Mode where
  | value
  | firstItem
  | firstKey
  | key (entries : Entries)
  | colon (entries : Entries) (key : Text)
  | done (value : Value)

def setEntry : Entries → Text → Value → Entries
  | [], key, value => [(key, value)]
  | entry :: rest, key, value =>
    if entry.1 = key then (key, value) :: rest else entry :: setEntry rest key value

def beginValue (limits : Limits) (frames : List Frame) (token : Token) : Except LoadsError (Mode × List Frame) :=
  match token with
  | .text s => .ok (.done (.text s), frames)
  | .null => .ok (.done .null, frames)
  | .bool b => .ok (.done (.bool b), frames)
  | .int n => .ok (.done (.int n), frames)
  | .float literal => .ok (.done (.float literal), frames)
  | .openList => if limits.depth ≤ frames.length then .error .recursionError else .ok (.firstItem, .list [] :: frames)
  | .openObject => if limits.depth ≤ frames.length then .error .recursionError else .ok (.firstKey, frames)
  | .tooLong => .error .valueError
  | _ => .error .decodeError

def step (limits : Limits) (state : Mode × List Frame) (token : Token) : Except LoadsError (Mode × List Frame) :=
  match state.1, state.2, token with
  | .value, frames, token => beginValue limits frames token
  | .firstItem, .list [] :: frames, .closeList => .ok (.done (.list []), frames)
  | .firstItem, frames, token => beginValue limits frames token
  | .firstKey, frames, .closeObject => .ok (.done (.object []), frames)
  | .firstKey, frames, .text key => .ok (.colon [] key, frames)
  | .key entries, frames, .text key => .ok (.colon entries key, frames)
  | .colon entries key, frames, .colon => .ok (.value, .object entries key :: frames)
  | .done value, .list items :: frames, .comma => .ok (.value, .list (items ++ [value]) :: frames)
  | .done value, .list items :: frames, .closeList => .ok (.done (.list (items ++ [value])), frames)
  | .done value, .object entries key :: frames, .comma => .ok (.key (setEntry entries key value), frames)
  | .done value, .object entries key :: frames, .closeObject =>
    .ok (.done (.object (setEntry entries key value)), frames)
  | _, _, _ => .error .decodeError

def readTokens (limits : Limits) (state : Mode × List Frame) : List Token → Except LoadsError Value
  | [] => match state with
    | (.done value, []) => .ok value
    | _ => .error .decodeError
  | token :: rest => match step limits state token with
    | .error e => .error e
    | .ok state => readTokens limits state rest

def loads (limits : Limits) (document : Text) : Except LoadsError Value :=
  readTokens limits (.value, []) (tokensFrom limits 0 document)

def isSpace (c : Nat) : Bool := Python.isSpace (Char.ofNat c)

def strip (text : Text) : Text := ((text.dropWhile isSpace).reverse.dropWhile isSpace).reverse

def get? (entries : Entries) (key : Text) : Option Value := (entries.find? fun entry => entry.1 = key).map Prod.snd

end Orchestrator.Json
