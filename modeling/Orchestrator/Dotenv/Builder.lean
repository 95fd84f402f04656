import Mathlib.Data.List.Sort
import Orchestrator.Keyed
import Orchestrator.VariableNames

/-!
The `.env` file of a deployment, and how Compose reads it back.
-/

namespace Orchestrator.Dotenv

structure Secrets where
  entries : List (String × String)
  nodup : (entries.map (·.1)).Nodup
  named : ∀ entry ∈ entries, isName entry.1.toList = true

def specials : List Char := [' ', '=', '"', '\x27', '\n', '#']

def needsQuoting (value : List Char) : Bool := specials.any fun c => value.contains c

def replace (old : Char) (new : List Char) (text : List Char) : List Char := text.flatMap fun c => if c = old then new else [c]

def escaped (value : List Char) : List Char := replace '"' ['\\', '"'] (replace '\\' ['\\', '\\'] value)

def line (key : String) (value : String) : List Char :=
  if needsQuoting value.toList then key.toList ++ '=' :: '"' :: (escaped value.toList ++ ['"'])
  else key.toList ++ '=' :: value.toList

def Secrets.sorted (secrets : Secrets) : List (String × String) := secrets.entries.insertionSort fun e e' => e.1 ≤ e'.1

def buildDotenv (secrets : Secrets) : List Char := ['\n'].intercalate (secrets.sorted.map fun entry => line entry.1 entry.2)

section Substitution

inductive Reference where
  | dollar
  | variable (name : List Char)
  | operated (name : List Char) (colon : Bool) (operator : Char) (word : List Char)

inductive Reading where
  | plain
  | invalid
  | refers (reference : Reference) (rest : List Char)

/-- A word up to the brace that closes it, and what follows the brace -/
def splitWord : Nat → List Char → Option (List Char × List Char)
  | _, [] => none
  | depth, '$' :: '$' :: rest => (splitWord depth rest).map fun split => ('$' :: '$' :: split.1, split.2)
  | depth, '$' :: '{' :: rest => (splitWord (depth + 1) rest).map fun split => ('$' :: '{' :: split.1, split.2)
  | 0, '}' :: rest => some ([], rest)
  | depth + 1, '}' :: rest => (splitWord depth rest).map fun split => ('}' :: split.1, split.2)
  | depth, c :: rest => (splitWord depth rest).map fun split => (c :: split.1, split.2)

def operation (name : List Char) (colon : Bool) : List Char → Reading
  | [] => .invalid
  | operator :: rest =>
    if ['-', '?', '+'].contains operator then match splitWord 0 rest with
      | some (word, after) => .refers (.operated name colon operator word) after
      | none => .invalid
    else .invalid

def braced (name : List Char) : List Char → Reading
  | '}' :: rest => if name = [] then .invalid else .refers (.variable name) rest
  | ':' :: rest => if name = [] then .invalid else operation name true rest
  | rest => if name = [] then .invalid else operation name false rest

/-- What a `$` before `text` stands for: `$$`, `$NAME`, `${NAME}`, or `${NAME` with one of `:-`, `-`, `:?`, `?`,
`:+`, `+` and a word. -/
def reading (text : List Char) : Reading :=
  match text with
  | '$' :: rest => .refers .dollar rest
  | '{' :: rest => braced (leadingName rest) (rest.drop (leadingName rest).length)
  | _ => if leadingName text = [] then .plain else .refers (.variable (leadingName text)) (text.drop (leadingName text).length)

variable (look : List Char → Option (List Char))

def Reference.value (substitute : List Char → Option (List Char)) : Reference → Option (List Char)
  | .dollar => some ['$']
  | .variable name => some ((look name).getD [])
  | .operated name colon operator word => do
    let word ← substitute word
    match (look name).filter fun value => !(colon && value.isEmpty) with
    | some value => some (if operator = '+' then word else value)
    | none => if operator = '+' then some [] else if operator = '-' then some word else none

/-- A text as long as the fuel at most; a word in it is shorter. -/
def substitute : Nat → List Char → Option (List Char)
  | _, [] => some []
  | 0, _ => none
  | fuel + 1, c :: rest => if c = '$' then match reading rest with
      | .plain => (substitute fuel rest).map (c :: ·)
      | .invalid => none
      | .refers reference after => do
        let value ← reference.value look (substitute fuel)
        let tail ← substitute fuel after
        return value ++ tail
    else (substitute fuel rest).map (c :: ·)

end Substitution

section Reading

/-- The white space of Unicode -/
def isBlank (c : Char) : Bool :=
  ['\t', '\n', '\x0b', '\x0c', '\r', ' ', '\u0085', '\u00a0', '\u1680', '\u2028', '\u2029', '\u202f', '\u205f', '\u3000'].contains c ||
    ('\u2000' ≤ c && c ≤ '\u200a')

def trim (text : List Char) : List Char := ((text.dropWhile isBlank).reverse.dropWhile isBlank).reverse

inductive Mode where
  | name (read : List Char)
  | value (name : List Char)
  | bare (name read : List Char)
  | double (name read : List Char)
  | escape (name read : List Char)
  | single (name read : List Char)
  | closed
  | failed

structure Reader where
  entries : List (String × String)
  mode : Mode

variable (environment : String → Option String)

/-- `$NAME` is what the environment says, else what the file has said so far. -/
def expand (entries : List (String × String)) (text : List Char) : Option (List Char) :=
  substitute (fun name => ((environment (String.ofList name)).or (entries.lookup (String.ofList name))).map String.toList)
    text.length text

def unescape (c : Char) : List Char :=
  if c = 'n' then ['\n'] else if c = 'r' then ['\r'] else if c = 't' then ['\t']
  else if c = '\\' ∨ c = '"' then [c] else ['\\', c]

def Reader.closeWith (r : Reader) (name : List Char) (text : Option (List Char)) (mode : Mode) : Reader :=
  match text with
  | some text => ⟨put r.entries (String.ofList name) (String.ofList text), mode⟩
  | none => { r with mode := .failed }

def Reader.bareStep (r : Reader) (name read : List Char) (c : Char) : Reader :=
  if c = '\n' then r.closeWith name (expand environment r.entries (trim read)) (.name [])
  else if c = '#' ∧ read.getLast? = some ' ' then r.closeWith name (expand environment r.entries (trim read)) .closed
  else { r with mode := .bare name (read ++ [c]) }

def Reader.step (r : Reader) (c : Char) : Reader :=
  match r.mode with
  | .name read =>
    if c = '=' then { r with mode := .value read }
    else if c = '\n' then { r with mode := .name [] }
    else { r with mode := .name (read ++ [c]) }
  | .value name =>
    if c = '"' then { r with mode := .double name [] }
    else if c = '\x27' then { r with mode := .single name [] }
    else r.bareStep environment name [] c
  | .bare name read => r.bareStep environment name read c
  | .double name read =>
    if c = '"' then r.closeWith name (expand environment r.entries read) .closed
    else if c = '\\' then { r with mode := .escape name read }
    else { r with mode := .double name (read ++ [c]) }
  | .escape name read => { r with mode := .double name (read ++ unescape c) }
  | .single name read =>
    if c = '\x27' then r.closeWith name (some read) .closed else { r with mode := .single name (read ++ [c]) }
  | .closed => if c = '\n' then { r with mode := .name [] } else r
  | .failed => r

def Reader.outcome (r : Reader) : Option (List (String × String)) :=
  match r.mode with
  | .failed => none
  | _ => some r.entries

def readDotenv (text : List Char) : Option (List (String × String)) :=
  ((text ++ ['\n']).foldl (Reader.step environment) ⟨[], .name []⟩).outcome

end Reading

end Orchestrator.Dotenv
