import Orchestrator.Python.Number
import Orchestrator.Usage.Interpolation

/-!
Which variables a shell script expands, as the scanner finds them line by line.
-/

namespace Orchestrator.Usage

open Python

inductive Quote where
  | none
  | single
  | double
  deriving DecidableEq

def expandableFrom : Quote → Option Char → List Char → List Char
  | _, _, [] => []
  | .single, _, c :: rest => expandableFrom (if c = '\x27' then .none else .single) (some c) rest
  | .double, _, c :: rest =>
    if c = '\\' then match rest with
      | [] => []
      | escaped :: rest => expandableFrom .double (some escaped) rest
    else if c = '"' then expandableFrom .none (some c) rest
    else c :: expandableFrom .double (some c) rest
  | .none, previous, c :: rest =>
    if c = '\\' then match rest with
      | [] => []
      | escaped :: rest => expandableFrom .none (some escaped) rest
    else if c = '\x27' then expandableFrom .single (some c) rest
    else if c = '"' then expandableFrom .double (some c) rest
    else if c = '#' ∧ previous.all isSpace = true then []
    else c :: expandableFrom .none (some c) rest

def shellExpandableText (line : List Char) : List Char := expandableFrom .none none line

def shellReference (text : List Char) : Option (List Char) :=
  match text with
  | '{' :: rest =>
    if leadingName rest ≠ [] ∧ startsWithOneOf operatorChars (rest.drop (leadingName rest).length) = true then some (leadingName rest)
    else none
  | rest => if leadingName rest ≠ [] then some (leadingName rest) else none

def shellReferencesOf : List Char → List (List Char)
  | [] => []
  | c :: rest => (if c = '$' then (shellReference rest).toList else []) ++ shellReferencesOf rest

def isLineBreak (c : Char) : Bool := [0xa, 0xb, 0xc, 0xd, 0x1c, 0x1d, 0x1e, 0x85, 0x2028, 0x2029].contains c.toNat

def splitlinesFrom (line : List Char) : List Char → List (List Char)
  | [] => if line = [] then [] else [line]
  | '\r' :: '\n' :: rest => line :: splitlinesFrom [] rest
  | c :: rest => if isLineBreak c then line :: splitlinesFrom [] rest else splitlinesFrom (line ++ [c]) rest

def splitlines (text : List Char) : List (List Char) := splitlinesFrom [] text

def assignedName (text : List Char) : Option (List Char × List Char) :=
  match text.drop (leadingName text).length with
  | '=' :: value => if leadingName text ≠ [] then some (leadingName text, value) else none
  | _ => none

def declarationWords : List String := ["export", "local", "readonly", "declare"]

def afterDeclaration (text : List Char) : Option (List Char) :=
  (declarationWords.find? fun word => word.toList.isPrefixOf text).bind fun word =>
    let rest := text.drop word.toList.length
    if (rest.head?.any isSpace) = true then some (rest.dropWhile isSpace) else none

def assignment (line : List Char) : Option (List Char × List Char) :=
  let body := line.dropWhile isSpace
  ((afterDeclaration body).bind assignedName).or (assignedName body)

variable (classes : CharacterClasses)

/-- What `_SHELL_READ` reads after `read`: options, and a name up to the end of the word. -/
def readName (text : List Char) : Option (List Char) :=
  if (text.head?.any isSpace) = true then
    match _ : text.dropWhile isSpace with
    | '-' :: option => if (option.head?.any Char.isAlpha) = true then readName (option.dropWhile Char.isAlpha) else none
    | spaced =>
      if leadingName spaced ≠ [] ∧ ((spaced.drop (leadingName spaced).length).head?.all fun c => !classes.inName c) = true then
        some (leadingName spaced)
      else none
  else none
termination_by text.length
decreasing_by
  have hle : (text.dropWhile isSpace).length ≤ text.length := (List.dropWhile_suffix _).length_le
  have hafter : (option.dropWhile Char.isAlpha).length ≤ option.length := (List.dropWhile_suffix _).length_le
  have hspaced : (text.dropWhile isSpace).length = option.length + 1 := by simp [*]
  omega

def readSearch (previous : Option Char) : List Char → Option (List Char)
  | [] => none
  | c :: rest =>
    (if "read".toList.isPrefixOf (c :: rest) = true ∧ (previous.all fun c => !classes.inName c) = true then
      readName classes ((c :: rest).drop "read".toList.length) else none).or (readSearch (some c) rest)

def shellBuiltins : List (List Char) :=
  ["BASH_SOURCE", "HOME", "LOGNAME", "OLDPWD", "PATH", "PWD", "PYTHONPATH", "RANDOM", "SHELL", "USER"].map String.toList

def localNames (line : List Char) : List (List Char) :=
  (match assignment line with
    | some (name, value) => if name ∈ shellReferencesOf (shellExpandableText value) then [] else [name]
    | none => []) ++
  (readSearch classes none line).toList

structure EnvReference where
  key : List Char
  path : String
  line : Nat
  source : String

def shellReferences (path : String) (text : Option (List Char)) : List EnvReference :=
  match text with
  | none => []
  | some text =>
    let lines := splitlines text
    let names := lines.flatMap (localNames classes)
    let references := (lines.zipIdx 1).flatMap fun (line, number) =>
      (shellReferencesOf (shellExpandableText line)).map fun key => (⟨key, path, number, "shell"⟩ : EnvReference)
    references.filter fun reference => !names.contains reference.key && !shellBuiltins.contains reference.key

end Orchestrator.Usage
