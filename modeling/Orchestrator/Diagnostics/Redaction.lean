import Orchestrator.Python.Number
import Orchestrator.Python.Regex
import Orchestrator.Replacement.Places

/-!
Masking secrets in a diagnostic text, and the log tail that is kept of a removed worker. The
characters may carry the place they come from, so that a run shows what is left of the text.
-/

namespace Orchestrator.Diagnostics

open Python Replacement

structure Letters (A : Type) where
  view : A → Char
  write : Char → A

def plain : Letters Char := ⟨id, id⟩

def traced : Letters (Char × Option Nat) := ⟨Prod.fst, fun c => (c, none)⟩

def trace (text : List Char) : List (Char × Option Nat) := text.zipIdx.map fun entry => (entry.1, some entry.2)

def redacted : List Char := ['[', 'r', 'e', 'd', 'a', 'c', 't', 'e', 'd', ']']

def foldCase (c : Char) : Char :=
  if c = '\u0130' ∨ c = '\u0131' then 'i'
  else if c = '\u017f' then 's'
  else if c = '\u212a' then 'k'
  else c.toLower

abbrev Pattern := List Char → List (List Char × List Char)

def one (c : Char → Bool) : Regex.Piece Char
  | [] => []
  | x :: rest => if c x then [rest] else []

def some1 (c : Char → Bool) : Regex.Piece Char := fun text => (one c text).flatMap (Regex.greedy c)

def word (letters : String) : Regex.Piece Char := fun text =>
  if letters.toList.isPrefixOf (text.map foldCase) then [text.drop letters.toList.length] else []

def isLetter (c : Char) : Bool := 'a' ≤ foldCase c && foldCase c ≤ 'z'

def isSchemeChar (c : Char) : Bool := isLetter c || ('0' ≤ c && c ≤ '9') || c == '+' || c == '.' || c == '-'

def isUserChar (c : Char) : Bool := !isSpace c && c != '/' && c != '@'

/-- `(?P<scheme>[a-z][a-z0-9+.-]*://)[^\s/@]+@` -/
def urlUserinfo : Pattern := fun text =>
  ((one isLetter text).flatMap (Regex.greedy isSchemeChar)).flatMap fun afterScheme =>
    (Regex.literal "://".toList afterScheme).flatMap fun afterGroup =>
      ((some1 isUserChar afterGroup).flatMap (Regex.literal ['@'])).map fun rest => (afterGroup, rest)

/-- `(authorization\s*:\s*(?:basic|bearer)\s+)[^\s]+` -/
def authorization : Pattern := fun text =>
  ((((word "authorization" text).flatMap (Regex.greedy isSpace)).flatMap (Regex.literal [':'])).flatMap (Regex.greedy isSpace)).flatMap
    fun beforeScheme =>
      ((word "basic" beforeScheme ++ word "bearer" beforeScheme).flatMap (some1 isSpace)).flatMap fun afterGroup =>
        (some1 (fun c => !isSpace c) afterGroup).map fun rest => (afterGroup, rest)

section Redacting

variable {A : Type} (l : Letters A)

def Letters.mark : List A := redacted.map l.write

def maskSecrets (secrets : List (List Char)) (text : List A) : List A := replaceEach l.view l.mark secrets text

/-- `pattern.sub(text)`, with the group kept and the rest of a match replaced; the number says how many
characters belong to a match that is already replaced. -/
def substituteFrom (pattern : Pattern) (template : List A) : Nat → List A → List A
  | _, [] => []
  | n + 1, _ :: rest => substituteFrom pattern template n rest
  | 0, a :: rest =>
    match (pattern ((a :: rest).map l.view)).head? with
    | none => a :: substituteFrom pattern template 0 rest
    | some (afterGroup, afterMatch) =>
      (a :: rest).take ((a :: rest).length - afterGroup.length) ++ template ++
        substituteFrom pattern template (rest.length - afterMatch.length) rest

def redactDiagnostic (secrets : List (List Char)) (text : List A) : List A :=
  let text := maskSecrets l secrets text
  let text := substituteFrom l urlUserinfo (l.mark ++ [l.write '@']) 0 text
  substituteFrom l authorization l.mark 0 text

def isSecretName (name : List Char) : Bool :=
  name.tails.any fun rest =>
    ["key", "secret", "token", "password", "credential", "authorization"].any fun part => !(word part rest).isEmpty

def secretEnvValues (environment : List (List Char × List Char)) : List (List Char) :=
  (environment.filter fun entry => !entry.2.isEmpty && isSecretName entry.1).map Prod.snd

def removalLogTailMaxChars : Nat := 12000

def boundedTail (raw : List A) (environment : List (List Char × List Char)) : List A :=
  let redacted := redactDiagnostic l (secretEnvValues environment) raw
  if redacted.length > removalLogTailMaxChars then redacted.drop (redacted.length - removalLogTailMaxChars) else redacted

end Redacting

end Orchestrator.Diagnostics
