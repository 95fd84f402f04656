import Mathlib.Data.List.DropRight
import Orchestrator.Python.Lines
import Orchestrator.Python.Value

/-!
A mapping of one key whose value is a literal block scalar, `key: |`, and what YAML reads in it:
the indentation is found from the first line that is not blank, and the line breaks at the end
are clipped to one.
-/

namespace Orchestrator.Yaml

open Python

inductive Version where
  | v1_1
  | v1_2

namespace Version

def newline : Version → Char → Bool
  | .v1_1, c => c == '\n' || c == '\r' || c == '\u0085'
  | .v1_2, c => c == '\n' || c == '\r'

def printable (c : Char) : Bool :=
  let n := c.toNat
  n == 0x9 || n == 0xa || n == 0xd || (0x20 ≤ n && n ≤ 0x7e) || n == 0x85 || (0xa0 ≤ n && n ≤ 0xd7ff) ||
    (0xe000 ≤ n && n ≤ 0xfffd) || 0x10000 ≤ n

def readable : Version → Char → Bool
  | .v1_1, c => printable c
  | .v1_2, c => printable c && c != '\ufeff'

theorem boundary_of_newline {v : Version} {c : Char} (h : v.newline c = true) : isBoundary c = true := by
  have hc : c = '\n' ∨ c = '\r' ∨ c = '\u0085' := by
    cases v <;> simp [newline] at h <;> tauto
  rcases hc with rfl | rfl | rfl <;> rfl

theorem newline_feed (v : Version) : v.newline '\n' = true := by cases v <;> rfl

theorem newline_return (v : Version) : v.newline '\r' = true := by cases v <;> rfl

end Version

def isBreak (c : Char) : Bool := c == '\n' || c == '\r' || c == '\u0085' || c == '\u2028' || c == '\u2029'

def isBlank (line : List Char) : Bool := line.all (· == ' ')

def indentOf (line : List Char) : Nat := (line.takeWhile (· == ' ')).length

def detect : List (List Char) → Nat
  | [] => 0
  | line :: rest => if isBlank line then max line.length (detect rest) else indentOf line

def taken (n : Nat) : List (List Char) → List (List Char)
  | [] => []
  | line :: rest => if isBlank line || n ≤ indentOf line then line.drop n :: taken n rest else []

def contents (lines : List (List Char)) : List (List Char) := taken (max 1 (detect lines)) lines

def literal (lines : List (List Char)) : List Char := unlines ((contents lines).rdropWhile List.isEmpty)

def Whole (lines : List (List Char)) : Prop := (contents lines).length = lines.length

instance : DecidablePred Whole := fun lines => inferInstanceAs (Decidable ((contents lines).length = lines.length))

def Plain (lines : List (List Char)) : Prop := ∀ line ∈ lines, (∀ c ∈ line, isBreak c = false) ∧ (line = [] ∨ line.head? = some ' ')

def header (key : List Char) : List Char := key ++ [':', ' ', '|', '\n']

def literalBlock (key : List Char) (lines : List (List Char)) : List Char := header key ++ unlines lines

/-- A loader that takes `key` for a text, as far as it is asked to read literal block scalars. -/
structure Loader (v : Version) (key : List Char) where
  load : List Char → Option Value
  refuses : ∀ (text : List Char) (c : Char), c ∈ text → v.readable c = false → load text = none
  reads : ∀ lines, Plain lines → ∀ value, load (literalBlock key lines) = some value →
    ∃ entries, value = .mapping entries ∧ entries.lookup (String.ofList key) = some (.text (String.ofList (literal lines)))
  accepts : ∀ lines, Plain lines → (∀ c ∈ literalBlock key lines, v.readable c = true) → Whole lines →
    load (literalBlock key lines) = some (.mapping [(String.ofList key, .text (String.ofList (literal lines)))])

section Reference

def linesOf : List Char → List Char → List (List Char)
  | _, [] => []
  | line, '\n' :: rest => line :: linesOf [] rest
  | line, c :: rest => linesOf (line ++ [c]) rest

theorem linesOf_append {part : List Char} (h : ∀ c ∈ part, isBreak c = false) (line rest : List Char) :
    linesOf line (part ++ '\n' :: rest) = (line ++ part) :: linesOf [] rest := by
  induction part generalizing line with
  | nil => rw [List.nil_append, List.append_nil, linesOf]
  | cons c part ih =>
    obtain ⟨hc, hpart⟩ := List.forall_mem_cons.mp h
    rw [List.cons_append, linesOf]
    · rw [ih hpart, List.append_assoc, List.singleton_append]
    · rintro rfl
      cases hc

theorem linesOf_unlines {lines : List (List Char)} (h : Plain lines) : linesOf [] (unlines lines) = lines := by
  induction lines with
  | nil => rfl
  | cons line rest ih =>
    obtain ⟨hline, hrest⟩ := List.forall_mem_cons.mp h
    rw [unlines_cons, linesOf_append hline.1, ih hrest, List.nil_append]

variable (v : Version) (key : List Char)

def readLiteral (text : List Char) : Option Value :=
  if text.all v.readable && (header key).isPrefixOf text then
    let lines := linesOf [] (text.drop (header key).length)
    if Whole lines then some (.mapping [(String.ofList key, .text (String.ofList (literal lines)))]) else none
  else none

theorem readLiteral_literalBlock {lines : List (List Char)} (h : Plain lines) (hreadable : ∀ c ∈ literalBlock key lines, v.readable c = true) :
    readLiteral v key (literalBlock key lines) =
      if Whole lines then some (.mapping [(String.ofList key, .text (String.ofList (literal lines)))]) else none := by
  have hbegins : (header key).isPrefixOf (literalBlock key lines) = true :=
    List.isPrefixOf_iff_prefix.mpr (List.prefix_append _ _)
  have hdrop : (literalBlock key lines).drop (header key).length = unlines lines := List.drop_left
  unfold readLiteral
  rw [List.all_eq_true.mpr hreadable, hbegins, hdrop, linesOf_unlines h]
  rfl

def reference : Loader v key where
  load := readLiteral v key
  refuses := by
    intro text c hmem hc
    have hall : text.all v.readable = false := List.all_eq_false.mpr ⟨c, hmem, by simp [hc]⟩
    unfold readLiteral
    rw [hall]
    rfl
  reads := by
    intro lines h value hload
    by_cases hreadable : ∀ c ∈ literalBlock key lines, v.readable c = true
    · rw [readLiteral_literalBlock v key h hreadable] at hload
      split at hload
      · obtain rfl := Option.some.inj hload
        exact ⟨_, rfl, List.lookup_cons_self⟩
      · cases hload
    · push Not at hreadable
      obtain ⟨c, hmem, hc⟩ := hreadable
      have hall : (literalBlock key lines).all v.readable = false := List.all_eq_false.mpr ⟨c, hmem, by simp [hc]⟩
      unfold readLiteral at hload
      rw [hall] at hload
      cases hload
  accepts := by
    intro lines h hreadable hwhole
    rw [readLiteral_literalBlock v key h hreadable, if_pos hwhole]

end Reference

end Orchestrator.Yaml
