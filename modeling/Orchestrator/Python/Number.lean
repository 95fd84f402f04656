import Mathlib.Data.Rat.Floor
import Mathlib.Tactic.Positivity
import Orchestrator.Python.Text

/-!
Python's floating point numbers as rationals, and how text is read as one: the
decimal digits and white space of Unicode, underscores between digits, and
rounding to the nearest double.
-/

namespace Orchestrator.Python

inductive Float64 where
  | finite (value : ℚ)
  | infinite (negative : Bool)
  | nan
  deriving DecidableEq

def digitZeros : List Nat :=
  [0x30, 0x660, 0x6f0, 0x7c0, 0x966, 0x9e6, 0xa66, 0xae6, 0xb66, 0xbe6, 0xc66, 0xce6, 0xd66, 0xde6, 0xe50, 0xed0,
    0xf20, 0x1040, 0x1090, 0x17e0, 0x1810, 0x1946, 0x19d0, 0x1a80, 0x1a90, 0x1b50, 0x1bb0, 0x1c40, 0x1c50, 0xa620,
    0xa8d0, 0xa900, 0xa9d0, 0xa9f0, 0xaa50, 0xabf0, 0xff10, 0x104a0, 0x10d30, 0x11066, 0x110f0, 0x11136, 0x111d0,
    0x112f0, 0x11450, 0x114d0, 0x11650, 0x116c0, 0x11730, 0x118e0, 0x11950, 0x11c50, 0x11d50, 0x11da0, 0x11f50,
    0x16a60, 0x16ac0, 0x16b50, 0x1d7ce, 0x1d7d8, 0x1d7e2, 0x1d7ec, 0x1d7f6, 0x1e140, 0x1e2f0, 0x1e4f0, 0x1e950,
    0x1fbf0]

def digitValue (c : Char) : Option Nat :=
  (digitZeros.find? fun first => first ≤ c.toNat && c.toNat < first + 10).map (c.toNat - ·)

/-- The digits that are no decimal ones, such as superscripts. -/
def otherDigits : List (Nat × Nat) :=
  [(0xb2, 0xb3), (0xb9, 0xb9), (0x1369, 0x1371), (0x19da, 0x19da), (0x2070, 0x2070), (0x2074, 0x2079), (0x2080, 0x2089),
    (0x2460, 0x2468), (0x2474, 0x247c), (0x2488, 0x2490), (0x24ea, 0x24ea), (0x24f5, 0x24fd), (0x24ff, 0x24ff),
    (0x2776, 0x277e), (0x2780, 0x2788), (0x278a, 0x2792), (0x10a40, 0x10a43), (0x10e60, 0x10e68), (0x11052, 0x1105a),
    (0x1f100, 0x1f10a)]

def isdigit (text : String) : Bool :=
  !text.isEmpty && text.toList.all fun c =>
    (digitValue c).isSome || otherDigits.any fun (first, last) => first ≤ c.toNat && c.toNat ≤ last

def isSpace (c : Char) : Bool :=
  [0x9, 0xa, 0xb, 0xc, 0xd, 0x1c, 0x1d, 0x1e, 0x1f, 0x20, 0x85, 0xa0, 0x1680, 0x2000, 0x2001, 0x2002, 0x2003, 0x2004,
    0x2005, 0x2006, 0x2007, 0x2008, 0x2009, 0x200a, 0x2028, 0x2029, 0x202f, 0x205f, 0x3000].contains c.toNat

def strip (text : List Char) : List Char := ((text.dropWhile isSpace).reverse.dropWhile isSpace).reverse

def digitsValue (digits : List Nat) : Nat := digits.foldl (fun n d => 10 * n + d) 0

def digitRun : List Char → List Nat × List Char
  | [] => ([], [])
  | c :: rest => match digitValue c with
    | none => ([], c :: rest)
    | some d => match rest with
      | '_' :: c' :: rest' => match digitValue c' with
        | none => ([d], '_' :: c' :: rest')
        | some _ => ((d :: (digitRun (c' :: rest')).1), (digitRun (c' :: rest')).2)
      | rest => ((d :: (digitRun rest).1), (digitRun rest).2)

def floorLog2 (n d : Nat) : Int :=
  let k : Int := Int.ofNat (Nat.log2 n) - Int.ofNat (Nat.log2 d)
  if n * 2 ^ (-k).toNat < d * 2 ^ k.toNat then k - 1 else k

def roundHalfEven (q : ℚ) : Int :=
  let part := q - ⌊q⌋
  if part < 1 / 2 then ⌊q⌋ else if 1 / 2 < part then ⌊q⌋ + 1 else if ⌊q⌋ % 2 = 0 then ⌊q⌋ else ⌊q⌋ + 1

/-- The distance of the doubles next to `q`. -/
def unitInLastPlace (q : ℚ) : ℚ :=
  let exponent := max (floorLog2 q.num.natAbs q.den - 52) (-1074)
  if 0 ≤ exponent then 2 ^ exponent.toNat else 1 / 2 ^ (-exponent).toNat

def rounded (q : ℚ) : ℚ := roundHalfEven (q / unitInLastPlace q) * unitInLastPlace q

def toFloat64 (q : ℚ) : Float64 :=
  if q = 0 then .finite 0
  else if 2 ^ 1024 ≤ |rounded q| then .infinite (q < 0)
  else .finite (rounded q)

theorem roundHalfEven_nonneg {q : ℚ} (h : 0 ≤ q) : 0 ≤ roundHalfEven q := by
  have hfloor : 0 ≤ ⌊q⌋ := Int.floor_nonneg.mpr h
  unfold roundHalfEven
  dsimp only
  split_ifs <;> omega

theorem unitInLastPlace_pos (q : ℚ) : 0 < unitInLastPlace q := by
  unfold unitInLastPlace
  dsimp only
  split <;> positivity

theorem rounded_nonneg {q : ℚ} (h : 0 ≤ q) : 0 ≤ rounded q := by
  have hround := roundHalfEven_nonneg (div_nonneg h (unitInLastPlace_pos q).le)
  exact mul_nonneg (by exact_mod_cast hround) (unitInLastPlace_pos q).le

theorem toFloat64_nonneg {q x : ℚ} (h : 0 ≤ q) (hround : toFloat64 q = .finite x) : 0 ≤ x := by
  unfold toFloat64 at hround
  split at hround
  · cases hround
    exact le_refl 0
  · split at hround
    · cases hround
    · rw [← Float64.finite.inj hround]
      exact rounded_nonneg h

def lowerAscii (text : List Char) : List Char := text.map Char.toLower

def readExponent : List Char → Option Int
  | [] => some 0
  | e :: rest =>
    if e ≠ 'e' ∧ e ≠ 'E' then none
    else
      let (negative, rest) := match rest with
        | '-' :: rest => (true, rest)
        | '+' :: rest => (false, rest)
        | rest => (false, rest)
      match digitRun rest with
      | (d :: ds, []) => some (if negative then -(digitsValue (d :: ds) : Int) else digitsValue (d :: ds))
      | _ => none

def readDecimal (text : List Char) : Option ℚ :=
  let (whole, rest) := digitRun text
  let (part, rest) := match rest with
    | '.' :: rest => digitRun rest
    | rest => ([], rest)
  if whole.isEmpty && part.isEmpty then none
  else
    (readExponent rest).map fun exponent =>
      let shift : Int := exponent - part.length
      digitsValue (whole ++ part) * (if 0 ≤ shift then 10 ^ shift.toNat else 1 / 10 ^ (-shift).toNat)

def floatOfText (text : String) : Option Float64 :=
  let (negative, text) := match strip text.toList with
    | '-' :: rest => (true, rest)
    | '+' :: rest => (false, rest)
    | text => (false, text)
  if lowerAscii text = "inf".toList ∨ lowerAscii text = "infinity".toList then some (.infinite negative)
  else if lowerAscii text = "nan".toList then some .nan
  else (readDecimal text).map fun q => toFloat64 (if negative then -q else q)

end Orchestrator.Python
