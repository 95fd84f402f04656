import Orchestrator.Python.Number

/-!
The values a JSON or YAML document loads as, and the operations on mappings
that code on such documents uses.
-/

namespace Orchestrator.Python

inductive Value where
  | none
  | bool (b : Bool)
  | int (n : Int)
  | float (x : Float64)
  | text (s : String)
  | list (items : List Value)
  | mapping (entries : List (String × Value))

inductive Raised where
  | valueError (text : String)
  | osError (text : String)
  | typeError
  | overflowError
  | runtimeError (text : String)
  deriving DecidableEq

abbrev Mapping := List (String × Value)

def Value.truthy : Value → Bool
  | .none => false
  | .bool b => b
  | .int n => n != 0
  | .float x => x != .finite 0
  | .text s => s != ""
  | .list items => !items.isEmpty
  | .mapping entries => !entries.isEmpty

def Value.isNone : Value → Bool
  | .none => true
  | _ => false

/-- `str(value)`; `render` is its answer for what is not text already. -/
def Value.str (render : Value → String) : Value → String
  | .text s => s
  | v => render v

def valueAt (entries : Mapping) (key : String) : Value := (entries.lookup key).getD .none

def hasKey (entries : Mapping) (key : String) : Bool := (entries.lookup key).isSome

def setKey : Mapping → String → Value → Mapping
  | [], key, value => [(key, value)]
  | (k, v) :: rest, key, value => if key == k then (k, value) :: rest else (k, v) :: setKey rest key value

def popKey (entries : Mapping) (key : String) : Mapping := entries.filter fun entry => !(key == entry.1)

def Value.number : Value → Option Float64
  | .bool b => some (.finite (if b then 1 else 0))
  | .int n => some (.finite n)
  | .float x => some x
  | _ => Option.none

def Value.scalarEq : Value → Value → Bool
  | .none, .none => true
  | .text s, .text s' => s == s'
  | v, v' => match v.number, v'.number with
    | some x, some x' => x == x' && x != .nan
    | _, _ => false

mutual

def Value.eq : Value → Value → Bool
  | .list items, .list items' => eqItems items items'
  | .mapping entries, .mapping entries' => entries.length == entries'.length && eqEntries entries entries'
  | v, v' => v.scalarEq v'

def eqItems : List Value → List Value → Bool
  | [], [] => true
  | v :: rest, v' :: rest' => v.eq v' && eqItems rest rest'
  | _, _ => false

def eqEntries : Mapping → Mapping → Bool
  | [], _ => true
  | (key, v) :: rest, entries => (match entries.lookup key with
    | some v' => v.eq v'
    | none => false) && eqEntries rest entries

end

mutual

def Value.same : Value → Value → Bool
  | .none, .none => true
  | .bool b, .bool b' => b == b'
  | .int n, .int n' => n == n'
  | .float x, .float x' => x == x'
  | .text s, .text s' => s == s'
  | .list items, .list items' => sameItems items items'
  | .mapping entries, .mapping entries' => sameEntries entries entries'
  | _, _ => false

def sameItems : List Value → List Value → Bool
  | [], [] => true
  | v :: rest, v' :: rest' => v.same v' && sameItems rest rest'
  | _, _ => false

def sameEntries : Mapping → Mapping → Bool
  | [], [] => true
  | (key, v) :: rest, (key', v') :: rest' => key == key' && v.same v' && sameEntries rest rest'
  | _, _ => false

end

mutual

theorem Value.same_iff : (v v' : Value) → (v.same v' = true ↔ v = v')
  | .none, v' => by cases v' <;> simp [Value.same]
  | .bool _, v' => by cases v' <;> simp [Value.same]
  | .int _, v' => by cases v' <;> simp [Value.same]
  | .float _, v' => by cases v' <;> simp [Value.same]
  | .text _, v' => by cases v' <;> simp [Value.same]
  | .list items, v' => by
    cases v' with
    | list items' => simp [Value.same, sameItems_iff items items']
    | _ => simp [Value.same]
  | .mapping entries, v' => by
    cases v' with
    | mapping entries' => simp [Value.same, sameEntries_iff entries entries']
    | _ => simp [Value.same]

theorem sameItems_iff : (items items' : List Value) → (sameItems items items' = true ↔ items = items')
  | [], items' => by cases items' <;> simp [sameItems]
  | v :: rest, items' => by
    cases items' with
    | nil => simp [sameItems]
    | cons v' rest' => simp [sameItems, v.same_iff v', sameItems_iff rest rest']

theorem sameEntries_iff : (entries entries' : Mapping) → (sameEntries entries entries' = true ↔ entries = entries')
  | [], entries' => by cases entries' <;> simp [sameEntries]
  | (key, v) :: rest, entries' => by
    cases entries' with
    | nil => simp [sameEntries]
    | cons entry rest' =>
      obtain ⟨key', v'⟩ := entry
      simp [sameEntries, v.same_iff v', sameEntries_iff rest rest']

end

instance : DecidableEq Value := fun v v' => decidable_of_iff (v.same v' = true) (v.same_iff v')

theorem lookup_setKey_self (entries : Mapping) (key : String) (value : Value) :
    (setKey entries key value).lookup key = some value := by
  induction entries with
  | nil => simp [setKey]
  | cons entry rest ih =>
    obtain ⟨k, v⟩ := entry
    by_cases h : key = k
    · subst h; simp [setKey]
    · have hne : (key == k) = false := by simpa using h
      simp [setKey, List.lookup_cons, hne, ih]

variable {key other : String}

theorem lookup_setKey_of_ne (entries : Mapping) (value : Value) (h : other ≠ key) :
    (setKey entries key value).lookup other = entries.lookup other := by
  induction entries with
  | nil =>
    have hne : (other == key) = false := by simpa using h
    simp [setKey, List.lookup_cons, hne]
  | cons entry rest ih =>
    obtain ⟨k, v⟩ := entry
    by_cases hk : key = k
    · subst hk
      have hne : (other == key) = false := by simpa using h
      simp [setKey, List.lookup_cons, hne]
    · have hne : (key == k) = false := by simpa using hk
      simp only [setKey, hne, Bool.false_eq_true, if_false, List.lookup_cons, ih]

theorem lookup_popKey_self (entries : Mapping) (key : String) : (popKey entries key).lookup key = none := by
  unfold popKey
  rw [List.lookup_eq_none_iff]
  simp

theorem lookup_popKey_of_ne (entries : Mapping) (h : other ≠ key) :
    (popKey entries key).lookup other = entries.lookup other := by
  induction entries with
  | nil => rfl
  | cons entry rest ih =>
    obtain ⟨k, v⟩ := entry
    by_cases hk : key = k
    · subst hk
      have hne : (other == key) = false := by simpa using h
      simpa [popKey, List.lookup_cons, hne] using ih
    · have hne : (key == k) = false := by simpa using hk
      simp only [popKey, List.filter_cons, hne, Bool.not_false, if_true, List.lookup_cons] at ih ⊢
      rw [ih]

theorem valueAt_setKey_self (entries : Mapping) (key : String) (value : Value) : valueAt (setKey entries key value) key = value := by
  unfold valueAt
  rw [lookup_setKey_self]
  rfl

theorem valueAt_setKey_of_ne (entries : Mapping) (value : Value) (h : other ≠ key) :
    valueAt (setKey entries key value) other = valueAt entries other := by
  unfold valueAt
  rw [lookup_setKey_of_ne entries value h]

theorem valueAt_popKey_self (entries : Mapping) (key : String) : valueAt (popKey entries key) key = .none := by
  unfold valueAt
  rw [lookup_popKey_self]
  rfl

theorem valueAt_popKey_of_ne (entries : Mapping) (h : other ≠ key) :
    valueAt (popKey entries key) other = valueAt entries other := by
  unfold valueAt
  rw [lookup_popKey_of_ne entries h]

theorem Value.eq_none_of_isNone {v : Value} (h : v.isNone = true) : v = .none := by
  cases v <;> first | rfl | cases h

theorem hasKey_iff {entries : Mapping} {key : String} : hasKey entries key = true ↔ ∃ value, entries.lookup key = some value :=
  Option.isSome_iff_exists

theorem valueAt_of_lookup {entries : Mapping} {key : String} {value : Value} (h : entries.lookup key = some value) :
    valueAt entries key = value := by
  unfold valueAt
  rw [h]
  rfl

end Orchestrator.Python

/-! The pure paths of `pathlib`. -/

namespace Orchestrator.Python

/-- A path by its parts; `root` is empty for a relative one. -/
structure PurePath where
  root : String
  parts : List String
  deriving DecidableEq, Repr

namespace PurePath

def ofText (text : String) : PurePath where
  root :=
    if startsWith text "//" && !startsWith text "///" then "//"
    else if startsWith text "/" then "/"
    else ""
  parts := ((text.toList.splitOn '/').map String.ofList).filter fun part => part != "" && part != "."

def text (path : PurePath) : String :=
  if path.root = "" ∧ path.parts = [] then "." else path.root ++ String.intercalate "/" path.parts

def isAbsolute (path : PurePath) : Bool := path.root != ""

def join (base path : PurePath) : PurePath :=
  if path.isAbsolute then path else ⟨base.root, base.parts ++ path.parts⟩

def parent (path : PurePath) : PurePath := ⟨path.root, path.parts.dropLast⟩

def Under (path base : PurePath) : Prop := path.root = base.root ∧ base.parts <+: path.parts

instance (path base : PurePath) : Decidable (path.Under base) := inferInstanceAs (Decidable (_ ∧ _))

def relativeTo (path base : PurePath) : Except Raised PurePath :=
  if path.Under base then .ok ⟨"", path.parts.drop base.parts.length⟩
  else .error (.valueError s!"'{path.text}' is not in the subpath of '{base.text}'")

end PurePath

end Orchestrator.Python
