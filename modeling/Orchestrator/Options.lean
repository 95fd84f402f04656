import Orchestrator.Python.Text

/-!
How a program with options of its own before a command word reads its command
line: options up to the first word that is none, then the command and its
arguments, which are not looked at.
-/

namespace Orchestrator

open Python

structure OptionTable where
  takesValue : String → Bool
  switch : String → Bool
  attached : String → Option (String × String)
  valueDashed : ∀ word, takesValue word = true → startsWith word "-" = true
  switchDashed : ∀ word, switch word = true → startsWith word "-" = true
  attachedDashed : ∀ word, (attached word).isSome = true → startsWith word "-" = true

structure CommandLine where
  options : List (String × Option String)
  command : String
  arguments : List String

namespace OptionTable

variable (table : OptionTable)

/-- `none` where the program refuses the command line. -/
def read : List String → Option CommandLine
  | [] => none
  | word :: rest =>
    if table.takesValue word then match rest with
      | [] => none
      | value :: after => (read after).map fun line => { line with options := (word, some value) :: line.options }
    else if table.switch word then
      (read rest).map fun line => { line with options := (word, none) :: line.options }
    else match table.attached word with
      | some (option, value) => (read rest).map fun line => { line with options := (option, some value) :: line.options }
      | none => if startsWith word "-" then none else some ⟨[], word, rest⟩

variable {table}

theorem read_value {option value : String} (h : table.takesValue option = true) (words : List String) :
    table.read (option :: value :: words) =
      (table.read words).map fun line => { line with options := (option, some value) :: line.options } := by
  conv => lhs; unfold read
  exact if_pos h

theorem read_command {word : String} (h : startsWith word "-" = false) (words : List String) :
    table.read (word :: words) = some ⟨[], word, words⟩ := by
  have hvalue : ¬ table.takesValue word = true := fun hv => by simp [table.valueDashed word hv] at h
  have hswitch : ¬ table.switch word = true := fun hs => by simp [table.switchDashed word hs] at h
  have hattached : table.attached word = none := by
    by_contra ha
    have := table.attachedDashed word (Option.isSome_iff_ne_none.mpr ha)
    simp [this] at h
  unfold read
  rw [if_neg hvalue, if_neg hswitch, hattached]
  simp [h]

def words (options : List (String × String)) : List String := options.flatMap fun o => [o.1, o.2]

theorem read_words {options : List (String × String)} (h : ∀ o ∈ options, table.takesValue o.1 = true) {command : String}
    (hcommand : startsWith command "-" = false) (arguments : List String) :
    table.read (words options ++ command :: arguments) =
      some ⟨options.map fun o => (o.1, some o.2), command, arguments⟩ := by
  induction options with
  | nil => exact read_command hcommand arguments
  | cons o rest ih =>
    have hcons : words (o :: rest) ++ command :: arguments = o.1 :: o.2 :: (words rest ++ command :: arguments) := rfl
    rw [hcons, read_value (h o List.mem_cons_self), ih fun o ho => h o (List.mem_cons_of_mem _ ho)]
    rfl

end OptionTable

end Orchestrator
