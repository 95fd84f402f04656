import Mathlib.Data.List.Infix

/-!
The string operations of Python that checks on text use. They go through the
list of characters, so that closed instances evaluate.
-/

namespace Orchestrator.Python

def startsWith (text start : String) : Bool := start.toList.isPrefixOf text.toList

def contains (text part : String) : Bool := text.toList.tails.any fun rest => part.toList.isPrefixOf rest

theorem startsWith_iff {text start : String} :
    startsWith text start = true ↔ ∃ rest, text.toList = start.toList ++ rest := by
  unfold startsWith
  rw [List.isPrefixOf_iff_prefix]
  exact ⟨fun ⟨rest, h⟩ => ⟨rest, h.symm⟩, fun ⟨rest, h⟩ => ⟨rest, h.symm⟩⟩

theorem startsWith_trans {text middle start : String} (hm : startsWith text middle = true)
    (hs : startsWith middle start = true) : startsWith text start = true := by
  obtain ⟨rest, hrest⟩ := startsWith_iff.mp hm
  obtain ⟨more, hmore⟩ := startsWith_iff.mp hs
  exact startsWith_iff.mpr ⟨more ++ rest, by rw [hrest, hmore, List.append_assoc]⟩

theorem startsWith_of_length_le {text first second : String} (hf : startsWith text first = true)
    (hs : startsWith text second = true) (hle : first.toList.length ≤ second.toList.length) :
    startsWith second first = true := by
  unfold startsWith at *
  rw [List.isPrefixOf_iff_prefix] at *
  exact List.prefix_of_prefix_length_le hf hs hle

theorem contains_append (text part : String) : contains (text ++ part) part = true := by
  unfold contains
  rw [List.any_eq_true]
  refine ⟨part.toList, ?_, ?_⟩
  · rw [List.mem_tails, String.toList_append]
    exact List.suffix_append _ _
  · rw [List.isPrefixOf_iff_prefix]

end Orchestrator.Python
