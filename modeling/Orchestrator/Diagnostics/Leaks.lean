import Orchestrator.Diagnostics.Masking
import Orchestrator.Replacement.Cuts

/-!
What a redacted text no longer holds. Where masks have cut secrets apart fragments may be left,
but never the whole of one, and neither pattern puts one together again.
-/

namespace Orchestrator.Diagnostics

open Python Replacement

variable {text rest : List Char}

/-- What the pattern replaces follows a group that is kept, and ends with `tail`. -/
def Replaces (tail : List Char) (pattern : Pattern) : Prop :=
  ∀ text afterGroup afterMatch, (afterGroup, afterMatch) ∈ pattern text →
    (∃ group, group ≠ [] ∧ text = group ++ afterGroup) ∧ ∃ block, afterGroup = block ++ (tail ++ afterMatch)

theorem substituteFrom_cut {mark tail : List Char} {pattern : Pattern} (h : Replaces tail pattern) (n : Nat) (text : List Char) :
    Cut mark (text.drop n) (substituteFrom plain pattern (mark ++ tail) n text) := by
  induction text generalizing n with
  | nil => cases n <;> exact .done
  | cons a rest ih =>
    cases n with
    | succ n => exact ih n
    | zero =>
      rw [List.drop_zero, substituteFrom, show (a :: rest).map plain.view = a :: rest from List.map_id _]
      cases hfound : (pattern (a :: rest)).head? with
      | none => exact .keep a (ih 0)
      | some found =>
        obtain ⟨afterGroup, afterMatch⟩ := found
        obtain ⟨⟨group, hgroup, htext⟩, block, hblock⟩ := h _ _ _ (List.mem_of_head? hfound)
        have hkept : (a :: rest).take ((a :: rest).length - afterGroup.length) = group := by
          rw [htext, List.length_append, Nat.add_sub_cancel, List.take_left]
        have hleft : rest.drop (rest.length - afterMatch.length) = afterMatch := by
          cases group with
          | nil => exact absurd rfl hgroup
          | cons c group =>
            have hrest : rest = (group ++ (block ++ tail)) ++ afterMatch := by
              rw [hblock] at htext
              simpa using (List.cons.inj htext).2
            rw [hrest, List.length_append, Nat.add_sub_cancel, List.drop_left]
        have hlater : Cut mark afterMatch (substituteFrom plain pattern (mark ++ tail) (rest.length - afterMatch.length) rest) := by
          have hrest := ih (rest.length - afterMatch.length)
          rwa [hleft] at hrest
        dsimp only
        rw [hkept, htext, hblock, List.append_assoc, List.append_assoc]
        exact Cut.append (.mark block (hlater.append tail)) group

section Patterns

theorem mem_one {c : Char → Bool} (h : rest ∈ one c text) : ∃ x, text = x :: rest := by
  unfold one at h
  split at h
  · cases h
  · next x more =>
    split at h
    · exact ⟨x, by rw [List.mem_singleton.mp h]⟩
    · cases h

theorem mem_some1 {c : Char → Bool} (h : rest ∈ some1 c text) : ∃ taken, taken ≠ [] ∧ text = taken ++ rest := by
  obtain ⟨more, hmore, hrest⟩ := List.mem_flatMap.mp h
  obtain ⟨x, rfl⟩ := mem_one hmore
  obtain ⟨taken, rfl, -⟩ := Regex.greedy_taken hrest
  exact ⟨x :: taken, by simp, rfl⟩

theorem mem_word {letters : String} (h : rest ∈ word letters text) : rest = text.drop letters.toList.length := by
  unfold word at h
  split at h
  · exact List.mem_singleton.mp h
  · cases h

theorem word_prefix {letters : String} (h : rest ∈ word letters text) (hne : letters.toList ≠ []) :
    ∃ taken, taken ≠ [] ∧ text = taken ++ rest := by
  have hrest := mem_word h
  refine ⟨text.take letters.toList.length, ?_, by rw [hrest, List.take_append_drop]⟩
  unfold word at h
  split at h
  · next hbegins =>
    have hlength := (List.isPrefixOf_iff_prefix.mp hbegins).length_le
    have hpos := List.length_pos_iff.mpr hne
    rw [List.length_map] at hlength
    intro hnil
    rcases List.take_eq_nil_iff.mp hnil with hzero | rfl
    · omega
    · exact hne (by simpa using hlength)
  · cases h

theorem urlUserinfo_replaces : Replaces ['@'] urlUserinfo := by
  intro text afterGroup afterMatch h
  simp only [urlUserinfo, List.mem_flatMap, List.mem_map, Prod.mk.injEq] at h
  obtain ⟨afterScheme, ⟨afterLetter, hletter, hscheme⟩, group, hgroup, rest, ⟨afterUser, huser, hat⟩, rfl, rfl⟩ := h
  obtain ⟨x, rfl⟩ := mem_one hletter
  obtain ⟨scheme, rfl, -⟩ := Regex.greedy_taken hscheme
  obtain ⟨user, -, huser⟩ := mem_some1 huser
  rw [Regex.mem_literal.mp hgroup, huser, Regex.mem_literal.mp hat]
  exact ⟨⟨x :: (scheme ++ "://".toList), by simp, by simp⟩, user, rfl⟩

theorem authorization_replaces : Replaces [] authorization := by
  intro text afterGroup afterMatch h
  simp only [authorization, List.mem_flatMap, List.mem_map, List.mem_append, Prod.mk.injEq] at h
  obtain ⟨beforeScheme, ⟨afterColon, ⟨beforeColon, ⟨afterWord, hauth, hspaces⟩, hcolon⟩, hspaces'⟩, group, ⟨afterKind, hkind, hsome⟩,
    rest, hrest, rfl, rfl⟩ := h
  obtain ⟨first, hfirst, rfl⟩ := word_prefix hauth (by decide)
  obtain ⟨spaces, rfl, -⟩ := Regex.greedy_taken hspaces
  obtain ⟨spaces', hspaces', -⟩ := Regex.greedy_taken hspaces'
  obtain ⟨kind, hkind⟩ : ∃ kind, beforeScheme = kind ++ afterKind := by
    rcases hkind with hkind | hkind <;> obtain ⟨kind, -, heq⟩ := word_prefix hkind (by decide) <;> exact ⟨kind, heq⟩
  obtain ⟨gap, -, hgap⟩ := mem_some1 hsome
  obtain ⟨credential, -, hcredential⟩ := mem_some1 hrest
  rw [Regex.mem_literal.mp hcolon, hspaces', hkind, hgap]
  refine ⟨⟨first ++ (spaces ++ (':' :: (spaces' ++ (kind ++ gap)))), by simp [hfirst], by simp⟩, credential, ?_⟩
  rw [hcredential, List.nil_append]

end Patterns

theorem mark_ne_nil : plain.mark ≠ [] := List.cons_ne_nil _ _

theorem infix_of_substituted {secret tail : List Char} {pattern : Pattern} (h : Replaces tail pattern)
    (hsecret : Apart plain.mark secret) (hne : secret ≠ []) {text : List Char}
    (hstands : secret <:+: substituteFrom plain pattern (plain.mark ++ tail) 0 text) : secret <:+: text :=
  Cut.infix_of_apart (substituteFrom_cut h 0 text) mark_ne_nil hsecret hne hstands

theorem not_infix_redactDiagnostic {secrets : List (List Char)} (h : Unlike secrets) (text : List Char) {secret : List Char}
    (hmem : secret ∈ secrets) (hne : secret ≠ []) : ¬ secret <:+: redactDiagnostic plain secrets text := by
  have hapart : ∀ other ∈ secrets, other ≠ [] → Apart plain.mark other := fun other hother hne' => h other hother hne'
  have hmark : plain.mark = plain.mark ++ [] := (List.append_nil _).symm
  intro hstands
  unfold redactDiagnostic at hstands
  dsimp only at hstands
  nth_rewrite 1 [hmark] at hstands
  have hurl := infix_of_substituted authorization_replaces (hapart secret hmem hne) hne hstands
  have hmasked := infix_of_substituted urlUserinfo_replaces (hapart secret hmem hne) hne hurl
  exact replaceEach_gone mark_ne_nil hapart text secret hmem hne hmasked

/-- No secret stands in a redacted text, in whatever order and however they overlap; and the log tail
kept of a removed worker is short and holds none of the secrets of its environment. -/
theorem redacted_holds_no_secret (secrets : List (List Char)) (environment : List (List Char × List Char)) (text : List Char)
    (h : Unlike secrets) (htail : Unlike (secretEnvValues environment)) :
    (∀ secret ∈ secrets, secret ≠ [] → ¬ secret <:+: redactDiagnostic plain secrets text) ∧
      (boundedTail plain text environment).length ≤ removalLogTailMaxChars ∧
      ∀ entry ∈ environment, isSecretName entry.1 = true → entry.2 ≠ [] → ¬ entry.2 <:+: boundedTail plain text environment := by
  refine ⟨fun secret hmem hne => not_infix_redactDiagnostic h text hmem hne, ?_, fun entry hentry hname hvalue hstands => ?_⟩
  · unfold boundedTail
    dsimp only
    split
    · rw [List.length_drop]
      omega
    · omega
  · have hsecret : entry.2 ∈ secretEnvValues environment := by
      refine List.mem_map.mpr ⟨entry, List.mem_filter.mpr ⟨hentry, ?_⟩, rfl⟩
      simp [hname, hvalue]
    have hsuffix : boundedTail plain text environment <:+ redactDiagnostic plain (secretEnvValues environment) text := by
      unfold boundedTail
      dsimp only
      split
      · exact List.drop_suffix _ _
      · exact List.suffix_rfl
    exact not_infix_redactDiagnostic htail text hsecret hvalue (hstands.trans hsuffix.isInfix)

theorem overlapping_secrets_gone : ¬ "xyz".toList <:+: redactDiagnostic plain ["xyz".toList, "yzw".toList] "uxyzwyzw".toList := by
  have hunlike : Unlike ["xyz".toList, "yzw".toList] := Unlike.of_all (by decide +kernel)
  exact (redacted_holds_no_secret ["xyz".toList, "yzw".toList] [("APP_TOKEN".toList, "xyz".toList)] "uxyzwyzw".toList hunlike
    (Unlike.of_all (by decide +kernel))).1 _ List.mem_cons_self (by decide)

end Orchestrator.Diagnostics
