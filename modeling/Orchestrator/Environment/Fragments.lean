import Mathlib.Data.List.Sort
import Orchestrator.Environment.Contract
import Orchestrator.Keyed

/-!
The merge of the environment contract fragments that the owners of a project maintain, and what
two declarations of a variable have in common: Python's comparison, and one definition.
-/

namespace Orchestrator.Environment

open Python

structure EnvDeclaration extends EnvContractEntry where
  consumers : List String
  description : Option String
  environments_ne : environments ≠ []
  ofUserSecret : ∀ text, source = .userSecret text → description = some text ∧ text ≠ "" ∧ consumers ≠ []

def EnvLiteralValue.value : EnvLiteralValue → Value
  | text s => .text s
  | int n => .int n
  | float x => .float x.number
  | bool b => .bool b

/-- How the fields of two declarations are compared: the same object, or equal. -/
def EnvLiteralValue.eq (value value' : EnvLiteralValue) : Bool := value = value' || value.value.scalarEq value'.value

def EnvSource.eq : EnvSource → EnvSource → Bool
  | userSecret text, userSecret text' => text == text'
  | generatedSecret, generatedSecret => true
  | allocation selector sensitive, allocation selector' sensitive' =>
    selector.service == selector'.service && selector.resource == selector'.resource && sensitive == sensitive'
  | derived, derived => true
  | literal value, literal value' => value.eq value'
  | _, _ => false

def EnvDeclaration.eq (entry entry' : EnvDeclaration) : Bool :=
  entry.source.eq entry'.source && entry.environments == entry'.environments && entry.consumers == entry'.consumers &&
    entry.required == entry'.required && entry.description == entry'.description

/-- A literal without which NaN it is, of which its text says nothing. -/
def EnvSource.definition : EnvSource → EnvSource
  | literal (.float (.nan _)) => literal (.float (.nan 0))
  | source => source

def EnvDeclaration.definition (entry : EnvDeclaration) : EnvSource × List String × List String × Bool × Option String :=
  (entry.source.definition, entry.environments, entry.consumers, entry.required, entry.description)

structure EnvContractFragment where
  owner : String
  entries : List (String × EnvDeclaration)
  owner_ne : owner ≠ ""
  nodup : (entries.map (·.1)).Nodup

structure DeclaredEnvContract where
  entries : List (String × EnvDeclaration)
  nodup : (entries.map (·.1)).Nodup

structure EnvContractMergeError where
  key : String

def EnvContractMergeError.text (e : EnvContractMergeError) : String :=
  s!"incompatible environment contract declarations for {e.key}"

def sortedByOwner (fragments : List EnvContractFragment) : List EnvContractFragment :=
  fragments.insertionSort fun f g => f.owner ≤ g.owner

def mergeEnvContractFragments (fragments : List EnvContractFragment) : Except EnvContractMergeError DeclaredEnvContract :=
  match h : mergeAll EnvDeclaration.eq ((sortedByOwner fragments).flatMap (·.entries)) [] with
  | .error key => .error ⟨key⟩
  | .ok entries => .ok ⟨entries, mergeAll_nodup (by simp) h⟩

def DeclaredEnvContract.canonical (contract : DeclaredEnvContract) : CanonicalEnvContract where
  entries := contract.entries.map fun entry => (entry.1, entry.2.toEnvContractEntry)
  nodup := by simpa [Function.comp_def] using contract.nodup

def DeclaredEnvContract.fragment (contract : DeclaredEnvContract) (owner : String) (h : owner ≠ "") : EnvContractFragment :=
  ⟨owner, contract.entries, h, contract.nodup⟩

theorem literal_eq_iff {v v' : EnvLiteralValue} :
    v.eq v' = true ↔ v = v' ∨ ∃ x, x ≠ .nan ∧ v.value.number = some x ∧ v'.value.number = some x := by
  have hnumbers (x x' : Float64) : (x == x' && x != .nan) = true ↔ ∃ y, y ≠ .nan ∧ some x = some y ∧ some x' = some y := by
    simp only [Bool.and_eq_true, beq_iff_eq, bne_iff_ne, Option.some.injEq]
    constructor
    · rintro ⟨rfl, h⟩
      exact ⟨x, h, rfl, rfl⟩
    · rintro ⟨_, h, rfl, rfl⟩
      exact ⟨rfl, h⟩
  rw [EnvLiteralValue.eq, Bool.or_eq_true, decide_eq_true_iff]
  cases v <;> cases v'
  case text.text s s' => simp [EnvLiteralValue.value, Value.scalarEq, Value.number]
  case text.int | text.float | text.bool => simp [EnvLiteralValue.value, Value.scalarEq, Value.number]
  case int.text | float.text | bool.text => simp [EnvLiteralValue.value, Value.scalarEq, Value.number]
  all_goals exact or_congr Iff.rfl (hnumbers _ _)

theorem EnvSource.eq_symm {source source' : EnvSource} (h : source.eq source' = true) : source'.eq source = true := by
  cases source <;> cases source' <;> try cases h
  case userSecret.userSecret => exact beq_iff_eq.mpr (beq_iff_eq.mp h).symm
  case allocation.allocation =>
    simp only [EnvSource.eq, Bool.and_eq_true, beq_iff_eq] at h ⊢
    exact ⟨⟨h.1.1.symm, h.1.2.symm⟩, h.2.symm⟩
  case literal.literal v v' =>
    rcases literal_eq_iff.mp h with hsame | ⟨x, hx, hv, hv'⟩
    · exact literal_eq_iff.mpr (.inl hsame.symm)
    · exact literal_eq_iff.mpr (.inr ⟨x, hx, hv', hv⟩)
  all_goals rfl

theorem EnvSource.eq_trans {source source' source'' : EnvSource} (h : source.eq source' = true) (h' : source'.eq source'' = true) :
    source.eq source'' = true := by
  cases source <;> cases source' <;> try cases h
  all_goals cases source'' <;> try cases h'
  case userSecret.userSecret => exact beq_iff_eq.mpr ((beq_iff_eq.mp h).trans (beq_iff_eq.mp h'))
  case allocation.allocation =>
    simp only [EnvSource.eq, Bool.and_eq_true, beq_iff_eq] at h h' ⊢
    exact ⟨⟨h.1.1.trans h'.1.1, h.1.2.trans h'.1.2⟩, h.2.trans h'.2⟩
  case literal.literal v v' v'' =>
    rcases literal_eq_iff.mp h with rfl | ⟨x, hx, hv, hv'⟩
    · exact h'
    · rcases literal_eq_iff.mp h' with rfl | ⟨y, hy, hw, hw'⟩
      · exact h
      · rw [hv'] at hw
        exact literal_eq_iff.mpr (.inr ⟨x, hx, hv, Option.some.inj hw ▸ hw'⟩)
  all_goals rfl

theorem EnvDeclaration.eq_symm (entry entry' : EnvDeclaration) (h : entry.eq entry' = true) : entry'.eq entry = true := by
  simp only [EnvDeclaration.eq, Bool.and_eq_true, beq_iff_eq] at h ⊢
  obtain ⟨⟨⟨⟨hsource, henvironments⟩, hconsumers⟩, hrequired⟩, hdescription⟩ := h
  exact ⟨⟨⟨⟨EnvSource.eq_symm hsource, henvironments.symm⟩, hconsumers.symm⟩, hrequired.symm⟩, hdescription.symm⟩

theorem EnvDeclaration.eq_trans (entry entry' entry'' : EnvDeclaration) (h : entry.eq entry' = true) (h' : entry'.eq entry'' = true) :
    entry.eq entry'' = true := by
  simp only [EnvDeclaration.eq, Bool.and_eq_true, beq_iff_eq] at h h' ⊢
  obtain ⟨⟨⟨⟨hsource, henvironments⟩, hconsumers⟩, hrequired⟩, hdescription⟩ := h
  obtain ⟨⟨⟨⟨hsource', henvironments'⟩, hconsumers'⟩, hrequired'⟩, hdescription'⟩ := h'
  exact ⟨⟨⟨⟨EnvSource.eq_trans hsource hsource', henvironments.trans henvironments'⟩, hconsumers.trans hconsumers'⟩,
    hrequired.trans hrequired'⟩, hdescription.trans hdescription'⟩

theorem EnvDeclaration.eq_self (entry : EnvDeclaration) : entry.eq entry = true := by
  have hsource : entry.source.eq entry.source = true := by
    cases entry.source <;> simp [EnvSource.eq, EnvLiteralValue.eq]
  simp [EnvDeclaration.eq, hsource]

theorem EnvSource.eq_of_definition {source source' : EnvSource} (h : source.eq source' = true)
    (hdefinition : source.definition = source'.definition) : source = source' := by
  unfold EnvSource.definition at hdefinition
  split at hdefinition <;> split at hdefinition
  · next object object' =>
    -- two NaN that compare as equal are one object
    rcases literal_eq_iff.mp h with hsame | ⟨x, hx, hv, -⟩
    · exact congrArg _ hsame
    · exact absurd (Option.some.inj hv).symm hx
  · next hother => exact absurd hdefinition.symm (hother 0)
  · next hother _ _ => exact absurd hdefinition (hother 0)
  · exact hdefinition

/-- Declarations of one definition that compare as equal are the same. -/
theorem EnvDeclaration.eq_of_definition {entry entry' : EnvDeclaration} (h : entry.eq entry' = true)
    (hdefinition : entry.definition = entry'.definition) : entry = entry' := by
  obtain ⟨⟨source, environments, required⟩, consumers, description, _, _⟩ := entry
  obtain ⟨⟨source', environments', required'⟩, consumers', description', _, _⟩ := entry'
  simp only [EnvDeclaration.eq, Bool.and_eq_true, beq_iff_eq] at h
  obtain ⟨⟨⟨⟨hsource, rfl⟩, rfl⟩, rfl⟩, rfl⟩ := h
  obtain rfl : source = source' := EnvSource.eq_of_definition hsource (Prod.mk.inj hdefinition).1
  rfl

end Orchestrator.Environment
