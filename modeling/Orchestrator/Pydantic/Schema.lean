import Orchestrator.Keyed
import Orchestrator.Python.Value

/-!
The types a payload is validated against, and what a validation reports: the kind
of each problem, the location it is reported at and the place in the payload it is at.
-/

namespace Orchestrator.Pydantic

open Python

inductive Step where
  | key (name : String)
  | index (n : Nat)
deriving DecidableEq

inductive Kind where
  | extraForbidden
  | other (type : String)
deriving DecidableEq

structure Problem where
  kind : Kind
  loc : List Step
  place : List Step
deriving DecidableEq

def Problem.beneath (step : Step) (p : Problem) : Problem := ⟨p.kind, step :: p.loc, step :: p.place⟩

def Problem.labelled (label : String) (p : Problem) : Problem := ⟨p.kind, .key label :: p.loc, p.place⟩

def unexpected (name : String) : Problem := ⟨.extraForbidden, [.key name], [.key name]⟩

def missing (name : String) : Problem := ⟨.other "missing", [.key name], [.key name]⟩

def wrong (type : String) : Problem := ⟨.other type, [], []⟩

abbrev Result (A : Type) := Except (List Problem) A

structure Field (O : Type) where
  name : String
  default : Option O

/-- The schema of a type with values in `O`. Validators of one's own look at a whole value,
before or after its type does; a plain union answers with the `pick` of what its members accept. -/
inductive Schema (O : Type) where
  | leaf (accept : Value → Except String O)
  | before (refuses : Value → Option String) (inner : Schema O)
  | after (check : O → Except String O) (inner : Schema O)
  | nullable (absent : O) (inner : Schema O)
  | list (build : List O → O) (item : Schema O)
  | dict (build : List (String × O) → O) (value : Schema O)
  | model (forbids : Bool) (fields : List (Field O)) (type : String → Schema O) (build : List (String × O) → Mapping → O)
  | tagged (discriminator : String) (tags : List String) (member : String → Schema O)
  | union (pick : List O → O) (labels : List String) (member : String → Schema O)

variable {O A : Type}

def problems : Result A → List Problem
  | .ok _ => []
  | .error ps => ps

def gather : List (Result A) → Result (List A)
  | [] => .ok []
  | .ok a :: rest => (gather rest).map fun as => a :: as
  | .error ps :: rest => .error (ps ++ problems (gather rest))

def located (change : Problem → Problem) (r : Result A) : Result A := r.mapError fun ps => ps.map change

def named (name : String) (r : Result A) : Result (String × A) := (located (·.beneath (.key name)) r).map fun a => (name, a)

def whole (r : Except String A) : Result A := r.mapError fun type => [wrong type]

def readField (entries : Mapping) (field : Field O) (validate : Value → Result O) : Result (String × O) :=
  match entries.lookup field.name with
  | some value => named field.name (validate value)
  | none => match field.default with
    | some value => .ok (field.name, value)
    | none => .error [missing field.name]

def isField (fields : List (Field O)) (name : String) : Bool := fields.any fun field => field.name = name

def unknownEntries (fields : List (Field O)) (entries : Mapping) : Mapping := entries.filter fun entry => !isField fields entry.1

def refused (forbids : Bool) (unknown : Mapping) : List Problem :=
  if forbids then unknown.map fun entry => unexpected entry.1 else []

def buildModel (build : List (String × O) → Mapping → O) (given : Result (List (String × O))) (extra : List Problem)
    (unknown : Mapping) : Result O :=
  match given, extra with
  | .ok values, [] => .ok (build values unknown)
  | given, extra => .error (problems given ++ extra)

def firstAccepted (pick : List O → O) (results : List (Result O)) : Result O :=
  match results.filterMap Except.toOption with
  | [] => .error (results.flatMap problems)
  | accepted => .ok (pick accepted)

def validate : Schema O → Value → Result O
  | .leaf accept, v => whole (accept v)
  | .before refuses inner, v => match refuses v with
    | some type => .error [wrong type]
    | none => validate inner v
  | .after check inner, v => match validate inner v with
    | .ok o => whole (check o)
    | .error ps => .error ps
  | .nullable absent inner, v => if v.isNone then .ok absent else validate inner v
  | .list build item, v => match v with
    | .list items =>
      (gather (items.zipIdx.map fun entry => located (·.beneath (.index entry.2)) (validate item entry.1))).map build
    | _ => .error [wrong "list_type"]
  | .dict build value, v => match v with
    | .mapping entries =>
      (gather (entries.map fun entry => named entry.1 (validate value (valueAt entries entry.1)))).map build
    | _ => .error [wrong "dict_type"]
  | .model forbids fields type build, v => match v with
    | .mapping entries =>
      buildModel build (gather (fields.map fun field => readField entries field fun v => validate (type field.name) v))
        (refused forbids (unknownEntries fields entries)) (unknownEntries fields entries)
    | _ => .error [wrong "model_type"]
  | .tagged discriminator tags member, v => match v with
    | .mapping entries => match entries.lookup discriminator with
      | some (.text tag) =>
        if tag ∈ tags then located (·.labelled tag) (validate (member tag) v) else .error [wrong "union_tag_invalid"]
      | some _ => .error [wrong "union_tag_invalid"]
      | none => .error [wrong "union_tag_not_found"]
    | _ => .error [wrong "model_attributes_type"]
  | .union pick labels member, v =>
    firstAccepted pick (labels.map fun label => located (·.labelled label) (validate (member label) v))

section Equations

variable (v : Value) (entries : Mapping)

theorem validate_before (refuses : Value → Option String) (inner : Schema O) :
    validate (.before refuses inner) v = match refuses v with
      | some type => .error [wrong type]
      | none => validate inner v := rfl

theorem validate_after (check : O → Except String O) (inner : Schema O) :
    validate (.after check inner) v = match validate inner v with
      | .ok o => whole (check o)
      | .error ps => .error ps := rfl

theorem validate_nullable (absent : O) (inner : Schema O) :
    validate (.nullable absent inner) v = if v.isNone then .ok absent else validate inner v := rfl

theorem validate_list (build : List O → O) (item : Schema O) (items : List Value) :
    validate (.list build item) (.list items) =
      (gather (items.zipIdx.map fun entry => located (·.beneath (.index entry.2)) (validate item entry.1))).map build := rfl

theorem validate_dict (build : List (String × O) → O) (value : Schema O) :
    validate (.dict build value) (.mapping entries) =
      (gather (entries.map fun entry => named entry.1 (validate value (valueAt entries entry.1)))).map build := rfl

theorem validate_model (forbids : Bool) (fields : List (Field O)) (type : String → Schema O)
    (build : List (String × O) → Mapping → O) :
    validate (.model forbids fields type build) (.mapping entries) =
      buildModel build (gather (fields.map fun field => readField entries field fun v => validate (type field.name) v))
        (refused forbids (unknownEntries fields entries)) (unknownEntries fields entries) := rfl

theorem validate_tagged (discriminator : String) (tags : List String) (member : String → Schema O) :
    validate (.tagged discriminator tags member) (.mapping entries) = match entries.lookup discriminator with
      | some (.text tag) =>
        if tag ∈ tags then located (·.labelled tag) (validate (member tag) (.mapping entries)) else .error [wrong "union_tag_invalid"]
      | some _ => .error [wrong "union_tag_invalid"]
      | none => .error [wrong "union_tag_not_found"] := by
  rw [validate]

theorem validate_union (pick : List O → O) (labels : List String) (member : String → Schema O) :
    validate (.union pick labels member) v =
      firstAccepted pick (labels.map fun label => located (·.labelled label) (validate (member label) v)) := rfl

end Equations

def Accepts (schema : Schema O) (v : Value) : Prop := ∃ o, validate schema v = .ok o

def reported (schema : Schema O) (v : Value) : List Problem := problems (validate schema v)

end Orchestrator.Pydantic
