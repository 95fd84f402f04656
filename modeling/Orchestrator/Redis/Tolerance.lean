import Orchestrator.Pydantic.Places

/-!
How a stream consumer validates a payload that may carry fields its schema does
not know: one that fails over nothing else is validated again without them.
-/

namespace Orchestrator.Redis

open Python Pydantic

variable {O : Type}

def stepText : Step → String
  | .key name => name
  | .index n => toString n

def fieldName (loc : List Step) : String := ".".intercalate (loc.map stepText)

/-- One location of `_delete_at`; nothing where there is nothing to delete. -/
def deleteAt : Value → List Step → Option Value
  | _, [] => none
  | container, [last] => removeKey container last
  | container, step :: next :: rest => match child? container step with
    | some child => (deleteAt child (next :: rest)).map fun child => replaceAt container step child
    | none => deleteAt container (next :: rest)

def deleteAll : Value → List (List Step) → Value × List String
  | pruned, [] => (pruned, [])
  | pruned, loc :: rest => match deleteAt pruned loc with
    | some pruned => ((deleteAll pruned rest).1, fieldName loc :: (deleteAll pruned rest).2)
    | none => deleteAll pruned rest

def candidateOf (loc : List Step) (data : Value) : Option Step :=
  match loc, data with
  | step :: _, .mapping _ => if (child? data step).isSome then none else some step
  | _, _ => none

def addTo (candidate : Option Step) (p : Problem) : List (Option Step × List Problem) → List (Option Step × List Problem)
  | [] => [(candidate, [p])]
  | group :: rest =>
    if group.1 = candidate then (group.1, group.2 ++ [p]) :: rest else group :: addTo candidate p rest

def byCandidate (data : Value) (errors : List Problem) : List (Option Step × List Problem) :=
  errors.foldl (fun groups p => addTo (candidateOf p.loc data) p groups) []

def isContainer : Value → Bool
  | .mapping _ => true
  | .list _ => true
  | _ => false

def pruning (data : Value) (errors : List Problem) : Option (Value × List String) :=
  if errors.any fun p => p.kind ≠ .extraForbidden then none
  else
    let pruned := deleteAll data (errors.map Problem.loc)
    if pruned.2.isEmpty then none else some pruned

def unexpectedFieldPrunings (data : Value) (errors : List Problem) : List (Value × List String) :=
  if errors.isEmpty || !isContainer data then []
  else if errors.any fun p => p.loc.isEmpty then []
  else (byCandidate data errors).filterMap fun group => pruning data group.2

def validateToleratingAdditions (adapter : Schema O) (data : Value) : Result (O × List String) :=
  match validate adapter data with
  | .ok value => .ok (value, [])
  | .error errors =>
    match (unexpectedFieldPrunings data errors).findSome? fun candidate =>
        (validate adapter candidate.1).toOption.map fun value => (value, candidate.2) with
    | some found => .ok found
    | none => .error errors

end Orchestrator.Redis
