import Orchestrator.Api.Stories
import Orchestrator.Api.Tasks

/-!
What holds of the statuses of stories and tasks when their requests run beside
each other: a walk through the valid transitions, as long as no status is
committed over one that the request has not read.
-/

namespace Orchestrator.Api

open Async Contracts Lifecycle

abbrev StoryRuns (T : Type) [DecidableEq T] := Config (Stories.stories.schema.world T Stories.StoryRow)

abbrev TaskRuns (T : Type) [DecidableEq T] := Config (Tasks.tasks.schema.world T Tasks.TaskRow)

def storyOpening (T : Type) [DecidableEq T] (owners : Stories.Owners) : StoryRuns T :=
  .idle (Schema.Tables.opening (Store.opening (L := Stories.stories) owners))

def taskOpening (T : Type) [DecidableEq T] (tables : Tasks.Tables) : TaskRuns T :=
  .idle (Schema.Tables.opening (Store.opening (L := Tasks.tasks) tables))

/-- Every transition a story or a task has made was valid from where the one
before it had ended, in every run in which a status is committed only over the
status that its request has read. -/
theorem transitions_linear {T : Type} [DecidableEq T] {storyRequests : T → Stories.Request}
    {taskRequests : T → Tasks.Request} {owners : Stories.Owners} {tables : Tasks.Tables} {stories : StoryRuns T}
    {tasks : TaskRuns T}
    (hstories : Reaches (fun t => (storyRequests t).handler) undisturbed (storyOpening T owners) stories)
    (htasks : Reaches (fun t => (taskRequests t).handler) undisturbed (taskOpening T tables) tasks) :
    stories.state.data.Linearized ∧ tasks.state.data.Linearized := by
  constructor
  · exact (reaches_coherent (fun t s hi => Stories.handler_safe (storyRequests t) hi) hstories).linearized
  · exact (reaches_coherent (fun t s hi => Tasks.handler_safe (taskRequests t) hi) htasks).linearized

def sampleStory : Stories.StoryCreate where
  projectId := "shop"
  title := "Checkout"
  description := none
  acceptanceCriteria := none
  parentStoryId := none
  type := .product
  priority := 0
  blockedByStoryId := none
  createdBy := "po"

def sampleTask : Tasks.TaskRow where
  projectId := "shop"
  type := .feature
  title := "Cart"
  description := none
  plan := none
  status := .todo
  priority := 0
  acceptanceCriteria := none
  currentIteration := 0
  maxIterations := 3
  needE2e := false
  createdBy := "architect"
  sourceBrainstormId := none
  repositoryId := none
  storyId := none
  blockedByTaskId := none
  failureMetadata := none

def sampleStories : Fin 4 → Stories.Request
  | 0 => .create "checkout" sampleStory true
  | 1 => .start "checkout" "architect"
  | 2 => .fail "checkout" "supervisor"
  | 3 => .complete "checkout" "poller"

def sampleTasks : Fin 4 → Tasks.Request
  | 0 => .create "cart" sampleTask true
  | 1 => .start "cart" ⟨none, "dispatcher", []⟩
  | 2 => .fail "cart" ⟨none, "supervisor", []⟩
  | 3 => .transition "cart" "waiting_human_review" ⟨none, "worker", []⟩

def servedOne {L : Lifecycle} {R : Type} (t : Fin 4) : Turn (L.schema.world (Fin 4) R) := .call t fun _ => .served

def sampleOpening (L : Lifecycle) (R : Type) : List (Turn (L.schema.world (Fin 4) R)) :=
  [.start 0, servedOne 0, servedOne 0, .start 1, servedOne 1, servedOne 1, servedOne 1]

/-- A request comes in while another is between its reading and its commit, and reads once that is there. -/
def sampleOverlap (L : Lifecycle) (R : Type) : List (Turn (L.schema.world (Fin 4) R)) :=
  [.start 0, servedOne 0, servedOne 0, .start 1, servedOne 1, .start 2, servedOne 1, servedOne 1, servedOne 2, .start 3, servedOne 2,
    servedOne 2, servedOne 3, servedOne 3, servedOne 3]

def sampleConflict (L : Lifecycle) (R : Type) : List (Turn (L.schema.world (Fin 4) R)) :=
  sampleOpening L R ++ [.start 2, servedOne 2, .start 3, servedOne 3, servedOne 2, servedOne 2, servedOne 3, servedOne 3]

def sampleStoryRun (turns : List (Turn (Stories.stories.schema.world (Fin 4) Stories.StoryRow))) : StoryRuns (Fin 4) :=
  (storyOpening (Fin 4) fun _ => none).play (fun t => (sampleStories t).handler) turns

def sampleTaskRun (turns : List (Turn (Tasks.tasks.schema.world (Fin 4) Tasks.TaskRow))) : TaskRuns (Fin 4) :=
  (taskOpening (Fin 4) ⟨fun _ => none, []⟩).play (fun t => (sampleTasks t).handler) turns

theorem transitions_linear_started :
    (sampleStoryRun (sampleOverlap _ _)).state.data.Linearized ∧
    (sampleTaskRun (sampleOverlap _ _)).state.data.Linearized :=
  transitions_linear (play_reaches (by decide +kernel)) (play_reaches (by decide +kernel))

/-- Two requests that have read the same status both commit. -/
theorem conflicting_transitions_commit :
    (¬ ∀ (requests : Fin 4 → Stories.Request) (owners : Stories.Owners) (stories : StoryRuns (Fin 4)),
      Reaches (fun t => (requests t).handler) (Schema.unblocked (S := Stories.stories.schema))
        (storyOpening (Fin 4) owners) stories →
      stories.state.data.Linearized) ∧
    ¬ ∀ (requests : Fin 4 → Tasks.Request) (tables : Tasks.Tables) (tasks : TaskRuns (Fin 4)),
      Reaches (fun t => (requests t).handler) (Schema.unblocked (S := Tasks.tasks.schema))
        (taskOpening (Fin 4) tables) tasks →
      tasks.state.data.Linearized := by
  constructor
  · intro h
    have hlinear := h sampleStories (fun _ => none) (sampleStoryRun (sampleConflict _ _)) (play_reaches (by decide +kernel))
      "checkout" .completed (by decide +kernel)
    exact absurd hlinear.follows (by decide +kernel)
  · intro h
    have hlinear := h sampleTasks ⟨fun _ => none, []⟩ (sampleTaskRun (sampleConflict _ _)) (play_reaches (by decide +kernel))
      "cart" .waitingHumanReview (by decide +kernel)
    exact absurd hlinear.follows (by decide +kernel)

end Orchestrator.Api
