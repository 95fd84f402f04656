import Orchestrator.LiveWork.World

namespace Orchestrator.LiveWork

open Async
open Deploy (Exn)

def perform (op : Op) : Job op.Res := Prog.perform (I := liveInterface) op

def keyExists (key : Key) (site : Site) : Job Bool := perform (.keyExists key site)

def markLiveWorkFailure (project reason : String) (site : Site) : Job Unit := perform (.setFailure project reason site)

def ack (site : Site) : Job Unit := perform (.ack site)

def beginLiveWork (project : String) : Job Bool := perform (.beginLiveWork project)

def refreshLiveWorkLease (project : String) : Job Bool := perform (.refreshLease project)

def cancelOwner (reason : Reason) : Job Unit := perform (.cancelOwner reason)

def catching {A : Type} (p : Job A) (handler : Exn → Job A) : Job A :=
  Prog.handle p fun e => if e.isException then handler e else .raise e

def loseLease (project : String) : Job Unit := do
  markLiveWorkFailure project "lease_lost" .watchdog
  cancelOwner .leaseLost

def watch (project : String) : Nat → Job Unit
  | 0 => .raise .cancelledError
  | rounds + 1 => do
    perform .sleep
    if ← keyExists (.cancelled project) .watchdog then cancelOwner .teardown
    else if ← refreshLiveWorkLease project then watch project rounds
    else loseLease project

def cancelOnLiveTeardown (project : String) (rounds : Nat) : Job Unit :=
  catching (watch project rounds) fun _ => do
    catching (markLiveWorkFailure project "watchdog_failed" .watchdog) fun _ => return ()
    cancelOwner .watchdogFailed

def liveWorkResultStatus (result : JobResult) : Option String :=
  result.status <|> result.deploymentStatus <|> if result.errors then some "failed" else none

inductive Settlement where
  | done (result : JobResult)
  | unsettled (status : String)
  | torn

def settleUnsettled (project : String) (result : JobResult) : Job Settlement := do
  markLiveWorkFailure project "cancel_settlement_failed" .body
  return .unsettled ((liveWorkResultStatus result).getD "unknown")

def settleDone (result : JobResult) : Job Settlement := do
  ack .body
  return .done result

def settle (project : String) (result : JobResult) : Job Settlement := do
  let cancelled ← keyExists (.cancelled project) .body
  if cancelled && !result.settled then settleUnsettled project result
  else settleDone result

def cancelledByTeardown (project : String) : Job Bool := do
  if ← keyExists (.cancelled project) .handler then return true
  else keyExists (.failed project) .handler

def ackTorn (project : String) : Job Settlement := do
  catching (ack .handler) fun e => do
    markLiveWorkFailure project "ack_failed" .handler
    .raise e
  return .torn

def onCancelled (project : String) : Job Settlement := do
  if ← cancelledByTeardown project then ackTorn project
  else .raise .cancelledError

def onUnproven (project message : String) : Job Settlement := do
  markLiveWorkFailure project "workflow_cancellation_unproven" .handler
  .raise (.workflowCancellationUnproven message)

def markIfCancelled (project : String) : Job Unit := do
  if ← keyExists (.cancelled project) .handler then markLiveWorkFailure project "cancel_settlement_failed" .handler
  else return ()

def onException (project : String) (e : Exn) : Job Settlement := do
  markIfCancelled project
  .raise e

def onRaised (project : String) (e : Exn) : Job Settlement :=
  match e with
  | .cancelledError => onCancelled project
  | .workflowCancellationUnproven message => onUnproven project message
  | e => onException project e

def stopWatch : Job Unit :=
  Prog.handle (perform .stopWatch) fun e => if e = .cancelledError then return () else .raise e

def finish (project : String) : Job Unit := do
  stopWatch
  perform (.zrem project)

def conclude : Settlement → Job (Option JobResult)
  | .done result => return some result
  | .unsettled status => .raise (.runtimeError ("live work returned unsettled result during teardown: " ++ status))
  | .torn => return none

def supervised (project : String) (process : Job JobResult) : Job (Option JobResult) := do
  let settlement ← Prog.handle (do
      let result ← process
      settle project result)
    (onRaised project)
  conclude settlement

def ackFenced : Job (Option JobResult) := do
  ack .plain
  return none

def runLeased (project : String) (process : Job JobResult) : Job (Option JobResult) := do
  perform .createWatch
  Prog.ensuring (supervised project process) (finish project)

def executeLiveWork (project : Option String) (process : Job JobResult) : Job (Option JobResult) :=
  match project with
  | none => do
    let result ← process
    ack .plain
    return some result
  | some project => do
    if ← beginLiveWork project then runLeased project process
    else ackFenced

end Orchestrator.LiveWork
