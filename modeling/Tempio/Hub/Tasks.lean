import Tempio.Hub.CmdDispatcher
import Tempio.Hub.PendingMap
import Tempio.Lib.Transition

namespace Tempio.Hub

open PendingPool

/-- Where the esp_mqtt task stands in `dispatchCommand`. -/
inductive MqttTask
  | idle
  | sending (cmd : MqttCommand)
  | pushing (cmd : MqttCommand)

def MqttTask.inFlight : MqttTask → List MqttCommand
  | .idle => []
  | .sending cmd | .pushing cmd => [cmd]

/-- Where the loop task stands. `resume` is the slot at which `flushAllPending`
goes on after `flushNodePending` returns; it is missing when `registerNode` called. -/
inductive LoopTask
  | idle
  | scanning (idx : Nat)
  | checking (nodeId : NodeId) (resume : Option Nat)
  | popping (nodeId : NodeId) (resume : Option Nat)
  | sending (nodeId : NodeId) (cmd : MqttCommand) (resume : Option Nat)
  | puttingBack (nodeId : NodeId) (cmd : MqttCommand) (resume : Option Nat)

/-- The command that `pop` handed out and that is neither sent nor put back yet. -/
def LoopTask.held : LoopTask → List MqttCommand
  | .sending _ cmd _ | .puttingBack _ cmd _ => [cmd]
  | _ => []

def LoopTask.heldFor : LoopTask → Option NodeId
  | .sending nodeId _ _ | .puttingBack nodeId _ _ => some nodeId
  | _ => none

def LoopTask.returned : Option Nat → LoopTask
  | none => .idle
  | some idx => .scanning idx

@[simp]
theorem LoopTask.held_returned (resume : Option Nat) : (LoopTask.returned resume).held = [] := by
  cases resume <;> rfl

@[simp]
theorem LoopTask.heldFor_returned (resume : Option Nat) :
    (LoopTask.returned resume).heldFor = none := by
  cases resume <;> rfl

/-- The two tasks, the pool they share and the clock. The last four fields are
the history: what was dispatched, accepted by the pool, transmitted and
discarded by `pop`, with the time where one is needed. -/
structure HubState where
  pool : PendingPool
  now : Nat
  mqtt : MqttTask
  loop : LoopTask
  dispatched : List (Nat × MqttCommand)
  accepted : List MqttCommand
  transmitted : List (Nat × MqttCommand)
  discarded : List (Nat × MqttCommand)

def HubState.init : HubState := ⟨PendingPool.init, 0, .idle, .idle, [], [], [], []⟩

def HubState.millis (s : HubState) : UInt32 := UInt32.ofNat s.now

/-- One atomic step of a task, or the passing of time. The answer of
`bleIsNodeConnected` and the result of a BLE write come with the action. -/
inductive Action
  | tick (ms : Nat)
  | dispatch (cmd : MqttCommand)
  | send (link : Bool)
  | push
  | flushNode (nodeId : NodeId)
  | flushAll
  | nextNode
  | connected (answer : Bool)
  | pop
  | resend (link : Bool)
  | pushFront

def step (json : ArduinoJson) (s : HubState) : Action → Option HubState
  | .tick ms => some { s with now := s.now + ms }
  | .dispatch cmd =>
      match s.mqtt with
      | .idle =>
          if cmd.target.chars = [] then none
          else some { s with
            mqtt := .sending { cmd with serial := s.dispatched.length }
            dispatched := s.dispatched ++ [(s.now, { cmd with serial := s.dispatched.length })] }
      | _ => none
  | .send link =>
      match s.mqtt with
      | .sending cmd =>
          if trySend json (fun _ _ => link) cmd then
            some { s with mqtt := .idle, transmitted := s.transmitted ++ [(s.now, cmd)] }
          else some { s with mqtt := .pushing cmd }
      | _ => none
  | .push =>
      match s.mqtt with
      | .pushing cmd =>
          match s.pool.push s.millis cmd.target cmd with
          | (true, p) => some { s with mqtt := .idle, pool := p, accepted := s.accepted ++ [cmd] }
          | (false, p) => some { s with mqtt := .idle, pool := p }
      | _ => none
  | .flushNode nodeId =>
      match s.loop with
      | .idle => some { s with loop := .checking nodeId none }
      | _ => none
  | .flushAll =>
      match s.loop with
      | .idle => some { s with loop := .scanning 0 }
      | _ => none
  | .nextNode =>
      match s.loop with
      | .scanning idx =>
          if h : idx < maxNodes then
            if (s.pool.slots.get ⟨idx, h⟩).hasWork then
              some { s with loop := .checking (s.pool.slots.get ⟨idx, h⟩).nodeId (some (idx + 1)) }
            else some { s with loop := .scanning (idx + 1) }
          else some { s with loop := .idle }
      | _ => none
  | .connected answer =>
      match s.loop with
      | .checking nodeId resume =>
          some { s with loop := if answer then .popping nodeId resume else .returned resume }
      | _ => none
  | .pop =>
      match s.loop with
      | .popping nodeId resume =>
          let dropped := (expiredPrefix s.millis (s.pool.queueOf nodeId)).map (Prod.mk s.now)
          match s.pool.pop s.millis nodeId with
          | (some cmd, p) =>
              some { s with
                pool := p, loop := .sending nodeId cmd resume, discarded := s.discarded ++ dropped }
          | (none, p) =>
              some { s with
                pool := p, loop := .returned resume, discarded := s.discarded ++ dropped }
      | _ => none
  | .resend link =>
      match s.loop with
      | .sending nodeId cmd resume =>
          if trySend json (fun _ _ => link) cmd then
            some { s with
              loop := .popping nodeId resume, transmitted := s.transmitted ++ [(s.now, cmd)] }
          else some { s with loop := .puttingBack nodeId cmd resume }
      | _ => none
  | .pushFront =>
      match s.loop with
      | .puttingBack nodeId cmd resume =>
          some { s with
            pool := (s.pool.pushFront s.millis nodeId cmd).2, loop := .returned resume }
      | _ => none

end Tempio.Hub
