import Tempio.Protocol
import Tempio.Sensor.NodeState

namespace Tempio.Sensor

open Tempio.Protocol

/-- The globals of `ble_peripheral.cpp`. The last three fields record what the
node does to the outside: blinks, notifications and a restart. -/
structure Peripheral where
  state : NodeState
  dataChar : Bool
  deviceConnected : Bool
  hubReady : Bool
  blinks : Nat
  notified : List (List UInt8)
  restarted : Bool

namespace Peripheral

def init (prefs : Option UInt16) : Peripheral := ⟨NodeState.init prefs, false, false, false, 0, [], false⟩

def blePeripheralInit (p : Peripheral) : Peripheral :=
  { p with state := p.state.begin, dataChar := true }

def onConnect (p : Peripheral) : Peripheral := { p with deviceConnected := true }

def onDisconnect (p : Peripheral) : Peripheral := { p with deviceConnected := false }

def notify (p : Peripheral) (bytes : List UInt8) : Peripheral :=
  { p with notified := p.notified ++ [bytes] }

def setInterval (p : Peripheral) (sec : UInt16) : Peripheral :=
  { p with state := p.state.setSleepInterval sec }

/-- The SET_INTERVAL branch of `onWrite`, which acknowledges only an id that is not 0. -/
def onSetInterval (p : Peripheral) (cmd : SetInterval) : Peripheral :=
  if cmd.cmdId ≠ 0 ∧ p.dataChar = true ∧ p.deviceConnected = true then
    (p.setInterval cmd.intervalSec).notify (CmdAck.bytes ⟨cmd.cmdId, 1⟩)
  else p.setInterval cmd.intervalSec

/-- The RESET_NODE branch; the node restarts at its end. -/
def onResetNode (p : Peripheral) (cmd : ResetNode) : Peripheral :=
  let state := if cmd.level ≥ 1 then p.state.clear else p.state
  { p with state := state.endPrefs, restarted := true }

/-- The TEST_CMD branch, which acknowledges any id. -/
def onTestCmd (p : Peripheral) (cmd : TestCmd) : Peripheral :=
  let p := if cmd.led ≠ 0 ∧ p.dataChar = true then { p with blinks := p.blinks + 1 } else p
  if p.dataChar = true ∧ p.deviceConnected = true then p.notify (CmdAck.bytes ⟨cmd.cmdId, 1⟩) else p

/-- `ConfigCB::onWrite`. A message too short for its struct is ignored. -/
def onWrite (p : Peripheral) (val : List UInt8) : Peripheral :=
  match val with
  | [] => p
  | type :: _ =>
      if type = MsgType.hubReady.code then { p with hubReady := true }
      else if type = MsgType.setInterval.code then
        ((SetInterval.ofBytes val).map p.onSetInterval).getD p
      else if type = MsgType.resetNode.code then
        ((ResetNode.ofBytes val).map p.onResetNode).getD p
      else if type = MsgType.testCmd.code then
        ((TestCmd.ofBytes val).map p.onTestCmd).getD p
      else p

theorem onWrite_setInterval (p : Peripheral) (m : SetInterval) :
    p.onWrite m.bytes = p.onSetInterval m := by
  have h := SetInterval.ofBytes_bytes m
  rw [SetInterval.bytes] at h ⊢
  simp only [onWrite, MsgType.code_inj, reduceCtorEq, if_false, if_true, h, Option.map_some,
    Option.getD_some]

theorem onWrite_resetNode (p : Peripheral) (m : ResetNode) : p.onWrite m.bytes = p.onResetNode m := by
  have h := ResetNode.ofBytes_bytes m
  rw [ResetNode.bytes] at h ⊢
  simp only [onWrite, MsgType.code_inj, reduceCtorEq, if_false, if_true, h, Option.map_some,
    Option.getD_some]

theorem onWrite_testCmd (p : Peripheral) (m : TestCmd) : p.onWrite m.bytes = p.onTestCmd m := by
  have h := TestCmd.ofBytes_bytes m
  rw [TestCmd.bytes] at h ⊢
  simp only [onWrite, MsgType.code_inj, reduceCtorEq, if_false, if_true, h, Option.map_some,
    Option.getD_some]

end Peripheral

end Tempio.Sensor
