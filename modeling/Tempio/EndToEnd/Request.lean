import Tempio.EndToEnd.CommandAck
import Tempio.Hub.CmdDispatcher

namespace Tempio.EndToEnd

open Tempio.Lib Tempio.Lib.Transition Tempio.Lib.Words Tempio.Protocol Tempio.Hub Tempio.Sensor
  Tempio.Sensor.Peripheral

/-- What the server asks of a sensor node, as the value of the payload's field. -/
inductive Request
  | setInterval (sec : Int)
  | resetNode (level : Int)
  | test (led : Int)
  | testFlag (led : Bool)

namespace Request

def type : Request → String
  | .setInterval _ => "SET_INTERVAL"
  | .resetNode _ => "RESET_NODE"
  | .test _ | .testFlag _ => "TEST"

def field : Request → String
  | .setInterval _ => "interval_sec"
  | .resetNode _ => "level"
  | .test _ | .testFlag _ => "led"

def value : Request → Json
  | .setInterval n | .resetNode n | .test n => .int n
  | .testFlag b => .bool b

/-- The packet carries the requested value, and the node does what was asked. -/
def Meaning (p : Peripheral) (pkt : List UInt8) : Request → Prop
  | .setInterval sec =>
      (SetInterval.ofBytes pkt).map (fun m => (m.intervalSec.toNat : Int)) = some sec ∧
        ((p.onWrite pkt).state.sleepInterval.toNat : Int) = max 10 (min 3600 sec)
  | .resetNode level =>
      (ResetNode.ofBytes pkt).map (fun m => (m.level.toNat : Int)) = some level ∧
        (p.onWrite pkt).state.prefs = if 1 ≤ level then none else p.state.prefs
  | .test led =>
      (TestCmd.ofBytes pkt).map (fun m => (m.led.toNat : Int)) = some led ∧
        (p.onWrite pkt).blinks = p.blinks + if led = 0 then 0 else 1
  | .testFlag led => (p.onWrite pkt).blinks = p.blinks + if led then 1 else 0

/-- The value fits in its packet field, and a flag is the default that a flag is read as. What is to be
cleared can be: the node has its storage open, or nothing in it. -/
def Fits (s : NodeState) : Request → Prop
  | .setInterval sec => 0 ≤ sec ∧ sec < 2 ^ 16
  | .resetNode level => (0 ≤ level ∧ level < 2 ^ 8) ∧ (1 ≤ level → s.opened = true ∨ s.prefs = none)
  | .test led => 0 ≤ led ∧ led < 2 ^ 8
  | .testFlag led => led = false

end Request

/-- The command is refused by the hub, or the node applies what was asked. -/
def AppliedAsAsked (json : ArduinoJson) (cmd : MqttCommand) (p : Peripheral) (r : Request) : Prop :=
  handle json cmd = .refused ∨ ∃ pkt, handle json cmd = .write pkt ∧ r.Meaning p pkt

theorem orInt_int (n d : Int) : orInt (.int n) d = if -2 ^ 31 ≤ n ∧ n < 2 ^ 31 then n else d := rfl

theorem toNat_ofInt16_orInt_iff {d : Int} (_ : 0 ≤ d ∧ d < 2 ^ 16) (n : Int) :
    ((UInt16.ofInt (orInt (.int n) d)).toNat : Int) = n ↔ 0 ≤ n ∧ n < 2 ^ 16 := by
  rw [toNat_ofInt16, orInt_int]
  split_ifs <;> omega

theorem toNat_ofInt8_orInt_iff {d : Int} (_ : 0 ≤ d ∧ d < 2 ^ 8) (n : Int) :
    ((UInt8.ofInt (orInt (.int n) d)).toNat : Int) = n ↔ 0 ≤ n ∧ n < 2 ^ 8 := by
  rw [toNat_ofInt8, orInt_int]
  split_ifs <;> omega

section

variable {json : ArduinoJson} {cmd : MqttCommand} {doc : Json}

theorem handle_setInterval (htype : cmd.type.chars = "SET_INTERVAL".toList)
    (hdoc : json.deserializeJson (payloadText json cmd) = ⟨false, doc⟩) :
    handle json cmd = .write (SetInterval.bytes
      ⟨cmd.cmdId, UInt16.ofInt (orInt (doc.get "interval_sec") 60)⟩) := by
  rw [handle, if_pos htype, handleSetInterval, hdoc]
  rfl

theorem handle_resetNode (htype : cmd.type.chars = "RESET_NODE".toList)
    (hdoc : json.deserializeJson (payloadText json cmd) = ⟨false, doc⟩) :
    handle json cmd = .write (ResetNode.bytes
      ⟨cmd.cmdId, UInt8.ofInt (orInt (doc.get "level") 0)⟩) := by
  rw [handle, if_neg (by rw [htype]; decide), if_pos htype, handleResetNode, hdoc]
  rfl

theorem handle_test (htype : cmd.type.chars = "TEST".toList)
    (hdoc : json.deserializeJson (payloadText json cmd) = ⟨false, doc⟩) :
    handle json cmd = .write (TestCmd.bytes ⟨cmd.cmdId, UInt8.ofInt (orInt (doc.get "led") 0)⟩) := by
  rw [handle, if_neg (by rw [htype]; decide), if_neg (by rw [htype]; decide),
    if_neg (by rw [htype]; decide), if_pos htype, handleTest, hdoc]

end

section

variable {p : Peripheral}

theorem sleepInterval_onWrite (p : Peripheral) (m : SetInterval) :
    ((p.onWrite m.bytes).state.sleepInterval.toNat : Int) =
      max 10 (min 3600 (m.intervalSec.toNat : Int)) := by
  have hclamp := toNat_clampInterval m.intervalSec
  have hstate : (p.onWrite m.bytes).state = p.state.setSleepInterval m.intervalSec := by
    rw [onWrite_setInterval]
    simp only [onSetInterval]
    split_ifs <;> rfl
  rw [hstate, NodeState.setSleepInterval]
  simp only [hclamp]
  omega

theorem prefs_onWrite (p : Peripheral) (m : ResetNode) :
    (p.onWrite m.bytes).state.prefs =
      if 1 ≤ m.level.toNat then if p.state.opened then none else p.state.prefs else p.state.prefs := by
  rw [onWrite_resetNode]
  simp only [onResetNode, ge_iff_le, UInt8.le_iff_toNat_le, UInt8.toNat_one]
  by_cases hlevel : 1 ≤ m.level.toNat
  · rw [if_pos hlevel, if_pos hlevel]
    rfl
  · rw [if_neg hlevel, if_neg hlevel]
    rfl

theorem blinks_onWrite (hdata : p.dataChar = true) (m : TestCmd) :
    (p.onWrite m.bytes).blinks = p.blinks + if m.led = 0 then 0 else 1 := by
  rw [onWrite_testCmd]
  by_cases hled : m.led = 0 <;> simp only [onTestCmd, hled, hdata] <;> split_ifs <;>
    simp_all [notify]

end

section

variable {json : ArduinoJson} {cmd : MqttCommand} {p : Peripheral}

theorem appliedAsAsked_of_write {pkt : List UInt8} (h : handle json cmd = .write pkt) (r : Request) :
    AppliedAsAsked json cmd p r ↔ r.Meaning p pkt := by
  simp [AppliedAsAsked, h]

theorem meaning_setInterval_iff (cmdId : UInt16) (sec : Int) :
    (Request.setInterval sec).Meaning p
        (SetInterval.bytes ⟨cmdId, UInt16.ofInt (orInt (.int sec) 60)⟩) ↔
      (Request.setInterval sec).Fits p.state := by
  have hfield := toNat_ofInt16_orInt_iff (d := 60) (by decide) sec
  simp only [Request.Meaning, Request.Fits, SetInterval.ofBytes_bytes, Option.map_some,
    Option.some.injEq, sleepInterval_onWrite, hfield]
  refine ⟨And.left, fun h => ⟨h, ?_⟩⟩
  rw [hfield.mpr h]

theorem meaning_resetNode_iff (cmdId : UInt16) (level : Int) :
    (Request.resetNode level).Meaning p
        (ResetNode.bytes ⟨cmdId, UInt8.ofInt (orInt (.int level) 0)⟩) ↔
      (Request.resetNode level).Fits p.state := by
  have hfield := toNat_ofInt8_orInt_iff (d := 0) (by decide) level
  simp only [Request.Meaning, Request.Fits, ResetNode.ofBytes_bytes, Option.map_some,
    Option.some.injEq, prefs_onWrite, hfield]
  refine and_congr_right fun h => ?_
  have hlevel : 1 ≤ (UInt8.ofInt (orInt (.int level) 0)).toNat ↔ 1 ≤ level := by
    have := hfield.mpr h
    omega
  by_cases hclear : 1 ≤ level
  · rw [if_pos (hlevel.mpr hclear), if_pos hclear]
    cases p.state.opened <;> simp [hclear]
  · rw [if_neg (mt hlevel.mp hclear), if_neg hclear]
    simp [hclear]

theorem meaning_test_iff (hdata : p.dataChar = true) (cmdId : UInt16) (led : Int) :
    (Request.test led).Meaning p (TestCmd.bytes ⟨cmdId, UInt8.ofInt (orInt (.int led) 0)⟩) ↔
      (Request.test led).Fits p.state := by
  have hfield := toNat_ofInt8_orInt_iff (d := 0) (by decide) led
  simp only [Request.Meaning, Request.Fits, TestCmd.ofBytes_bytes, Option.map_some,
    Option.some.injEq, blinks_onWrite hdata, hfield]
  refine ⟨And.left, fun h => ⟨h, congrArg _ (if_congr ?_ rfl rfl)⟩⟩
  rw [← UInt8.toNat_inj, UInt8.toNat_zero]
  have := hfield.mpr h
  omega

theorem meaning_testFlag_iff (hdata : p.dataChar = true) (cmdId : UInt16) (led : Bool) :
    (Request.testFlag led).Meaning p (TestCmd.bytes ⟨cmdId, UInt8.ofInt (orInt (.bool led) 0)⟩) ↔
      (Request.testFlag led).Fits p.state := by
  have hdefault : UInt8.ofInt (orInt (.bool led) 0) = 0 := rfl
  rw [hdefault, Request.Meaning, Request.Fits, blinks_onWrite hdata]
  cases led <;> simp

/-- A request to a connected node is applied as asked exactly when its value fits in the packet field,
which of the two flags only `false` does, and the node can still clear what it is to clear. -/
theorem appliedAsAsked_iff (json : ArduinoJson) (cmd : MqttCommand) (doc : Json)
    (prefs : Option UInt16) (n : Node) (hn : Reachable setupStep (Node.init prefs) n)
    (hconn : n.peripheral.deviceConnected = true) (r : Request) (htype : cmd.type.chars = r.type.toList)
    (hdoc : json.deserializeJson (payloadText json cmd) = ⟨false, doc⟩)
    (hget : doc.get r.field = r.value) :
    AppliedAsAsked json cmd n.peripheral r ↔ r.Fits n.peripheral.state := by
  have hchars : HasChars n := Reachable.invariant (fun _ _ _ => hasChars_step) (.inr ⟨rfl, rfl⟩) hn
  have hdata := hchars.dataChar hconn
  cases r with
  | setInterval sec =>
      have h := handle_setInterval htype hdoc
      rw [show doc.get "interval_sec" = .int sec from hget] at h
      rw [appliedAsAsked_of_write h, meaning_setInterval_iff]
  | resetNode level =>
      have h := handle_resetNode htype hdoc
      rw [show doc.get "level" = .int level from hget] at h
      rw [appliedAsAsked_of_write h, meaning_resetNode_iff]
  | test led =>
      have h := handle_test htype hdoc
      rw [show doc.get "led" = .int led from hget] at h
      rw [appliedAsAsked_of_write h, meaning_test_iff hdata]
  | testFlag led =>
      have h := handle_test htype hdoc
      rw [show doc.get "led" = .bool led from hget] at h
      rw [appliedAsAsked_of_write h, meaning_testFlag_iff hdata]

end

def Request.payload (r : Request) : Json := .obj [(r.field, r.value)]

def Request.command (r : Request) (cmdId : UInt16) : MqttCommand :=
  ⟨strlcpy 18 "aa:bb:cc:dd:ee:ff".toList, strlcpy 16 r.type.toList, r.payload.compact, cmdId, 0, 0⟩

def Request.json (r : Request) : ArduinoJson := .ofDocuments [r.payload]

def sensorNode : Peripheral := (Peripheral.init (some 120)).blePeripheralInit.onConnect

theorem appliedAsAsked_resetNode_two :
    AppliedAsAsked (Request.resetNode 2).json ((Request.resetNode 2).command 5) sensorNode
        (.resetNode 2) ↔ (Request.resetNode 2).Fits sensorNode.state := by
  have hread : (utf8 (Request.resetNode 2).payload.compact).isPrefixOf
      (payloadText (Request.resetNode 2).json ((Request.resetNode 2).command 5)) = true := by
    decide +kernel
  refine appliedAsAsked_iff (Request.resetNode 2).json ((Request.resetNode 2).command 5)
    (Request.resetNode 2).payload (some 120) ⟨sensorNode, .waitConnect, 0⟩ ⟨connectedRun, rfl⟩ rfl
    (.resetNode 2) (by decide) ?_ rfl
  exact ArduinoJson.deserializeJson_ofDocuments (List.find?_cons_of_pos hread)

/-- The hub says nothing, and stays connected until the node has closed its storage. -/
def silentRun : List NodeAction :=
  connectedRun ++ [.waitConnect false, .waitHubReady true, .disconnect, .waitDisconnect true, .endState]

/-- A long interval comes out as another one, the LED stays dark, and a late reset clears nothing. -/
theorem not_appliedAsAsked :
    ¬ AppliedAsAsked (Request.setInterval 65600).json ((Request.setInterval 65600).command 5)
        sensorNode (.setInterval 65600) ∧
      ¬ AppliedAsAsked (Request.testFlag true).json ((Request.testFlag true).command 6) sensorNode
        (.testFlag true) ∧
      ∃ n, exec setupStep (Node.init (some 120)) silentRun = some n ∧
        n.peripheral.deviceConnected = true ∧ ¬ AppliedAsAsked (Request.resetNode 1).json
          ((Request.resetNode 1).command 7) n.peripheral (.resetNode 1) := by
  have hinterval : handle (Request.setInterval 65600).json ((Request.setInterval 65600).command 5) =
      .write (SetInterval.bytes ⟨5, 64⟩) := by
    decide +kernel
  have hled : handle (Request.testFlag true).json ((Request.testFlag true).command 6) =
      .write (TestCmd.bytes ⟨6, 0⟩) := by
    decide +kernel
  have hreset : handle (Request.resetNode 1).json ((Request.resetNode 1).command 7) =
      .write (ResetNode.bytes ⟨7, 1⟩) := by
    decide +kernel
  rw [appliedAsAsked_of_write hinterval, appliedAsAsked_of_write hled]
  refine ⟨fun h => absurd h.2 (by decide), fun h => ?_, _, rfl, rfl, fun h => ?_⟩
  · have hblink : (sensorNode.onWrite (TestCmd.bytes ⟨6, 0⟩)).blinks = sensorNode.blinks + 1 := h
    exact absurd hblink (by decide)
  · rw [appliedAsAsked_of_write hreset] at h
    exact absurd h.2 (by decide)

end Tempio.EndToEnd
