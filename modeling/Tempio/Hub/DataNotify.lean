import Mathlib.Logic.Function.Basic
import Tempio.Hub.BleData
import Tempio.Hub.ThreadSafeQueue

namespace Tempio.Hub

open Tempio.Protocol

def reportQueueMax : Nat := 8

instance neZeroReportQueueMax : NeZero reportQueueMax := ⟨by decide⟩

instance neZeroNodeTypeStrSize : NeZero 8 := ⟨by decide⟩

/-- A report as it leaves the BLE modules; the floats are bit patterns. -/
structure SensorReport where
  nodeId : NodeId
  nodeTypeStr : CStr 8
  temperature : UInt32
  humidity : UInt32
  ldr : UInt16
  batteryMv : UInt16
  bleRssi : Int8
deriving Inhabited

/-- The queues of `ble_data.cpp` and the `nodeType` of every slot. -/
structure Inbox where
  nodeType : Fin maxNodes → UInt8
  reportQueue : ThreadSafeQueue SensorReport reportQueueMax
  ackQueue : ThreadSafeQueue CmdAckReport cmdPendingPerNode

namespace Inbox

def init : Inbox := ⟨fun _ => NodeType.sensor.code, ThreadSafeQueue.init, ThreadSafeQueue.init⟩

def handleNodeInfo (s : Inbox) (slot : Option (Fin maxNodes)) (data : List UInt8) : Inbox :=
  match NodeInfo.ofBytes data, slot with
  | some ni, some slot => { s with nodeType := Function.update s.nodeType slot ni.nodeType }
  | _, _ => s

/-- `rssi` is what `getRssi` of the slot's client returns. -/
def buildReport (s : Inbox) (slot : Option (Fin maxNodes)) (sd : SensorData) (srcAddr : List Char)
    (rssi : Int8) : SensorReport where
  nodeId := strlcpy 18 srcAddr
  nodeTypeStr := strlcpy 8
    (if slot.any fun i => s.nodeType i = NodeType.ir.code then "ir" else "sensor").toList
  temperature := sd.temp
  humidity := sd.humidity
  ldr := sd.ldr
  batteryMv := sd.batteryMv
  bleRssi := if slot.isSome then rssi else 0

def enqueueReport (s : Inbox) (rpt : SensorReport) : Inbox :=
  { s with reportQueue := (s.reportQueue.push rpt).getD s.reportQueue }

def handleSensorData (s : Inbox) (slot : Option (Fin maxNodes)) (data : List UInt8) (srcAddr : List Char)
    (rssi : Int8) : Inbox :=
  match SensorData.ofBytes data with
  | some sd => s.enqueueReport (s.buildReport slot sd srcAddr rssi)
  | none => s

def pushAck (s : Inbox) (rpt : CmdAckReport) : Inbox :=
  { s with ackQueue := (s.ackQueue.push rpt).getD s.ackQueue }

/-- `onDataNotify` once the slot and its address are known. -/
def dispatch (s : Inbox) (slot : Option (Fin maxNodes)) (srcAddr : List Char) (rssi : Int8)
    (data : List UInt8) : Inbox :=
  match data with
  | [] => s
  | type :: _ =>
      if type = MsgType.nodeInfo.code then s.handleNodeInfo slot data
      else if type = MsgType.sensorData.code then s.handleSensorData slot data srcAddr rssi
      else if type = MsgType.cmdAck.code then ((handleCmdAck data srcAddr).map s.pushAck).getD s
      else s

end Inbox

/-- The report says what the message says, under the given address. -/
def SensorReport.Tells (r : SensorReport) (data : List UInt8) (srcAddr : List Char) : Prop :=
  ∃ sd, SensorData.ofBytes data = some sd ∧ r.nodeId = strlcpy 18 srcAddr ∧ r.temperature = sd.temp ∧
    r.humidity = sd.humidity ∧ r.ldr = sd.ldr ∧ r.batteryMv = sd.batteryMv

theorem mem_of_mem_push {T : Type} {N : Nat} [NeZero N] {q : ThreadSafeQueue T N} {x y : T}
    (h : y ∈ ((q.push x).getD q).contents) : y ∈ q.contents ∨ y = x := by
  cases hp : q.push x with
  | none =>
      rw [hp] at h
      exact .inl h
  | some r =>
      rw [hp, Option.getD_some, ThreadSafeQueue.contents_pushUnsafe hp, List.mem_append,
        List.mem_singleton] at h
      exact h

section

variable {s : Inbox} {slot : Option (Fin maxNodes)} {srcAddr : List Char} {rssi : Int8}
  {data : List UInt8}

/-- A new report tells what the message says. -/
theorem report_of_dispatch {r : SensorReport}
    (h : r ∈ (s.dispatch slot srcAddr rssi data).reportQueue.contents) :
    r ∈ s.reportQueue.contents ∨ r.Tells data srcAddr := by
  cases data with
  | nil => exact .inl h
  | cons type rest =>
      simp only [Inbox.dispatch] at h
      split_ifs at h
      · unfold Inbox.handleNodeInfo at h
        split at h <;> exact .inl h
      · unfold Inbox.handleSensorData at h
        cases hsd : SensorData.ofBytes (type :: rest) with
        | none =>
            rw [hsd] at h
            exact .inl h
        | some sd =>
            rw [hsd] at h
            refine (mem_of_mem_push h).imp_right fun hr => ?_
            subst hr
            exact ⟨sd, hsd, rfl, rfl, rfl, rfl, rfl⟩
      · cases hack : handleCmdAck (type :: rest) srcAddr <;> rw [hack] at h <;> exact .inl h
      · exact .inl h

theorem ack_of_dispatch {a : CmdAckReport}
    (h : a ∈ (s.dispatch slot srcAddr rssi data).ackQueue.contents) :
    a ∈ s.ackQueue.contents ∨ handleCmdAck data srcAddr = some a := by
  cases data with
  | nil => exact .inl h
  | cons type rest =>
      simp only [Inbox.dispatch] at h
      split_ifs at h
      · unfold Inbox.handleNodeInfo at h
        split at h <;> exact .inl h
      · unfold Inbox.handleSensorData at h
        split at h <;> exact .inl h
      · cases hack : handleCmdAck (type :: rest) srcAddr with
        | none =>
            rw [hack] at h
            exact .inl h
        | some rpt =>
            rw [hack] at h
            exact (mem_of_mem_push h).imp_right fun ha => congrArg some ha.symm
      · exact .inl h

end

end Tempio.Hub
