import Tempio.Hub.BleData
import Tempio.Lib.Transition
import Tempio.Sensor.Setup

namespace Tempio.EndToEnd

open Tempio.Lib.Transition Tempio.Lib.Words Tempio.Protocol Tempio.Hub Tempio.Sensor

/-- What the hub can ask of a sensor node. -/
inductive NodeCommand
  | setInterval (m : SetInterval)
  | resetNode (m : ResetNode)
  | testCmd (m : TestCmd)

namespace NodeCommand

def bytes : NodeCommand → List UInt8
  | .setInterval m => m.bytes
  | .resetNode m => m.bytes
  | .testCmd m => m.bytes

def cmdId : NodeCommand → UInt16
  | .setInterval m => m.cmdId
  | .resetNode m => m.cmdId
  | .testCmd m => m.cmdId

/-- What the node does for a command, its acknowledgement apart. -/
def Executed (p q : Peripheral) : NodeCommand → Prop
  | .setInterval m => q.state = p.state.setSleepInterval m.intervalSec
  | .resetNode m => q.restarted = true ∧
      q.state = (if m.level ≥ 1 then p.state.clear else p.state).endPrefs
  | .testCmd m => q.state = p.state ∧ q.blinks = p.blinks + if m.led = 0 then 0 else 1

/-- The branch of `onWrite`. -/
def run (p : Peripheral) : NodeCommand → Peripheral
  | .setInterval m => p.onSetInterval m
  | .resetNode m => p.onResetNode m
  | .testCmd m => p.onTestCmd m

end NodeCommand

/-- The written bytes hold the whole struct of the command; more may follow. -/
def Carries (val : List UInt8) (c : NodeCommand) : Prop := c.bytes <+: val

/-- The size of the struct that the type byte names. -/
def structSize (type : UInt8) : Option Nat :=
  if type = MsgType.setInterval.code then some 5
  else if type = MsgType.resetNode.code then some 4
  else if type = MsgType.testCmd.code then some 4
  else none

/-- A notification that the hub takes for the success of a command. -/
def Acks (cmdId : UInt16) (ack : List UInt8) : Prop :=
  ack.length = 4 ∧ ∀ srcAddr, ackOfNotify ack srcAddr = some ⟨strlcpy 18 srcAddr, cmdId, true⟩

/-- A write is executed and acknowledged once, or ignored. -/
structure Answered (p : Peripheral) (val : List UInt8) : Prop where
  executes : ∀ c, Carries val c → c.cmdId ≠ 0 → c.Executed p (p.onWrite val) ∧
    ∃ ack, (p.onWrite val).notified = p.notified ++ [ack] ∧ Acks c.cmdId ack
  ignores : (∀ c, ¬ Carries val c) →
    (p.onWrite val).notified = p.notified ∧ (p.onWrite val).state = p.state

/-- A RESET_NODE that asks for its acknowledgement. -/
def AsksResetAck (val : List UInt8) : Prop := ∃ m : ResetNode, m.bytes <+: val ∧ m.cmdId ≠ 0

section

variable {p : Peripheral} {val : List UInt8} {c : NodeCommand}

theorem carries_setInterval {type : UInt8} {rest : List UInt8} {m : SetInterval} :
    Carries (type :: rest) (.setInterval m) ↔
      type = MsgType.setInterval.code ∧ SetInterval.ofBytes (type :: rest) = some m := by
  rw [SetInterval.ofBytes_cons_iff, eq_comm]
  exact List.cons_prefix_cons

theorem carries_resetNode {type : UInt8} {rest : List UInt8} {m : ResetNode} :
    Carries (type :: rest) (.resetNode m) ↔
      type = MsgType.resetNode.code ∧ ResetNode.ofBytes (type :: rest) = some m := by
  rw [ResetNode.ofBytes_cons_iff, eq_comm]
  exact List.cons_prefix_cons

theorem carries_testCmd {type : UInt8} {rest : List UInt8} {m : TestCmd} :
    Carries (type :: rest) (.testCmd m) ↔
      type = MsgType.testCmd.code ∧ TestCmd.ofBytes (type :: rest) = some m := by
  rw [TestCmd.ofBytes_cons_iff, eq_comm]
  exact List.cons_prefix_cons

theorem not_carries_nil (c : NodeCommand) : ¬ Carries [] c := by
  intro h
  have := List.prefix_nil.mp h
  cases c <;> cases this

theorem structSize_of_carries {type : UInt8} {rest : List UInt8} (h : Carries (type :: rest) c) :
    structSize type = some c.bytes.length := by
  cases c with
  | setInterval m => rw [(carries_setInterval.mp h).1]; rfl
  | resetNode m => rw [(carries_resetNode.mp h).1]; rfl
  | testCmd m => rw [(carries_testCmd.mp h).1]; rfl

/-- A command is carried exactly by the values that are at least as long as its struct. -/
theorem exists_carries_iff : (∃ c, Carries val c) ↔
    ∃ type ∈ val.head?, ∃ size ∈ structSize type, size ≤ val.length := by
  constructor
  · rintro ⟨c, hc⟩
    cases val with
    | nil => exact absurd hc (not_carries_nil c)
    | cons type rest => exact ⟨type, rfl, _, structSize_of_carries hc, hc.length_le⟩
  · rintro ⟨type, htype, size, hsize, hle⟩
    cases val with
    | nil => cases htype
    | cons type' rest =>
        obtain rfl : type' = type := Option.some.inj htype
        simp only [Option.mem_def, structSize] at hsize
        split_ifs at hsize with hset hreset htest
        · obtain rfl := Option.some.inj hsize
          match rest, hle with
          | a :: b :: c :: d :: tail, _ => exact ⟨.setInterval _, carries_setInterval.mpr ⟨hset, rfl⟩⟩
        · obtain rfl := Option.some.inj hsize
          match rest, hle with
          | a :: b :: c :: tail, _ => exact ⟨.resetNode _, carries_resetNode.mpr ⟨hreset, rfl⟩⟩
        · obtain rfl := Option.some.inj hsize
          match rest, hle with
          | a :: b :: c :: tail, _ => exact ⟨.testCmd _, carries_testCmd.mpr ⟨htest, rfl⟩⟩

theorem onWrite_of_carries (h : Carries val c) : p.onWrite val = c.run p := by
  cases val with
  | nil => exact absurd h (not_carries_nil c)
  | cons type rest =>
      cases c with
      | setInterval m =>
          obtain ⟨rfl, hm⟩ := carries_setInterval.mp h
          simp only [Peripheral.onWrite, MsgType.code_inj, reduceCtorEq, if_false, if_true, hm,
            Option.map_some, Option.getD_some]
          rfl
      | resetNode m =>
          obtain ⟨rfl, hm⟩ := carries_resetNode.mp h
          simp only [Peripheral.onWrite, MsgType.code_inj, reduceCtorEq, if_false, if_true, hm,
            Option.map_some, Option.getD_some]
          rfl
      | testCmd m =>
          obtain ⟨rfl, hm⟩ := carries_testCmd.mp h
          simp only [Peripheral.onWrite, MsgType.code_inj, reduceCtorEq, if_false, if_true, hm,
            Option.map_some, Option.getD_some]
          rfl

theorem onWrite_of_not_carries (h : ∀ c, ¬ Carries val c) :
    p.onWrite val = p ∨ p.onWrite val = { p with hubReady := true } := by
  cases val with
  | nil => exact .inl rfl
  | cons type rest =>
      simp only [Peripheral.onWrite]
      split_ifs with hready hset hreset htest
      · exact .inr rfl
      · cases hm : SetInterval.ofBytes (type :: rest) with
        | none => exact .inl rfl
        | some m => exact absurd (carries_setInterval.mpr ⟨hset, hm⟩) (h _)
      · cases hm : ResetNode.ofBytes (type :: rest) with
        | none => exact .inl rfl
        | some m => exact absurd (carries_resetNode.mpr ⟨hreset, hm⟩) (h _)
      · cases hm : TestCmd.ofBytes (type :: rest) with
        | none => exact .inl rfl
        | some m => exact absurd (carries_testCmd.mpr ⟨htest, hm⟩) (h _)
      · exact .inl rfl

theorem acks_bytes (cmdId : UInt16) : Acks cmdId (CmdAck.bytes ⟨cmdId, 1⟩) :=
  ⟨rfl, fun srcAddr => ackOfNotify_bytes ⟨cmdId, 1⟩ srcAddr⟩

theorem onTestCmd_of_connected (m : TestCmd) (hdata : p.dataChar = true)
    (hconn : p.deviceConnected = true) :
    (p.onTestCmd m).state = p.state ∧ (p.onTestCmd m).blinks = p.blinks + (if m.led = 0 then 0 else 1) ∧
      (p.onTestCmd m).notified = p.notified ++ [CmdAck.bytes ⟨m.cmdId, 1⟩] := by
  by_cases hled : m.led = 0
  · simp [Peripheral.onTestCmd, Peripheral.notify, hled, hdata, hconn]
  · simp [Peripheral.onTestCmd, Peripheral.notify, hled, hdata, hconn]

/-- A connected node answers every write but a RESET_NODE, which restarts it without a word. -/
theorem answered_iff (hdata : p.dataChar = true) (hconn : p.deviceConnected = true) :
    Answered p val ↔ ¬ AsksResetAck val := by
  constructor
  · rintro h ⟨m, hm, hid⟩
    obtain ⟨_, ack, hack, _⟩ := h.executes (.resetNode m) hm hid
    rw [onWrite_of_carries (c := .resetNode m) hm] at hack
    exact absurd (congrArg List.length hack) (by simp [NodeCommand.run, Peripheral.onResetNode])
  · intro hreset
    constructor
    · intro c hc hid
      rw [onWrite_of_carries hc]
      cases c with
      | setInterval m =>
          have hrun : p.onSetInterval m =
              (p.setInterval m.intervalSec).notify (CmdAck.bytes ⟨m.cmdId, 1⟩) :=
            if_pos ⟨hid, hdata, hconn⟩
          exact ⟨congrArg Peripheral.state hrun, _, congrArg Peripheral.notified hrun, acks_bytes _⟩
      | resetNode m => exact absurd ⟨m, hc, hid⟩ hreset
      | testCmd m =>
          obtain ⟨hstate, hblinks, hnotified⟩ := onTestCmd_of_connected m hdata hconn
          exact ⟨⟨hstate, hblinks⟩, _, hnotified, acks_bytes _⟩
    · intro hnone
      rcases onWrite_of_not_carries (p := p) hnone with h | h
      · rw [h]
        exact ⟨rfl, rfl⟩
      · rw [h]
        exact ⟨rfl, rfl⟩

end

/-- The characteristics are there, unless the node has just started. -/
def HasChars (n : Node) : Prop :=
  n.peripheral.dataChar = true ∨ n.point = .peripheralInit ∧ n.peripheral.deviceConnected = false

theorem hasChars_boot (n : Node) : HasChars n.boot := .inr ⟨rfl, rfl⟩

theorem HasChars.dataChar {n : Node} (h : HasChars n) (hconn : n.peripheral.deviceConnected = true) :
    n.peripheral.dataChar = true := by
  rcases h with hdata | ⟨_, hnot⟩
  · exact hdata
  · rw [hnot] at hconn
    cases hconn

theorem dataChar_sendNodeInfo (p : Peripheral) : p.sendNodeInfo.dataChar = p.dataChar := by
  unfold Peripheral.sendNodeInfo
  split_ifs <;> rfl

theorem dataChar_sendSensorData (p : Peripheral) (data : SensorData) :
    (p.sendSensorData data).dataChar = p.dataChar := by
  unfold Peripheral.sendSensorData
  split_ifs <;> rfl

theorem dataChar_onWrite (p : Peripheral) (val : List UInt8) : (p.onWrite val).dataChar = p.dataChar := by
  by_cases h : ∃ c, Carries val c
  · obtain ⟨c, hc⟩ := h
    rw [onWrite_of_carries hc]
    cases c with
    | setInterval m =>
        simp only [NodeCommand.run, Peripheral.onSetInterval]
        split_ifs <;> rfl
    | resetNode m => rfl
    | testCmd m =>
        simp only [NodeCommand.run, Peripheral.onTestCmd]
        split_ifs <;> rfl
  · rcases onWrite_of_not_carries (p := p) (not_exists.mp h) with h | h
    · rw [h]
    · rw [h]

theorem hasChars_step {n m : Node} {a : NodeAction} (h : HasChars n) (hm : setupStep n a = some m) :
    HasChars m := by
  have hup (hp : n.point.stackUp = true) : n.peripheral.dataChar = true := by
    rcases h with h | ⟨hinit, _⟩
    · exact h
    · rw [hinit] at hp
      cases hp
  cases moves_of_setupStep hm with
  | started hp => exact .inl rfl
  | booted hp => exact hasChars_boot n
  | written val hp hc =>
      rcases n.write_cases val with hw | ⟨n', hw⟩
      · rw [hw]
        exact .inl ((dataChar_onWrite _ _).trans (hup hp))
      · rw [hw]
        exact hasChars_boot n'
  | sentNodeInfo hp => exact .inl ((dataChar_sendNodeInfo _).trans (hup (hp ▸ rfl)))
  | sentSensorData data hp => exact .inl ((dataChar_sendSensorData _ _).trans (hup (hp ▸ rfl)))
  | waiting _ ha hp | connected hp | disconnected hp => exact .inl (hup hp)
  | connectSeen timedOut hp hc | ready timedOut hp hr | closing hp | ended hp | deinit hp =>
      exact .inl (hup (hp ▸ rfl))
  | gaveUp _ ha hp | closed _ ha hp =>
      rcases hp with hp | hp
      · exact .inl (hup (hp ▸ rfl))
      · exact .inl (hup (hp ▸ rfl))
  | slept hp =>
      rcases h with h | ⟨hinit, _⟩
      · exact .inl h
      · rw [hinit] at hp
        cases hp

/-- Wherever a run of the node has come to, a write of the connected hub is executed and
acknowledged once, or ignored, if and only if it is no RESET_NODE with an id. -/
theorem always_answered_iff (prefs : Option UInt16) (as : List NodeAction) :
    Always setupStep (fun n => n.peripheral.deviceConnected = true → ∀ val,
      (Answered n.peripheral val ↔ ¬ AsksResetAck val)) (Node.init prefs) as := by
  apply always_of_invariant (fun _ _ _ => hasChars_step)
  · exact fun n hn hconn val => answered_iff (hn.dataChar hconn) hconn
  · exact .inr ⟨rfl, rfl⟩

/-- A node that the hub has connected to. -/
def connectedRun : List NodeAction := [.peripheralInit, .onConnect]

/-- The reset is carried out, and the hub never hears of it. -/
theorem connectedRun_reset_unanswered :
    ∃ n, exec setupStep (Node.init none) connectedRun = some n ∧ n.peripheral.deviceConnected = true ∧
      ¬ Answered n.peripheral (ResetNode.bytes ⟨7, 0⟩) := by
  refine ⟨_, rfl, rfl, fun h => ?_⟩
  obtain ⟨_, ack, hack, _⟩ := h.executes (.resetNode ⟨7, 0⟩) List.prefix_rfl (by decide)
  exact List.cons_ne_nil ack [] hack.symm

end Tempio.EndToEnd
