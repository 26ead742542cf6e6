import Tempio.Lib.Words

namespace Tempio.Protocol

open Tempio.Lib.Words

inductive MsgType
  | sensorData | irTiming | hubReady | setInterval | resetNode | testCmd | nodeInfo | cmdAck
deriving DecidableEq

def MsgType.code : MsgType → UInt8
  | .sensorData => 0x01
  | .irTiming => 0x02
  | .hubReady => 0x10
  | .setInterval => 0x12
  | .resetNode => 0x13
  | .testCmd => 0x14
  | .nodeInfo => 0x20
  | .cmdAck => 0x21

theorem MsgType.code_inj {a b : MsgType} : a.code = b.code ↔ a = b := by
  cases a <;> cases b <;> decide

inductive NodeType
  | sensor | ir
deriving DecidableEq

def NodeType.code : NodeType → UInt8
  | .sensor => 0x01
  | .ir => 0x02

/-- `temp` and `humidity` are the bits of the two floats. -/
structure SensorData where
  temp : UInt32
  humidity : UInt32
  ldr : UInt16
  batteryMv : UInt16
deriving DecidableEq

/-- `nodeType` is the byte as it came, which need not be the code of a type. -/
structure NodeInfo where
  nodeType : UInt8
  batteryMv : UInt16
  fwMajor : UInt8
  fwMinor : UInt8
deriving DecidableEq

structure SetInterval where
  cmdId : UInt16
  intervalSec : UInt16
deriving DecidableEq

structure ResetNode where
  cmdId : UInt16
  level : UInt8
deriving DecidableEq

structure TestCmd where
  cmdId : UInt16
  led : UInt8
deriving DecidableEq

structure CmdAck where
  cmdId : UInt16
  success : UInt8
deriving DecidableEq

def SensorData.bytes (m : SensorData) : List UInt8 :=
  MsgType.sensorData.code :: (le32 m.temp ++ le32 m.humidity ++ le16 m.ldr ++ le16 m.batteryMv)

def NodeInfo.bytes (m : NodeInfo) : List UInt8 :=
  MsgType.nodeInfo.code :: m.nodeType :: (le16 m.batteryMv ++ [m.fwMajor, m.fwMinor])

def hubReadyBytes : List UInt8 := [MsgType.hubReady.code]

def SetInterval.bytes (m : SetInterval) : List UInt8 :=
  MsgType.setInterval.code :: (le16 m.cmdId ++ le16 m.intervalSec)

def ResetNode.bytes (m : ResetNode) : List UInt8 :=
  MsgType.resetNode.code :: (le16 m.cmdId ++ [m.level])

def TestCmd.bytes (m : TestCmd) : List UInt8 :=
  MsgType.testCmd.code :: (le16 m.cmdId ++ [m.led])

def CmdAck.bytes (m : CmdAck) : List UInt8 :=
  MsgType.cmdAck.code :: (le16 m.cmdId ++ [m.success])

/-- The length test and the `memcpy` into the packed struct; longer input is cut. -/
def SensorData.ofBytes : List UInt8 → Option SensorData
  | _ :: t₀ :: t₁ :: t₂ :: t₃ :: h₀ :: h₁ :: h₂ :: h₃ :: l₀ :: l₁ :: b₀ :: b₁ :: _ =>
      some ⟨ofLe32 t₀ t₁ t₂ t₃, ofLe32 h₀ h₁ h₂ h₃, ofLe16 l₀ l₁, ofLe16 b₀ b₁⟩
  | _ => none

def NodeInfo.ofBytes : List UInt8 → Option NodeInfo
  | _ :: t :: a :: b :: major :: minor :: _ => some ⟨t, ofLe16 a b, major, minor⟩
  | _ => none

def SetInterval.ofBytes : List UInt8 → Option SetInterval
  | _ :: a :: b :: c :: d :: _ => some ⟨ofLe16 a b, ofLe16 c d⟩
  | _ => none

def ResetNode.ofBytes : List UInt8 → Option ResetNode
  | _ :: a :: b :: c :: _ => some ⟨ofLe16 a b, c⟩
  | _ => none

def TestCmd.ofBytes : List UInt8 → Option TestCmd
  | _ :: a :: b :: c :: _ => some ⟨ofLe16 a b, c⟩
  | _ => none

def CmdAck.ofBytes : List UInt8 → Option CmdAck
  | _ :: a :: b :: c :: _ => some ⟨ofLe16 a b, c⟩
  | _ => none

@[simp]
theorem SensorData.ofBytes_bytes (m : SensorData) : ofBytes m.bytes = some m := by
  simp [ofBytes, bytes, le16, le32]

@[simp]
theorem NodeInfo.ofBytes_bytes (m : NodeInfo) : ofBytes m.bytes = some m := by
  simp [ofBytes, bytes, le16]

@[simp]
theorem SetInterval.ofBytes_bytes (m : SetInterval) : ofBytes m.bytes = some m := by
  simp [ofBytes, bytes, le16]

@[simp]
theorem ResetNode.ofBytes_bytes (m : ResetNode) : ofBytes m.bytes = some m := by
  simp [ofBytes, bytes, le16]

@[simp]
theorem TestCmd.ofBytes_bytes (m : TestCmd) : ofBytes m.bytes = some m := by
  simp [ofBytes, bytes, le16]

@[simp]
theorem CmdAck.ofBytes_bytes (m : CmdAck) : ofBytes m.bytes = some m := by
  simp [ofBytes, bytes, le16]

/-- The messages of a reading are those of its type with thirteen bytes. -/
theorem SensorData.exists_bytes_iff {data : List UInt8} :
    (∃ m : SensorData, m.bytes = data) ↔ data.length = 13 ∧ data.head? = some MsgType.sensorData.code := by
  constructor
  · rintro ⟨m, rfl⟩
    exact ⟨rfl, rfl⟩
  · rintro ⟨hlen, htype⟩
    match data with
    | [type, t₀, t₁, t₂, t₃, h₀, h₁, h₂, h₃, l₀, l₁, b₀, b₁] =>
        obtain rfl := Option.some.inj htype
        refine ⟨⟨ofLe32 t₀ t₁ t₂ t₃, ofLe32 h₀ h₁ h₂ h₃, ofLe16 l₀ l₁, ofLe16 b₀ b₁⟩, ?_⟩
        simp [bytes]

theorem SetInterval.ofBytes_cons_iff {type : UInt8} {rest : List UInt8} {m : SetInterval} :
    ofBytes (type :: rest) = some m ↔ le16 m.cmdId ++ le16 m.intervalSec <+: rest := by
  constructor
  · intro h
    match rest with
    | a :: b :: c :: d :: tail =>
        obtain rfl := Option.some.inj h
        exact ⟨tail, by simp⟩
  · rintro ⟨tail, rfl⟩
    simp [ofBytes, le16]

theorem ResetNode.ofBytes_cons_iff {type : UInt8} {rest : List UInt8} {m : ResetNode} :
    ofBytes (type :: rest) = some m ↔ le16 m.cmdId ++ [m.level] <+: rest := by
  constructor
  · intro h
    match rest with
    | a :: b :: c :: tail =>
        obtain rfl := Option.some.inj h
        exact ⟨tail, by simp⟩
  · rintro ⟨tail, rfl⟩
    simp [ofBytes, le16]

theorem TestCmd.ofBytes_cons_iff {type : UInt8} {rest : List UInt8} {m : TestCmd} :
    ofBytes (type :: rest) = some m ↔ le16 m.cmdId ++ [m.led] <+: rest := by
  constructor
  · intro h
    match rest with
    | a :: b :: c :: tail =>
        obtain rfl := Option.some.inj h
        exact ⟨tail, by simp⟩
  · rintro ⟨tail, rfl⟩
    simp [ofBytes, le16]

/-- The documented layout of an IR_TIMING packet, read back: type, cmd_id,
count and then exactly count words. -/
def decodeIrTiming : List UInt8 → Option (UInt16 × List UInt16)
  | t :: a :: b :: c :: d :: rest =>
      if t = MsgType.irTiming.code then
        (words rest).bind fun ws =>
          if ws.length = (ofLe16 c d).toNat then some (ofLe16 a b, ws) else none
      else none
  | _ => none

end Tempio.Protocol
