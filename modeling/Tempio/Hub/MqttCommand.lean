import Mathlib.Data.List.TakeWhile
import Mathlib.Data.UInt

namespace Tempio.Hub

def maxNodes : Nat := 5

def cmdPendingPerNode : Nat := 4

def cmdTtlMs : UInt32 := 300000

def bleMaxWriteSize : Nat := 500

instance : NeZero cmdPendingPerNode := ⟨by decide⟩

def nul : Char := Char.ofNat 0

/-- What a `char` array of the given size can hold as a terminated string. As everywhere on the hub a
`Char` is a byte here, and the length is the number of bytes. -/
@[ext]
structure CStr (size : Nat) where
  chars : List Char
  fits : chars.length < size
  noNul : nul ∉ chars
deriving DecidableEq

instance (size : Nat) [NeZero size] : Inhabited (CStr size) :=
  ⟨⟨[], Nat.pos_of_neZero size, List.not_mem_nil⟩⟩

instance neZeroTypeSize : NeZero 16 := ⟨by decide⟩

instance neZeroNodeIdSize : NeZero 18 := ⟨by decide⟩

instance neZeroPayloadSize : NeZero 256 := ⟨by decide⟩

/-- Copy the bytes up to the terminator, cut to the destination and terminate. -/
def strlcpy (size : Nat) [NeZero size] (src : List Char) : CStr size where
  chars := (src.takeWhile (· ≠ nul)).take (size - 1)
  fits := by
    have := Nat.pos_of_neZero size
    rw [List.length_take]
    omega
  noNul := fun h => by
    have := List.mem_takeWhile_imp (List.mem_of_mem_take h)
    simp at this

theorem chars_strlcpy {size : Nat} [NeZero size] {src : List Char} (hn : nul ∉ src)
    (hl : src.length < size) : (strlcpy size src).chars = src := by
  have hw : src.takeWhile (· ≠ nul) = src := by
    rw [List.takeWhile_eq_self_iff]
    intro c hc
    simpa using fun h : c = nul => hn (h ▸ hc)
  simp only [strlcpy, hw]
  exact List.take_of_length_le (by omega)

theorem strlcpy_chars {size : Nat} [NeZero size] (s : CStr size) : strlcpy size s.chars = s :=
  CStr.ext (chars_strlcpy s.noNul s.fits)

abbrev NodeId := CStr 18

/-- One command of the server. `payload` are the bytes of the field before its
terminator; a field that is full has none. `serial` is an auxiliary variable: it
numbers the calls of `dispatchCommand`, so that two equal commands can be told
apart, and no function reads it. -/
structure MqttCommand where
  target : NodeId
  type : CStr 16
  payload : List Char
  cmdId : UInt16
  queuedAt : UInt32
  serial : Nat
deriving DecidableEq, Inhabited

/-- The command without the stamp that the pending pool puts on it. -/
def MqttCommand.origin (c : MqttCommand) : MqttCommand := { c with queuedAt := 0 }

def MqttCommand.stamp (c : MqttCommand) (now : UInt32) : MqttCommand := { c with queuedAt := now }

@[simp]
theorem MqttCommand.stamp_target (c : MqttCommand) (now : UInt32) : (c.stamp now).target = c.target :=
  rfl

@[simp]
theorem MqttCommand.stamp_serial (c : MqttCommand) (now : UInt32) : (c.stamp now).serial = c.serial :=
  rfl

@[simp]
theorem MqttCommand.stamp_queuedAt (c : MqttCommand) (now : UInt32) : (c.stamp now).queuedAt = now :=
  rfl

@[simp]
theorem MqttCommand.origin_stamp (c : MqttCommand) (now : UInt32) : (c.stamp now).origin = c.origin :=
  rfl

@[simp]
theorem MqttCommand.origin_target (c : MqttCommand) : c.origin.target = c.target := rfl

@[simp]
theorem MqttCommand.origin_serial (c : MqttCommand) : c.origin.serial = c.serial := rfl

theorem MqttCommand.target_of_origin {c d : MqttCommand} (h : c.origin = d.origin) :
    c.target = d.target := by
  simpa using congrArg MqttCommand.target h

theorem MqttCommand.serial_of_origin {c d : MqttCommand} (h : c.origin = d.origin) :
    c.serial = d.serial := by
  simpa using congrArg MqttCommand.serial h

/-- The test `now - cmd.queued_at < CMD_TTL_MS`, in unsigned 32-bit arithmetic. -/
def MqttCommand.fresh (now : UInt32) (c : MqttCommand) : Bool := now - c.queuedAt < cmdTtlMs

end Tempio.Hub
