import Tempio.Hub.ArduinoJson
import Tempio.Hub.PendingPool
import Tempio.Lib.Buffer
import Tempio.Protocol

namespace Tempio.Hub

open Tempio.Lib Tempio.Lib.Words Tempio.Lib.Buffer Tempio.Protocol

/-- What a handler does: return false without sending, write outside its
packet buffer, or call `bleSendToNode` once and return the result. -/
inductive Attempt
  | refused
  | overrun
  | write (pkt : List UInt8)
deriving DecidableEq

structure Call where
  target : NodeId
  pkt : List UInt8
deriving DecidableEq

section

variable (json : ArduinoJson)

/-- What stands in memory behind `payload`, up to the next NUL. -/
def behindPayload (cmdId : UInt16) (queuedAt : UInt32) : List Char :=
  ((le16 cmdId ++ le32 queuedAt ++ json.behind).map byteChar).takeWhile (· ≠ nul)

/-- `cmd.payload` as a C string. A full field has no terminator, so that the text goes on behind it. -/
def payloadText (cmd : MqttCommand) : List Char :=
  if cmd.payload.length < 256 then cmd.payload
  else cmd.payload ++ behindPayload json cmd.cmdId cmd.queuedAt

def handleSetInterval (cmd : MqttCommand) : Attempt :=
  let parsed := json.deserializeJson (payloadText json cmd)
  if parsed.err then .refused
  else .write (SetInterval.bytes
    { cmdId := cmd.cmdId
      intervalSec := UInt16.ofInt (orInt (parsed.doc.get "interval_sec") 60) })

def handleResetNode (cmd : MqttCommand) : Attempt :=
  let parsed := json.deserializeJson (payloadText json cmd)
  if parsed.err then .refused
  else .write (ResetNode.bytes
    { cmdId := cmd.cmdId
      level := UInt8.ofInt (orInt (parsed.doc.get "level") 0) })

/-- The packet is put together in a buffer of `BLE_MAX_WRITE_SIZE` bytes, one
copy after the other. -/
def handleIrTiming (cmd : MqttCommand) : Attempt :=
  let parsed := json.deserializeJson (payloadText json cmd)
  if parsed.err then .refused
  else match asArray (parsed.doc.get "timings") with
    | none => .refused
    | some timings =>
        if timings.length = 0 then .refused
        else
          let count := UInt16.ofNat timings.length
          let pktLen := 1 + 2 + 2 + count.toNat * 2
          if pktLen > bleMaxWriteSize then .refused
          else
            let vals := (timings.take count.toNat).map fun t => le16 (json.asUInt16 t)
            let blocks := [MsgType.irTiming.code] :: le16 cmd.cmdId :: le16 count :: vals
            match copyAll blocks 0 (List.replicate bleMaxWriteSize 0) with
            | none => .overrun
            | some pkt => .write (pkt.take pktLen)

/-- The result of parsing is not looked at. -/
def handleTest (cmd : MqttCommand) : Attempt :=
  let parsed := json.deserializeJson (payloadText json cmd)
  .write (TestCmd.bytes
    { cmdId := cmd.cmdId
      led := UInt8.ofInt (orInt (parsed.doc.get "led") 0) })

/-- The routing of `trySend`; an unknown type is refused. -/
def handle (cmd : MqttCommand) : Attempt :=
  if cmd.type.chars = "SET_INTERVAL".toList then handleSetInterval json cmd
  else if cmd.type.chars = "RESET_NODE".toList then handleResetNode json cmd
  else if cmd.type.chars = "IR_TIMING".toList then handleIrTiming json cmd
  else if cmd.type.chars = "TEST".toList then handleTest json cmd
  else .refused

/-- `bleSendToNode` is code of the BLE module; its result decides. -/
def trySend (bleSendToNode : NodeId → List UInt8 → Bool) (cmd : MqttCommand) : Bool :=
  match handle json cmd with
  | .write pkt => bleSendToNode cmd.target pkt
  | _ => false

def callsOf (cmd : MqttCommand) : List Call :=
  match handle json cmd with
  | .write pkt => [⟨cmd.target, pkt⟩]
  | _ => []

/-- The loop body of `parseAndDispatchCommands`, up to the dispatch. It does not set `queued_at`. -/
def parseCommand (obj : Json) : MqttCommand where
  target := strlcpy 18 (orStr (obj.get "target") "")
  type := strlcpy 16 (orStr (obj.get "type") "")
  payload :=
    if isObject (obj.get "payload") then serializeRead (obj.get "payload") 256
    else (strlcpy 256 (orStr (obj.get "payload") "")).chars
  cmdId := UInt16.ofInt (orInt (obj.get "cmd_id") 0)
  queuedAt := 0
  serial := 0

def parseCommands (data : List Char) : List MqttCommand :=
  let parsed := json.deserializeJson data
  if parsed.err then []
  else match asArray (parsed.doc.get "commands") with
    | none => []
    | some commands => commands.map fun obj => (parseCommand obj).stamp json.unset

/-- An empty target is a command for the hub itself, which touches neither the
pool nor a node. -/
def dispatchCommand (bleSendToNode : NodeId → List UInt8 → Bool) (now : UInt32)
    (s : PendingPool × List Call) (cmd : MqttCommand) : PendingPool × List Call :=
  if cmd.target.chars = [] then s
  else if trySend json bleSendToNode cmd then (s.1, s.2 ++ callsOf json cmd)
  else ((s.1.push now cmd.target cmd).2, s.2 ++ callsOf json cmd)

def parseAndDispatchCommands (bleSendToNode : NodeId → List UInt8 → Bool) (now : UInt32)
    (p : PendingPool) (data : List Char) : PendingPool × List Call :=
  (parseCommands json data).foldl (dispatchCommand json bleSendToNode now) (p, [])

end

theorem calls_dispatchCommand {json : ArduinoJson} {cmd : MqttCommand} (h : cmd.target.chars ≠ [])
    (bleSendToNode : NodeId → List UInt8 → Bool) (now : UInt32) (s : PendingPool × List Call) :
    (dispatchCommand json bleSendToNode now s cmd).2 = s.2 ++ callsOf json cmd := by
  rw [dispatchCommand, if_neg h]
  split_ifs <;> rfl

/-- No state of the link makes `trySend` succeed. -/
def Unsendable (json : ArduinoJson) (cmd : MqttCommand) : Prop :=
  ∀ bleSendToNode, trySend json bleSendToNode cmd = false

theorem unsendable_iff {json : ArduinoJson} {cmd : MqttCommand} :
    Unsendable json cmd ↔ trySend json (fun _ _ => true) cmd = false := by
  refine ⟨fun h => h _, fun h bleSendToNode => ?_⟩
  unfold trySend at h ⊢
  cases ha : handle json cmd with
  | write pkt => simp [ha] at h
  | refused | overrun => rfl

/-- The handlers do not read the number, and the stamp only as a part of the text. -/
theorem handle_congr {c d : MqttCommand} {json : ArduinoJson} (htype : c.type = d.type)
    (htext : payloadText json c = payloadText json d) (hid : c.cmdId = d.cmdId) :
    handle json c = handle json d := by
  simp only [handle, handleSetInterval, handleResetNode, handleIrTiming, handleTest, htype, htext, hid]

instance (json : ArduinoJson) (cmd : MqttCommand) : Decidable (Unsendable json cmd) :=
  decidable_of_iff _ unsendable_iff.symm

/-- The layout of an IR_TIMING packet. -/
def irPacket (cmdId : UInt16) (timings : List UInt16) : List UInt8 :=
  MsgType.irTiming.code ::
    (le16 cmdId ++ le16 (UInt16.ofNat timings.length) ++ timings.flatMap le16)

theorem length_irPacket (cmdId : UInt16) (timings : List UInt16) :
    (irPacket cmdId timings).length = 5 + 2 * timings.length := by
  simp only [irPacket, List.length_cons, List.length_append, length_le16, length_flatMap_le16]
  omega

theorem handleIrTiming_of_items {json : ArduinoJson} {cmd : MqttCommand} {doc : Json}
    {items : List Json} (hdoc : json.deserializeJson (payloadText json cmd) = ⟨false, doc⟩)
    (hitems : asArray (doc.get "timings") = some items) (hne : items ≠ [])
    {timings : List UInt16} (hvals : (items.take (items.length % 2 ^ 16)).map json.asUInt16 = timings) :
    handleIrTiming json cmd =
      if 5 + 2 * timings.length ≤ bleMaxWriteSize then .write (irPacket cmd.cmdId timings)
      else .refused := by
  have hlen : timings.length = items.length % 2 ^ 16 := by
    rw [← hvals, List.length_map, List.length_take]
    exact Nat.min_eq_left (Nat.mod_le _ _)
  have hcount : (UInt16.ofNat items.length).toNat = timings.length := by rw [UInt16.toNat_ofNat', hlen]
  have hword : UInt16.ofNat items.length = UInt16.ofNat timings.length := by
    rw [← hcount, UInt16.ofNat_toNat]
  have hpos : items.length ≠ 0 := fun h => hne (List.eq_nil_of_length_eq_zero h)
  have hbytes : ([MsgType.irTiming.code] :: le16 cmd.cmdId :: le16 (UInt16.ofNat items.length) ::
      (items.take timings.length).map fun t => le16 (json.asUInt16 t)).flatten =
      irPacket cmd.cmdId timings := by
    rw [hword, irPacket, hlen, ← hvals]
    simp [List.flatMap_def, Function.comp_def]
  simp only [handleIrTiming, hdoc, hitems, hpos, hcount, if_false, Bool.false_eq_true]
  by_cases hfit : 5 + 2 * timings.length ≤ bleMaxWriteSize
  · have hcopy := copyAll_zero ([MsgType.irTiming.code] :: le16 cmd.cmdId ::
      le16 (UInt16.ofNat items.length) ::
        (items.take timings.length).map fun t => le16 (json.asUInt16 t))
      (List.replicate bleMaxWriteSize 0)
    rw [hbytes, length_irPacket] at hcopy
    obtain ⟨pkt, hpkt, htake⟩ := Option.map_eq_some_iff.mp
      (hcopy (by rw [List.length_replicate]; exact hfit))
    have hsize : 1 + 2 + 2 + timings.length * 2 = 5 + 2 * timings.length := by omega
    simp only [hpkt, hsize, htake, if_pos hfit]
    rw [if_neg (by omega)]
  · rw [if_pos (by omega), if_neg hfit]

/-- Everything that the handler can do: it takes a list from the text and writes its packet, or
refuses. -/
theorem handleIrTiming_cases (json : ArduinoJson) (cmd : MqttCommand) :
    (∃ timings, json.Spells (payloadText json cmd) timings ∧ 5 + 2 * timings.length ≤ bleMaxWriteSize ∧
      handleIrTiming json cmd = .write (irPacket cmd.cmdId timings)) ∨
    (handleIrTiming json cmd = .refused ∧
      ∀ timings, json.Spells (payloadText json cmd) timings →
        bleMaxWriteSize < 5 + 2 * timings.length) := by
  by_cases h : ∃ timings, json.Spells (payloadText json cmd) timings
  · obtain ⟨timings, hspells⟩ := h
    have ⟨doc, items, hdoc, hitems, hne, hvals⟩ := hspells
    have hir := handleIrTiming_of_items hdoc hitems hne hvals
    by_cases hfit : 5 + 2 * timings.length ≤ bleMaxWriteSize
    · rw [if_pos hfit] at hir
      exact .inl ⟨timings, hspells, hfit, hir⟩
    · rw [if_neg hfit] at hir
      refine .inr ⟨hir, fun other hother => ?_⟩
      rw [hother.unique hspells]
      omega
  · refine .inr ⟨?_, fun timings hspells => absurd ⟨timings, hspells⟩ h⟩
    cases hp : json.deserializeJson (payloadText json cmd) with
    | mk err doc =>
        cases err with
        | true => simp [handleIrTiming, hp]
        | false =>
            cases hitems : asArray (doc.get "timings") with
            | none => simp [handleIrTiming, hp, hitems]
            | some items =>
                by_cases hne : items = []
                · simp [handleIrTiming, hp, hitems, hne]
                · exact absurd ⟨_, doc, items, hp, hitems, hne, rfl⟩ h

/-- The size test covers every copy: `pkt` is never written past its end. -/
theorem handle_ne_overrun (json : ArduinoJson) (cmd : MqttCommand) : handle json cmd ≠ .overrun := by
  have hir : handleIrTiming json cmd ≠ .overrun := by
    rcases handleIrTiming_cases json cmd with ⟨timings, _, _, h⟩ | ⟨h, _⟩ <;> simp [h]
  unfold handle
  split_ifs
  · simp only [handleSetInterval]
    split_ifs <;> simp
  · simp only [handleResetNode]
    split_ifs <;> simp
  · exact hir
  · simp [handleTest]
  · simp

end Tempio.Hub
