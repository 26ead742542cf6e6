import Tempio.EndToEnd.Request
import Tempio.Hub.BleData
import Tempio.Server.Mqtt

namespace Tempio.EndToEnd

open Tempio.Lib Tempio.Lib.Json Tempio.Lib.Words Tempio.Protocol Tempio.Hub Tempio.Sensor
  Tempio.Sensor.Peripheral Tempio.Server

/-- What the server does with the notifications that a node sends for one packet:
each CMD_ACK goes through the hub's queue and the hub's topic. -/
def handledAcks (hubId srcAddr : List Char) (p : Peripheral) (pkt : List UInt8) : List Handled :=
  (((p.onWrite pkt).notified.drop p.notified.length).filterMap (ackOfNotify · srcAddr)).map
    fun r => handleMessage (topicReport hubId) (r.toJson 128)

/-- The `i`-th command of an envelope, once it is written to a node, comes back to
`process_ack` with the id that its row has. -/
def RoundTrip (json : ArduinoJson) (commands : List Command) (i : Nat) (hubId srcAddr : List Char)
    (p : Peripheral) : Prop :=
  ∀ cmd ∈ commands[i]?, ∀ c ∈ (parseCommands json (publishCommands commands))[i]?,
    ∀ now serial pkt, handle json { c with queuedAt := now, serial := serial } = .write pkt →
      handledAcks hubId srcAddr p pkt = [.processAck hubId (.int cmd.cmdId) true]

section

variable {json : ArduinoJson} {commands : List Command} {cmd : Command}

theorem parseCommands_publishCommands
    (h : json.deserializeJson (publishCommands commands) = ⟨false, envelope commands⟩) :
    parseCommands json (publishCommands commands) =
      commands.map fun cmd => (parseCommand cmd.modelDump).stamp json.unset := by
  have hget : asArray ((envelope commands).get "commands") =
      some (commands.map Command.modelDump) := by
    rw [envelope, get_cons_self]
    rfl
  simp only [parseCommands, h, hget, Bool.false_eq_true, if_false, List.map_map, Function.comp_def]

theorem type_parseCommand (cmd : Command) :
    (parseCommand cmd.modelDump).type = strlcpy 16 (utf8 cmd.type.toList) := by
  have hget : cmd.modelDump.get "type" = .str cmd.type := by
    rw [Command.modelDump, get_cons_of_ne (by decide), get_cons_self]
  rw [parseCommand, hget]
  rfl

theorem cmdId_parseCommand (cmd : Command) :
    (parseCommand cmd.modelDump).cmdId = UInt16.ofInt (orInt (.int cmd.cmdId) 0) := by
  have hget : cmd.modelDump.get "cmd_id" = .int cmd.cmdId := by
    rw [Command.modelDump, get_cons_of_ne (by decide), get_cons_of_ne (by decide),
      get_cons_of_ne (by decide), get_cons_self]
  rw [parseCommand, hget]

theorem packet_setInterval {c : MqttCommand} {pkt : List UInt8}
    (htype : c.type.chars = "SET_INTERVAL".toList) (h : handle json c = .write pkt) :
    ∃ sec, pkt = SetInterval.bytes ⟨c.cmdId, sec⟩ := by
  rw [handle, if_pos htype, handleSetInterval] at h
  split_ifs at h
  exact ⟨_, (Attempt.write.inj h).symm⟩

theorem packet_test {c : MqttCommand} {pkt : List UInt8} (htype : c.type.chars = "TEST".toList)
    (h : handle json c = .write pkt) : ∃ led, pkt = TestCmd.bytes ⟨c.cmdId, led⟩ := by
  rw [handle, if_neg (by rw [htype]; decide), if_neg (by rw [htype]; decide),
    if_neg (by rw [htype]; decide), if_pos htype, handleTest] at h
  exact ⟨_, (Attempt.write.inj h).symm⟩

end

section

variable {hubId srcAddr : List Char} {p : Peripheral}

theorem handleMessage_cmdAck (hhub : '/' ∉ hubId) (hsrc : printable srcAddr = true) (id : UInt16) :
    handleMessage (topicReport hubId)
        (CmdAckReport.toJson ⟨strlcpy 18 srcAddr, id, (1 : UInt8) ≠ 0⟩ 128) =
      .processAck hubId (.int id.toNat) true := by
  have hloads := CmdAckReport.loads_toJson ⟨strlcpy 18 srcAddr, id, (1 : UInt8) ≠ 0⟩
    (printable_strlcpy hsrc)
  simp only [handleMessage, splitOn_topicReport hhub, hloads, CmdAckReport.doc]
  rfl

theorem handledAcks_of_notified (hhub : '/' ∉ hubId) (hsrc : printable srcAddr = true)
    {pkt : List UInt8} {id : UInt16}
    (h : (p.onWrite pkt).notified = p.notified ++ [CmdAck.bytes ⟨id, 1⟩]) :
    handledAcks hubId srcAddr p pkt = [.processAck hubId (.int id.toNat) true] := by
  rw [handledAcks, h, List.drop_left, List.filterMap_cons, ackOfNotify_bytes]
  simp only [List.filterMap_nil, List.map_cons, List.map_nil, handleMessage_cmdAck hhub hsrc]

theorem handledAcks_setInterval (hdata : p.dataChar = true) (hconn : p.deviceConnected = true)
    (hhub : '/' ∉ hubId) (hsrc : printable srcAddr = true) (m : SetInterval) :
    handledAcks hubId srcAddr p m.bytes =
      if m.cmdId = 0 then [] else [.processAck hubId (.int m.cmdId.toNat) true] := by
  split_ifs with hid
  · have hnone : (p.onWrite m.bytes).notified = p.notified := by
      rw [onWrite_setInterval, onSetInterval, if_neg (fun h => h.1 hid)]
      rfl
    rw [handledAcks, hnone, List.drop_length]
    rfl
  · apply handledAcks_of_notified hhub hsrc
    rw [onWrite_setInterval, onSetInterval, if_pos ⟨hid, hdata, hconn⟩]
    rfl

theorem handledAcks_test (hdata : p.dataChar = true) (hconn : p.deviceConnected = true)
    (hhub : '/' ∉ hubId) (hsrc : printable srcAddr = true) (m : TestCmd) :
    handledAcks hubId srcAddr p m.bytes = [.processAck hubId (.int m.cmdId.toNat) true] := by
  apply handledAcks_of_notified hhub hsrc
  rw [onWrite_testCmd, onTestCmd]
  split_ifs <;> simp_all [notify]

theorem handledAcks_of_sent {json : ArduinoJson} {cmd : Command} {now : UInt32} {serial : Nat}
    {pkt : List UInt8} (htype : cmd.type = "SET_INTERVAL" ∨ cmd.type = "TEST")
    (hsent : handle json { parseCommand cmd.modelDump with queuedAt := now, serial := serial } =
      .write pkt) (hdata : p.dataChar = true) (hconn : p.deviceConnected = true) (hhub : '/' ∉ hubId)
    (hsrc : printable srcAddr = true) :
    handledAcks hubId srcAddr p pkt =
      if cmd.type = "SET_INTERVAL" ∧ UInt16.ofInt (orInt (.int cmd.cmdId) 0) = 0 then []
      else [.processAck hubId (.int (UInt16.ofInt (orInt (.int cmd.cmdId) 0)).toNat) true] := by
  have hchars := type_parseCommand cmd
  have hid := cmdId_parseCommand cmd
  rcases htype with htype | htype
  · rw [htype] at hchars
    obtain ⟨sec, rfl⟩ := packet_setInterval (by rw [hchars]; decide) hsent
    rw [handledAcks_setInterval hdata hconn hhub hsrc, hid]
    exact if_congr (by simp [htype]) rfl rfl
  · rw [htype] at hchars
    obtain ⟨led, rfl⟩ := packet_test (by rw [hchars]; decide) hsent
    have htest : ¬ cmd.type = "SET_INTERVAL" := by simp [htype]
    rw [handledAcks_test hdata hconn hhub hsrc, hid, if_neg fun h => htest h.1]

/-- An id survives the way to the node and back exactly when it is not 0 and fits in 16 bits. -/
theorem roundTrip_iff (json : ArduinoJson) (counter : Nat) (commands : List Command) (i : Nat)
    (cmd : Command) (hcmd : (assignCmdIds counter commands).2[i]? = some cmd)
    (htype : cmd.type = "SET_INTERVAL" ∨ cmd.type = "TEST")
    (hread : json.deserializeJson (publishCommands (assignCmdIds counter commands).2) =
      ⟨false, envelope (assignCmdIds counter commands).2⟩)
    (now : UInt32) (serial : Nat) (pkt : List UInt8)
    (hsent : handle json { parseCommand cmd.modelDump with queuedAt := now, serial := serial } =
      .write pkt) (p : Peripheral) (hdata : p.dataChar = true) (hconn : p.deviceConnected = true)
    (hubId srcAddr : List Char) (hhub : '/' ∉ hubId) (hsrc : printable srcAddr = true) :
    RoundTrip json (assignCmdIds counter commands).2 i hubId srcAddr p ↔
      1 ≤ cmd.cmdId ∧ cmd.cmdId ≤ 65535 := by
  have hne := cmdId_assignCmdIds counter commands cmd (List.mem_of_getElem? hcmd)
  have hfield := toNat_ofInt16_orInt_iff (d := 0) (by decide) cmd.cmdId
  have hparsed : (parseCommands json (publishCommands (assignCmdIds counter commands).2))[i]? =
      some ((parseCommand cmd.modelDump).stamp json.unset) := by
    rw [parseCommands_publishCommands hread, List.getElem?_map, hcmd, Option.map_some]
  constructor
  · intro h
    have hack := h cmd hcmd _ hparsed now serial pkt hsent
    rw [handledAcks_of_sent htype hsent hdata hconn hhub hsrc] at hack
    split_ifs at hack
    simp only [List.cons.injEq, Handled.processAck.injEq, Json.int.injEq, and_true, true_and] at hack
    have := hfield.mp hack
    omega
  · rintro hrange cmd' hcmd' c hc now' serial' pkt' hsent'
    obtain rfl : cmd = cmd' := Option.some.inj (hcmd.symm.trans hcmd')
    obtain rfl := Option.some.inj (hparsed.symm.trans hc)
    have hkept := hfield.mpr (by omega)
    have hid : UInt16.ofInt (orInt (.int cmd.cmdId) 0) ≠ 0 := by
      intro h0
      rw [h0] at hkept
      exact hne hkept.symm
    rw [handledAcks_of_sent htype hsent' hdata hconn hhub hsrc, if_neg fun h => hid h.2, hkept]

end

def testOf (cmdId : Int) : Command := ⟨"aa:bb:cc:dd:ee:ff", "TEST", .obj [("led", .bool false)], cmdId⟩

theorem deserializeJson_testOf (cmdId : Int) :
    ArduinoJson.ofLoads.deserializeJson (publishCommands [testOf cmdId]) =
      ⟨false, envelope [testOf cmdId]⟩ := by
  have hkeeps (s : String) : spacedStyle.KeepsAll s := fun c _ => keeps_spacedStyle c
  have hpayload : spacedStyle.Writable (testOf cmdId).payload := ⟨by simp, hkeeps _, trivial, trivial⟩
  have hloads : loads (publishCommands [testOf cmdId]) = some (envelope [testOf cmdId]) :=
    loads_publishCommands (by simpa using hpayload)
  simp only [ArduinoJson.ofLoads, hloads]

theorem roundTrip_testOf_seven :
    RoundTrip .ofLoads (assignCmdIds 0 [testOf 7]).2 0 "aabbccddeeff".toList
        "aa:bb:cc:dd:ee:ff".toList sensorNode ↔
      1 ≤ (testOf 7).cmdId ∧ (testOf 7).cmdId ≤ 65535 :=
  roundTrip_iff .ofLoads 0 [testOf 7] 0 (testOf 7) rfl (.inr rfl) (deserializeJson_testOf 7) 0 0
    (TestCmd.bytes ⟨7, 0⟩) (by decide +kernel) sensorNode rfl rfl _ _ (by decide) (by decide)

/-- The explicit id 65537 comes back as id 1, which may be another command's. -/
theorem wideId_not_roundTrip :
    ¬ RoundTrip .ofLoads (assignCmdIds 0 [testOf 65537]).2 0 "aabbccddeeff".toList
        "aa:bb:cc:dd:ee:ff".toList sensorNode := by
  have hassigned : (assignCmdIds 0 [testOf 65537]).2 = [testOf 65537] := rfl
  have hsent : handle .ofLoads { parseCommand (testOf 65537).modelDump with queuedAt := 0, serial := 0 } =
      .write (TestCmd.bytes ⟨1, 0⟩) := by
    decide +kernel
  intro h
  rw [hassigned] at h
  have hparsed := parseCommands_publishCommands (deserializeJson_testOf 65537)
  have hack := h (testOf 65537) rfl (parseCommand (testOf 65537).modelDump) (by rw [hparsed]; rfl)
    0 0 _ hsent
  rw [handledAcks_of_sent (.inr rfl) hsent rfl rfl (by decide) (by decide)] at hack
  split_ifs at hack
  simp only [List.cons.injEq, Handled.processAck.injEq, Json.int.injEq, and_true, true_and] at hack
  exact absurd hack (by decide)

end Tempio.EndToEnd
