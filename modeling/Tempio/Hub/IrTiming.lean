import Tempio.Hub.CmdDispatcher

namespace Tempio.Hub

open Tempio.Lib Tempio.Lib.Json Tempio.Lib.Words Tempio.Protocol

def irPayload (timings : List UInt16) : Json :=
  .obj [("timings", .arr (timings.map fun t => .int t.toNat))]

/-- The message of the server that carries one IR_TIMING command. -/
def irEnvelope (target : String) (cmdId : UInt16) (timings : List UInt16) : Json :=
  .obj [("commands", .arr [.obj
    [("target", .str target), ("type", .str "IR_TIMING"), ("payload", irPayload timings),
      ("cmd_id", .int cmdId.toNat)]])]

/-- A list that fits in one write arrives as sent, a longer one is refused, and
`pkt` is not written past its end. -/
structure IrTimingIntact (json : ArduinoJson) (bleSendToNode : NodeId → List UInt8 → Bool)
    (now : UInt32) (p : PendingPool) (data : List Char) (target : NodeId) (cmdId : UInt16)
    (timings : List UInt16) : Prop where
  arrives : 5 + 2 * timings.length ≤ bleMaxWriteSize →
    (parseAndDispatchCommands json bleSendToNode now p data).2 = [⟨target, irPacket cmdId timings⟩] ∧
      (irPacket cmdId timings).length = 5 + 2 * timings.length ∧
      decodeIrTiming (irPacket cmdId timings) = some (cmdId, timings)
  refused : bleMaxWriteSize < 5 + 2 * timings.length →
    (parseAndDispatchCommands json bleSendToNode now p data).2 = []
  inBounds : ∀ cmd ∈ parseCommands json data, handle json cmd ≠ .overrun

/-- The payload's text, cut to the field, with what follows it in memory. -/
def cutText (json : ArduinoJson) (cmdId : UInt16) (timings : List UInt16) : List Char :=
  (irPayload timings).compact.take 256 ++ behindPayload json cmdId json.unset

/-- The text of a list that can be sent fits in the field, or the memory behind the field completes it;
where the list cannot be sent, the memory does not complete the cut text to one that can. -/
structure TextKept (json : ArduinoJson) (cmdId : UInt16) (timings : List UInt16) : Prop where
  whole : 5 + 2 * timings.length ≤ bleMaxWriteSize →
    (irPayload timings).compact.length ≤ 256 ∨ json.Spells (cutText json cmdId timings) timings
  tooLong : bleMaxWriteSize < 5 + 2 * timings.length →
    ∀ other, json.Spells (cutText json cmdId timings) other → bleMaxWriteSize < 5 + 2 * other.length

theorem decodeIrTiming_irPacket {cmdId : UInt16} {timings : List UInt16}
    (h : timings.length < 2 ^ 16) :
    decodeIrTiming (irPacket cmdId timings) = some (cmdId, timings) := by
  have hn : (UInt16.ofNat timings.length).toNat = timings.length := by
    rw [UInt16.toNat_ofNat']
    exact Nat.mod_eq_of_lt h
  simp only [irPacket, le16, List.cons_append, List.nil_append, decodeIrTiming, ofLe16_le16]
  rw [if_pos trivial]
  rw [words_flatMap_le16, Option.bind_some, hn, if_pos rfl]

theorem irPacket_inj {cmdId : UInt16} {l m : List UInt16} (hl : l.length < 2 ^ 16)
    (hm : m.length < 2 ^ 16) (h : irPacket cmdId l = irPacket cmdId m) : l = m := by
  have hdecode : decodeIrTiming (irPacket cmdId l) = some (cmdId, l) := decodeIrTiming_irPacket hl
  rw [h, decodeIrTiming_irPacket hm] at hdecode
  exact (Prod.mk.inj (Option.some.inj hdecode)).2.symm

theorem ascii_of_all {text : List Char} (h : (text.all fun c => c.toNat < 128) = true) :
    ∀ c ∈ text, c.toNat < 128 := by
  simpa using h

theorem toNat_lt_of_isDigit {c : Char} (h : c.isDigit = true) : c.toNat < 128 := by
  simp only [Char.isDigit, Bool.and_eq_true, decide_eq_true_eq, ge_iff_le,
    UInt32.le_iff_toNat_le] at h
  have : c.val.toNat ≤ 57 := h.2
  exact Nat.lt_of_le_of_lt this (by decide)

theorem ascii_intText (n : Int) : ∀ c ∈ intText n, c.toNat < 128 := by
  have hdigits (k : Nat) : ∀ c ∈ Nat.toDigits 10 k, c.toNat < 128 :=
    fun c hc => toNat_lt_of_isDigit (Nat.isDigit_of_mem_toDigits (by decide) (by decide) hc)
  cases n with
  | ofNat k => exact hdigits k
  | negSucc k => exact List.forall_mem_cons.mpr ⟨by decide, hdigits (k + 1)⟩

theorem ascii_writeItems_int (ns : List Int) :
    ∀ c ∈ compactStyle.writeItems (ns.map .int), c.toNat < 128 := by
  have hcomma : ∀ c ∈ compactStyle.comma, c.toNat < 128 := ascii_of_all (by decide)
  induction ns with
  | nil => exact List.forall_mem_nil _
  | cons n ns ih =>
      cases ns with
      | nil =>
          simp only [List.map_cons, List.map_nil, Style.writeItems, Style.write]
          exact ascii_intText n
      | cons m ms =>
          simp only [List.map_cons, Style.writeItems, Style.write, List.forall_mem_append] at ih ⊢
          exact ⟨ascii_intText n, hcomma, ih⟩

/-- Every character of the text is one byte. -/
theorem utf8_compact_irPayload (timings : List UInt16) :
    utf8 (irPayload timings).compact = (irPayload timings).compact := by
  have hitems := ascii_writeItems_int (timings.map fun t => (t.toNat : Int))
  rw [List.map_map] at hitems
  apply utf8_of_ascii
  simp only [irPayload, compact, Style.write, Style.writeFields, List.forall_mem_append,
    List.forall_mem_cons]
  have hname : ∀ c ∈ compactStyle.strText "timings", c.toNat < 128 := ascii_of_all (by decide)
  have hcolon : ∀ c ∈ compactStyle.colon, c.toNat < 128 := ascii_of_all (by decide)
  exact ⟨by decide, ⟨hname, hcolon, by decide, hitems, by decide, List.forall_mem_nil _⟩,
    by decide, List.forall_mem_nil _⟩

theorem lt_length_compact_irPayload (timings : List UInt16) :
    2 * timings.length + 12 < (irPayload timings).compact.length := by
  have h := le_length_writeItems_int (timings.map fun t => (t.toNat : Int))
  rw [List.map_map, List.length_map] at h
  simp only [irPayload, compact, Style.write, Style.writeFields, Style.strText, List.length_cons,
    List.length_append, Function.comp_def] at h ⊢
  have : ("timings".toList.flatMap compactStyle.escape).length = 7 := by decide
  have : compactStyle.colon.length = 1 := rfl
  omega

/-- The command that `parseAndDispatchCommands` builds: its payload is cut to the
size of the field. -/
def irCommand (json : ArduinoJson) (target : NodeId) (cmdId : UInt16) (timings : List UInt16) :
    MqttCommand where
  target := target
  type := strlcpy 16 "IR_TIMING".toList
  payload := (irPayload timings).compact.take 256
  cmdId := cmdId
  queuedAt := json.unset
  serial := 0

section

variable {json : ArduinoJson} {data : List Char} {text : String} {target : NodeId} {cmdId : UInt16}
  {timings : List UInt16}

theorem parseCommands_irEnvelope
    (hdata : json.deserializeJson data = ⟨false, irEnvelope text cmdId timings⟩)
    (htext : utf8 text.toList = target.chars) :
    parseCommands json data = [irCommand json target cmdId timings] := by
  have hid : UInt16.ofInt (orInt (.int cmdId.toNat) 0) = cmdId := by
    have := cmdId.toNat_lt
    rw [orInt, if_pos (by omega), ofInt_toNat]
  have htype : utf8 "IR_TIMING".toList = "IR_TIMING".toList := by decide
  have hpayload : serializeRead (irPayload timings) 256 = (irPayload timings).compact.take 256 := by
    rw [serializeRead, utf8_compact_irPayload]
  have hobject : isObject (irPayload timings) = true := rfl
  simp only [parseCommands, hdata, irEnvelope, get_cons_self, asArray, Bool.false_eq_true, if_false,
    List.map_cons, List.map_nil, parseCommand, MqttCommand.stamp]
  simp only [Json.get, List.find?, String.reduceEq, decide_true, decide_false, Option.map_some,
    Option.getD_some, orStr, htext, htype, strlcpy_chars, hobject, if_true, hpayload, hid,
    irCommand]

theorem payloadText_irCommand (hlen : 256 < (irPayload timings).compact.length) :
    payloadText json (irCommand json target cmdId timings) = cutText json cmdId timings :=
  if_neg (by simp only [irCommand, List.length_take]; omega)

/-- Whatever follows a text that fits is not read. -/
theorem spells_of_fits (hpayload : json.Reads (irPayload timings))
    (hword : ∀ t : UInt16, json.asUInt16 (.int t.toNat) = t) (hne : timings ≠ [])
    (hlen : (irPayload timings).compact.length ≤ 256) :
    json.Spells (payloadText json (irCommand json target cmdId timings)) timings := by
  have hbig := lt_length_compact_irPayload timings
  have hcut : (irCommand json target cmdId timings).payload = (irPayload timings).compact :=
    List.take_of_length_le hlen
  have hdoc : json.deserializeJson (payloadText json (irCommand json target cmdId timings)) =
      ⟨false, irPayload timings⟩ := by
    unfold payloadText
    rw [hcut, ← utf8_compact_irPayload]
    split_ifs
    · simpa using hpayload []
    · exact hpayload _
  have hall : ((timings.map fun t => Json.int t.toNat).take
      ((timings.map fun t => Json.int t.toNat).length % 2 ^ 16)).map json.asUInt16 = timings := by
    rw [List.length_map, Nat.mod_eq_of_lt (by omega), List.take_of_length_le (by simp), List.map_map]
    exact List.map_id'' hword timings
  exact ⟨_, _, hdoc, rfl, by simpa using hne, hall⟩

theorem handle_irCommand (json : ArduinoJson) (target : NodeId) (cmdId : UInt16)
    (timings : List UInt16) : handle json (irCommand json target cmdId timings) =
      handleIrTiming json (irCommand json target cmdId timings) := rfl

/-- The command is sent as it came exactly when the handler finds its list. -/
theorem callsOf_irCommand_iff (hfit : 5 + 2 * timings.length ≤ bleMaxWriteSize) :
    callsOf json (irCommand json target cmdId timings) = [⟨target, irPacket cmdId timings⟩] ↔
      json.Spells (payloadText json (irCommand json target cmdId timings)) timings := by
  rw [callsOf, handle_irCommand]
  rw [bleMaxWriteSize] at hfit
  rcases handleIrTiming_cases json (irCommand json target cmdId timings) with
    ⟨other, hspells, hother, hwrite⟩ | ⟨hrefused, hnone⟩
  · rw [bleMaxWriteSize] at hother
    simp only [hwrite, List.cons.injEq, Call.mk.injEq, and_true]
    constructor
    · rintro ⟨_, hpkt⟩
      rwa [irPacket_inj (by omega) (by omega) hpkt] at hspells
    · intro h
      rw [hspells.unique h]
      exact ⟨rfl, rfl⟩
  · simp only [hrefused, List.nil_eq, List.cons_ne_nil, false_iff]
    intro h
    have := hnone timings h
    rw [bleMaxWriteSize] at this
    omega

theorem callsOf_irCommand_eq_nil_iff :
    callsOf json (irCommand json target cmdId timings) = [] ↔
      ∀ other, json.Spells (payloadText json (irCommand json target cmdId timings)) other →
        bleMaxWriteSize < 5 + 2 * other.length := by
  rw [callsOf, handle_irCommand]
  rcases handleIrTiming_cases json (irCommand json target cmdId timings) with
    ⟨timings', hspells, hfit, hwrite⟩ | ⟨hrefused, hnone⟩
  · simp only [hwrite, List.cons_ne_nil, false_iff]
    intro h
    exact absurd (h timings' hspells) (Nat.not_lt.mpr hfit)
  · simp only [hrefused, true_iff]
    exact hnone

/-- A list that fits in a write is sent exactly when its text is whole, or is made whole again. -/
theorem sent_irCommand_iff (hpayload : json.Reads (irPayload timings))
    (hword : ∀ t : UInt16, json.asUInt16 (.int t.toNat) = t) (hne : timings ≠ [])
    (hfit : 5 + 2 * timings.length ≤ bleMaxWriteSize) :
    callsOf json (irCommand json target cmdId timings) = [⟨target, irPacket cmdId timings⟩] ↔
      (irPayload timings).compact.length ≤ 256 ∨ json.Spells (cutText json cmdId timings) timings := by
  rw [callsOf_irCommand_iff hfit]
  by_cases hlen : (irPayload timings).compact.length ≤ 256
  · exact ⟨fun _ => .inl hlen, fun _ => spells_of_fits hpayload hword hne hlen⟩
  · rw [payloadText_irCommand (by omega)]
    exact ⟨.inr, fun h => h.resolve_left hlen⟩

/-- The text of a longer list is always cut. -/
theorem refused_irCommand_iff (hlong : bleMaxWriteSize < 5 + 2 * timings.length) :
    callsOf json (irCommand json target cmdId timings) = [] ↔
      ∀ other, json.Spells (cutText json cmdId timings) other →
        bleMaxWriteSize < 5 + 2 * other.length := by
  have hbig := lt_length_compact_irPayload timings
  rw [bleMaxWriteSize] at hlong
  rw [callsOf_irCommand_eq_nil_iff, payloadText_irCommand (by omega)]

theorem calls_irEnvelope
    (hdata : json.deserializeJson data = ⟨false, irEnvelope text cmdId timings⟩)
    (htext : utf8 text.toList = target.chars) (htarget : target.chars ≠ [])
    (bleSendToNode : NodeId → List UInt8 → Bool) (now : UInt32) (p : PendingPool) :
    (parseAndDispatchCommands json bleSendToNode now p data).2 =
      callsOf json (irCommand json target cmdId timings) := by
  have hcmd : (irCommand json target cmdId timings).target.chars ≠ [] := htarget
  rw [parseAndDispatchCommands, parseCommands_irEnvelope hdata htext, List.foldl_cons, List.foldl_nil,
    calls_dispatchCommand hcmd, List.nil_append]

end

/-- An IR_TIMING command arrives intact exactly when its text survives the `payload` field, which is
smaller than the packet and, once it is full, open towards the memory behind it. -/
theorem irTimingIntact_iff (json : ArduinoJson) (bleSendToNode : NodeId → List UInt8 → Bool)
    (now : UInt32) (p : PendingPool) (data : List Char) (text : String) (target : NodeId)
    (cmdId : UInt16) (timings : List UInt16)
    (hdata : json.deserializeJson data = ⟨false, irEnvelope text cmdId timings⟩)
    (hpayload : json.Reads (irPayload timings))
    (hword : ∀ t : UInt16, json.asUInt16 (.int t.toNat) = t)
    (htext : utf8 text.toList = target.chars) (htarget : target.chars ≠ []) (hne : timings ≠ []) :
    IrTimingIntact json bleSendToNode now p data target cmdId timings ↔
      TextKept json cmdId timings := by
  have hcalls := calls_irEnvelope hdata htext htarget bleSendToNode now p
  constructor
  · intro h
    refine ⟨fun hfit => ?_, fun hlong => ?_⟩
    · have hsent := (h.arrives hfit).1
      rw [hcalls] at hsent
      exact (sent_irCommand_iff hpayload hword hne hfit).mp hsent
    · have hnone := h.refused hlong
      rw [hcalls] at hnone
      exact (refused_irCommand_iff hlong).mp hnone
  · intro h
    refine ⟨fun hfit => ⟨?_, length_irPacket _ _, decodeIrTiming_irPacket ?_⟩, fun hlong => ?_,
      fun cmd _ => handle_ne_overrun json cmd⟩
    · rw [hcalls]
      exact (sent_irCommand_iff hpayload hword hne hfit).mpr (h.whole hfit)
    · rw [bleMaxWriteSize] at hfit
      omega
    · rw [hcalls]
      exact (refused_irCommand_iff hlong).mpr (h.tooLong hlong)

def irMac : String := "aa:bb:cc:dd:ee:ff"

def irTarget : NodeId := strlcpy 18 irMac.toList

/-- The library on the message and on a text that may stand in the command's payload. -/
def irJson (cmdId : UInt16) (timings readable : List UInt16) : ArduinoJson :=
  .ofDocuments [irEnvelope irMac cmdId timings, irPayload readable]

theorem asUInt16_irJson (cmdId : UInt16) (timings readable : List UInt16) (t : UInt16) :
    (irJson cmdId timings readable).asUInt16 (.int t.toNat) = t := by
  have := t.toNat_lt
  simp only [irJson, ArduinoJson.ofDocuments]
  rw [if_pos (by omega), ofInt_toNat]

theorem irTimingIntact_two :
    IrTimingIntact (irJson 7 [9000, 4500] [9000, 4500]) (fun _ _ => true) 0 PendingPool.init
      (irEnvelope irMac 7 [9000, 4500]).compact irTarget 7 [9000, 4500] := by
  refine (irTimingIntact_iff (irJson 7 [9000, 4500] [9000, 4500]) (fun _ _ => true) 0
    PendingPool.init (irEnvelope irMac 7 [9000, 4500]).compact irMac irTarget 7 [9000, 4500] rfl ?_
    (asUInt16_irJson 7 _ _) (by decide) (by decide) (by decide)).mpr
      ⟨fun _ => .inl (by decide +kernel), fun h => absurd h (by decide)⟩
  intro rest
  have hfirst : (utf8 (irEnvelope irMac 7 [9000, 4500]).compact).isPrefixOf
      (utf8 (irPayload [9000, 4500]).compact ++ rest) = false := by
    rw [Bool.eq_false_iff, ne_eq, List.isPrefixOf_iff_prefix]
    intro h
    have hstart := h.take 3
    rw [List.take_append_of_le_length (by decide +kernel)] at hstart
    exact absurd hstart (by decide +kernel)
  have hsecond : (utf8 (irPayload [9000, 4500]).compact).isPrefixOf
      (utf8 (irPayload [9000, 4500]).compact ++ rest) = true :=
    List.isPrefixOf_iff_prefix.mpr (List.prefix_append _ rest)
  apply ArduinoJson.deserializeJson_ofDocuments
  rw [List.find?_cons_of_neg (by simp [hfirst])]
  exact List.find?_cons_of_pos hsecond

/-- A packet of 141 bytes, and a payload of 287. -/
def remoteTimings : List UInt16 := 9000 :: 4500 :: List.replicate 66 560

/-- A packet of 605 bytes. The field ends behind the 61st number. -/
def longTimings : List UInt16 := 9000 :: List.replicate 299 560

/-- The list that can be sent is lost. Of the one that cannot, the first numbers are sent: the two bytes
of the id 0x7d5d are the two brackets that the cut text lacks. -/
theorem remoteTimings_lost :
    ¬ IrTimingIntact (irJson 7 remoteTimings remoteTimings) (fun _ _ => true) 0 PendingPool.init
        (irEnvelope irMac 7 remoteTimings).compact irTarget 7 remoteTimings ∧
      ¬ IrTimingIntact (irJson 0x7d5d longTimings (longTimings.take 61)) (fun _ _ => true) 0
        PendingPool.init (irEnvelope irMac 0x7d5d longTimings).compact irTarget 0x7d5d longTimings := by
  refine ⟨fun h => ?_, fun h => ?_⟩
  · have hnone : (parseAndDispatchCommands (irJson 7 remoteTimings remoteTimings) (fun _ _ => true) 0
        PendingPool.init (irEnvelope irMac 7 remoteTimings).compact).2 = [] := by
      decide +kernel
    have hsent := (h.arrives (by decide)).1
    rw [hnone] at hsent
    cases hsent
  · have hsent : (parseAndDispatchCommands (irJson 0x7d5d longTimings (longTimings.take 61))
        (fun _ _ => true) 0 PendingPool.init (irEnvelope irMac 0x7d5d longTimings).compact).2 ≠ [] := by
      decide +kernel
    exact hsent (h.refused (by decide +kernel))

end Tempio.Hub
