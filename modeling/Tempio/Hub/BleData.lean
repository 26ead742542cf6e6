import Tempio.Hub.ArduinoJson
import Tempio.Hub.MqttCommand
import Tempio.Lib.JsonRoundTrip
import Tempio.Protocol

namespace Tempio.Hub

open Tempio.Lib Tempio.Lib.Json Tempio.Protocol

structure CmdAckReport where
  nodeId : NodeId
  cmdId : UInt16
  success : Bool
deriving DecidableEq, Inhabited

namespace CmdAckReport

def doc (r : CmdAckReport) : Json :=
  .obj [("type", .str "cmd_ack"), ("node_id", .str (String.ofList r.nodeId.chars)),
    ("cmd_id", .int r.cmdId.toNat), ("success", .bool r.success)]

def toJson (r : CmdAckReport) (bufSize : Nat) : List Char := serializeJson r.doc bufSize

end CmdAckReport

/-- What `handleCmdAck` pushes to the queue. A message too short for the struct is
dropped. -/
def handleCmdAck (data : List UInt8) (srcAddr : List Char) : Option CmdAckReport :=
  (CmdAck.ofBytes data).map fun ack => ⟨strlcpy 18 srcAddr, ack.cmdId, ack.success ≠ 0⟩

/-- The CMD_ACK branch of `onDataNotify`. -/
def ackOfNotify (data : List UInt8) (srcAddr : List Char) : Option CmdAckReport :=
  match data with
  | [] => none
  | type :: _ => if type = MsgType.cmdAck.code then handleCmdAck data srcAddr else none

theorem ackOfNotify_bytes (ack : CmdAck) (srcAddr : List Char) :
    ackOfNotify ack.bytes srcAddr = some ⟨strlcpy 18 srcAddr, ack.cmdId, ack.success ≠ 0⟩ := by
  have h := CmdAck.ofBytes_bytes ack
  rw [CmdAck.bytes] at h ⊢
  simp only [ackOfNotify, handleCmdAck, if_true, h, Option.map_some]

theorem length_escape_le {c : Char} (h : c ≠ nul) : (escape c).length ≤ 2 := by
  have hcode : c.toNat ≠ 0 := fun h0 => h (by rw [← Char.ofNat_toNat c, h0]; rfl)
  unfold escape
  cases shortEscape c with
  | some d => exact Nat.le_refl 2
  | none =>
      rw [if_neg hcode]
      exact Nat.le_succ 1

theorem length_flatMap_escape_le {cs : List Char} (h : nul ∉ cs) :
    (cs.flatMap escape).length ≤ 2 * cs.length := by
  induction cs with
  | nil => exact Nat.zero_le _
  | cons c cs ih =>
      have hc := length_escape_le (c := c) fun hc => h (hc ▸ List.mem_cons_self)
      have := ih fun hm => h (List.mem_cons_of_mem c hm)
      rw [List.flatMap_cons, List.length_append, List.length_cons]
      omega

theorem CmdAckReport.length_compact_le (r : CmdAckReport) : r.doc.compact.length ≤ 128 := by
  obtain ⟨nodeId, cmdId, success⟩ := r
  have hid := length_flatMap_escape_le nodeId.noNul
  have hfits := nodeId.fits
  have hnum : (Nat.toDigits 10 cmdId.toNat).length ≤ 5 :=
    (Nat.length_toDigits_le_iff (by decide) (by decide)).mpr (Nat.lt_trans cmdId.toNat_lt (by decide))
  have hcomma : compactStyle.comma.length = 1 := rfl
  have hcolon : compactStyle.colon.length = 1 := rfl
  have htype : ("type".toList.flatMap escape).length = 4 := by decide
  have hack : ("cmd_ack".toList.flatMap escape).length = 7 := by decide
  have hnode : ("node_id".toList.flatMap escape).length = 7 := by decide
  have hcmd : ("cmd_id".toList.flatMap escape).length = 6 := by decide
  have hsuccess : ("success".toList.flatMap escape).length = 7 := by decide
  have htrue : "true".toList.length = 4 := by decide
  have hfalse : "false".toList.length = 5 := by decide
  have hescape : compactStyle.escape = escape := rfl
  cases success
  all_goals
    simp only [doc, compact, Style.write, Style.writeFields, Style.strText, intText,
      String.toList_ofList, List.length_cons, List.length_append, List.length_nil, hcomma, hcolon,
      htype, hack, hnode, hcmd, hsuccess, htrue, hfalse, hescape]
    omega

theorem CmdAckReport.toJson_eq (r : CmdAckReport) : r.toJson 128 = r.doc.compact :=
  List.take_of_length_le r.length_compact_le

def printable (cs : List Char) : Bool := cs.all fun c => 32 ≤ c.toNat

theorem le_toNat_of_printable {cs : List Char} (h : printable cs = true) : ∀ c ∈ cs, 32 ≤ c.toNat := by
  simpa [printable] using h

theorem printable_strlcpy {size : Nat} [NeZero size] {src : List Char} (h : printable src = true) :
    printable (strlcpy size src).chars = true := by
  apply List.all_eq_true.mpr
  intro c hc
  apply List.all_eq_true.mp h c
  exact (List.takeWhile_sublist _).subset (List.mem_of_mem_take hc)

theorem CmdAckReport.loads_toJson (r : CmdAckReport) (h : printable r.nodeId.chars = true) :
    loads (r.toJson 128) = some r.doc := by
  have hkeeps {s : String} (hs : printable s.toList = true) : compactStyle.KeepsAll s :=
    fun c hc => keeps_compactStyle (le_toNat_of_printable hs c hc)
  rw [toJson_eq]
  refine loads_compact ⟨by simp, hkeeps (by decide), hkeeps (by decide), hkeeps (by decide),
    hkeeps ?_, hkeeps (by decide), trivial, hkeeps (by decide), trivial, trivial⟩
  rw [String.toList_ofList]
  exact h

end Tempio.Hub
