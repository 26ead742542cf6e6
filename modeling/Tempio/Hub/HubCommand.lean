import Tempio.Hub.BleConnection
import Tempio.Hub.CmdDispatcher
import Tempio.Hub.ReportJson

namespace Tempio.Hub

open Tempio.Lib Tempio.Lib.Json

def statusJsonBufSize : Nat := 256

def MqttCommand.isHubStatus (cmd : MqttCommand) : Bool := cmd.type.chars = "HUB_STATUS".toList

/-- A command for the hub itself. -/
def MqttCommand.forHub (cmd : MqttCommand) : Bool := cmd.target.chars = []

/-- What `handleHubStatus` asks for, but for the pool. -/
structure StatusSources (Addr : Type) where
  nodes : Vector (Ble.ConnectedNode Addr) maxNodes
  freeHeap : UInt32
  uptimeMs : UInt32
  mqttConnected : Bool

variable {Addr : Type}

/-- `bleConnectedCount` is `activeCount`. -/
def activeCount (nodes : Vector (Ble.ConnectedNode Addr) maxNodes) : Nat :=
  (List.finRange maxNodes).countP fun i => (nodes.get i).used

namespace StatusSources

variable (s : StatusSources Addr) (p : PendingPool)

def fields : List (String × Json) :=
  [("type", .str "hub_status"), ("ble_connected", .int (activeCount s.nodes)),
    ("pending_slots", .int p.activeSlots), ("pending_commands", .int p.totalPending),
    ("free_heap", .int s.freeHeap.toNat), ("uptime_ms", .int s.uptimeMs.toNat),
    ("mqtt_connected", .bool s.mqttConnected)]

/-- The text that `handleHubStatus` hands to `mqttPublishReport`. -/
def handleHubStatus : List Char := serializeJson (.obj (s.fields p)) statusJsonBufSize

/-- A command of another type is only logged. -/
def handleHubCommand (cmd : MqttCommand) : Option (List Char) :=
  if cmd.isHubStatus then some (s.handleHubStatus p) else none

end StatusSources

/-- What the commands of a payload have done so far. -/
structure Dispatched where
  pool : PendingPool
  calls : List Call
  reports : List (List Char)

section

variable (json : ArduinoJson) (bleSendToNode : NodeId → List UInt8 → Bool) (now : UInt32)
  (sources : Nat → StatusSources Addr)

/-- `dispatchCommand` with the reports of the hub itself. The pool is the one that the commands before
have left, `sources k` what the status finds that follows `k` others. -/
def dispatchReporting (d : Dispatched) (cmd : MqttCommand) : Dispatched where
  pool := (dispatchCommand json bleSendToNode now (d.pool, d.calls) cmd).1
  calls := (dispatchCommand json bleSendToNode now (d.pool, d.calls) cmd).2
  reports :=
    if cmd.forHub then
      d.reports ++ ((sources d.reports.length).handleHubCommand d.pool cmd).toList
    else d.reports

def dispatchAllReporting (p : PendingPool) (data : List Char) : Dispatched :=
  (parseCommands json data).foldl (dispatchReporting json bleSendToNode now sources) ⟨p, [], []⟩

end

theorem activeCount_le (nodes : Vector (Ble.ConnectedNode Addr) maxNodes) : activeCount nodes ≤ maxNodes :=
  List.countP_le_length.trans (List.length_finRange (n := maxNodes)).le

theorem sum_map_finRange_le {f : Fin maxNodes → Nat} {k : Nat} (h : ∀ i, f i ≤ k) :
    ((List.finRange maxNodes).map f).sum ≤ maxNodes * k := by
  have hle := List.sum_le_card_nsmul ((List.finRange maxNodes).map f) k (by simpa using h)
  simpa using hle

theorem activeSlots_le (p : PendingPool) : p.activeSlots ≤ maxNodes := by
  refine (sum_map_finRange_le (k := 1) fun i => ?_).trans (Nat.mul_one maxNodes).le
  split_ifs <;> decide

theorem totalPending_le (p : PendingPool) : p.totalPending ≤ maxNodes * cmdPendingPerNode := by
  refine sum_map_finRange_le fun i => ?_
  split_ifs
  · exact (ThreadSafeQueue.length_contents _).symm.le.trans (ThreadSafeQueue.length_contents_le _)
  · exact Nat.zero_le _

namespace StatusSources

variable (s : StatusSources Addr) (p : PendingPool)

/-- The buffer holds the text and its terminator whatever the values are. -/
theorem length_compact_lt : (Json.obj (s.fields p)).compact.length < statusJsonBufSize := by
  have hnodes := activeCount_le s.nodes
  have hslots := activeSlots_le p
  have hpending := totalPending_le p
  have hble : (intText (activeCount s.nodes : Int)).length ≤ 2 :=
    length_intText_le (by decide) (by simp only [maxNodes] at hnodes; omega)
  have hactive : (intText (p.activeSlots : Int)).length ≤ 2 :=
    length_intText_le (by decide) (by simp only [maxNodes] at hslots; omega)
  have htotal : (intText (p.totalPending : Int)).length ≤ 3 :=
    length_intText_le (by decide) (by simp only [maxNodes, cmdPendingPerNode] at hpending; omega)
  have hheap : (intText (s.freeHeap.toNat : Int)).length ≤ 11 :=
    length_intText_le (by decide) (s.freeHeap.toNat_lt.trans (by decide))
  have hup : (intText (s.uptimeMs.toNat : Int)).length ≤ 11 :=
    length_intText_le (by decide) (s.uptimeMs.toNat_lt.trans (by decide))
  have hbool : (compactStyle.write (.bool s.mqttConnected)).length ≤ 5 := by
    cases s.mqttConnected <;> decide
  have hint (n : Int) : compactStyle.write (.int n) = intText n := by rw [Style.write]
  have hstr (k : String) : compactStyle.write (.str k) = compactStyle.strText k := by rw [Style.write]
  have hkeys : (["type", "ble_connected", "pending_slots", "pending_commands", "free_heap", "uptime_ms",
      "mqtt_connected", "hub_status"].map fun k => (compactStyle.strText k).length) =
      [6, 15, 15, 18, 11, 11, 16, 12] := by
    decide
  simp only [List.map_cons, List.map_nil, List.cons.injEq, and_true] at hkeys
  have hfields := length_writeFields_le (s.fields p)
  rw [compact, Style.write, List.length_cons, List.length_append, List.length_singleton]
  simp only [fields, List.map_cons, List.map_nil, List.sum_cons, List.sum_nil, compact, hint, hstr,
    hkeys, statusJsonBufSize] at hfields ⊢
  omega

theorem handleHubStatus_eq : s.handleHubStatus p = (Json.obj (s.fields p)).compact :=
  List.take_of_length_le (s.length_compact_lt p).le

theorem loads_handleHubStatus : loads (s.handleHubStatus p) = some (.obj (s.fields p)) := by
  have hkeeps (k : String) (h : printable k.toList = true) : compactStyle.KeepsAll k :=
    fun c hc => keeps_compactStyle (le_toNat_of_printable h c hc)
  rw [handleHubStatus_eq]
  refine loads_compact ⟨by simp [fields], ?_⟩
  exact ⟨hkeeps _ (by decide), hkeeps _ (by decide), hkeeps _ (by decide), trivial, hkeeps _ (by decide),
    trivial, hkeeps _ (by decide), trivial, hkeeps _ (by decide), trivial, hkeeps _ (by decide), trivial,
    hkeeps _ (by decide), trivial, trivial⟩

end StatusSources

section

variable {json : ArduinoJson} {bleSendToNode : NodeId → List UInt8 → Bool} {now : UInt32}
  {sources : Nat → StatusSources Addr} {d : Dispatched} {cmds : List MqttCommand}

theorem dispatchCommand_of_forHub {cmd : MqttCommand} (h : cmd.forHub = true) (s : PendingPool × List Call) :
    dispatchCommand json bleSendToNode now s cmd = s :=
  if_pos (of_decide_eq_true h)

/-- The pool and the nodes see the commands for nodes only. -/
theorem foldl_dispatchReporting (cmds : List MqttCommand) (d : Dispatched) :
    ((cmds.foldl (dispatchReporting json bleSendToNode now sources) d).pool,
      (cmds.foldl (dispatchReporting json bleSendToNode now sources) d).calls) =
      (cmds.filter fun cmd => !cmd.forHub).foldl (dispatchCommand json bleSendToNode now)
        (d.pool, d.calls) := by
  induction cmds generalizing d with
  | nil => rfl
  | cons cmd cmds ih =>
      rw [List.foldl_cons, ih]
      by_cases h : cmd.forHub = true
      · rw [List.filter_cons_of_neg (by simpa using h)]
        simp only [dispatchReporting, dispatchCommand_of_forHub h]
      · rw [List.filter_cons_of_pos (by simpa using h), List.foldl_cons]
        rfl

/-- Each report is a status of the pool as it was when its command was reached. -/
theorem reports_foldl (json : ArduinoJson) (bleSendToNode : NodeId → List UInt8 → Bool) (now : UInt32)
    (sources : Nat → StatusSources Addr) (cmds : List MqttCommand) (d : Dispatched) :
    ∃ texts, (cmds.foldl (dispatchReporting json bleSendToNode now sources) d).reports =
        d.reports ++ texts ∧
      texts.length = cmds.countP (fun cmd => cmd.forHub && cmd.isHubStatus) ∧
      ∀ text ∈ texts, ∃ k p, text = (sources k).handleHubStatus p := by
  induction cmds generalizing d with
  | nil => exact ⟨[], by simp, rfl, by simp⟩
  | cons cmd cmds ih =>
      obtain ⟨texts, htexts, hlen, hall⟩ := ih (dispatchReporting json bleSendToNode now sources d cmd)
      rw [List.foldl_cons, htexts]
      cases hhub : cmd.forHub with
      | false =>
          refine ⟨texts, ?_, ?_, hall⟩
          · simp only [dispatchReporting, hhub, Bool.false_eq_true, if_false]
          · rw [List.countP_cons_of_neg (by simp [hhub]), hlen]
      | true =>
          cases htype : cmd.isHubStatus with
          | false =>
              refine ⟨texts, ?_, ?_, hall⟩
              · simp only [dispatchReporting, StatusSources.handleHubCommand, hhub, htype, if_true,
                  Bool.false_eq_true, if_false, Option.toList_none, List.append_nil]
              · rw [List.countP_cons_of_neg (by simp [htype]), hlen]
          | true =>
              refine ⟨(sources d.reports.length).handleHubStatus d.pool :: texts, ?_, ?_, ?_⟩
              · simp only [dispatchReporting, StatusSources.handleHubCommand, hhub, htype, if_true,
                  Option.toList_some, List.append_assoc, List.singleton_append]
              · rw [List.countP_cons_of_pos (by simp [hhub, htype]), List.length_cons, hlen]
              · rintro text (_ | ⟨_, htext⟩)
                · exact ⟨_, _, rfl⟩
                · exact hall text htext

end

end Tempio.Hub
