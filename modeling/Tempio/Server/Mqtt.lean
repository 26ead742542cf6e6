import Tempio.Lib.JsonRoundTrip
import Tempio.Server.PyFloat
import Tempio.Server.Service

namespace Tempio.Server

open Tempio.Lib Tempio.Lib.Json

def Command.modelDump (cmd : Command) : Json :=
  .obj [("target", .str cmd.target), ("type", .str cmd.type), ("payload", cmd.payload),
    ("cmd_id", .int cmd.cmdId)]

def envelope (commands : List Command) : Json := .obj [("commands", .arr (commands.map Command.modelDump))]

/-- The text that `publish_commands` publishes. -/
def publishCommands (commands : List Command) : List Char := (envelope commands).dumps

/-- `data.get(key, default)` -/
def getD (data : List (String × Json)) (key : String) (d : Json) : Json :=
  ((data.find? fun f => f.1 = key).map Prod.snd).getD d

/-- Python's `bool`. -/
def truthy : Json → Bool
  | .null => false
  | .bool b => b
  | .int n => n ≠ 0
  | .real text => !(PyFloat.ofText text).isZero
  | .str s => s ≠ ""
  | .arr items => !items.isEmpty
  | .obj fields => !fields.isEmpty

/-- What the loop of `MqttSubscriber.run` does with one message: skip it, log an
error, log a hub status, call `process_ack`, or hand on a sensor report. -/
inductive Handled
  | skipped
  | error
  | hubStatus (hubId : List Char)
  | processAck (hubId : List Char) (cmdId : Json) (success : Bool)
  | report (hubId : List Char) (data : List (String × Json))

def isStr (j : Json) (s : String) : Bool :=
  match j with
  | .str t => t = s
  | _ => false

def handleMessage (topic payload : List Char) : Handled :=
  match topic.splitOn '/' with
  | [_, hubId, _] =>
      match loads payload with
      | some (.obj data) =>
          if isStr (getD data "type" .null) "hub_status" then .hubStatus hubId
          else if isStr (getD data "type" .null) "cmd_ack" then
            .processAck hubId (getD data "cmd_id" (.int 0)) (truthy (getD data "success" (.int 0)))
          else .report hubId data
      | _ => .error
  | _ => .skipped

def topicReport (hubId : List Char) : List Char :=
  "tempio".toList ++ '/' :: (hubId ++ '/' :: "report".toList)

theorem loads_publishCommands {commands : List Command}
    (h : ∀ cmd ∈ commands, spacedStyle.Writable cmd.payload) :
    loads (publishCommands commands) = some (envelope commands) := by
  have hkeeps (s : String) : spacedStyle.KeepsAll s := fun c _ => keeps_spacedStyle c
  refine loads_dumps ⟨by simp, hkeeps _, ?_, trivial⟩
  induction commands with
  | nil => trivial
  | cons cmd cmds ih =>
      refine ⟨⟨by simp, hkeeps _, hkeeps _, hkeeps _, hkeeps _, hkeeps _, ?_, hkeeps _, trivial,
        trivial⟩, ih fun c hc => h c (List.mem_cons_of_mem cmd hc)⟩
      exact h cmd List.mem_cons_self

theorem splitOn_three {α : Type} [BEq α] [LawfulBEq α] {a : α} {xs ys zs : List α} (hx : a ∉ xs)
    (hy : a ∉ ys) (hz : a ∉ zs) : (xs ++ a :: (ys ++ a :: zs)).splitOn a = [xs, ys, zs] := by
  rw [List.splitOn_append_cons_self, List.splitOn_append_cons_self, List.splitOn_eq_singleton hx,
    List.splitOn_eq_singleton hy, List.splitOn_eq_singleton hz]
  rfl

theorem splitOn_topicReport {hubId : List Char} (h : '/' ∉ hubId) :
    (topicReport hubId).splitOn '/' = ["tempio".toList, hubId, "report".toList] :=
  splitOn_three (by decide) h (by decide)

end Tempio.Server
