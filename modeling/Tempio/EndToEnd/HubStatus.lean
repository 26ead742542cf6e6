import Tempio.EndToEnd.CommandId
import Tempio.Hub.HubCommand
import Tempio.Server.Subscriber

namespace Tempio.EndToEnd

open Tempio.Lib Tempio.Lib.Json Tempio.Hub Tempio.Server

/-- `request_hub_status` sends this one. -/
def requestHubStatus : Command := ⟨"", "HUB_STATUS", .obj [], 0⟩

/-- Whether a command is for the hub, once the hub has read it. -/
def forHub (cmd : Command) : Bool := (parseCommand cmd.modelDump).forHub

def asksStatus (cmd : Command) : Bool := forHub cmd && (parseCommand cmd.modelDump).isHubStatus

section

variable {Addr : Type} {json : ArduinoJson} {commands : List Command}
  {bleSendToNode : NodeId → List UInt8 → Bool} {now : UInt32} {sources : Nat → StatusSources Addr}

theorem filter_parseCommands
    (hread : json.deserializeJson (publishCommands commands) = ⟨false, envelope commands⟩)
    (hrest : json.deserializeJson (publishCommands (commands.filter fun cmd => !forHub cmd)) =
      ⟨false, envelope (commands.filter fun cmd => !forHub cmd)⟩) :
    (parseCommands json (publishCommands commands)).filter (fun cmd => !cmd.forHub) =
      parseCommands json (publishCommands (commands.filter fun cmd => !forHub cmd)) := by
  rw [parseCommands_publishCommands hread, parseCommands_publishCommands hrest, List.filter_map]
  rfl

theorem countP_parseCommands
    (hread : json.deserializeJson (publishCommands commands) = ⟨false, envelope commands⟩) :
    (parseCommands json (publishCommands commands)).countP (fun cmd => cmd.forHub && cmd.isHubStatus) =
      commands.countP asksStatus := by
  rw [parseCommands_publishCommands hread, List.countP_map]
  rfl

theorem handled_handleHubStatus (s : StatusSources Addr) (p : PendingPool) {hubId : List Char}
    (hhub : '/' ∉ hubId) :
    handleMessage (Server.topicReport hubId) (s.handleHubStatus p) = .hubStatus hubId := by
  simp only [handleMessage, splitOn_topicReport hhub, s.loads_handleHubStatus p]
  rfl

/-- The commands for the hub leave the pool and the nodes alone. Each that asks for the status is
answered once, and the answer changes no row of the server. -/
theorem hubCommands_apart (json : ArduinoJson) (commands : List Command)
    (hread : json.deserializeJson (publishCommands commands) = ⟨false, envelope commands⟩)
    (hrest : json.deserializeJson (publishCommands (commands.filter fun cmd => !forHub cmd)) =
      ⟨false, envelope (commands.filter fun cmd => !forHub cmd)⟩)
    (bleSendToNode : NodeId → List UInt8 → Bool) (now : UInt32) (sources : Nat → StatusSources Addr)
    (p : PendingPool) (d : Dispatched)
    (hd : d = dispatchAllReporting json bleSendToNode now sources p (publishCommands commands))
    (hubId : List Char) (hhub : '/' ∉ hubId) :
    (d.pool, d.calls) = parseAndDispatchCommands json bleSendToNode now p
        (publishCommands (commands.filter fun cmd => !forHub cmd)) ∧
      d.reports.length = commands.countP asksStatus ∧
      ∀ text ∈ d.reports,
        (∃ s : StatusSources Addr, ∃ pool, loads text = some (.obj (s.fields pool))) ∧
        ∀ (py : Pydantic) (sql : Sqlite) (at' : String) (ok : Bool) (server : Subscriber),
          server.onMessage py sql ⟨Server.topicReport hubId, some text, at', ok⟩ = server := by
  obtain ⟨texts, htexts, hlen, hall⟩ := reports_foldl json bleSendToNode now sources
    (parseCommands json (publishCommands commands)) ⟨p, [], []⟩
  have hreports : d.reports = texts := by rw [hd, dispatchAllReporting, htexts, List.nil_append]
  refine ⟨?_, ?_, ?_⟩
  · rw [hd, dispatchAllReporting, foldl_dispatchReporting, filter_parseCommands hread hrest]
    rfl
  · rw [hreports, hlen, countP_parseCommands hread]
  · intro text htext
    obtain ⟨k, pool, rfl⟩ := hall text (hreports ▸ htext)
    refine ⟨⟨sources k, pool, (sources k).loads_handleHubStatus pool⟩, fun py sql at' ok server => ?_⟩
    have hhandled : Message.handled ⟨Server.topicReport hubId,
        some ((sources k).handleHubStatus pool), at', ok⟩ = .hubStatus hubId :=
      handled_handleHubStatus (sources k) pool hhub
    simp only [Subscriber.onMessage, hhandled]

end

def statusAndTest : List Command := [{ requestHubStatus with cmdId := 1 }, testOf 2]

theorem deserializeJson_publishCommands {commands : List Command}
    (h : ∀ cmd ∈ commands, spacedStyle.Writable cmd.payload) :
    ArduinoJson.ofLoads.deserializeJson (publishCommands commands) = ⟨false, envelope commands⟩ := by
  simp only [ArduinoJson.ofLoads, loads_publishCommands h]

theorem writable_statusAndTest : ∀ cmd ∈ statusAndTest, spacedStyle.Writable cmd.payload := by
  have hkeeps (s : String) : spacedStyle.KeepsAll s := fun c _ => keeps_spacedStyle c
  rintro cmd (_ | ⟨_, _ | ⟨_, hcmd⟩⟩)
  · exact ⟨by simp, trivial⟩
  · exact ⟨by simp, hkeeps _, trivial, trivial⟩
  · cases hcmd

def idleHub : StatusSources Unit := ⟨Vector.replicate maxNodes ⟨none, false, (), false⟩, 0, 0, true⟩

/-- The node is not there, so that its command waits. -/
theorem hubCommands_apart_statusAndTest :
    (dispatchAllReporting .ofLoads (fun _ _ => false) 0 (fun _ => idleHub) .init
      (publishCommands statusAndTest)).reports.length = 1 := by
  have hrest : ∀ cmd ∈ statusAndTest.filter fun cmd => !forHub cmd, spacedStyle.Writable cmd.payload :=
    fun cmd h => writable_statusAndTest cmd (List.mem_of_mem_filter h)
  exact (hubCommands_apart .ofLoads statusAndTest (deserializeJson_publishCommands writable_statusAndTest)
    (deserializeJson_publishCommands hrest) _ _ _ _ _ rfl "aabbccddeeff".toList (by decide)).2.1.trans
      (by decide +kernel)

end Tempio.EndToEnd
