import Mathlib.Data.List.Basic

namespace Tempio.Hub.Mqtt

/-- `cfg.buffer_size` -/
def bufferSize : Nat := 1024

/-- An event of the MQTT client; `other` stands for those without an entry in `eventHandlers`. -/
inductive Event
  | connected
  | disconnected
  | data (topicLen : Nat) (bytes : List Char) (totalDataLen : Nat)
  | error
  | other

/-- The client and the flags of `mqtt_handler.cpp`. `subscribed` says that the broker knows the
subscription of the connection that is up. -/
structure Session where
  started : Bool
  connected : Bool
  wasConnected : Bool
  subscribed : Bool
deriving DecidableEq

namespace Session

def mqttInit (wifiConnected : Bool) : Session := ⟨wifiConnected, false, false, false⟩

/-- A client that is stopped leaves the broker. One that runs is not started again. -/
def mqttLoop (s : Session) (wifiNow : Bool) : Session :=
  if wifiNow && !s.wasConnected then { s with started := true, wasConnected := wifiNow }
  else if !wifiNow && s.wasConnected then ⟨false, false, wifiNow, false⟩
  else { s with wasConnected := wifiNow }

/-- `granted` is what becomes of the subscription. -/
def onConnected (s : Session) (granted : Bool) : Session := { s with connected := true, subscribed := granted }

def onDisconnected (s : Session) : Session := { s with connected := false, subscribed := false }

structure Sound (s : Session) : Prop where
  subscribed : s.subscribed = true → s.connected = true
  connected : s.connected = true → s.started = true

end Session

/-- What the handler of an event calls `parseAndDispatchCommands` with. -/
def Event.payload : Event → Option (List Char)
  | .data topicLen bytes totalDataLen =>
      if 0 < topicLen ∧ 0 < bytes.length ∧ bytes.length = totalDataLen then some bytes else none
  | _ => none

/-- A message that the client hands over in pieces; only the first event has the topic. -/
def dataEvents (topic : List Char) : List (List Char) → List Event
  | [] => []
  | piece :: pieces =>
      .data topic.length piece (piece ++ pieces.flatten).length ::
        pieces.map fun p => .data 0 p (piece ++ pieces.flatten).length

theorem payload_rest (pieces : List (List Char)) (totalDataLen : Nat) :
    (pieces.map fun p => Event.data 0 p totalDataLen).filterMap Event.payload = [] := by
  induction pieces with
  | nil => rfl
  | cons p ps ih => rwa [List.map_cons, List.filterMap_cons, Event.payload, if_neg (by simp)]

/-- A message is passed on whole or not at all. -/
theorem payloads_dataEvents {topic : List Char} (htopic : topic ≠ []) {pieces : List (List Char)}
    (hpieces : ∀ p ∈ pieces, p ≠ []) :
    (dataEvents topic pieces).filterMap Event.payload = if pieces.length = 1 then pieces else [] := by
  cases pieces with
  | nil => rfl
  | cons p ps =>
      have hlen : 0 < topic.length := List.length_pos_iff.mpr htopic
      have hp : 0 < p.length := List.length_pos_iff.mpr (hpieces p List.mem_cons_self)
      rw [dataEvents, List.filterMap_cons, payload_rest]
      cases ps with
      | nil => simp [Event.payload, hlen, hp]
      | cons q qs =>
          have hq : 0 < q.length := List.length_pos_iff.mpr (hpieces q (by simp))
          have hmore : ¬ p.length = (p ++ (q :: qs).flatten).length := by
            simp only [List.length_append, List.flatten_cons]
            omega
          rw [Event.payload, if_neg fun h => hmore h.2.2]
          rfl

namespace Session

theorem sound_mqttInit (wifiConnected : Bool) : (mqttInit wifiConnected).Sound := ⟨nofun, nofun⟩

theorem Sound.mqttLoop {s : Session} (h : s.Sound) (wifiNow : Bool) : (s.mqttLoop wifiNow).Sound := by
  unfold Session.mqttLoop
  split_ifs
  · exact ⟨h.subscribed, fun _ => rfl⟩
  · exact ⟨nofun, nofun⟩
  · exact ⟨h.subscribed, h.connected⟩

theorem Sound.onConnected {s : Session} (h : s.started = true) (granted : Bool) :
    (s.onConnected granted).Sound :=
  ⟨fun _ => rfl, fun _ => h⟩

theorem sound_onDisconnected (s : Session) : s.onDisconnected.Sound := ⟨nofun, nofun⟩

end Session

end Tempio.Hub.Mqtt
