import Tempio.Hub.AckQueue
import Tempio.Hub.Flush

namespace Tempio.Hub

open Tempio.Lib.Transition Tempio.Protocol

/-- The part of one `loop` that the loop task is in: up to `mqttLoop`, the second
`while`, and `flushAllPending`. -/
inductive LoopStage
  | ble
  | acks
  | flush
deriving DecidableEq

/-- The hub while every publish succeeds. `onTheWay` are the acknowledgements that a node
has sent, or will send, for a packet it was given. -/
structure Backlog where
  hub : HubState
  acks : AckPath
  onTheWay : List (NodeId × UInt16)
  stage : LoopStage

def Backlog.init : Backlog := ⟨HubState.init, { AckPath.init with connected := true }, [], .ble⟩

/-- The nodes answer a SET_INTERVAL or a TEST packet with one CMD_ACK. -/
def ackDue (json : ArduinoJson) (cmd : MqttCommand) : List (NodeId × UInt16) :=
  match handle json cmd with
  | .write (type :: _) =>
      if type = MsgType.setInterval.code ∨ type = MsgType.testCmd.code then [(cmd.target, cmd.cmdId)]
      else []
  | _ => []

/-- What a step of the hub delivers that has to be acknowledged. -/
def delivered (json : ArduinoJson) (h : HubState) : Action → List (NodeId × UInt16)
  | .send true =>
      match h.mqtt with
      | .sending cmd => ackDue json cmd
      | _ => []
  | .resend true =>
      match h.loop with
      | .sending _ cmd _ => ackDue json cmd
      | _ => []
  | _ => []

/-- The esp_mqtt task is never held up. The loop task connects nodes in the first part of
`loop` and flushes all of them in the last; `flushAll` itself is the step between. -/
def LoopStage.allows : LoopStage → Action → Bool
  | _, .tick _ | _, .dispatch _ | _, .send _ | _, .push => true
  | .acks, _ | _, .flushAll | .flush, .flushNode _ => false
  | _, _ => true

inductive BacklogAction
  | hub (a : Action)
  | notify (i : Nat)
  | mqttLoop
  | drain
  | flushAll
  | endLoop

def backlogStep (json : ArduinoJson) (s : Backlog) : BacklogAction → Option Backlog
  | .hub a =>
      if s.stage.allows a then
        (step json s.hub a).map fun h =>
          { s with hub := h, onTheWay := s.onTheWay ++ delivered json s.hub a }
      else none
  | .notify i =>
      match s.onTheWay[i]? with
      | none => none
      | some ack =>
          (ackStep s.acks (.onDataNotify (CmdAck.bytes ⟨ack.2, 1⟩) ack.1.chars)).map fun acks =>
            { s with acks := acks, onTheWay := s.onTheWay.eraseIdx i }
  | .mqttLoop =>
      match s.stage, s.hub.loop with
      | .ble, .idle =>
          (ackStep s.acks (.mqttLoop true)).map fun acks => { s with acks := acks, stage := .acks }
      | _, _ => none
  | .drain =>
      match s.stage with
      | .acks => (ackStep s.acks (.drain 0)).map fun acks => { s with acks := acks }
      | _ => none
  | .flushAll =>
      match s.stage, s.acks.draining with
      | .acks, false => (step json s.hub .flushAll).map fun h => { s with hub := h, stage := .flush }
      | _, _ => none
  | .endLoop =>
      match s.stage, s.hub.loop with
      | .flush, .idle => some { s with stage := .ble }
      | _, _ => none

/-- No acknowledgement was refused, and none is refused when those on the way arrive, in
whatever order. What entered the queue is published, or will be. -/
structure NoOverflow (json : ArduinoJson) (s : Backlog) : Prop where
  refused : s.acks.refused = []
  arriving : ∀ (is : List Nat) (t : Backlog),
    exec (backlogStep json) s (is.map .notify) = some t → t.acks.refused = []
  published : Conserved s.acks

/-- A packet that will be acknowledged is delivered only while fewer acknowledgements than
the queue can hold are in it or on the way. -/
def RoomForAck (json : ArduinoJson) (s : Backlog) : BacklogAction → Prop
  | .hub a => delivered json s.hub a ≠ [] →
      s.acks.ackQueue.contents.length + s.onTheWay.length < cmdPendingPerNode
  | _ => True

section

variable {json : ArduinoJson} {s t : Backlog}

structure WithinQueue (s : Backlog) : Prop where
  refused : s.acks.refused = []
  room : s.acks.ackQueue.contents.length + s.onTheWay.length ≤ cmdPendingPerNode
  conserved : Conserved s.acks
  connected : s.acks.connected = true
  still : s.stage = .acks → s.hub.loop = .idle

theorem length_ackDue_le (json : ArduinoJson) (cmd : MqttCommand) : (ackDue json cmd).length ≤ 1 := by
  unfold ackDue
  split
  · split_ifs
    · exact le_rfl
    · exact Nat.zero_le 1
  · exact Nat.zero_le 1

theorem length_delivered_le (json : ArduinoJson) (h : HubState) (a : Action) :
    (delivered json h a).length ≤ 1 := by
  unfold delivered
  split
  · split
    · exact length_ackDue_le json _
    · exact Nat.zero_le 1
  · split
    · exact length_ackDue_le json _
    · exact Nat.zero_le 1
  · exact Nat.zero_le 1

variable (json) in
theorem notify_eq {i : Nat} {ack : NodeId × UInt16} (hi : s.onTheWay[i]? = some ack) :
    backlogStep json s (.notify i) = some { s with
      acks := s.acks.push ⟨strlcpy 18 ack.1.chars, ack.2, true⟩, onTheWay := s.onTheWay.eraseIdx i } := by
  have hrpt := ackOfNotify_bytes ⟨ack.2, 1⟩ ack.1.chars
  simp only [backlogStep, hi, ackStep, hrpt, Option.map_some]
  rfl

theorem length_eraseIdx_of_getElem? {l : List (NodeId × UInt16)} {i : Nat} {ack : NodeId × UInt16}
    (hi : l[i]? = some ack) : (l.eraseIdx i).length + 1 = l.length := by
  have hlt := (List.getElem?_eq_some_iff.mp hi).1
  rw [List.length_eraseIdx_of_lt hlt]
  omega

theorem within_notify (hs : WithinQueue s) {i : Nat} (h : backlogStep json s (.notify i) = some t) :
    WithinQueue t := by
  cases hi : s.onTheWay[i]? with
  | none => simp [backlogStep, hi] at h
  | some ack =>
      rw [notify_eq json hi] at h
      have hlen := length_eraseIdx_of_getElem? hi
      have hroom := hs.room
      obtain ⟨_, q, hp, hq⟩ | ⟨hge, _⟩ := s.acks.push_cases ⟨strlcpy 18 ack.1.chars, ack.2, true⟩
      · obtain rfl := Option.some.inj h
        refine ⟨?_, ?_, conserved_push hs.conserved _, ?_, hs.still⟩
        · rw [hp]
          exact hs.refused
        · simp only [hp, hq, List.length_append, List.length_singleton]
          omega
        · rw [hp]
          exact hs.connected
      · omega

theorem WithinQueue.noOverflow (hs : WithinQueue s) : NoOverflow json s := by
  refine ⟨hs.refused, fun is t h => ?_, hs.conserved⟩
  induction is generalizing s with
  | nil => exact Option.some.inj h ▸ hs.refused
  | cons i is ih =>
      obtain ⟨u, hu, h⟩ := exec_cons_eq_some.mp h
      exact ih (within_notify hs hu) h

theorem loop_of_allows_acks {a : Action} {h h' : HubState} (ha : LoopStage.acks.allows a = true)
    (hstep : step json h a = some h') : h'.loop = h.loop := by
  cases a with
  | tick ms => exact Option.some.inj hstep ▸ rfl
  | dispatch cmd | send link | push =>
      simp only [step] at hstep
      split at hstep
      · split at hstep
        all_goals first
          | exact Option.some.inj hstep ▸ rfl
          | cases hstep
      · cases hstep
  | _ => cases ha

theorem within_step {a : BacklogAction} (hs : WithinQueue s) (hg : RoomForAck json s a)
    (h : backlogStep json s a = some t) : WithinQueue t := by
  cases a with
  | hub a =>
      simp only [backlogStep] at h
      split_ifs at h with ha
      obtain ⟨h', hh, rfl⟩ := Option.map_eq_some_iff.mp h
      refine ⟨hs.refused, ?_, hs.conserved, hs.connected, fun hstage => ?_⟩
      · have hle := length_delivered_le json s.hub a
        have hroom := hs.room
        simp only [List.length_append]
        by_cases hd : delivered json s.hub a = []
        · simp only [hd, List.length_nil]
          omega
        · have := hg hd
          omega
      · have hstage : s.stage = .acks := hstage
        rw [hstage] at ha
        rw [loop_of_allows_acks ha hh]
        exact hs.still hstage
  | notify i => exact within_notify hs h
  | mqttLoop =>
      simp only [backlogStep] at h
      split at h
      · rename_i hstage hloop
        obtain ⟨acks, ha, rfl⟩ := Option.map_eq_some_iff.mp h
        simp only [ackStep, Bool.not_true, Bool.false_and, Bool.false_eq_true, if_false] at ha
        split_ifs at ha
        obtain rfl := Option.some.inj ha
        exact ⟨hs.refused, hs.room, hs.conserved, hs.connected, fun _ => hloop⟩
      · cases h
  | drain =>
      simp only [backlogStep] at h
      split at h
      · rename_i hstage
        obtain ⟨acks, ha, rfl⟩ := Option.map_eq_some_iff.mp h
        have hok : s.acks.mqttPublishReport 0 = true := by
          simp [AckPath.mqttPublishReport, hs.connected]
        have hc := conserved_step hs.conserved (a := .drain 0) (fun _ _ => hok) ha
        cases hd : s.acks.draining with
        | false => simp [ackStep, hd] at ha
        | true =>
            obtain ⟨_, ht⟩ | ⟨ack, q, hq, ht⟩ := drain_cases hd 0
            · obtain rfl := Option.some.inj (ha.symm.trans ht)
              exact ⟨hs.refused, hs.room, hc, hs.connected, hs.still⟩
            · obtain rfl := Option.some.inj (ha.symm.trans ht)
              refine ⟨hs.refused, ?_, hc, hs.connected, hs.still⟩
              have hroom := hs.room
              rw [hq, List.length_cons] at hroom
              show q.contents.length + s.onTheWay.length ≤ cmdPendingPerNode
              omega
      · cases h
  | flushAll =>
      simp only [backlogStep] at h
      split at h
      · obtain ⟨h', _, rfl⟩ := Option.map_eq_some_iff.mp h
        exact ⟨hs.refused, hs.room, hs.conserved, hs.connected, fun hstage => by cases hstage⟩
      · cases h
  | endLoop =>
      simp only [backlogStep] at h
      split at h
      · obtain rfl := Option.some.inj h
        exact ⟨hs.refused, hs.room, hs.conserved, hs.connected, fun hstage => by cases hstage⟩
      · cases h

/-- When the queue cannot hold the acknowledgements on the way, they need only arrive
before the next drain. -/
theorem overflow_of_length
    (h : cmdPendingPerNode < s.acks.ackQueue.contents.length + s.onTheWay.length) :
    ∃ (is : List Nat) (t : Backlog), exec (backlogStep json) s (is.map .notify) = some t ∧
      t.acks.refused ≠ [] := by
  generalize hn : s.onTheWay.length = n at h
  induction n generalizing s with
  | zero =>
      have := s.acks.ackQueue.length_contents_le
      omega
  | succ n ih =>
      obtain ⟨ack, hi⟩ : ∃ ack, s.onTheWay[0]? = some ack := by
        cases hl : s.onTheWay with
        | nil => simp [hl] at hn
        | cons ack rest => exact ⟨ack, rfl⟩
      have hstep := notify_eq json hi
      have hlen := length_eraseIdx_of_getElem? hi
      obtain ⟨_, q, hp, hq⟩ | ⟨_, hp⟩ := s.acks.push_cases ⟨strlcpy 18 ack.1.chars, ack.2, true⟩
      · rw [hp] at hstep
        obtain ⟨is, t, ht, hr⟩ := ih (s := { s with
          acks := { s.acks with
            ackQueue := q, entered := s.acks.entered ++ [⟨strlcpy 18 ack.1.chars, ack.2, true⟩] }
          onTheWay := s.onTheWay.eraseIdx 0 })
          (by show (s.onTheWay.eraseIdx 0).length = n; omega)
          (by simp only [hq, List.length_append, List.length_singleton]; omega)
        refine ⟨0 :: is, t, ?_, hr⟩
        rw [List.map_cons, exec_cons, hstep, Option.bind_some, ht]
      · rw [hp] at hstep
        exact ⟨[0], _, exec_cons_eq_some.mpr ⟨_, hstep, rfl⟩, by simp⟩

theorem ackDue_ne_nil {cmd : MqttCommand} (h : ackDue json cmd ≠ []) :
    trySend json (fun _ _ => true) cmd = true := by
  unfold ackDue at h
  unfold trySend
  cases hh : handle json cmd with
  | write pkt => rfl
  | refused | overrun => simp [hh] at h

theorem enabled_of_delivered (hs : WithinQueue s) {a : Action} (hd : delivered json s.hub a ≠ []) :
    ∃ t, backlogStep json s (.hub a) = some t ∧ t.acks = s.acks ∧
      t.onTheWay = s.onTheWay ++ delivered json s.hub a := by
  have henabled : s.stage.allows a = true ∧ (step json s.hub a).isSome = true := by
    unfold delivered at hd
    split at hd
    · split at hd
      · rename_i cmd hm
        refine ⟨by cases s.stage <;> rfl, ?_⟩
        simp [step, hm, ackDue_ne_nil hd]
      · exact absurd rfl hd
    · split at hd
      · rename_i n cmd resume hl
        refine ⟨?_, ?_⟩
        · cases hstage : s.stage with
          | acks =>
              rw [hs.still hstage] at hl
              cases hl
          | ble | flush => rfl
        · simp [step, hl, ackDue_ne_nil hd]
      · exact absurd rfl hd
    · exact absurd rfl hd
  obtain ⟨hallows, hsome⟩ := henabled
  obtain ⟨h, hh⟩ := Option.isSome_iff_exists.mp hsome
  refine ⟨{ s with hub := h, onTheWay := s.onTheWay ++ delivered json s.hub a }, ?_, rfl, rfl⟩
  simp only [backlogStep, hallows, if_true, hh, Option.map_some]

theorem overflow_of_no_room {a : BacklogAction} (hs : WithinQueue s) (hg : ¬ RoomForAck json s a) :
    ∃ t, backlogStep json s a = some t ∧ ¬ NoOverflow json t := by
  cases a with
  | hub a =>
      simp only [RoomForAck, Classical.not_imp, Nat.not_lt] at hg
      obtain ⟨hd, hfull⟩ := hg
      obtain ⟨t, ht, hacks, hway⟩ := enabled_of_delivered hs hd
      have hpos := List.length_pos_of_ne_nil hd
      have hlen : cmdPendingPerNode < t.acks.ackQueue.contents.length + t.onTheWay.length := by
        rw [hacks, hway, List.length_append]
        omega
      obtain ⟨is, u, hu, hr⟩ := overflow_of_length hlen
      exact ⟨t, ht, fun hno => hr (hno.arriving is u hu)⟩
  | _ => exact absurd trivial hg

end

theorem within_init : WithinQueue Backlog.init where
  refused := rfl
  room := by decide
  conserved := rfl
  connected := rfl
  still h := by cases h

/-- No acknowledgement is ever refused, whenever the nodes send them, exactly when a packet
that is to be acknowledged is delivered only while there is room for its acknowledgement. -/
theorem always_noOverflow_iff (json : ArduinoJson) (as : List BacklogAction) :
    Always (backlogStep json) (NoOverflow json) Backlog.init as ↔
      Along (backlogStep json) (RoomForAck json) Backlog.init as :=
  always_iff_along (fun _ _ _ => within_step) (fun _ => WithinQueue.noOverflow)
    (fun _ _ => overflow_of_no_room) within_init

/-- Five TEST commands wait for two nodes, one `flushAllPending` sends them all, and the
nodes acknowledge them before `loop` comes round again. -/
def twoNodesRun : List BacklogAction :=
  ([testCommand 1, testCommand 2, testCommand 3,
    { testCommand 4 with target := strlcpy 18 "11:22:33:44:55:66".toList },
    { testCommand 5 with target := strlcpy 18 "11:22:33:44:55:66".toList }].flatMap fun cmd =>
      [.hub (.dispatch cmd), .hub (.send false), .hub .push]) ++
    [.mqttLoop, .drain, .flushAll] ++
    ([.nextNode, .connected true, .pop, .resend true, .pop, .resend true, .pop, .resend true, .pop,
      .nextNode, .connected true, .pop, .resend true, .pop, .resend true, .pop].map .hub) ++
    [.notify 0, .notify 0, .notify 0, .notify 0, .notify 0]

theorem twoNodesRun_overflows :
    ¬ Always (backlogStep emptyObjectJson) (fun s => s.acks.refused = []) Backlog.init twoNodesRun := by
  decide +kernel

end Tempio.Hub
