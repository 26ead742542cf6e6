import Tempio.EndToEnd.HubAddress
import Tempio.Hub.ReportJson

namespace Tempio.EndToEnd

open Tempio.Lib Tempio.Lib.Transition Tempio.Protocol Tempio.Hub Tempio.Server

/-- The report that `onDataNotify` makes of a notification. -/
def reportOfNotify (s : Inbox) (slot : Option (Fin maxNodes)) (srcAddr : List Char) (rssi : Int8)
    (data : List UInt8) : Option Hub.SensorReport :=
  match data with
  | [] => none
  | type :: _ =>
      if type = MsgType.sensorData.code then
        (SensorData.ofBytes data).map fun sd => s.buildReport slot sd srcAddr rssi
      else none

/-- A text on its way to the server, and the report that it was made of. -/
structure Sending where
  report : Hub.SensorReport
  text : List Char

/-- The way of the reports from the nodes to the database. `draining` says that `loop` is inside its
first `while`; the last two fields are the history. -/
structure ReportPath where
  inbox : Inbox
  connected : Bool
  wasConnected : Bool
  draining : Bool
  inFlight : List Sending
  server : Subscriber
  arrived : List Hub.SensorReport
  received : List (Hub.SensorReport × Message)

def ReportPath.init : ReportPath := ⟨Inbox.init, false, false, false, [], Subscriber.init, [], []⟩

inductive ReportAction
  | onDataNotify (slot : Option (Fin maxNodes)) (srcAddr : List Char) (rssi : Int8) (data : List UInt8)
  | onConnected
  | onDisconnected
  | mqttLoop (wifiNow : Bool)
  | drain (hub : HubStatus) (msgId : Int)
  | connect (ok : Bool)
  | lost
  | deliver (now : String) (ok : Bool)

/-- `msgId` is what `esp_mqtt_client_publish` returns. -/
def ReportPath.mqttPublishReport (s : ReportPath) (msgId : Int) : Bool := s.connected && decide (0 ≤ msgId)

section

variable (volt : VoltageText) (py : Pydantic) (sql : Sqlite) (mac : Mac)

def messageOf (x : Sending) (now : String) (ok : Bool) : Message :=
  ⟨(Mqtt.topicReport mac).chars, some x.text, now, ok⟩

/-- `drain` is one pass of `while (bleGetPendingReport(&report))`; the broker delivers what was
published in its order. -/
def reportStep (s : ReportPath) : ReportAction → Option ReportPath
  | .onDataNotify slot srcAddr rssi data =>
      some { s with
        inbox := s.inbox.dispatch slot srcAddr rssi data
        arrived := s.arrived ++ (reportOfNotify s.inbox slot srcAddr rssi data).toList }
  | .onConnected => some { s with connected := true }
  | .onDisconnected => some { s with connected := false }
  | .mqttLoop wifiNow =>
      if s.draining then none
      else some { s with
        connected := if !wifiNow && s.wasConnected then false else s.connected
        wasConnected := wifiNow
        draining := true }
  | .drain hub msgId =>
      if s.draining then
        match s.inbox.reportQueue.pop with
        | none => some { s with draining := false }
        | some (report, q) =>
            some { s with
              inbox := { s.inbox with reportQueue := q }
              inFlight :=
                if s.mqttPublishReport msgId then
                  s.inFlight ++ [⟨report, report.toJson volt hub reportJsonBufSize⟩]
                else s.inFlight }
      else none
  | .connect ok =>
      (subscriberStep py sql s.server (.connect ok)).map fun server => { s with server := server }
  | .lost => (subscriberStep py sql s.server .lost).map fun server => { s with server := server }
  | .deliver now ok =>
      match s.inFlight with
      | [] => none
      | x :: rest =>
          (subscriberStep py sql s.server (.message (messageOf mac x now ok))).map fun server =>
            { s with
              inFlight := rest
              server := server
              received :=
                if s.server.listening && ok then s.received ++ [(x.report, messageOf mac x now ok)]
                else s.received }

/-- Every report that arrived is with the server, on its way or in the queue, once and in the order of
arrival. The table has the rows that the server makes of what it has received. -/
structure Delivered (s : ReportPath) : Prop where
  order : s.arrived =
    s.received.map Prod.fst ++ s.inFlight.map Sending.report ++ s.inbox.reportQueue.contents
  sent : ∀ x ∈ s.inFlight, ∃ hub, x.text = x.report.toJson volt hub reportJsonBufSize
  told : ∀ x ∈ s.received, x.2.topic = (Mqtt.topicReport mac).chars ∧
    ∃ hub, x.2.payload = some (x.1.toJson volt hub reportJsonBufSize)
  rows : s.server.reports = Table.number (s.received.filterMap fun x => x.2.saved py)

end

/-- There is room for what arrives, what is taken out is published, and the server is there for what
the broker delivers. -/
def Passes (s : ReportPath) : ReportAction → Prop
  | .onDataNotify slot srcAddr rssi data =>
      reportOfNotify s.inbox slot srcAddr rssi data ≠ none →
        s.inbox.reportQueue.contents.length < reportQueueMax
  | .drain _ msgId =>
      s.draining = true → s.inbox.reportQueue.contents ≠ [] → s.mqttPublishReport msgId = true
  | .deliver _ ok => s.inFlight ≠ [] → (s.server.listening && ok) = true
  | _ => True

section

variable {s t : ReportPath}

theorem reportQueue_dispatch (s : Inbox) (slot : Option (Fin maxNodes)) (srcAddr : List Char)
    (rssi : Int8) (data : List UInt8) :
    (s.dispatch slot srcAddr rssi data).reportQueue =
      match reportOfNotify s slot srcAddr rssi data with
      | some r => (s.reportQueue.push r).getD s.reportQueue
      | none => s.reportQueue := by
  cases data with
  | nil => rfl
  | cons type rest =>
      have hinfo : MsgType.nodeInfo.code ≠ MsgType.sensorData.code := by decide
      simp only [Inbox.dispatch, reportOfNotify]
      split_ifs with h1 h2 h3
      · exact absurd (h1.symm.trans h2) hinfo
      · unfold Inbox.handleNodeInfo
        split <;> rfl
      · unfold Inbox.handleSensorData
        cases SensorData.ofBytes (type :: rest) <;> rfl
      · cases handleCmdAck (type :: rest) srcAddr <;> rfl
      · rfl

/-- What a notification brings is appended when there is room, and dropped otherwise. -/
theorem contents_dispatch (s : Inbox) (slot : Option (Fin maxNodes)) (srcAddr : List Char)
    (rssi : Int8) (data : List UInt8) :
    (s.dispatch slot srcAddr rssi data).reportQueue.contents =
      if s.reportQueue.contents.length < reportQueueMax then
        s.reportQueue.contents ++ (reportOfNotify s slot srcAddr rssi data).toList
      else s.reportQueue.contents := by
  rw [reportQueue_dispatch]
  cases reportOfNotify s slot srcAddr rssi data with
  | none => simp
  | some r =>
      cases hpush : s.reportQueue.pushUnsafe r with
      | none =>
          have hfull := ThreadSafeQueue.pushUnsafe_eq_none.mp hpush
          simp only [ThreadSafeQueue.push, hpush, Option.getD_none]
          rw [if_neg (Nat.not_lt.mpr hfull)]
      | some q =>
          have hroom : s.reportQueue.contents.length < reportQueueMax := by
            by_contra hfull
            rw [ThreadSafeQueue.pushUnsafe_eq_none.mpr (Nat.le_of_not_lt hfull)] at hpush
            cases hpush
          simp only [ThreadSafeQueue.push, hpush, Option.getD_some]
          rw [if_pos hroom, ThreadSafeQueue.contents_pushUnsafe hpush, Option.toList_some]

variable {volt : VoltageText} {py : Pydantic} {sql : Sqlite} {mac : Mac}

theorem drain_report_cases (volt : VoltageText) (py : Pydantic) (sql : Sqlite) (mac : Mac)
    (hd : s.draining = true) (hub : HubStatus) (msgId : Int) :
    (s.inbox.reportQueue.contents = [] ∧
      reportStep volt py sql mac s (.drain hub msgId) = some { s with draining := false }) ∨
    ∃ report, ∃ q : ThreadSafeQueue Hub.SensorReport reportQueueMax,
      s.inbox.reportQueue.contents = report :: q.contents ∧
      reportStep volt py sql mac s (.drain hub msgId) = some { s with
        inbox := { s.inbox with reportQueue := q }
        inFlight :=
          if s.mqttPublishReport msgId then
            s.inFlight ++ [⟨report, report.toJson volt hub reportJsonBufSize⟩]
          else s.inFlight } := by
  cases h : s.inbox.reportQueue.popUnsafe with
  | none =>
      exact .inl ⟨ThreadSafeQueue.popUnsafe_eq_none.mp h,
        by simp only [reportStep, hd, if_true, ThreadSafeQueue.pop, h]⟩
  | some r =>
      obtain ⟨report, q⟩ := r
      exact .inr ⟨report, q, ThreadSafeQueue.contents_popUnsafe h,
        by simp only [reportStep, hd, if_true, ThreadSafeQueue.pop, h]⟩

theorem saved_of_not_ok {m : Message} (h : m.ok = false) : m.saved py = none := by
  unfold Message.saved
  split
  · next hok => exact absurd (h.symm.trans hok) Bool.false_ne_true
  · rfl

theorem numbered_rows (received : List (Hub.SensorReport × Message)) :
    Table.Numbered SensorReportRecord.id (Table.number (received.filterMap fun x => x.2.saved py)) := by
  refine Table.numbered_number fun row hrow n => ?_
  obtain ⟨x, _, hs⟩ := List.mem_filterMap.mp hrow
  exact (report_of_saved hs n n).2

/-- The table after one more message. -/
theorem reports_deliver {received : List (Hub.SensorReport × Message)} {server : Subscriber}
    (hrows : server.reports = Table.number (received.filterMap fun x => x.2.saved py))
    (x : Hub.SensorReport × Message) :
    (if server.listening then server.onMessage py sql x.2 else server).reports =
      Table.number ((if server.listening && x.2.ok then received ++ [x] else received).filterMap
        fun x => x.2.saved py) := by
  cases hlistening : server.listening with
  | false => simpa using hrows
  | true =>
      have hnum : Table.Numbered SensorReportRecord.id
          (Table.number (received.filterMap fun x => x.2.saved py)) := numbered_rows received
      have happend : (received ++ [x]).filterMap (fun x => x.2.saved py) =
          received.filterMap (fun x => x.2.saved py) ++ (x.2.saved py).toList := by
        cases hs : x.2.saved py <;> simp [hs]
      cases hok : x.2.ok with
      | false =>
          simp only [if_true, onMessage_eq, saved_of_not_ok hok]
          simpa using hrows
      | true =>
          simp only [if_true, Bool.and_true, onMessage_eq, hrows, happend, Table.number_append]
          rw [hnum.nextId]

theorem deliver_eq {x : Sending} {rest : List Sending} (h : s.inFlight = x :: rest) (now : String)
    (ok : Bool) :
    reportStep volt py sql mac s (.deliver now ok) = some { s with
      inFlight := rest
      server :=
        if s.server.listening then s.server.onMessage py sql (messageOf mac x now ok) else s.server
      received :=
        if s.server.listening && ok then s.received ++ [(x.report, messageOf mac x now ok)]
        else s.received } := by
  simp only [reportStep, h, subscriberStep, Option.map_some]

theorem delivered_init : Delivered volt py mac ReportPath.init where
  order := rfl
  sent _ hx := absurd hx List.not_mem_nil
  told _ hx := absurd hx List.not_mem_nil
  rows := rfl

theorem delivered_step {a : ReportAction} (hs : Delivered volt py mac s) (hg : Passes s a)
    (h : reportStep volt py sql mac s a = some t) : Delivered volt py mac t := by
  obtain ⟨horder, hsent, htold, hrows⟩ := hs
  cases a with
  | onDataNotify slot srcAddr rssi data =>
      obtain rfl := Option.some.inj h
      refine ⟨?_, hsent, htold, hrows⟩
      simp only [contents_dispatch, horder]
      by_cases hr : reportOfNotify s.inbox slot srcAddr rssi data = none
      · simp [hr]
      · rw [if_pos (hg hr), List.append_assoc]
  | onConnected | onDisconnected => exact Option.some.inj h ▸ ⟨horder, hsent, htold, hrows⟩
  | mqttLoop wifiNow =>
      simp only [reportStep] at h
      split_ifs at h
      all_goals exact Option.some.inj h ▸ ⟨horder, hsent, htold, hrows⟩
  | drain hub msgId =>
      cases hd : s.draining with
      | false => simp [reportStep, hd] at h
      | true =>
          obtain ⟨_, ht⟩ | ⟨report, q, hq, ht⟩ := drain_report_cases volt py sql mac hd hub msgId
          · obtain rfl := Option.some.inj (h.symm.trans ht)
            exact ⟨horder, hsent, htold, hrows⟩
          · have hok := hg hd (by rw [hq]; exact List.cons_ne_nil _ _)
            rw [if_pos hok] at ht
            obtain rfl := Option.some.inj (h.symm.trans ht)
            refine ⟨?_, ?_, htold, hrows⟩
            · rw [horder, hq]
              simp
            · intro x hx
              rcases List.mem_append.mp hx with hx | hx
              · exact hsent x hx
              · rw [List.mem_singleton.mp hx]
                exact ⟨hub, rfl⟩
  | connect ok | lost =>
      obtain rfl := Option.some.inj h
      exact ⟨horder, hsent, htold, hrows⟩
  | deliver now ok =>
      cases hflight : s.inFlight with
      | nil => simp [reportStep, hflight] at h
      | cons x rest =>
          obtain rfl := Option.some.inj ((deliver_eq hflight now ok).symm.trans h)
          have hthere : (s.server.listening && ok) = true := hg (by rw [hflight]; exact List.cons_ne_nil _ _)
          obtain ⟨hub, htext⟩ := hsent x (hflight ▸ List.mem_cons_self)
          refine ⟨?_, fun y hy => hsent y (hflight ▸ List.mem_cons_of_mem _ hy), ?_, ?_⟩
          · rw [if_pos hthere, horder, hflight]
            simp
          · rw [if_pos hthere]
            intro y hy
            rcases List.mem_append.mp hy with hy | hy
            · exact htold y hy
            · rw [List.mem_singleton.mp hy]
              exact ⟨rfl, hub, congrArg some htext⟩
          · exact reports_deliver hrows (x.report, messageOf mac x now ok)

/-- What does not pass is missed from then on. -/
theorem missed_of_not_passes {a : ReportAction} (hs : Delivered volt py mac s) (hg : ¬ Passes s a) :
    ∃ t, reportStep volt py sql mac s a = some t ∧ ¬ Delivered volt py mac t := by
  have hlen := congrArg List.length hs.order
  simp only [List.length_append, List.length_map] at hlen
  cases a with
  | onDataNotify slot srcAddr rssi data =>
      simp only [Passes, Classical.not_imp] at hg
      obtain ⟨hr, hfull⟩ := hg
      obtain ⟨r, hr⟩ := Option.ne_none_iff_exists'.mp hr
      refine ⟨_, rfl, fun hd => ?_⟩
      have hlen' := congrArg List.length hd.order
      simp only [contents_dispatch, if_neg hfull, hr, Option.toList_some, List.length_append,
        List.length_map, List.length_singleton] at hlen'
      omega
  | drain hub msgId =>
      simp only [Passes, Classical.not_imp] at hg
      obtain ⟨hd, hne, hfail⟩ := hg
      obtain ⟨hempty, _⟩ | ⟨report, q, hq, ht⟩ := drain_report_cases volt py sql mac hd hub msgId
      · exact absurd hempty hne
      · rw [if_neg hfail] at ht
        refine ⟨_, ht, fun hd => ?_⟩
        have hlen' := congrArg List.length hd.order
        simp only [List.length_append, List.length_map] at hlen'
        rw [hq, List.length_cons] at hlen
        omega
  | deliver now ok =>
      simp only [Passes, Classical.not_imp] at hg
      obtain ⟨hne, hgone⟩ := hg
      obtain ⟨x, rest, hflight⟩ := List.exists_cons_of_ne_nil hne
      refine ⟨_, deliver_eq hflight now ok, fun hd => ?_⟩
      have hlen' := congrArg List.length hd.order
      simp only [if_neg hgone, List.length_append, List.length_map] at hlen'
      rw [hflight, List.length_cons] at hlen
      omega
  | _ => exact absurd trivial hg

end

/-- Every reading that arrives at the hub becomes what the server makes of it, once and in order, in
every state of a run if and only if none finds the queue full, the hub off line or the server away. -/
theorem always_delivered_iff (volt : VoltageText) (py : Pydantic) (sql : Sqlite) (mac : Mac)
    (as : List ReportAction) :
    Always (reportStep volt py sql mac) (Delivered volt py mac) ReportPath.init as ↔
      Along (reportStep volt py sql mac) Passes ReportPath.init as :=
  always_iff_along (fun _ _ _ => delivered_step) (fun _ => id) (fun _ _ => missed_of_not_passes)
    delivered_init

end Tempio.EndToEnd
