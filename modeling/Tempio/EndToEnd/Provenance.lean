import Tempio.EndToEnd.HubStatus
import Tempio.EndToEnd.Notifications
import Tempio.EndToEnd.Readings

namespace Tempio.EndToEnd

open Tempio.Lib Tempio.Lib.Json Tempio.Lib.Transition Tempio.Protocol Tempio.Hub Tempio.Hub.Ble
  Tempio.Server

variable {Addr : Type}

/-- The nodes, the hub and the server. `texts` are the messages of the hub that the broker still has.
The last two fields are the history: what the hub was to write to the nodes, and the commands that
they have executed. -/
structure World (Addr : Type) where
  system : System Addr
  texts : List (List Char)
  server : Subscriber
  written : List (Addr × List UInt8)
  executed : List (Addr × NodeCommand)

/-- A report or an acknowledgement that `loop` takes out and cannot publish is one that the system
alone takes out. -/
inductive WorldAction (Addr : Type)
  | system (a : SystemAction Addr)
  | publishReport (hub : HubStatus)
  | publishAck
  | publishStatus (sources : StatusSources Addr) (pool : PendingPool)
  | deliver (now : String) (ok : Bool)
  | lose
  | reboot
  | server (a : SubscriberAction)

/-- The hub starts again. A node that was connected keeps its end until it notices. -/
def System.reboot [Inhabited Addr] (s : System Addr) : System Addr :=
  { s with hub := Radio.init, inbox := Inbox.init, toHub := fun _ => [] }

namespace World

def init [Inhabited Addr] (prefs : Addr → Option UInt16) : World Addr :=
  ⟨System.init prefs, [], Subscriber.init, [], []⟩

def setInbox (s : World Addr) (inbox : Inbox) : World Addr :=
  { s with system := { s.system with inbox := inbox } }

def publish (s : World Addr) (text : List Char) : World Addr := { s with texts := s.texts ++ [text] }

end World

/-- The messages that do not come from the hub. -/
def foreign (mac : Mac) : SubscriberAction → Bool
  | .message m => m.hubId ≠ some (knownAs mac)
  | _ => true

section

variable [DecidableEq Addr] [Inhabited Addr] (ble : NimBLEAddress Addr) (volt : VoltageText)
  (py : Pydantic) (sql : Sqlite) (mac : Mac)

/-- Only the hub publishes under its topic. -/
def worldStep (s : World Addr) : WorldAction Addr → Option (World Addr)
  | .system a =>
      (systemStep ble.toText s.system a).map fun t =>
        { s with system := t, written := s.written ++ a.written, executed := s.executed ++ a.executed }
  | .publishReport hub =>
      s.system.inbox.reportQueue.pop.map fun x =>
        (s.setInbox { s.system.inbox with reportQueue := x.2 }).publish
          (x.1.toJson volt hub reportJsonBufSize)
  | .publishAck =>
      s.system.inbox.ackQueue.pop.map fun x =>
        (s.setInbox { s.system.inbox with ackQueue := x.2 }).publish (x.1.toJson 128)
  | .publishStatus sources pool => some (s.publish (sources.handleHubStatus pool))
  | .deliver now ok =>
      match s.texts with
      | [] => none
      | text :: texts =>
          let message : Message := ⟨(Mqtt.topicReport mac).chars, some text, now, ok⟩
          (subscriberStep py sql s.server (.message message)).map fun server =>
            { s with texts := texts, server := server }
  | .lose => some { s with texts := s.texts.tail }
  | .reboot => some { s with system := s.system.reboot }
  | .server a =>
      if foreign mac a then
        (subscriberStep py sql s.server a).map fun server => { s with server := server }
      else none

/-- A row of the reports says what a node has told the hub. -/
structure RowTells (e : Notification Addr) (sd : SensorData) (row : SensorReportRecord) : Prop where
  data : SensorData.ofBytes e.data = some sd
  source : e.source = some e.sender
  nodeId : row.nodeId = String.ofList (ble.toText e.sender)
  lux : row.lux = if sd.ldr = 0 then none else (PyFloat.ofInt sd.ldr.toNat).column
  temperature : Kept (printed sd.temp) →
    row.temperature = (oneDecimal (printed sd.temp)).bind PyFloat.column
  humidity : Kept (printed sd.humidity) →
    row.humidity = (oneDecimal (printed sd.humidity)).bind PyFloat.column

end

/-- The row waits, or says that a command with its id was executed. -/
def Settled (executed : List (Addr × NodeCommand)) (log : CommandLog) : Prop :=
  log.status = .pending ∨ log.status = .success ∧ ∃ x ∈ executed, log.cmdId = x.2.cmdId.toNat

/-- What the server has on record of the hub has happened. -/
structure Honest (ble : NimBLEAddress Addr) (mac : Mac) (s : World Addr) : Prop where
  settled : ∀ log ∈ s.server.logs, log.hubId = knownAs mac → Settled s.executed log
  asked : ∀ x ∈ s.executed, ∃ val, (x.1, val) ∈ s.written ∧ Carries val x.2
  reported : ∀ row ∈ s.server.reports, row.hubId = knownAs mac →
    ∃ e ∈ s.system.handled, ∃ sd, RowTells ble e sd row

/-- The text is read as a number, and as the right one where it is kept. -/
def ReadsAs (py : Pydantic) (p : Printed) (j : Json) : Prop :=
  ∃ v, py.optionalFloat j = some (some v) ∧ (Kept p → some v = oneDecimal p)

/-- What the hub publishes, by where it has it from. -/
inductive Published (ble : NimBLEAddress Addr) (volt : VoltageText) (executed : List (Addr × NodeCommand))
    (handled : List (Notification Addr)) : List Char → Prop
  | ack (x : Addr × NodeCommand) (hx : x ∈ executed) :
      Published ble volt executed handled ((ackOf ble x).toJson 128)
  | report (e : Notification Addr) (he : e ∈ handled) (r : Hub.SensorReport) (hr : MadeOf ble e r)
      (hub : HubStatus) : Published ble volt executed handled (r.toJson volt hub reportJsonBufSize)
  | status (sources : StatusSources Addr) (pool : PendingPool) :
      Published ble volt executed handled (sources.handleHubStatus pool)

/-- What the server finds in it. -/
inductive Found (ble : NimBLEAddress Addr) (volt : VoltageText) (py : Pydantic) (hubId : List Char)
    (executed : List (Addr × NodeCommand)) (handled : List (Notification Addr)) : Handled → Prop
  | ack (x : Addr × NodeCommand) (hx : x ∈ executed) :
      Found ble volt py hubId executed handled (.processAck hubId (.int x.2.cmdId.toNat) true)
  | report (e : Notification Addr) (he : e ∈ handled) (r : Hub.SensorReport) (hr : MadeOf ble e r)
      (hub : HubStatus) (temperature humidity : Json)
      (ht : ReadsAs py (printed r.temperature) temperature)
      (hh : ReadsAs py (printed r.humidity) humidity) :
      Found ble volt py hubId executed handled (.report hubId (r.fields volt hub temperature humidity))
  | hubStatus : Found ble volt py hubId executed handled (.hubStatus hubId)
  | error : Found ble volt py hubId executed handled .error

section

variable {ble : NimBLEAddress Addr} {volt : VoltageText} {py : Pydantic} {sql : Sqlite} {mac : Mac}
  {executed executed' : List (Addr × NodeCommand)} {handled handled' : List (Notification Addr)}
  {e : Notification Addr} {r : Hub.SensorReport} {hub : HubStatus}
  {text hubId : List Char} {m : Message}

theorem printable_toText (ble : NimBLEAddress Addr) (a : Addr) : printable (ble.toText a) = true :=
  List.all_eq_true.mpr fun c hc => decide_eq_true (ble.le_toNat a c hc)

theorem MadeOf.fields (h : MadeOf ble e r) : ∃ sd, SensorData.ofBytes e.data = some sd ∧
    r.nodeId = ble.key e.sender ∧ r.temperature = sd.temp ∧ r.humidity = sd.humidity ∧ r.ldr = sd.ldr ∧
      printable r.nodeTypeStr.chars = true := by
  obtain ⟨inbox, slot, rssi, h⟩ := h
  cases hdata : e.data with
  | nil => simp [reportOfNotify, hdata] at h
  | cons type rest =>
      simp only [reportOfNotify, hdata] at h
      split_ifs at h
      obtain ⟨sd, hsd, rfl⟩ := Option.map_eq_some_iff.mp h
      refine ⟨sd, hsd, rfl, rfl, rfl, rfl, printable_strlcpy ?_⟩
      split_ifs <;> decide

/-- A report is unreadable, or read as numbers. -/
theorem loads_report_cases (py : Pydantic) (volt : VoltageText) (hub : HubStatus)
    (hid : printable r.nodeId.chars = true) (htype : printable r.nodeTypeStr.chars = true) :
    loads (r.toJson volt hub reportJsonBufSize) = none ∨ ∃ temperature humidity,
      loads (r.toJson volt hub reportJsonBufSize) = some (.obj (r.fields volt hub temperature humidity)) ∧
        ReadsAs py (printed r.temperature) temperature ∧ ReadsAs py (printed r.humidity) humidity := by
  rcases reading_cases py (printed r.temperature) with ⟨_, hbroken⟩ | ⟨x, v, hx, htemp, hv, hkept⟩
  · exact .inl (r.loads_toJson_of_temperature volt hub hbroken hid htype)
  · rcases reading_cases py (printed r.humidity) with ⟨_, hbroken⟩ | ⟨y, w, hy, hhum, hw, hkept'⟩
    · exact .inl (r.loads_toJson_of_humidity volt hub hx htemp hbroken hid htype)
    · exact .inr ⟨x, y, r.loads_toJson volt hub hx hy htemp hhum hid htype, ⟨v, hv, hkept.mpr⟩,
        ⟨w, hw, hkept'.mpr⟩⟩

theorem handleMessage_fields {temperature humidity : Json} (hhub : '/' ∉ hubId)
    (h : loads text = some (.obj (r.fields volt hub temperature humidity))) :
    handleMessage (Server.topicReport hubId) text =
      .report hubId (r.fields volt hub temperature humidity) := by
  have htype : getD (r.fields volt hub temperature humidity) "type" .null = .null := by
    unfold Hub.SensorReport.fields
    split_ifs <;> simp [getD]
  simp only [handleMessage, splitOn_topicReport hhub, h, htype]
  rfl

theorem found_of_published (h : Published ble volt executed handled text) (py : Pydantic)
    (hhub : '/' ∉ hubId) :
    Found ble volt py hubId executed handled (handleMessage (Server.topicReport hubId) text) := by
  cases h with
  | ack x hx =>
      have hack : handleMessage (Server.topicReport hubId) ((ackOf ble x).toJson 128) =
          .processAck hubId (.int x.2.cmdId.toNat) true :=
        handleMessage_cmdAck hhub (printable_toText ble x.1) x.2.cmdId
      exact hack ▸ .ack x hx
  | report e he r hr hub =>
      obtain ⟨sd, _, hid, _, _, _, htype⟩ := hr.fields
      have hprintable : printable r.nodeId.chars = true :=
        hid ▸ printable_strlcpy (printable_toText ble e.sender)
      rcases loads_report_cases py volt hub hprintable htype with hnone | ⟨x, y, hload, hx, hy⟩
      · simp only [handleMessage, splitOn_topicReport hhub, hnone]
        exact .error
      · exact handleMessage_fields hhub hload ▸ .report e he r hr hub x y hx hy
  | status sources pool => exact handled_handleHubStatus sources pool hhub ▸ .hubStatus

/-- A message of the hub settles a row only for a command that a node has executed. -/
theorem ackRow_of_found (h : Found ble volt py hubId executed handled m.handled) (sql : Sqlite)
    (log : CommandLog) :
    m.ackRow sql log = log ∨ Settled executed (m.ackRow sql log) := by
  obtain ⟨found, hfound⟩ : ∃ found, m.handled = found := ⟨_, rfl⟩
  rw [hfound] at h
  cases h with
  | ack x hx =>
      have hstorable : Storable x.2.cmdId.toNat := by
        have := x.2.cmdId.toNat_lt
        constructor <;> omega
      cases hok : m.ok with
      | false =>
          left
          simp only [Message.ackRow, hfound, hok]
          rfl
      | true =>
          simp only [Message.ackRow, hfound, hok, sql.equals_int, if_pos hstorable, CommandLog.ackWhere]
          split_ifs with hrow
          · exact .inr (.inr ⟨rfl, x, hx, of_decide_eq_true hrow.2.1⟩)
          · exact .inl rfl
  | report | hubStatus | error =>
      left
      simp only [Message.ackRow, hfound]
      rfl

/-- A message of the hub adds a row only for a reading that a node has sent. -/
theorem rowTells_of_found (h : Found ble volt py hubId executed handled m.handled)
    (hsource : ∀ e ∈ handled, e.source = some e.sender) {row : Nat → SensorReportRecord}
    (hrow : m.saved py = some row) (n : Nat) :
    ∃ e ∈ handled, ∃ sd, RowTells ble e sd (row n) := by
  obtain ⟨found, hfound⟩ : ∃ found, m.handled = found := ⟨_, rfl⟩
  rw [hfound] at h
  cases h with
  | report e he r hr hub x y hx hy =>
      obtain ⟨sd, hsd, hid, htemp, hhum, hldr, _⟩ := hr.fields
      obtain ⟨v, hv, hkept⟩ := hx
      obtain ⟨w, hw, hkept'⟩ := hy
      obtain ⟨b, hrecord⟩ := fromMqttPayload_fields py volt r hub hubId m.now hv hw
      cases hok : m.ok with
      | false => simp [Message.saved, hfound, hok] at hrow
      | true =>
          simp only [Message.saved, hfound, hok, hrecord, Option.bind_some] at hrow
          obtain rfl := Option.some.inj (Option.ite_none_right_eq_some.mp hrow).2
          refine ⟨e, he, sd, hsd, hsource e he, ?_, ?_, ?_, ?_⟩
          · simp only [SensorReport.row, hid, NimBLEAddress.chars_key]
          · simp only [SensorReport.row, hldr]
            split_ifs <;> rfl
          · intro hk
            simp only [SensorReport.row, ← htemp] at hk ⊢
            rw [hkept hk]
          · intro hk
            simp only [SensorReport.row, ← hhum] at hk ⊢
            rw [hkept' hk]
  | ack | hubStatus | error => simp [Message.saved, hfound] at hrow

/-- What a message leaves in the tables, if it does no harm to the rows of the hub. -/
theorem recorded_message {server server' : Subscriber} {P : SensorReportRecord → Prop}
    (hst : subscriberStep py sql server (.message m) = some server')
    (hlogs : ∀ log ∈ server.logs, log.hubId = knownAs mac → Settled executed log)
    (hreports : ∀ row ∈ server.reports, row.hubId = knownAs mac → P row)
    (hack : ∀ log : CommandLog, log.hubId = knownAs mac →
      m.ackRow sql log = log ∨ Settled executed (m.ackRow sql log))
    (hsaved : ∀ row, m.saved py = some row → ∀ n, (row n).hubId = knownAs mac → P (row n)) :
    (∀ log ∈ server'.logs, log.hubId = knownAs mac → Settled executed log) ∧
      ∀ row ∈ server'.reports, row.hubId = knownAs mac → P row := by
  obtain rfl := Option.some.inj hst
  split_ifs
  · rw [onMessage_eq]
    constructor
    · intro log hlog hhub
      obtain ⟨old, hold, rfl⟩ := List.mem_map.mp hlog
      rw [hubId_ackRow] at hhub
      rcases hack old hhub with hsame | hsettled
      · rw [hsame]
        exact hlogs old hold hhub
      · exact hsettled
    · intro row hrow hhub
      rcases List.mem_append.mp hrow with hrow | hrow
      · exact hreports row hrow hhub
      · obtain ⟨new, hnew, rfl⟩ := Option.map_eq_some_iff.mp (Option.mem_toList.mp hrow)
        exact hsaved new hnew _ hhub
  · exact ⟨hlogs, hreports⟩

theorem Published.mono (h : Published ble volt executed handled text) (hexecuted : executed ⊆ executed')
    (hhandled : handled ⊆ handled') : Published ble volt executed' handled' text := by
  cases h with
  | ack x hx => exact .ack x (hexecuted hx)
  | report e he r hr hub => exact .report e (hhandled he) r hr hub
  | status sources pool => exact .status sources pool

end

/-- Honest, with what is on its way to the server and in the queues of the hub. -/
structure World.Sound (ble : NimBLEAddress Addr) (volt : VoltageText) (mac : Mac) (s : World Addr) :
    Prop where
  backed : Backed ble s.system s.written s.executed
  texts : ∀ text ∈ s.texts, Published ble volt s.executed s.system.handled text
  settled : ∀ log ∈ s.server.logs, log.hubId = knownAs mac → Settled s.executed log
  reported : ∀ row ∈ s.server.reports, row.hubId = knownAs mac →
    ∃ e ∈ s.system.handled, ∃ sd, RowTells ble e sd row

theorem World.Sound.honest {ble : NimBLEAddress Addr} {volt : VoltageText} {mac : Mac} {s : World Addr}
    (h : s.Sound ble volt mac) : Honest ble mac s :=
  ⟨h.settled, h.backed.asked, h.reported⟩

section

variable {ble : NimBLEAddress Addr} {volt : VoltageText} {py : Pydantic} {sql : Sqlite} {mac : Mac}
  {s t : World Addr} {a : WorldAction Addr}

theorem World.Sound.publish (h : s.Sound ble volt mac) {text : List Char}
    (htext : Published ble volt s.executed s.system.handled text) :
    (s.publish text).Sound ble volt mac where
  backed := h.backed
  texts text' htext' := by
    rcases List.mem_append.mp htext' with htext' | htext'
    · exact h.texts text' htext'
    · rwa [List.mem_singleton.mp htext']
  settled := h.settled
  reported := h.reported

theorem backed_reboot [Inhabited Addr] {s : System Addr} {written : List (Addr × List UInt8)}
    {executed : List (Addr × NodeCommand)} (h : Backed ble s written executed) :
    Backed ble s.reboot written executed where
  traced := { h.traced with
    wired := wired_init
    sent := fun c e he => by cases he
    spoken := fun a c _ hlink => by cases hlink }
  attributed := {
    source := h.attributed.source
    reports := fun r hr => by simp [System.reboot, Inbox.init] at hr
    acks := fun a ha => by simp [System.reboot, Inbox.init] at ha }
  toNode := h.toNode
  asked := h.asked
  toHub c e he := by cases he
  acks r hr := by simp [System.reboot, Inbox.init] at hr
  reports r hr := by simp [System.reboot, Inbox.init] at hr

variable [DecidableEq Addr]

theorem World.Sound.system (h : s.Sound ble volt mac) {a : SystemAction Addr} {u : System Addr}
    (hu : systemStep ble.toText s.system a = some u) :
    World.Sound ble volt mac { s with
      system := u, written := s.written ++ a.written, executed := s.executed ++ a.executed } where
  backed := backed_step h.backed hu
  texts text htext := (h.texts text htext).mono (List.subset_append_left _ _)
    (handled_systemStep h.backed.traced hu).subset
  settled log hlog hhub := (h.settled log hlog hhub).imp_right fun ⟨hstatus, x, hx, hid⟩ =>
    ⟨hstatus, x, List.mem_append_left _ hx, hid⟩
  reported row hrow hhub :=
    have ⟨e, he, hsd⟩ := h.reported row hrow hhub
    ⟨e, (handled_systemStep h.backed.traced hu).subset he, hsd⟩

/-- A step of the system that only takes something out of the queues. -/
theorem World.Sound.setInbox (h : s.Sound ble volt mac) {a : SystemAction Addr} {inbox : Inbox}
    (hu : systemStep ble.toText s.system a = some { s.system with inbox := inbox })
    (hwritten : a.written = []) (hexecuted : a.executed = []) :
    (s.setInbox inbox).Sound ble volt mac := by
  have hsound := h.system hu
  rw [hwritten, hexecuted, List.append_nil, List.append_nil] at hsound
  exact hsound

variable [Inhabited Addr]

theorem World.Sound.deliver (h : s.Sound ble volt mac) {now : String} {ok : Bool}
    (hst : worldStep ble volt py sql mac s (.deliver now ok) = some t) : t.Sound ble volt mac := by
  cases htexts : s.texts with
  | nil => simp [worldStep, htexts] at hst
  | cons text texts =>
      simp only [worldStep, htexts] at hst
      obtain ⟨server, hserver, rfl⟩ := Option.map_eq_some_iff.mp hst
      have hslash : '/' ∉ Mqtt.macDigits mac := Mqtt.not_mem_macDigits (by simp) mac
      have hfound : Found ble volt py (Mqtt.macDigits mac) s.executed s.system.handled
          (Message.handled ⟨(Mqtt.topicReport mac).chars, some text, now, ok⟩) := by
        rw [chars_topicReport_eq]
        exact found_of_published (h.texts text (htexts ▸ List.mem_cons_self)) py hslash
      obtain ⟨hsettled, hreported⟩ := recorded_message hserver h.settled h.reported
        (fun log _ => ackRow_of_found hfound sql log)
        fun row hrow n _ => rowTells_of_found hfound h.backed.attributed.source hrow n
      exact ⟨h.backed, fun x hx => h.texts x (htexts ▸ List.mem_cons_of_mem text hx), hsettled, hreported⟩

/-- What is foreign leaves the rows of the hub alone, but for the commands that start to wait. -/
theorem World.Sound.server (h : s.Sound ble volt mac) {a : SubscriberAction}
    (hst : worldStep ble volt py sql mac s (.server a) = some t) : t.Sound ble volt mac := by
  simp only [worldStep] at hst
  split_ifs at hst with hforeign
  obtain ⟨server, hserver, rfl⟩ := Option.map_eq_some_iff.mp hst
  cases a with
  | connect ok | lost =>
      obtain rfl := Option.some.inj hserver
      exact ⟨h.backed, h.texts, h.settled, h.reported⟩
  | message m =>
      have hm : m.hubId ≠ some (knownAs mac) := of_decide_eq_true hforeign
      obtain ⟨hsettled, hreported⟩ := recorded_message hserver h.settled h.reported
        (fun log hhub => .inl (ackRow_of_ne (hhub ▸ hm)))
        fun row hrow n hhub => absurd (hhub ▸ hubId_of_saved hrow n) hm
      exact ⟨h.backed, h.texts, hsettled, hreported⟩
  | saveCommandLog hubId cmd now =>
      obtain rfl := Option.some.inj hserver
      refine ⟨h.backed, h.texts, fun log hlog hhub => ?_, h.reported⟩
      rw [getD_saveCommandLog] at hlog
      rcases List.mem_append.mp hlog with hlog | hlog
      · exact h.settled log hlog hhub
      · split_ifs at hlog
        · exact .inl (List.mem_singleton.mp hlog ▸ rfl)
        · cases hlog

theorem sound_worldStep (h : s.Sound ble volt mac) (hst : worldStep ble volt py sql mac s a = some t) :
    t.Sound ble volt mac := by
  cases a with
  | system a =>
      obtain ⟨u, hu, rfl⟩ := Option.map_eq_some_iff.mp hst
      exact h.system hu
  | publishReport hub =>
      obtain ⟨⟨r, q⟩, hp, rfl⟩ := Option.map_eq_some_iff.mp hst
      have hsound : (s.setInbox { s.system.inbox with reportQueue := q }).Sound ble volt mac :=
        h.setInbox (a := .bleGetPendingReport) (congrArg (Option.map _) hp) rfl rfl
      have hcontents := ThreadSafeQueue.contents_popUnsafe hp
      obtain ⟨e, he, hr⟩ := h.backed.reports r (hcontents ▸ List.mem_cons_self)
      exact hsound.publish (.report e he r hr hub)
  | publishAck =>
      obtain ⟨⟨r, q⟩, hp, rfl⟩ := Option.map_eq_some_iff.mp hst
      have hsound : (s.setInbox { s.system.inbox with ackQueue := q }).Sound ble volt mac :=
        h.setInbox (a := .bleGetPendingAck) (congrArg (Option.map _) hp) rfl rfl
      have hcontents := ThreadSafeQueue.contents_popUnsafe hp
      obtain ⟨x, hx, rfl⟩ := h.backed.acks r (hcontents ▸ List.mem_cons_self)
      exact hsound.publish (.ack x hx)
  | publishStatus sources pool => exact Option.some.inj hst ▸ h.publish (.status sources pool)
  | deliver now ok => exact h.deliver hst
  | lose =>
      obtain rfl := Option.some.inj hst
      exact { h with texts := fun text htext => h.texts text (List.mem_of_mem_tail htext) }
  | reboot => exact Option.some.inj hst ▸ { h with backed := backed_reboot h.backed }
  | server a => exact h.server hst

end

theorem sound_init {Addr : Type} [Inhabited Addr] (ble : NimBLEAddress Addr) (volt : VoltageText)
    (mac : Mac) (prefs : Addr → Option UInt16) : (World.init prefs).Sound ble volt mac where
  backed := backed_init ble prefs
  texts text htext := by cases htext
  settled log hlog := by cases hlog
  reported row hrow := by cases hrow

/-- Whatever the nodes, the hub, the broker and the server do, also when one of them starts again, the
server has nothing on record of the hub that has not happened. A row of the commands says success, and
never failure, for an id only after a node has executed a command with that id, which the hub has written
to it. A row of the reports says what a node has told the hub. -/
theorem always_honest [DecidableEq Addr] [Inhabited Addr] (ble : NimBLEAddress Addr) (volt : VoltageText)
    (py : Pydantic) (sql : Sqlite) (mac : Mac) (prefs : Addr → Option UInt16)
    (as : List (WorldAction Addr)) :
    Always (worldStep ble volt py sql mac) (Honest ble mac) (World.init prefs) as :=
  always_of_invariant (fun _ _ _ => sound_worldStep) (fun _ h => h.honest) (sound_init ble volt mac prefs)

end Tempio.EndToEnd
