import Tempio.Lib.Projection
import Tempio.Server.ReportStore

namespace Tempio.Server

open Tempio.Lib Tempio.Lib.Table Tempio.Lib.Transition

/-- How a bound value compares with an INTEGER column: `none` is a value that cannot be bound. For
values that are no integers this is code of the database. -/
structure Sqlite where
  equals : Json → Option (Int → Bool)
  equals_int : ∀ n : Int,
    equals (.int n) = if Storable n then some fun m => decide (m = n) else none

/-- The UPDATE of `update_command_ack` on one row. -/
def CommandLog.ackWhere (hubId : String) (cmdId : Int → Bool) (success : Bool) (now : String)
    (log : CommandLog) : CommandLog :=
  if log.hubId = hubId ∧ cmdId log.cmdId = true ∧ log.status = .pending then
    { log with status := ackStatus success, ackedAt := some now }
  else log

/-- `payload` is `none` when it is not UTF-8. `ok` is false when the database refuses the write. -/
structure Message where
  topic : List Char
  payload : Option (List Char)
  now : String
  ok : Bool

def Message.handled (m : Message) : Handled :=
  match m.payload with
  | some payload => handleMessage m.topic payload
  | none => .error

structure Subscriber where
  listening : Bool
  logs : List CommandLog
  reports : List SensorReportRecord

def Subscriber.init : Subscriber := ⟨false, [], []⟩

def Subscriber.processAck (s : Subscriber) (sql : Sqlite) (hubId : List Char) (cmdId : Json)
    (success : Bool) (now : String) : Subscriber :=
  match sql.equals cmdId with
  | some equals =>
      { s with logs := s.logs.map (CommandLog.ackWhere (String.ofList hubId) equals success now) }
  | none => s

def Subscriber.processReport (s : Subscriber) (py : Pydantic) (hubId : List Char)
    (data : List (String × Json)) (now : String) : Subscriber :=
  match (fromMqttPayload py hubId data now).bind fun report => saveReport s.reports report now with
  | some reports => { s with reports := reports }
  | none => s

/-- The body of the loop over the messages, where every error is only logged. -/
def Subscriber.onMessage (s : Subscriber) (py : Pydantic) (sql : Sqlite) (m : Message) : Subscriber :=
  match m.handled, m.ok with
  | .processAck hubId cmdId success, true => s.processAck sql hubId cmdId success m.now
  | .report hubId data, true => s.processReport py hubId data m.now
  | _, _ => s

/-- The row that `send_command` writes for a command. -/
def Command.log (cmd : Command) (hubId now : String) : CommandLog := Sent.log ⟨hubId, cmd, true, none, false⟩ now

/-- `saveCommandLog` is the work of the requests, which goes on beside the loop. -/
inductive SubscriberAction
  | connect (ok : Bool)
  | lost
  | message (m : Message)
  | saveCommandLog (hubId : String) (cmd : Command) (now : String)

/-- A connection is tried only while there is none. What the broker sends while nobody listens is
gone. -/
def subscriberStep (py : Pydantic) (sql : Sqlite) (s : Subscriber) : SubscriberAction → Option Subscriber
  | .connect ok => some { s with listening := s.listening || ok }
  | .lost => some { s with listening := false }
  | .message m => some (if s.listening then s.onMessage py sql m else s)
  | .saveCommandLog hubId cmd now =>
      some { s with logs := (saveCommandLog s.logs (cmd.log hubId now)).getD s.logs }

/-- The hub that a message comes from, by its topic. -/
def Message.hubId (m : Message) : Option String :=
  match m.topic.splitOn '/' with
  | [_, hubId, _] => some (String.ofList hubId)
  | _ => none

def SubscriberAction.concerns (hubId : String) : SubscriberAction → Bool
  | .connect _ | .lost => true
  | .message m => m.hubId = some hubId
  | .saveCommandLog hubId' _ _ => hubId' = hubId

/-- What the tables say about one hub. -/
@[ext]
structure HubPart where
  listening : Bool
  logs : List CommandLog
  reports : List SensorReport

def Subscriber.part (hubId : String) (s : Subscriber) : HubPart where
  listening := s.listening
  logs := s.logs.filter fun log => log.hubId = hubId
  reports := (s.reports.filter fun row => row.hubId = hubId).map SensorReportRecord.report

/-- What a message does to every row of the command log. -/
def Message.ackRow (sql : Sqlite) (m : Message) : CommandLog → CommandLog :=
  match m.handled, m.ok with
  | .processAck hubId cmdId success, true =>
      match sql.equals cmdId with
      | some equals => CommandLog.ackWhere (String.ofList hubId) equals success m.now
      | none => id
  | _, _ => id

/-- The row that a message adds to the reports, but for its id. -/
def Message.saved (py : Pydantic) (m : Message) : Option (Nat → SensorReportRecord) :=
  match m.handled, m.ok with
  | .report hubId data, true =>
      (fromMqttPayload py hubId data m.now).bind fun report =>
        if report.Bindable then some (report.row m.now) else none
  | _, _ => none

section

variable {py : Pydantic} {sql : Sqlite} {s t : Subscriber} {m : Message} {hub : String}

theorem CommandLog.hubId_ackWhere (hubId : String) (cmdId : Int → Bool) (success : Bool) (now : String)
    (log : CommandLog) : (log.ackWhere hubId cmdId success now).hubId = log.hubId := by
  unfold CommandLog.ackWhere
  split_ifs <;> rfl

theorem CommandLog.follows_ackWhere (hubId : String) (cmdId : Int → Bool) (success : Bool)
    (now : String) (log : CommandLog) : log.Follows (log.ackWhere hubId cmdId success now) := by
  unfold CommandLog.ackWhere
  split_ifs with h
  · exact ⟨rfl, rfl, rfl, rfl, rfl, rfl, .inr ⟨h.2.2, ackStatus_ne_pending success⟩⟩
  · exact .refl log

theorem hubId_of_splitOn {first hubId last : List Char} (h : m.topic.splitOn '/' = [first, hubId, last]) :
    m.hubId = some (String.ofList hubId) := by
  rw [Message.hubId, h]

theorem hubId_of_processAck {hubId : List Char} {cmdId : Json} {success : Bool}
    (h : m.handled = .processAck hubId cmdId success) : m.hubId = some (String.ofList hubId) := by
  unfold Message.handled at h
  split at h
  · unfold handleMessage at h
    split at h
    · next htopic =>
        rw [hubId_of_splitOn htopic]
        split at h
        · split_ifs at h
          rw [(Handled.processAck.inj h).1]
        · cases h
    · cases h
  · cases h

theorem hubId_of_report {hubId : List Char} {data : List (String × Json)}
    (h : m.handled = .report hubId data) : m.hubId = some (String.ofList hubId) := by
  unfold Message.handled at h
  split at h
  · unfold handleMessage at h
    split at h
    · next htopic =>
        rw [hubId_of_splitOn htopic]
        split at h
        · split_ifs at h
          rw [(Handled.report.inj h).1]
        · cases h
    · cases h
  · cases h

theorem onMessage_eq (s : Subscriber) (py : Pydantic) (sql : Sqlite) (m : Message) :
    s.onMessage py sql m = { s with
      logs := s.logs.map (m.ackRow sql)
      reports := s.reports ++
        ((m.saved py).map fun row => row (nextId SensorReportRecord.id s.reports)).toList } := by
  unfold Subscriber.onMessage Message.ackRow Message.saved
  split
  · next hubId cmdId success hm hok =>
      simp only [hm, hok, Subscriber.processAck]
      split <;> simp
  · next hubId data hm hok =>
      simp only [hm, hok, Subscriber.processReport]
      cases hr : fromMqttPayload py hubId data m.now with
      | none => simp
      | some report =>
          by_cases hb : report.Bindable <;> simp [saveReport, hb]
  · next hack hreport =>
      split
      · next hm hok => exact absurd hok (hack _ _ _ hm)
      · split
        · next hm hok => exact absurd hok (hreport _ _ hm)
        · simp

theorem ackRow_cases (sql : Sqlite) (m : Message) : m.ackRow sql = id ∨
    ∃ hubId equals success, m.hubId = some hubId ∧
      m.ackRow sql = CommandLog.ackWhere hubId equals success m.now := by
  unfold Message.ackRow
  split
  · next hm _ =>
      split
      · exact .inr ⟨_, _, _, hubId_of_processAck hm, rfl⟩
      · exact .inl rfl
  · exact .inl rfl

theorem hubId_ackRow (sql : Sqlite) (m : Message) (log : CommandLog) :
    (m.ackRow sql log).hubId = log.hubId := by
  obtain h | ⟨hubId, equals, success, _, h⟩ := ackRow_cases sql m
  · rw [h]
    rfl
  · rw [h, CommandLog.hubId_ackWhere]

theorem follows_ackRow (sql : Sqlite) (m : Message) (log : CommandLog) :
    log.Follows (m.ackRow sql log) := by
  obtain h | ⟨hubId, equals, success, _, h⟩ := ackRow_cases sql m
  · rw [h]
    exact .refl log
  · rw [h]
    exact log.follows_ackWhere hubId equals success m.now

theorem ackRow_of_ne {log : CommandLog} (h : m.hubId ≠ some log.hubId) : m.ackRow sql log = log := by
  obtain hid | ⟨hubId, equals, success, hm, hack⟩ := ackRow_cases sql m
  · rw [hid]
    rfl
  · rw [hack, CommandLog.ackWhere, if_neg]
    rintro ⟨rfl, _⟩
    exact h hm

/-- The report that a message adds is one of the hub whose topic it came on. -/
theorem hubId_of_saved {row : Nat → SensorReportRecord} (h : m.saved py = some row) (n : Nat) :
    m.hubId = some (row n).hubId := by
  unfold Message.saved at h
  split at h
  · next hm _ =>
      obtain ⟨report, hreport, hrow⟩ := Option.bind_eq_some_iff.mp h
      split_ifs at hrow
      obtain rfl := Option.some.inj hrow
      rw [hubId_of_report hm]
      simp only [fromMqttPayload, Option.bind_eq_bind, Option.bind_eq_some_iff] at hreport
      obtain ⟨_, _, _, _, _, _, _, _, _, _, _, _, _, _, _, _, _, _, _, _, hreport⟩ := hreport
      rw [← Option.some.inj hreport]
      rfl
  · cases h

theorem report_of_saved {row : Nat → SensorReportRecord} (h : m.saved py = some row) (n k : Nat) :
    (row n).report = (row k).report ∧ (row n).id = n := by
  unfold Message.saved at h
  split at h
  · obtain ⟨report, _, hrow⟩ := Option.bind_eq_some_iff.mp h
    split_ifs at hrow
    exact Option.some.inj hrow ▸ ⟨rfl, rfl⟩
  · cases h

theorem logs_part_onMessage (s : Subscriber) :
    ((s.onMessage py sql m).part hub).logs = (s.part hub).logs.map (m.ackRow sql) := by
  rw [onMessage_eq]
  simp only [Subscriber.part, List.filter_map, Function.comp_def, hubId_ackRow]

theorem reports_part_onMessage (s : Subscriber) :
    ((s.onMessage py sql m).part hub).reports = (s.part hub).reports ++
      (((m.saved py).map fun row => row 0).toList.filter fun row => row.hubId = hub).map
        SensorReportRecord.report := by
  rw [onMessage_eq]
  cases hsaved : m.saved py with
  | none => simp [Subscriber.part]
  | some row =>
      have hreport := (report_of_saved hsaved (nextId SensorReportRecord.id s.reports) 0).1
      have hhub : (row (nextId SensorReportRecord.id s.reports)).hubId = (row 0).hubId :=
        congrArg SensorReport.hubId hreport
      by_cases h : (row 0).hubId = hub <;> simp [Subscriber.part, hhub, h, hreport]

theorem listening_onMessage (s : Subscriber) : (s.onMessage py sql m).listening = s.listening := by
  rw [onMessage_eq]

/-- A message of another hub leaves the hub's part of the tables as it is. -/
theorem part_onMessage_of_ne (h : m.hubId ≠ some hub) (s : Subscriber) :
    (s.onMessage py sql m).part hub = s.part hub := by
  have hlogs : (s.part hub).logs.map (m.ackRow sql) = (s.part hub).logs := by
    refine (List.map_congr_left fun log hlog => ?_).trans (List.map_id _)
    have hhub : log.hubId = hub := by simpa using List.of_mem_filter hlog
    exact ackRow_of_ne (hhub ▸ h)
  have hreports : ((m.saved py).map fun row => row 0).toList.filter (fun row => row.hubId = hub) = [] := by
    cases hsaved : m.saved py with
    | none => rfl
    | some row =>
        have hne : (row 0).hubId ≠ hub := fun he => h (he ▸ hubId_of_saved hsaved 0)
        simp [hne]
  apply HubPart.ext
  · exact listening_onMessage s
  · rw [logs_part_onMessage, hlogs]
  · rw [reports_part_onMessage, hreports, List.map_nil, List.append_nil]

/-- What a message makes of the hub's part depends on that part alone. -/
theorem part_onMessage_congr {s s' : Subscriber} (h : s'.part hub = s.part hub) :
    (s'.onMessage py sql m).part hub = (s.onMessage py sql m).part hub := by
  apply HubPart.ext
  · exact (listening_onMessage s').trans ((congrArg HubPart.listening h).trans (listening_onMessage s).symm)
  · rw [logs_part_onMessage, logs_part_onMessage, h]
  · rw [reports_part_onMessage, reports_part_onMessage, h]

theorem getD_saveCommandLog (logs : List CommandLog) (log : CommandLog) :
    (saveCommandLog logs log).getD logs = logs ++ if Storable log.cmdId then [log] else [] := by
  unfold saveCommandLog
  split_ifs <;> simp

theorem part_of_other {a : SubscriberAction} (ha : a.concerns hub = false)
    (h : subscriberStep py sql s a = some t) : t.part hub = s.part hub := by
  cases a with
  | connect _ | lost => cases ha
  | message m =>
      have hm : m.hubId ≠ some hub := of_decide_eq_false ha
      obtain rfl := Option.some.inj h
      split_ifs
      · exact part_onMessage_of_ne hm s
      · rfl
  | saveCommandLog hubId cmd now =>
      have hhub : (cmd.log hubId now).hubId ≠ hub := of_decide_eq_false ha
      obtain rfl := Option.some.inj h
      refine HubPart.ext rfl ?_ rfl
      simp only [Subscriber.part, getD_saveCommandLog, List.filter_append]
      split_ifs <;> simp [hhub]

theorem part_of_own {s' : Subscriber} {a : SubscriberAction} (hpart : s'.part hub = s.part hub)
    (h : subscriberStep py sql s a = some t) :
    ∃ t', subscriberStep py sql s' a = some t' ∧ t'.part hub = t.part hub := by
  have hlistening : s'.listening = s.listening := congrArg HubPart.listening hpart
  have hlogs := congrArg HubPart.logs hpart
  have hreports := congrArg HubPart.reports hpart
  cases a with
  | connect ok =>
      refine ⟨_, rfl, ?_⟩
      obtain rfl := Option.some.inj h
      exact HubPart.ext (congrArg (· || ok) hlistening) hlogs hreports
  | lost =>
      refine ⟨_, rfl, ?_⟩
      obtain rfl := Option.some.inj h
      exact HubPart.ext rfl hlogs hreports
  | message m =>
      refine ⟨_, rfl, ?_⟩
      obtain rfl := Option.some.inj h
      rw [hlistening]
      split_ifs
      · exact part_onMessage_congr hpart
      · exact hpart
  | saveCommandLog hubId cmd now =>
      refine ⟨_, rfl, ?_⟩
      obtain rfl := Option.some.inj h
      refine HubPart.ext hlistening ?_ hreports
      simp only [Subscriber.part, getD_saveCommandLog, List.filter_append] at hlogs ⊢
      rw [hlogs]

end

theorem exec_subscriberStep (py : Pydantic) (sql : Sqlite) (s : Subscriber)
    (as : List SubscriberAction) : ∃ t, exec (subscriberStep py sql) s as = some t := by
  induction as generalizing s with
  | nil => exact ⟨s, rfl⟩
  | cons a as ih =>
      obtain ⟨u, hu⟩ : ∃ u, subscriberStep py sql s a = some u := by cases a <;> exact ⟨_, rfl⟩
      obtain ⟨t, ht⟩ := ih u
      exact ⟨t, exec_cons_eq_some.mpr ⟨u, hu, ht⟩⟩

/-- What the tables say about a hub is the work of its own messages and commands: every run comes to
the same as the one without the messages and commands of all other hubs. -/
theorem part_of_exec (py : Pydantic) (sql : Sqlite) (hub : String) (s : Subscriber)
    (as : List SubscriberAction) :
    (exec (subscriberStep py sql) s as).map (Subscriber.part hub) =
      (exec (subscriberStep py sql) s (as.filter (SubscriberAction.concerns hub))).map
        (Subscriber.part hub) := by
  have hother : ∀ s a t, a.concerns hub = false → subscriberStep py sql s a = some t →
      t.part hub = s.part hub := fun _ _ _ ha => part_of_other ha
  have hown : ∀ s s' a t, a.concerns hub = true → s'.part hub = s.part hub →
      subscriberStep py sql s a = some t →
      ∃ t', subscriberStep py sql s' a = some t' ∧ t'.part hub = t.part hub :=
    fun _ _ _ _ _ hpart => part_of_own hpart
  obtain ⟨t, ht⟩ := exec_subscriberStep py sql s as
  obtain ⟨t', ht', hpart⟩ := exec_filter hother hown rfl ht
  rw [ht, ht', Option.map_some, Option.map_some, hpart]

/-- What holds of the tables wherever the loop has come to, for everything that may still arrive. -/
structure WellKept (py : Pydantic) (sql : Sqlite) (s : Subscriber) : Prop where
  numbered : Numbered SensorReportRecord.id s.reports
  dated : ∀ log ∈ s.logs, log.Dated
  reports : ∀ as t, exec (subscriberStep py sql) s as = some t → s.reports <+: t.reports
  logs : ∀ as t, exec (subscriberStep py sql) s as = some t → Grows CommandLog.Follows s.logs t.logs

def Subscriber.Sound (s : Subscriber) : Prop :=
  Numbered SensorReportRecord.id s.reports ∧ ∀ log ∈ s.logs, log.Dated

section

variable {py : Pydantic} {sql : Sqlite} {s t : Subscriber} {a : SubscriberAction}

/-- What a step does to the tables. -/
theorem tables_of_subscriberStep (h : subscriberStep py sql s a = some t) :
    t.logs = s.logs ∧ t.reports = s.reports ∨
    (∃ m : Message, t.logs = s.logs.map (m.ackRow sql) ∧ t.reports = s.reports ++
      ((m.saved py).map fun row => row (nextId SensorReportRecord.id s.reports)).toList) ∨
    ∃ log : CommandLog, log.status = .pending ∧ log.ackedAt = none ∧ t.logs = s.logs ++ [log] ∧
      t.reports = s.reports := by
  cases a with
  | connect ok | lost => exact .inl (Option.some.inj h ▸ ⟨rfl, rfl⟩)
  | message m =>
      obtain rfl := Option.some.inj h
      split_ifs
      · right; left
        rw [onMessage_eq]
        exact ⟨m, rfl, rfl⟩
      · exact .inl ⟨rfl, rfl⟩
  | saveCommandLog hubId cmd now =>
      obtain rfl := Option.some.inj h
      rw [getD_saveCommandLog]
      split_ifs
      · exact .inr (.inr ⟨_, rfl, rfl, rfl, rfl⟩)
      · exact .inl ⟨List.append_nil _, rfl⟩

theorem prefix_of_exec {as : List SubscriberAction} (h : exec (subscriberStep py sql) s as = some t) :
    s.reports <+: t.reports := by
  induction as generalizing s with
  | nil => exact Option.some.inj h ▸ List.prefix_rfl
  | cons a as ih =>
      obtain ⟨u, hu, ht⟩ := exec_cons_eq_some.mp h
      refine List.IsPrefix.trans ?_ (ih ht)
      obtain ⟨_, hreports⟩ | ⟨m, _, hreports⟩ | ⟨_, _, _, _, hreports⟩ := tables_of_subscriberStep hu
      · exact hreports ▸ List.prefix_rfl
      · exact hreports ▸ List.prefix_append _ _
      · exact hreports ▸ List.prefix_rfl

theorem grows_logs_of_exec {as : List SubscriberAction} (h : exec (subscriberStep py sql) s as = some t) :
    Grows CommandLog.Follows s.logs t.logs := by
  induction as generalizing s with
  | nil => exact Option.some.inj h ▸ .refl .refl _
  | cons a as ih =>
      obtain ⟨u, hu, ht⟩ := exec_cons_eq_some.mp h
      refine Grows.trans .trans ?_ (ih ht)
      obtain ⟨hlogs, _⟩ | ⟨m, hlogs, _⟩ | ⟨log, _, _, hlogs, _⟩ := tables_of_subscriberStep hu
      · exact hlogs ▸ .refl .refl _
      · exact hlogs ▸ .map fun log _ => follows_ackRow sql m log
      · exact hlogs ▸ .append .refl _ _

theorem dated_ackRow {log : CommandLog} (hlog : log.Dated) (m : Message) : (m.ackRow sql log).Dated := by
  obtain h | ⟨hubId, equals, success, _, h⟩ := ackRow_cases sql m
  · rwa [h]
  · rw [h]
    unfold CommandLog.ackWhere
    split_ifs
    · simp [CommandLog.Dated]
    · exact hlog

theorem sound_subscriberStep (hs : s.Sound) (h : subscriberStep py sql s a = some t) : t.Sound := by
  obtain ⟨hnum, hdated⟩ := hs
  obtain ⟨hlogs, hreports⟩ | ⟨m, hlogs, hreports⟩ | ⟨new, hpending, hacked, hlogs, hreports⟩ :=
    tables_of_subscriberStep h <;> rw [Subscriber.Sound, hlogs, hreports]
  · exact ⟨hnum, hdated⟩
  · constructor
    · cases hsaved : m.saved py with
      | none => simpa using hnum
      | some row =>
          refine hnum.append ?_
          rw [(report_of_saved hsaved _ 0).2, hnum.nextId]
    · intro log hlog
      obtain ⟨old, hold, rfl⟩ := List.mem_map.mp hlog
      exact dated_ackRow (hdated old hold) m
  · refine ⟨hnum, ?_⟩
    intro log hlog
    rcases List.mem_append.mp hlog with hlog | hlog
    · exact hdated log hlog
    · rw [List.mem_singleton.mp hlog]
      exact ⟨fun _ => hpending, fun _ => hacked⟩

end

/-- Whatever arrives on the topics, readable or not, no saved report is changed or removed, and no
command's row is settled twice or becomes another's. -/
theorem always_wellKept (py : Pydantic) (sql : Sqlite) (as : List SubscriberAction) :
    Always (subscriberStep py sql) (WellKept py sql) Subscriber.init as := by
  have hinit : Subscriber.init.Sound := ⟨rfl, fun _ hlog => absurd hlog List.not_mem_nil⟩
  refine always_of_invariant (fun _ _ _ => sound_subscriberStep) (fun s hs => ?_) hinit
  exact ⟨hs.1, hs.2, fun _ _ => prefix_of_exec, fun _ _ => grows_logs_of_exec⟩

end Tempio.Server
