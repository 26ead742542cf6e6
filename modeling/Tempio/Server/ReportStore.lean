import Tempio.Lib.Table
import Tempio.Server.LogLifeCycle
import Tempio.Server.Reports

namespace Tempio.Server

open Tempio.Lib Tempio.Lib.Table Tempio.Lib.Transition

/-- What a REAL column gives back: NaN is stored as NULL, and zero loses its sign. -/
def PyFloat.column : PyFloat → Option PyFloat
  | .nan => none
  | .inf neg => some (.inf neg)
  | .num neg q => some (.num (neg && decide (q ≠ 0)) q)

/-- A row of `sensor_reports`. -/
structure SensorReportRecord where
  id : Nat
  hubId : String
  nodeId : String
  nodeType : String
  temperature : Option PyFloat
  humidity : Option PyFloat
  lux : Option PyFloat
  batteryVoltage : Option PyFloat
  bleRssi : Option Int
  wifiRssi : Option Int
  freeHeap : Option Int
  uptimeMs : Option Int
  timestamp : String
deriving DecidableEq

namespace SensorReport

/-- The values for INTEGER columns. -/
def ints (r : SensorReport) : List Int := [r.bleRssi, r.wifiRssi, r.freeHeap, r.uptimeMs].reduceOption

def Bindable (r : SensorReport) : Prop := ∀ n ∈ r.ints, Storable n

instance decidableBindable (r : SensorReport) : Decidable r.Bindable :=
  inferInstanceAs (Decidable (∀ n ∈ r.ints, Storable n))

def row (r : SensorReport) (now : String) (id : Nat) : SensorReportRecord where
  id := id
  hubId := r.hubId
  nodeId := r.nodeId
  nodeType := r.nodeType
  temperature := r.temperature.bind PyFloat.column
  humidity := r.humidity.bind PyFloat.column
  lux := r.lux.bind PyFloat.column
  batteryVoltage := r.batteryVoltage.bind PyFloat.column
  bleRssi := r.bleRssi
  wifiRssi := r.wifiRssi
  freeHeap := r.freeHeap
  uptimeMs := r.uptimeMs
  timestamp := r.timestamp.getD now

end SensorReport

def SensorReportRecord.report (r : SensorReportRecord) : SensorReport where
  hubId := r.hubId
  nodeId := r.nodeId
  nodeType := r.nodeType
  temperature := r.temperature
  humidity := r.humidity
  lux := r.lux
  batteryVoltage := r.batteryVoltage
  bleRssi := r.bleRssi
  wifiRssi := r.wifiRssi
  freeHeap := r.freeHeap
  uptimeMs := r.uptimeMs
  timestamp := some r.timestamp

/-- `none` is an `OverflowError`. -/
def saveReport (rows : List SensorReportRecord) (report : SensorReport) (now : String) :
    Option (List SensorReportRecord) :=
  if report.Bindable then
    some (rows ++ [report.row now (nextId SensorReportRecord.id rows)])
  else none

def getReports (rows : List SensorReportRecord) (n : Int) : Option (List SensorReportRecord) :=
  if Storable n then some (limit n (orderByIdDesc SensorReportRecord.id rows)).reverse else none

def getLatestReport (rows : List SensorReportRecord) : Option SensorReport :=
  (limit 1 (orderByIdDesc SensorReportRecord.id rows)).head?.map SensorReportRecord.report

/-- In which order the database gives the rows of a query without ORDER BY. -/
structure QueryPlan where
  order : List SensorReportRecord → List SensorReportRecord
  perm : ∀ rows, (order rows).Perm rows

def getLatestByNode (plan : QueryPlan) (rows : List SensorReportRecord) :
    String → Option SensorReportRecord :=
  dict ((plan.order (joinMaxIds SensorReportRecord.id SensorReportRecord.nodeId rows)).map fun row =>
    (row.nodeId, row))

/-- The tables of the database, with what `SensorService` holds beside them. -/
structure Backend where
  service : Service
  reports : List SensorReportRecord

def Backend.init : Backend := ⟨Service.init, []⟩

/-- `ok` is false when the database refuses the insert for a reason of its own. -/
inductive BackendAction
  | service (a : LogAction)
  | processReport (report : SensorReport) (ok : Bool) (now : String)

def Backend.processReport (s : Backend) (report : SensorReport) (ok : Bool) (now : String) : Backend :=
  match saveReport s.reports report now, ok with
  | some reports, true => { s with reports := reports }
  | _, _ => s

def backendStep (s : Backend) : BackendAction → Option Backend
  | .service a => (logStep s.service a).map fun service => { s with service := service }
  | .processReport report ok now => some (s.processReport report ok now)

/-- The row that an action of a run adds, but for its id. -/
def BackendAction.saved : BackendAction → Option (Nat → SensorReportRecord)
  | .processReport report true now => if report.Bindable then some (report.row now) else none
  | _ => none

/-- The rows that a run has saved, numbered from 1. -/
def savedRows (as : List BackendAction) : List SensorReportRecord :=
  number (as.filterMap BackendAction.saved)

/-- The newest row of every node, once one more row is there. -/
def addRow (found : String → Option SensorReportRecord) (row : SensorReportRecord) :
    String → Option SensorReportRecord :=
  Function.update found row.nodeId (some row)

/-- What the history shows of a table with these rows. -/
structure ShowsHistory (reports rows : List SensorReportRecord) : Prop where
  newest : ∀ n : Nat, Storable n → getReports reports n = some (rows.drop (rows.length - n))
  all : ∀ n : Int, Storable n → n < 0 → getReports reports n = some rows
  latest : getLatestReport reports = rows.getLast?.map SensorReportRecord.report
  numbered : Numbered SensorReportRecord.id rows

section

variable {s t : Backend} {a : BackendAction} {as : List BackendAction}

theorem reports_of_backendStep (h : backendStep s a = some t) :
    t.reports = s.reports ++
      (a.saved.map fun row => row (nextId SensorReportRecord.id s.reports)).toList := by
  cases a with
  | service a =>
      obtain ⟨service, _, rfl⟩ := Option.map_eq_some_iff.mp h
      exact (List.append_nil _).symm
  | processReport report ok now =>
      obtain rfl := Option.some.inj h
      by_cases hb : report.Bindable
      · cases ok with
        | true => simp only [Backend.processReport, saveReport, BackendAction.saved, if_pos hb,
            Option.map_some, Option.toList_some]
        | false => simp [Backend.processReport, saveReport, BackendAction.saved]
      · cases ok with
        | true => simp [Backend.processReport, saveReport, BackendAction.saved, if_neg hb]
        | false => simp [Backend.processReport, saveReport, BackendAction.saved, if_neg hb]

theorem id_of_saved {row : Nat → SensorReportRecord} (h : a.saved = some row) (n : Nat) :
    (row n).id = n := by
  cases a with
  | service a => cases h
  | processReport report ok now =>
      cases ok with
      | false => cases h
      | true =>
          simp only [BackendAction.saved] at h
          split_ifs at h
          exact Option.some.inj h ▸ rfl

theorem savedRows_append (as : List BackendAction) (a : BackendAction) :
    savedRows (as ++ [a]) =
      savedRows as ++ (a.saved.map fun row => row ((savedRows as).length + 1)).toList := by
  have hsaved : [a].filterMap BackendAction.saved = a.saved.toList := by
    cases hs : a.saved <;> simp [hs]
  rw [savedRows, List.filterMap_append, hsaved, number_append]
  rfl

theorem numbered_savedRows (as : List BackendAction) :
    Numbered SensorReportRecord.id (savedRows as) := by
  refine numbered_number fun row hrow n => ?_
  obtain ⟨a, _, hs⟩ := List.mem_filterMap.mp hrow
  exact id_of_saved hs n

theorem reports_of_exec (h : exec backendStep Backend.init as = some s) : s.reports = savedRows as := by
  induction as using List.reverseRecOn generalizing s with
  | nil => exact Option.some.inj h ▸ rfl
  | append_singleton as a ih =>
      rw [exec_append] at h
      obtain ⟨u, hu, hstep⟩ := Option.bind_eq_some_iff.mp h
      obtain ⟨t, ht, hend⟩ := exec_cons_eq_some.mp hstep
      obtain rfl := Option.some.inj hend
      rw [reports_of_backendStep ht, ih hu, savedRows_append, (numbered_savedRows as).nextId]

end

section

variable {rows : List SensorReportRecord}

theorem getReports_eq (h : Increasing SensorReportRecord.id rows) (n : Int) (hn : Storable n) :
    getReports rows n = some (if n < 0 then rows else rows.drop (rows.length - n.toNat)) := by
  rw [getReports, if_pos hn, h.orderByIdDesc, limit]
  split_ifs
  · rw [List.reverse_reverse]
  · rw [List.reverse_take, List.reverse_reverse, List.length_reverse]

theorem getLatestReport_eq (h : Increasing SensorReportRecord.id rows) :
    getLatestReport rows = rows.getLast?.map SensorReportRecord.report := by
  rw [getLatestReport, h.orderByIdDesc, limit, if_neg (by decide)]
  simp [List.head?_take]

theorem getLatestByNode_eq (plan : QueryPlan) (h : Increasing SensorReportRecord.id rows) :
    getLatestByNode plan rows = latest SensorReportRecord.nodeId rows :=
  dict_joinMaxIds h (plan.perm _)

end

/-- However saves, failing inserts and the rest of the server's work come one after the other, the
history is what has been saved, oldest first and cut to the newest. -/
theorem showsHistory_of_exec {as : List BackendAction} {s : Backend}
    (h : exec backendStep Backend.init as = some s) : ShowsHistory s.reports (savedRows as) := by
  have hnum := numbered_savedRows as
  rw [reports_of_exec h]
  refine ⟨fun n hn => ?_, fun n hn hneg => ?_, getLatestReport_eq hnum.increasing, hnum⟩
  · rw [getReports_eq hnum.increasing n hn, if_neg (by omega), Int.toNat_natCast]
  · rw [getReports_eq hnum.increasing n hn, if_pos hneg]

/-- Two nodes report, and the second insert of the first one fails. -/
def twoNodes : List BackendAction :=
  let report (node : String) (temperature : PyFloat) : SensorReport :=
    ⟨"24a1605b3c10", node, "sensor", some temperature, none, none, none, some (-60), none, none, none,
      some "10:00"⟩
  [.processReport (report "aa" (.num false 20)) true "10:00",
    .processReport (report "bb" .nan) true "10:01", .processReport (report "aa" .nan) false "10:02"]

theorem showsHistory_twoNodes : ∃ s, exec backendStep Backend.init twoNodes = some s ∧
    ShowsHistory s.reports (savedRows twoNodes) :=
  ⟨_, rfl, showsHistory_of_exec rfl⟩

theorem latest_eq_foldl (rows : List SensorReportRecord) :
    latest SensorReportRecord.nodeId rows =
      rows.foldl addRow fun _ => none := by
  induction rows using List.reverseRecOn with
  | nil => rfl
  | append_singleton rows row ih =>
      rw [latest_append, List.foldl_append, ih]
      rfl

/-- The join over the whole table gives the map that every saved row has updated at its node. -/
theorem getLatestByNode_of_exec (plan : QueryPlan) {as : List BackendAction} {s : Backend}
    (h : exec backendStep Backend.init as = some s) :
    getLatestByNode plan s.reports = (savedRows as).foldl addRow fun _ => none := by
  rw [reports_of_exec h, getLatestByNode_eq plan (numbered_savedRows as).increasing, latest_eq_foldl]

/-- The plan that keeps the order of the table. -/
def tableOrder : QueryPlan := ⟨id, fun _ => .refl _⟩

theorem getLatestByNode_twoNodes : ∃ s, exec backendStep Backend.init twoNodes = some s ∧
    getLatestByNode tableOrder s.reports = (savedRows twoNodes).foldl addRow fun _ => none :=
  ⟨_, rfl, getLatestByNode_of_exec tableOrder rfl⟩

end Tempio.Server
