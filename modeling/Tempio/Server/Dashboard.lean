import Mathlib.Data.List.Forall2
import Tempio.Server.ReportStore

namespace Tempio.Server

open Tempio.Lib Tempio.Lib.Table Tempio.Lib.Transition

/-- A row of `command_logs` as `get_command_logs` gives it, with its place, counted from 1, as id. -/
def commandRows (logs : List CommandLog) (hubId : String) : List (Nat × CommandLog) :=
  (logs.mapIdx fun i log => (i + 1, log)).filter fun row => row.2.hubId = hubId

def getCommandLogs (logs : List CommandLog) (hubId : String) (n : Int) : Option (List (Nat × CommandLog)) :=
  if Storable n then some (limit n (orderByIdDesc Prod.fst (commandRows logs hubId))) else none

/-- What the page is rendered from. -/
structure Page where
  hub : Option SensorReport
  hubId : String
  sensors : String → Option SensorReportRecord
  sensorHistory : List SensorReportRecord
  commandLogs : List (Nat × CommandLog)

/-- The four queries of the page are transactions of their own, and the server goes on between them. -/
def dashboard (plan : QueryPlan) (atHub atSensors atHistory atLogs : Backend) : Option Page := do
  let hub := getLatestReport atHub.reports
  let sensors := getLatestByNode plan atSensors.reports
  let history ← getReports atHistory.reports 30
  let hubId := (hub.map SensorReport.hubId).getD ""
  let logs ← if hubId ≠ "" then getCommandLogs atLogs.service.logs hubId 20 else some []
  some ⟨hub, hubId, sensors, history, logs⟩

/-- What a page shows, whatever has happened between its queries. -/
structure Coherent (page : Page) : Prop where
  listed : ∀ hub, page.hub = some hub → ∃ row, page.sensors hub.nodeId = some row
  recent : ∀ node row, page.sensors node = some row → row ∈ page.sensorHistory ∨
    page.sensorHistory.length = 30 ∧ ∀ later ∈ page.sensorHistory, row.id < later.id
  oldestFirst : Increasing SensorReportRecord.id page.sensorHistory
  ownLogs : ∀ row ∈ page.commandLogs, row.2.hubId = page.hubId
  newestFirst : page.commandLogs.Pairwise fun later row => row.1 < later.1
  lengths : page.sensorHistory.length ≤ 30 ∧ page.commandLogs.length ≤ 20

/-- The rows of the same command at two times. -/
def SameRow (a b : Nat × CommandLog) : Prop := a.1 = b.1 ∧ a.2.Follows b.2

/-- The command history of a hub at two times. -/
structure HistoryGrows (hubId : String) (logs logs' : List CommandLog)
    (new old : List (Nat × CommandLog)) : Prop where
  now : ∀ n : Nat, Storable n → getCommandLogs logs' hubId n = some ((new ++ old).take n)
  all : getCommandLogs logs' hubId (-1) = some (new ++ old)
  before : ∃ rows, getCommandLogs logs hubId (-1) = some rows ∧ List.Forall₂ SameRow rows old
  added : ∀ row ∈ new, logs.length < row.1 ∧ row.2.hubId = hubId
  newestFirst : (new ++ old).Pairwise fun later row => row.1 < later.1

section

variable {logs logs' : List CommandLog} {hubId : String}

theorem numbered_mapIdx (logs : List CommandLog) :
    Numbered Prod.fst (logs.mapIdx fun i log => (i + 1, log)) := by
  induction logs using List.reverseRecOn with
  | nil => rfl
  | append_singleton logs log ih =>
      rw [List.mapIdx_append, List.mapIdx_singleton]
      exact ih.append (by simp)

theorem increasing_commandRows (logs : List CommandLog) (hubId : String) :
    Increasing Prod.fst (commandRows logs hubId) :=
  (numbered_mapIdx logs).increasing.filter _

theorem getCommandLogs_eq {n : Int} (hn : Storable n) :
    getCommandLogs logs hubId n = some (limit n (commandRows logs hubId).reverse) := by
  rw [getCommandLogs, if_pos hn, (increasing_commandRows logs hubId).orderByIdDesc]

/-- The rows of a log that has grown are the old ones in their places, and new ones behind them. -/
theorem commandRows_of_grows (h : Grows CommandLog.Follows logs logs') (hubId : String) :
    ∃ old new, commandRows logs' hubId = old ++ new ∧
      List.Forall₂ SameRow (commandRows logs hubId) old ∧ ∀ row ∈ new, logs.length < row.1 := by
  have hlen : (logs'.take logs.length).length = logs.length :=
    List.length_take_of_le h.length_le
  refine ⟨commandRows (logs'.take logs.length) hubId,
    ((logs'.drop logs.length).mapIdx fun i log => (i + logs.length + 1, log)).filter fun row =>
      row.2.hubId = hubId, ?_, ?_, ?_⟩
  · conv_lhs => rw [← List.take_append_drop logs.length logs']
    simp only [commandRows, List.mapIdx_append, List.filter_append, hlen]
  · have hrows : List.Forall₂ SameRow (logs.mapIdx fun i log => (i + 1, log))
        ((logs'.take logs.length).mapIdx fun i log => (i + 1, log)) := by
      rw [List.forall₂_iff_get]
      refine ⟨by simp [hlen], fun i hi hi' => ?_⟩
      rw [List.length_mapIdx] at hi
      obtain ⟨log', hlog', hfollows⟩ := h i logs[i] (List.getElem?_eq_getElem hi)
      obtain ⟨_, rfl⟩ := List.getElem?_eq_some_iff.mp hlog'
      simpa [SameRow] using hfollows
    refine List.rel_filter ?_ hrows
    rintro a b ⟨_, hfollows⟩
    simp [hfollows.hubId]
  · intro row hrow
    obtain ⟨i, hi, rfl⟩ := List.mem_mapIdx.mp (List.mem_of_mem_filter hrow)
    simp only
    omega

theorem hubId_of_mem_commandRows {row : Nat × CommandLog} (h : row ∈ commandRows logs hubId) :
    row.2.hubId = hubId := by
  simpa using List.of_mem_filter h

theorem limit_neg_one (rows : List (Nat × CommandLog)) : limit (-1) rows = rows := if_pos (by decide)

theorem limit_natCast (n : Nat) (rows : List (Nat × CommandLog)) : limit n rows = rows.take n := by
  rw [limit, if_neg (by omega), Int.toNat_natCast]

theorem newestFirst_commandRows (logs : List CommandLog) (hubId : String) :
    (commandRows logs hubId).reverse.Pairwise fun later row => row.1 < later.1 :=
  List.pairwise_reverse.mpr (increasing_commandRows logs hubId)

theorem historyGrows_of_grows (h : Grows CommandLog.Follows logs logs') (hubId : String) :
    ∃ new old, HistoryGrows hubId logs logs' new old := by
  obtain ⟨old, new, hrows, hsame, hnew⟩ := commandRows_of_grows h hubId
  have hreverse : (commandRows logs' hubId).reverse = new.reverse ++ old.reverse := by
    rw [hrows, List.reverse_append]
  refine ⟨new.reverse, old.reverse, ⟨fun n hn => ?_, ?_, ⟨_, ?_, List.rel_reverse hsame⟩, ?_, ?_⟩⟩
  · rw [getCommandLogs_eq hn, limit_natCast, hreverse]
  · rw [getCommandLogs_eq (by decide), limit_neg_one, hreverse]
  · rw [getCommandLogs_eq (by decide), limit_neg_one]
  · intro row hrow
    have hmem := List.mem_reverse.mp hrow
    exact ⟨hnew row hmem, hubId_of_mem_commandRows (hrows ▸ List.mem_append_right old hmem)⟩
  · rw [← hreverse]
    exact newestFirst_commandRows logs' hubId

end

section

variable {s t : Backend}

theorem grows_of_backendStep {a : BackendAction} (h : backendStep s a = some t) :
    Grows CommandLog.Follows s.service.logs t.service.logs := by
  cases a with
  | service a =>
      obtain ⟨service, hs, rfl⟩ := Option.map_eq_some_iff.mp h
      exact grows_of_logStep hs
  | processReport report ok now =>
      obtain rfl := Option.some.inj h
      have hsame : (s.processReport report ok now).service = s.service := by
        unfold Backend.processReport
        split <;> rfl
      rw [hsame]
      exact .refl .refl _

theorem grows_of_backendExec {as : List BackendAction} (h : exec backendStep s as = some t) :
    Grows CommandLog.Follows s.service.logs t.service.logs := by
  induction as generalizing s with
  | nil => exact Option.some.inj h ▸ .refl .refl _
  | cons a as ih =>
      obtain ⟨u, hu, ht⟩ := exec_cons_eq_some.mp h
      exact (grows_of_backendStep hu).trans .trans (ih ht)

theorem prefix_of_backendExec {as : List BackendAction} (h : exec backendStep s as = some t) :
    s.reports <+: t.reports := by
  induction as generalizing s with
  | nil => exact Option.some.inj h ▸ List.prefix_rfl
  | cons a as ih =>
      obtain ⟨u, hu, ht⟩ := exec_cons_eq_some.mp h
      exact (reports_of_backendStep hu ▸ List.prefix_append _ _).trans (ih ht)

end

/-- The history of a hub's commands only grows at its newest end, while its rows follow the life of
their commands. -/
theorem historyGrows_of_exec {s t : Backend} {as : List BackendAction}
    (h : exec backendStep s as = some t) (hubId : String) :
    ∃ new old, HistoryGrows hubId s.service.logs t.service.logs new old :=
  historyGrows_of_grows (grows_of_backendExec h) hubId

/-- A command is sent and logged, and acknowledged. -/
def oneCommand : List BackendAction :=
  [.service (.serve (.sendCommand "24a1605b3c10" [⟨"aa", "TEST", .obj [], 0⟩] true false "10:00")),
    .service (.serve (.saveLog 0 true)), .service (.serve (.processAck 0 1 true "10:01"))]

theorem historyGrows_oneCommand : ∃ t, exec backendStep Backend.init oneCommand = some t ∧
    ∃ new old, HistoryGrows "24a1605b3c10" Backend.init.service.logs t.service.logs new old := by
  obtain ⟨t, ht⟩ : ∃ t, exec backendStep Backend.init oneCommand = some t := ⟨_, rfl⟩
  exact ⟨t, ht, historyGrows_of_exec ht "24a1605b3c10"⟩

/-- The tables as the four queries of a page find them, one after the other. -/
structure Visit where
  before : List BackendAction
  first : List BackendAction
  second : List BackendAction
  third : List BackendAction

/-- The page of a visit; `none` when an action of the visit is not enabled. -/
def Visit.page (plan : QueryPlan) (v : Visit) : Option Page := do
  let atHub ← exec backendStep Backend.init v.before
  let atSensors ← exec backendStep atHub v.first
  let atHistory ← exec backendStep atSensors v.second
  let atLogs ← exec backendStep atHistory v.third
  dashboard plan atHub atSensors atHistory atLogs

section

variable {plan : QueryPlan} {atHub atSensors atHistory atLogs : Backend} {page : Page}

theorem dashboard_eq (h : Increasing SensorReportRecord.id atHistory.reports) :
    ∃ logs, dashboard plan atHub atSensors atHistory atLogs =
        some ⟨getLatestReport atHub.reports,
          ((getLatestReport atHub.reports).map SensorReport.hubId).getD "",
          getLatestByNode plan atSensors.reports,
          atHistory.reports.drop (atHistory.reports.length - 30), logs⟩ ∧
      (logs = [] ∨ logs = ((commandRows atLogs.service.logs
        (((getLatestReport atHub.reports).map SensorReport.hubId).getD "")).reverse.take 20)) := by
  have hreports := getReports_eq h 30 (by decide)
  rw [if_neg (by decide)] at hreports
  have hlogs (hubId : String) : getCommandLogs atLogs.service.logs hubId 20 =
      some (limit 20 (commandRows atLogs.service.logs hubId).reverse) :=
    getCommandLogs_eq (by decide)
  simp only [dashboard, hreports, hlogs, Option.bind_eq_bind, Option.bind_some]
  split_ifs
  · exact ⟨_, rfl, .inr rfl⟩
  · exact ⟨_, rfl, .inl rfl⟩

theorem coherent_dashboard (hinc : Increasing SensorReportRecord.id atHistory.reports)
    (hfirst : atHub.reports <+: atSensors.reports) (hsecond : atSensors.reports <+: atHistory.reports)
    (h : dashboard plan atHub atSensors atHistory atLogs = some page) : Coherent page := by
  have hincSensors : Increasing SensorReportRecord.id atSensors.reports := hinc.sublist hsecond.sublist
  have hincHub : Increasing SensorReportRecord.id atHub.reports := hincSensors.sublist hfirst.sublist
  obtain ⟨logs, hpage, hlogs⟩ := dashboard_eq hinc
  obtain rfl := Option.some.inj (hpage.symm.trans h)
  have hnewest := newestFirst_commandRows atLogs.service.logs
    (((getLatestReport atHub.reports).map SensorReport.hubId).getD "")
  refine ⟨?_, ?_, ?_, ?_, ?_, ?_, ?_⟩
  · intro hub hhub
    rw [getLatestReport_eq hincHub] at hhub
    obtain ⟨row, hrow, rfl⟩ := Option.map_eq_some_iff.mp hhub
    rw [getLatestByNode_eq plan hincSensors]
    apply Option.ne_none_iff_exists'.mp
    rw [latest_ne_none_iff]
    exact List.mem_map_of_mem (hfirst.subset (List.mem_of_getLast? hrow))
  · intro node row hrow
    rw [getLatestByNode_eq plan hincSensors] at hrow
    exact hinc.mem_drop_or (hsecond.subset (mem_of_latest hrow)) 30
  · exact hinc.sublist (List.drop_sublist _ _)
  · rcases hlogs with rfl | rfl
    · simp
    · intro row hrow
      exact hubId_of_mem_commandRows (List.mem_reverse.mp (List.mem_of_mem_take hrow))
  · rcases hlogs with rfl | rfl
    · exact List.Pairwise.nil
    · exact hnewest.sublist (List.take_sublist _ _)
  · rw [List.length_drop]
    omega
  · rcases hlogs with rfl | rfl
    · simp
    · exact List.length_take_le _ _

end

/-- A page is never older in what it queries later: the hub's node is among the sensors, and what is
known of a sensor is in the history or has left it. -/
theorem coherent_page (plan : QueryPlan) (v : Visit) (page : Page) (h : v.page plan = some page) :
    Coherent page := by
  simp only [Visit.page, Option.bind_eq_bind, Option.bind_eq_some_iff] at h
  obtain ⟨atHub, hhub, atSensors, hsensors, atHistory, hhistory, atLogs, _, hpage⟩ := h
  have hall : exec backendStep Backend.init (v.before ++ v.first ++ v.second) = some atHistory := by
    rw [exec_append, exec_append, hhub, Option.bind_some, hsensors, Option.bind_some, hhistory]
  have hnum := numbered_savedRows (v.before ++ v.first ++ v.second)
  rw [← reports_of_exec hall] at hnum
  exact coherent_dashboard hnum.increasing (prefix_of_backendExec hsensors) (prefix_of_backendExec hhistory)
    hpage

/-- A node reports for the first time between the first two queries. -/
def busyVisit : Visit := ⟨twoNodes.take 1, twoNodes.drop 1, [], []⟩

theorem coherent_busyVisit : ∃ page, busyVisit.page tableOrder = some page ∧ Coherent page :=
  ⟨_, rfl, coherent_page tableOrder busyVisit _ rfl⟩

end Tempio.Server
