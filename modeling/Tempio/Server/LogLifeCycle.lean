import Tempio.Lib.Growth
import Tempio.Server.Service

namespace Tempio.Server

open Tempio.Lib Tempio.Lib.Transition

/-- What can happen to the log: the server goes on, or an acknowledgement of any hub and id
is handled. -/
inductive LogAction
  | serve (a : Action)
  | processAck (hubId : String) (cmdId : Int) (success : Bool) (now : String)

def logStep (s : Service) : LogAction → Option Service
  | .serve a => step s a
  | .processAck hubId cmdId success now => some (s.processAck hubId cmdId success now)

/-- The row of one command at two times: its identity stays, and its status moves from
'pending' to a final one at most. -/
structure CommandLog.Follows (log log' : CommandLog) : Prop where
  cmdId : log'.cmdId = log.cmdId
  hubId : log'.hubId = log.hubId
  target : log'.target = log.target
  type : log'.type = log.type
  payload : log'.payload = log.payload
  createdAt : log'.createdAt = log.createdAt
  moved : log' = log ∨ log.status = .pending ∧ log'.status ≠ .pending

/-- `acked_at` is null exactly while the row is pending. -/
def CommandLog.Dated (log : CommandLog) : Prop := log.ackedAt = none ↔ log.status = .pending

/-- What holds of the log wherever a run has come to, for everything that may follow. -/
structure LifeCycle (s : Service) : Prop where
  dated : ∀ log ∈ s.logs, log.Dated
  appends : ∀ a t, logStep s a = some t → ∀ (i : Nat) log, s.logs.length ≤ i → t.logs[i]? = some log →
    log.status = .pending
  grows : ∀ as t, exec logStep s as = some t → Grows CommandLog.Follows s.logs t.logs
  others : ∀ hubId cmdId success now (i : Nat) log, s.logs[i]? = some log →
    log.hubId ≠ hubId ∨ log.cmdId ≠ cmdId ∨ log.status ≠ .pending →
      (s.processAck hubId cmdId success now).logs[i]? = some log
  repeated : ∀ hubId cmdId success now success' now',
    ((s.processAck hubId cmdId success now).processAck hubId cmdId success' now').logs =
      (s.processAck hubId cmdId success now).logs

theorem CommandLog.Follows.refl (log : CommandLog) : log.Follows log :=
  ⟨rfl, rfl, rfl, rfl, rfl, rfl, .inl rfl⟩

theorem CommandLog.Follows.trans (a b c : CommandLog) (h : a.Follows b) (h' : b.Follows c) :
    a.Follows c where
  cmdId := h'.cmdId.trans h.cmdId
  hubId := h'.hubId.trans h.hubId
  target := h'.target.trans h.target
  type := h'.type.trans h.type
  payload := h'.payload.trans h.payload
  createdAt := h'.createdAt.trans h.createdAt
  moved := by
    rcases h'.moved with heq | ⟨hb, hc⟩
    · exact heq ▸ h.moved
    · right
      refine ⟨?_, hc⟩
      rcases h.moved with heq | ⟨ha, _⟩
      · exact heq ▸ hb
      · exact ha

theorem CommandLog.follows_ack (hubId : String) (cmdId : Int) (success : Bool) (now : String)
    (log : CommandLog) : log.Follows (log.ack hubId cmdId success now) := by
  unfold CommandLog.ack
  split_ifs with h
  · exact ⟨rfl, rfl, rfl, rfl, rfl, rfl, .inr ⟨h.2.2, ackStatus_ne_pending success⟩⟩
  · exact .refl log

theorem CommandLog.ack_of_not {hubId : String} {cmdId : Int} {log : CommandLog}
    (h : log.hubId ≠ hubId ∨ log.cmdId ≠ cmdId ∨ log.status ≠ .pending) (success : Bool) (now : String) :
    log.ack hubId cmdId success now = log := by
  rw [CommandLog.ack, if_neg]
  rintro ⟨hhub, hcmd, hpending⟩
  rcases h with h | h | h
  · exact h hhub
  · exact h hcmd
  · exact h hpending

/-- The first acknowledgement leaves nothing for the second one. -/
theorem CommandLog.ack_ack (hubId : String) (cmdId : Int) (success success' : Bool) (now now' : String)
    (log : CommandLog) :
    (log.ack hubId cmdId success now).ack hubId cmdId success' now' = log.ack hubId cmdId success now := by
  by_cases h : log.hubId = hubId ∧ log.cmdId = cmdId ∧ log.status = .pending
  · apply CommandLog.ack_of_not
    right; right
    rw [CommandLog.ack, if_pos h]
    exact ackStatus_ne_pending success
  · have hsame (success : Bool) (now : String) : log.ack hubId cmdId success now = log := if_neg h
    rw [hsame, hsame]

theorem CommandLog.Dated.ack {log : CommandLog} (h : log.Dated) (hubId : String) (cmdId : Int)
    (success : Bool) (now : String) : (log.ack hubId cmdId success now).Dated := by
  unfold CommandLog.ack
  split_ifs
  · simp [CommandLog.Dated]
  · exact h

/-- What a step does to the log: nothing, one new pending row, or an acknowledgement. -/
theorem logs_of_logStep {s t : Service} {a : LogAction} (h : logStep s a = some t) :
    t.logs = s.logs ∨
    (∃ log : CommandLog, log.status = .pending ∧ log.ackedAt = none ∧ t.logs = s.logs ++ [log]) ∨
    ∃ hubId cmdId success now, t.logs = updateCommandAck s.logs hubId cmdId success now := by
  cases a with
  | processAck hubId cmdId success now =>
      right; right
      exact ⟨hubId, cmdId, success, now, (Option.some.inj h) ▸ rfl⟩
  | serve a =>
      cases a with
      | sendCommand hubId commands out raised now => exact .inl (Option.some.inj h ▸ rfl)
      | restart => exact .inl (Option.some.inj h ▸ rfl)
      | processAck j cmdId success now =>
          obtain ⟨p, _, _, rfl⟩ := step_processAck h
          exact .inr (.inr ⟨p.hubId, cmdId, success, now, rfl⟩)
      | saveLog k ok =>
          obtain ⟨call, j, rest, p, _, _, _, ⟨_, _, rfl⟩ | ⟨_, rfl⟩⟩ := saveLog_cases h
          · exact .inr (.inl ⟨p.log call.now, rfl, rfl, rfl⟩)
          · exact .inl rfl

theorem grows_of_logStep {s t : Service} {a : LogAction} (h : logStep s a = some t) :
    Grows CommandLog.Follows s.logs t.logs := by
  obtain hlogs | ⟨log, _, _, hlogs⟩ | ⟨hubId, cmdId, success, now, hlogs⟩ := logs_of_logStep h
  · rw [hlogs]
    exact .refl .refl _
  · rw [hlogs]
    exact .append .refl _ _
  · rw [hlogs]
    exact .map fun log _ => log.follows_ack hubId cmdId success now

theorem grows_of_exec {s t : Service} {as : List LogAction} (h : exec logStep s as = some t) :
    Grows CommandLog.Follows s.logs t.logs := by
  induction as generalizing s with
  | nil =>
      obtain rfl := Option.some.inj h
      exact .refl .refl _
  | cons a as ih =>
      obtain ⟨u, hu, ht⟩ := exec_cons_eq_some.mp h
      exact (grows_of_logStep hu).trans .trans (ih ht)

def Service.Dated (s : Service) : Prop := ∀ log ∈ s.logs, log.Dated

theorem dated_step {s t : Service} {a : LogAction} (hs : s.Dated) (h : logStep s a = some t) :
    t.Dated := by
  intro log hlog
  obtain hlogs | ⟨new, hpending, hacked, hlogs⟩ | ⟨hubId, cmdId, success, now, hlogs⟩ :=
    logs_of_logStep h <;> rw [hlogs] at hlog
  · exact hs log hlog
  · rcases List.mem_append.mp hlog with hlog | hlog
    · exact hs log hlog
    · rw [List.mem_singleton.mp hlog]
      exact ⟨fun _ => hpending, fun _ => hacked⟩
  · obtain ⟨old, hold, rfl⟩ := List.mem_map.mp hlog
    exact (hs old hold).ack hubId cmdId success now

theorem lifeCycle_of_dated {s : Service} (hs : s.Dated) : LifeCycle s where
  dated := hs
  appends a t h i log hi hlog := by
    obtain hlogs | ⟨new, hpending, _, hlogs⟩ | ⟨hubId, cmdId, success, now, hlogs⟩ :=
      logs_of_logStep h <;> rw [hlogs] at hlog
    · simp [List.getElem?_eq_none hi] at hlog
    · rw [List.getElem?_append_right hi] at hlog
      rw [List.mem_singleton.mp (List.mem_of_getElem? hlog)]
      exact hpending
    · rw [getElem?_updateCommandAck, List.getElem?_eq_none hi] at hlog
      cases hlog
  grows _ _ h := grows_of_exec h
  others hubId cmdId success now i log hlog hne := by
    change (updateCommandAck s.logs hubId cmdId success now)[i]? = some log
    rw [getElem?_updateCommandAck, hlog, Option.map_some, CommandLog.ack_of_not hne]
  repeated hubId cmdId success now success' now' := by
    change updateCommandAck (updateCommandAck s.logs hubId cmdId success now) hubId cmdId success' now' =
      updateCommandAck s.logs hubId cmdId success now
    rw [updateCommandAck, updateCommandAck, List.map_map]
    apply List.map_congr_left
    intro log _
    exact log.ack_ack hubId cmdId success success' now now'

/-- Whatever is sent and acknowledged in whatever order, the rows of the log are only ever
added, and each of them is settled at most once. -/
theorem always_lifeCycle (as : List LogAction) : Always logStep LifeCycle Service.init as :=
  always_of_invariant (fun _ _ _ => dated_step) (fun _ => lifeCycle_of_dated)
    fun _ hlog => absurd hlog List.not_mem_nil

end Tempio.Server
