import Mathlib.Data.List.Induction
import Tempio.Server.Service

namespace Tempio.Server

open Tempio.Lib.Transition

/-- What happens around one `send_command` once its envelope is out: a pass of the
logging loop, or the acknowledgement of its `i`-th command. -/
inductive Event
  | saveLog (ok : Bool)
  | processAck (i : Nat) (success : Bool) (now : String)
deriving DecidableEq

def Event.isSave : Event → Bool
  | .saveLog _ => true
  | .processAck .. => false

def saves (es : List Event) : Nat := es.countP Event.isSave

section

variable (s : Service) (commands : List Command)

def assigned : List Command := (assignCmdIds s.counter commands).2

def Event.action : Event → Action
  | .saveLog ok => .saveLog s.calls.length ok
  | .processAck i success now =>
      .processAck (s.sent.length + i) (((assigned s commands)[i]?.map Command.cmdId).getD 0) success now

/-- `send_command` came to its end without an error. -/
def Returned (u : Service) : Prop :=
  ∃ call, u.calls[s.calls.length]? = some call ∧ call.remaining = [] ∧ call.raised = false

def Raised (u : Service) : Prop :=
  ∃ call, u.calls[s.calls.length]? = some call ∧ call.remaining = [] ∧ call.raised = true

/-- The row of the `i`-th command records one of the acknowledgements it got. -/
def AckLogged (u : Service) (es : List Event) (i : Nat) : Prop :=
  ∃ p, u.sent[s.sent.length + i]? = some p ∧ ∃ r, p.row = some r ∧ ∃ log, u.logs[r]? = some log ∧
    ∃ success now, .processAck i success now ∈ es ∧ log.status = ackStatus success ∧
      log.ackedAt = some now

def EveryAckLogged (u : Service) (es : List Event) : Prop :=
  ∀ i success now, .processAck i success now ∈ es → AckLogged s u es i

end

/-- The `i`-th command is acknowledged at a point behind its own insert. -/
def AckedAfterRow (i : Nat) (es : List Event) : Prop :=
  ∃ before success now, before ++ [.processAck i success now] <+: es ∧ i < saves before

def EveryAckAfterRow (es : List Event) : Prop :=
  ∀ i success now, .processAck i success now ∈ es → AckedAfterRow i es

@[simp]
theorem saves_nil : saves [] = 0 := rfl

@[simp]
theorem saves_concat_saveLog (es : List Event) (ok : Bool) :
    saves (es ++ [.saveLog ok]) = saves es + 1 := by
  simp [saves, Event.isSave]

@[simp]
theorem saves_concat_processAck (es : List Event) (i : Nat) (success : Bool) (now : String) :
    saves (es ++ [.processAck i success now]) = saves es := by
  simp [saves, Event.isSave]

theorem AckedAfterRow.lt_saves {i : Nat} {es : List Event} (h : AckedAfterRow i es) : i < saves es := by
  obtain ⟨before, success, now, hpre, hlt⟩ := h
  have := (hpre.sublist).countP_le (p := Event.isSave)
  have : saves (before ++ [.processAck i success now]) ≤ saves es := this
  rw [saves_concat_processAck] at this
  omega

theorem ackedAfterRow_concat_saveLog {i : Nat} {es : List Event} {ok : Bool} :
    AckedAfterRow i (es ++ [.saveLog ok]) ↔ AckedAfterRow i es := by
  simp [AckedAfterRow, List.prefix_concat_iff]

theorem ackedAfterRow_concat_processAck {i j : Nat} {es : List Event} {success : Bool}
    {now : String} : AckedAfterRow i (es ++ [.processAck j success now]) ↔
      AckedAfterRow i es ∨ i = j ∧ i < saves es := by
  constructor
  · rintro ⟨before, success', now', hpre, hlt⟩
    rcases List.prefix_concat_iff.mp hpre with heq | hpre
    · obtain ⟨rfl, hlast⟩ := List.append_inj' heq rfl
      simp only [List.cons.injEq, Event.processAck.injEq, and_true] at hlast
      exact .inr ⟨hlast.1, hlt⟩
    · exact .inl ⟨before, success', now', hpre, hlt⟩
  · rintro (⟨before, success', now', hpre, hlt⟩ | ⟨rfl, hlt⟩)
    · exact ⟨before, success', now', hpre.trans (List.prefix_append ..), hlt⟩
    · exact ⟨es, success, now, List.prefix_rfl, hlt⟩

section

variable {s u v : Service} {hubId now : String} {commands : List Command} {es : List Event}

/-- What the row of the `i`-th command says, once it is there. -/
def RowAgrees (i : Nat) (es : List Event) (log : CommandLog) : Prop :=
  (log.status = .pending ∧ ¬ AckedAfterRow i es) ∨
    (AckedAfterRow i es ∧ ∃ success now, .processAck i success now ∈ es ∧
      log.status = ackStatus success ∧ log.ackedAt = some now)

/-- Where a `send_command` stands that has met no error so far. -/
structure Progress (s : Service) (hubId : String) (commands : List Command) (now : String)
    (es : List Event) (u : Service) : Prop where
  le : saves es ≤ commands.length
  call : u.calls[s.calls.length]? =
    some ⟨now, List.range' (s.sent.length + saves es) (commands.length - saves es), false⟩
  length_sent : u.sent.length = s.sent.length + commands.length
  sent : ∀ (i : Nat) (cmd : Command), (assigned s commands)[i]? = some cmd →
    ∃ p : Sent, u.sent[s.sent.length + i]? = some p ∧ p.hubId = hubId ∧ p.command = cmd ∧
      p.row = if i < saves es then some (s.logs.length + i) else none
  length_logs : u.logs.length = s.logs.length + saves es
  rows : ∀ (i : Nat) (cmd : Command), (assigned s commands)[i]? = some cmd → i < saves es →
    ∃ log : CommandLog, u.logs[s.logs.length + i]? = some log ∧ log.hubId = hubId ∧
      log.cmdId = cmd.cmdId ∧ RowAgrees i es log

theorem length_assigned : (assigned s commands).length = commands.length :=
  length_assignCmdIds _ _

theorem progress_sendCommand (s : Service) (hubId : String) (commands : List Command) (now : String) :
    Progress s hubId commands now [] (s.sendCommand hubId commands true false now) where
  le := Nat.zero_le _
  call := by simp [Service.sendCommand]
  length_sent := by simp [Service.sendCommand, length_assignCmdIds]
  sent i cmd hcmd := by
    refine ⟨⟨hubId, cmd, true, none, false⟩, ?_, rfl, rfl, rfl⟩
    simp only [Service.sendCommand]
    rw [List.getElem?_append_right (by omega), Nat.add_sub_cancel_left, List.getElem?_map]
    rw [assigned] at hcmd
    rw [hcmd, Option.map_some]
  length_logs := rfl
  rows i cmd _ hi := absurd hi (Nat.not_lt_zero i)

theorem Progress.saveLog (h : Progress s hubId commands now es u) {ok : Bool}
    (hv : u.saveLog s.calls.length ok = some v) :
    Progress s hubId commands now (es ++ [.saveLog ok]) v ∨ Raised s v := by
  obtain ⟨call, j, rest, p, hcall, hrem, hp, hv⟩ := saveLog_cases hv
  have hklt := (List.getElem?_eq_some_iff.mp hcall).1
  obtain rfl := Option.some.inj (h.call.symm.trans hcall)
  rcases hv with ⟨_, _, rfl⟩ | ⟨_, rfl⟩
  swap
  · exact .inr ⟨_, List.getElem?_set_self hklt, rfl, rfl⟩
  left
  have hlt : saves es < commands.length := by
    by_contra hge
    rw [show commands.length - saves es = 0 by omega] at hrem
    simp at hrem
  rw [show commands.length - saves es = (commands.length - saves es - 1) + 1 by omega,
    List.range'_succ, List.cons.injEq] at hrem
  obtain ⟨rfl, rfl⟩ := hrem
  have hplt := (List.getElem?_eq_some_iff.mp hp).1
  obtain ⟨cmd, hcmd⟩ : ∃ cmd, (assigned s commands)[saves es]? = some cmd :=
    ⟨_, List.getElem?_eq_getElem (by rw [length_assigned]; exact hlt)⟩
  obtain ⟨p', hp', hhub, hpcmd, _⟩ := h.sent _ cmd hcmd
  obtain rfl := Option.some.inj (hp'.symm.trans hp)
  constructor
  · rw [saves_concat_saveLog]
    omega
  · rw [saves_concat_saveLog, List.getElem?_set_self hklt, Nat.sub_sub, Nat.add_assoc]
  · rw [List.length_set, h.length_sent]
  · intro i cmd' hcmd'
    rw [saves_concat_saveLog]
    by_cases hi : saves es = i
    · subst hi
      obtain rfl := Option.some.inj (hcmd.symm.trans hcmd')
      refine ⟨_, List.getElem?_set_self hplt, hhub, hpcmd, ?_⟩
      rw [if_pos (Nat.lt_succ_self _), h.length_logs]
    · obtain ⟨q, hq, hqhub, hqcmd, hqrow⟩ := h.sent i cmd' hcmd'
      refine ⟨q, ?_, hqhub, hqcmd, ?_⟩
      · rw [List.getElem?_set_ne (by omega), hq]
      · rw [hqrow]
        exact if_congr (by omega) rfl rfl
  · rw [saves_concat_saveLog, List.length_append, List.length_singleton, h.length_logs, Nat.add_assoc]
  · intro i cmd' hcmd' hi
    rw [saves_concat_saveLog] at hi
    by_cases hnew : i = saves es
    · subst hnew
      obtain rfl := Option.some.inj (hcmd.symm.trans hcmd')
      refine ⟨p'.log now, ?_, hhub, congrArg Command.cmdId hpcmd, .inl ⟨rfl, fun hacked => ?_⟩⟩
      · rw [← h.length_logs]
        exact List.getElem?_concat_length
      · exact Nat.lt_irrefl _ (ackedAfterRow_concat_saveLog.mp hacked).lt_saves
    · obtain ⟨log, hlog, hlhub, hlid, hagree⟩ := h.rows i cmd' hcmd' (by omega)
      refine ⟨log, ?_, hlhub, hlid, ?_⟩
      · rw [List.getElem?_append_left (by rw [h.length_logs]; omega), hlog]
      · simpa [RowAgrees, ackedAfterRow_concat_saveLog] using hagree

theorem RowAgrees.processAck {i j : Nat} {log : CommandLog} {cmdId : Int} (h : RowAgrees i es log)
    (hi : i < saves es) (hhub : log.hubId = hubId) (hid : log.cmdId = cmdId ↔ i = j)
    (success : Bool) (now : String) :
    RowAgrees i (es ++ [.processAck j success now]) (log.ack hubId cmdId success now) := by
  by_cases hij : i = j
  · have hacked : AckedAfterRow i (es ++ [.processAck j success now]) :=
      ackedAfterRow_concat_processAck.mpr (.inr ⟨hij, hi⟩)
    refine .inr ⟨hacked, ?_⟩
    subst hij
    rcases h with ⟨hpend, _⟩ | ⟨_, success', now', hmem, hstatus, hat⟩
    · refine ⟨success, now, by simp, ?_⟩
      simp [CommandLog.ack, hhub, hid.mpr rfl, hpend]
    · refine ⟨success', now', List.mem_append_left _ hmem, ?_⟩
      simp [CommandLog.ack, hstatus, hat]
  · have hacked : AckedAfterRow i (es ++ [.processAck j success now]) ↔ AckedAfterRow i es := by
      simp [ackedAfterRow_concat_processAck, hij]
    have hsame : log.ack hubId cmdId success now = log :=
      if_neg fun hc => hij (hid.mp hc.2.1)
    rw [hsame, RowAgrees, hacked]
    rcases h with h | ⟨ha, success', now', hmem, hlog⟩
    · exact .inl h
    · exact .inr ⟨ha, success', now', List.mem_append_left _ hmem, hlog⟩

theorem Progress.processAck (h : Progress s hubId commands now es u)
    (hdistinct : ((assigned s commands).map Command.cmdId).Nodup) {i : Nat} {cmd : Command}
    (hcmd : (assigned s commands)[i]? = some cmd) (success : Bool) (at' : String) :
    Progress s hubId commands now (es ++ [.processAck i success at'])
      (u.processAck hubId cmd.cmdId success at') where
  le := by simpa using h.le
  call := by simpa [Service.processAck] using h.call
  length_sent := by simpa [Service.processAck] using h.length_sent
  sent j cmd' hcmd' := by
    obtain ⟨p, hp, hhub, hpcmd, hrow⟩ := h.sent j cmd' hcmd'
    refine ⟨p.ack hubId cmd.cmdId, ?_, ?_, ?_, ?_⟩
    · simp [Service.processAck, hp]
    · rw [Sent.hubId_ack, hhub]
    · rw [Sent.command_ack, hpcmd]
    · rw [Sent.row_ack, hrow, saves_concat_processAck]
  length_logs := by simpa [Service.processAck] using h.length_logs
  rows j cmd' hcmd' hj := by
    rw [saves_concat_processAck] at hj
    obtain ⟨log, hlog, hhub, hid, hagree⟩ := h.rows j cmd' hcmd' hj
    refine ⟨log.ack hubId cmd.cmdId success at', ?_, ?_, ?_, hagree.processAck hj hhub ?_ success at'⟩
    · simp only [Service.processAck, getElem?_updateCommandAck, hlog, Option.map_some]
    · rw [CommandLog.hubId_ack, hhub]
    · rw [CommandLog.cmdId_ack, hid]
    · rw [hid]
      constructor
      · intro heq
        have hj' : ((assigned s commands).map Command.cmdId)[j]? = some cmd'.cmdId := by
          rw [List.getElem?_map, hcmd', Option.map_some]
        have hi' : ((assigned s commands).map Command.cmdId)[i]? = some cmd'.cmdId := by
          rw [List.getElem?_map, hcmd, Option.map_some, heq]
        have hlt := (List.getElem?_eq_some_iff.mp hj').1
        apply (List.getElem?_inj hlt hdistinct).mp
        rw [hj', hi']
      · rintro rfl
        rw [Option.some.inj (hcmd.symm.trans hcmd')]

theorem Raised.step (h : Raised s u) {e : Event} (hv : step u (e.action s commands) = some v) :
    Raised s v := by
  obtain ⟨call, hcall, hrem, hraised⟩ := h
  cases e with
  | saveLog ok =>
      obtain ⟨call', j, rest, p, hcall', hrem', _⟩ := saveLog_cases hv
      obtain rfl := Option.some.inj (hcall.symm.trans hcall')
      rw [hrem] at hrem'
      cases hrem'
  | processAck i success now =>
      obtain ⟨p, _, _, rfl⟩ := step_processAck hv
      exact ⟨call, hcall, hrem, hraised⟩

theorem Progress.step (h : Progress s hubId commands now es u)
    (hdistinct : ((assigned s commands).map Command.cmdId).Nodup) {e : Event}
    (hv : step u (e.action s commands) = some v) :
    Progress s hubId commands now (es ++ [e]) v ∨ Raised s v := by
  cases e with
  | saveLog ok => exact h.saveLog hv
  | processAck i success at' =>
      obtain ⟨p, hp, _, rfl⟩ := step_processAck hv
      have hi : i < (assigned s commands).length := by
        have := (List.getElem?_eq_some_iff.mp hp).1
        rw [h.length_sent] at this
        rw [length_assigned]
        omega
      have hcmd := List.getElem?_eq_getElem hi
      obtain ⟨p', hp', hhub, _⟩ := h.sent i _ hcmd
      obtain rfl := Option.some.inj (hp'.symm.trans hp)
      left
      rw [hhub, hcmd]
      exact h.processAck hdistinct hcmd success at'

theorem progress_or_raised (hdistinct : ((assigned s commands).map Command.cmdId).Nodup)
    (hrun : exec step (s.sendCommand hubId commands true false now)
      (es.map (Event.action s commands)) = some u) :
    Progress s hubId commands now es u ∨ Raised s u := by
  induction es using List.reverseRecOn generalizing u with
  | nil => exact .inl (Option.some.inj hrun ▸ progress_sendCommand s hubId commands now)
  | append_singleton es e ih =>
      rw [List.map_append, exec_append] at hrun
      obtain ⟨t, ht, hlast⟩ := Option.bind_eq_some_iff.mp hrun
      obtain ⟨v, hv, hvu⟩ := exec_cons_eq_some.mp hlast
      obtain rfl : v = u := Option.some.inj hvu
      rcases ih ht with h | h
      · exact h.step hdistinct hv
      · exact .inr (h.step hv)

end

/-- Around a `send_command` that returns, every acknowledgement is in the log if and
only if each acknowledged command is acknowledged behind its own insert. -/
theorem everyAckLogged_iff (s u : Service) (hubId now : String) (commands : List Command)
    (es : List Event) (hdistinct : ((assigned s commands).map Command.cmdId).Nodup)
    (hrun : exec step (s.sendCommand hubId commands true false now)
      (es.map (Event.action s commands)) = some u) (hdone : Returned s u) :
    EveryAckLogged s u es ↔ EveryAckAfterRow es := by
  obtain ⟨call, hcall, hrem, hraised⟩ := hdone
  have hprog : Progress s hubId commands now es u := by
    apply (progress_or_raised hdistinct hrun).resolve_right
    rintro ⟨call', hcall', _, hraised'⟩
    obtain rfl := Option.some.inj (hcall.symm.trans hcall')
    rw [hraised] at hraised'
    cases hraised'
  have hall : saves es = commands.length := by
    obtain rfl := Option.some.inj (hprog.call.symm.trans hcall)
    have := hprog.le
    have : commands.length - saves es = 0 := by simpa using hrem
    omega
  apply forall₄_congr
  intro i success at' hmem
  constructor
  · rintro ⟨p, hp, r, hr, log, hlog, success', now', _, hstatus, _⟩
    have hi : i < (assigned s commands).length := by
      have := (List.getElem?_eq_some_iff.mp hp).1
      rw [hprog.length_sent] at this
      rw [length_assigned]
      omega
    have hcmd := List.getElem?_eq_getElem hi
    rw [length_assigned, ← hall] at hi
    obtain ⟨p', hp', _, _, hrow⟩ := hprog.sent i _ hcmd
    obtain rfl := Option.some.inj (hp'.symm.trans hp)
    rw [if_pos hi, hr] at hrow
    obtain ⟨log', hlog', _, _, hagree⟩ := hprog.rows i _ hcmd hi
    rw [← Option.some.inj hrow] at hlog'
    obtain rfl := Option.some.inj (hlog'.symm.trans hlog)
    rcases hagree with ⟨hpend, _⟩ | ⟨hacked, _⟩
    · rw [hpend] at hstatus
      exact absurd hstatus.symm (ackStatus_ne_pending success')
    · exact hacked
  · intro hacked
    have hi := hacked.lt_saves
    have hcmd := List.getElem?_eq_getElem (l := assigned s commands) (i := i)
      (by rw [length_assigned, ← hall]; exact hi)
    obtain ⟨p, hp, _, _, hrow⟩ := hprog.sent i _ hcmd
    obtain ⟨log, hlog, _, _, hagree⟩ := hprog.rows i _ hcmd hi
    rw [if_pos hi] at hrow
    rcases hagree with ⟨_, hn⟩ | ⟨_, hlogged⟩
    · exact absurd hacked hn
    · exact ⟨p, hp, _, hrow, log, hlog, hlogged⟩

def testCommand (target : String) : Command := ⟨target, "TEST", .obj [], 0⟩

def patientEvents : List Event :=
  [.saveLog true, .processAck 0 true "10:00", .saveLog true, .processAck 1 false "10:01"]

theorem everyAckLogged_patientEvents :
    ∃ u, exec step (Service.init.sendCommand "hub" [testCommand "aa", testCommand "bb"] true false "10")
        (patientEvents.map (Event.action Service.init [testCommand "aa", testCommand "bb"])) = some u ∧
      (EveryAckLogged Service.init u patientEvents ↔ EveryAckAfterRow patientEvents) :=
  ⟨_, rfl, everyAckLogged_iff Service.init _ "hub" "10" [testCommand "aa", testCommand "bb"]
    patientEvents (by decide) rfl ⟨_, rfl, rfl, rfl⟩⟩

def hastyEvents : List Event := [.processAck 0 true "10:00", .saveLog true]

theorem hastyEvents_lose_ack :
    ∃ u, exec step (Service.init.sendCommand "hub" [testCommand "aa"] true false "10")
        (hastyEvents.map (Event.action Service.init [testCommand "aa"])) = some u ∧
      ((assigned Service.init [testCommand "aa"]).map Command.cmdId).Nodup ∧
      Returned Service.init u ∧ ¬ EveryAckLogged Service.init u hastyEvents := by
  refine ⟨_, rfl, by decide, ⟨_, rfl, rfl, rfl⟩, fun h => ?_⟩
  obtain ⟨p, hp, r, hr, log, hlog, success, now, _, hstatus, _⟩ := h 0 true "10:00" (by decide)
  obtain rfl := Option.some.inj hp
  obtain rfl := Option.some.inj hr
  obtain rfl := Option.some.inj hlog
  exact ackStatus_ne_pending success hstatus.symm

end Tempio.Server
