import Mathlib.Data.List.Basic
import Tempio.Server.AckLog

namespace Tempio.Server

open Tempio.Lib.Transition

/-- The passes of the second loop. The database takes their inserts as the list says. -/
def Service.saveLogs (s : Service) (k : Nat) : List Bool → Service
  | [] => s
  | ok :: oks =>
      match s.saveLog k ok with
      | none => s
      | some t => t.saveLogs k oks

/-- A whole `send_command`, where the database takes the `i`-th insert if `db i`. -/
def Service.sendCommandToEnd (s : Service) (hubId : String) (commands : List Command)
    (out raised : Bool) (now : String) (db : Nat → Bool) : Service :=
  (s.sendCommand hubId commands out raised now).saveLogs s.calls.length
    ((List.range commands.length).map db)

/-- What the call gave to the publisher. -/
def handed (s u : Service) : List Sent := u.sent.drop s.sent.length

def published (s u : Service) : List Sent := (handed s u).filter Sent.out

def logRows (now : String) (sent : List Sent) : List CommandLog := sent.map fun p => p.log now

def added (s u : Service) : List CommandLog := u.logs.drop s.logs.length

/-- What the caller of `send_command` finds at its end. -/
structure AllOrNothing (s : Service) (commands : List Command) (now : String) (u : Service) : Prop where
  raised : Raised s u → (published s u = [] ∧ u.logs = s.logs) ∨
    (logRows now (published s u)).Subperm (added s u)
  returned : Returned s u → (handed s u).map Sent.command = assigned s commands ∧
    u.logs = s.logs ++ logRows now (handed s u)
  logged : (logRows now (published s u)).Subperm (added s u)

/-- Once the envelope is out, nothing may go wrong any more. -/
def NothingRaises (s : Service) (commands : List Command) (out raised : Bool) (db : Nat → Bool) : Prop :=
  out = true → ∀ (i : Nat) (cmd : Command), (assigned s commands)[i]? = some cmd →
    raised = false ∧ db i = true ∧ Storable cmd.cmdId

/-- A command as the first half of `send_command` leaves it. -/
def Sent.bare (p : Sent) : Sent := { p with row := none, answered := false }

def Sent.accepted (p : Sent) (ok : Bool) : Bool := ok && decide (Storable p.command.cmdId)

/-- The inserts of the loop, up to the first one that raises. -/
def inserts (now : String) : List Sent → List Bool → List CommandLog
  | p :: ps, ok :: oks => if p.accepted ok then p.log now :: inserts now ps oks else []
  | _, _ => []

def allAccepted : List Sent → List Bool → Bool
  | p :: ps, ok :: oks => p.accepted ok && allAccepted ps oks
  | _, _ => true

section

variable {s t u : Service} {k a : Nat} {now hubId : String} {ps : List Sent} {oks : List Bool}
  {commands : List Command} {out raised : Bool} {db : Nat → Bool} {sent : List Sent}
  {rows : List CommandLog} {r : Bool}

@[simp]
theorem Sent.log_bare (p : Sent) (now : String) : p.bare.log now = p.log now := rfl

theorem exec_saveLogs (s : Service) (k : Nat) (oks : List Bool) :
    ∃ n, exec step s ((oks.take n).map (Action.saveLog k)) = some (s.saveLogs k oks) := by
  induction oks generalizing s with
  | nil => exact ⟨0, rfl⟩
  | cons ok oks ih =>
      cases hstep : s.saveLog k ok with
      | none => exact ⟨0, by simp [Service.saveLogs, hstep]⟩
      | some t =>
          obtain ⟨n, hn⟩ := ih t
          refine ⟨n + 1, exec_cons_eq_some.mpr ⟨t, hstep, ?_⟩⟩
          rw [hn, Service.saveLogs, hstep]

/-- The whole call is a run of the server in which nothing comes between. -/
theorem exec_sendCommandToEnd (s : Service) (hubId : String) (commands : List Command)
    (out raised : Bool) (now : String) (db : Nat → Bool) :
    ∃ oks : List Bool, exec step s (.sendCommand hubId commands out raised now ::
        oks.map (Action.saveLog s.calls.length)) =
      some (s.sendCommandToEnd hubId commands out raised now db) := by
  obtain ⟨n, hn⟩ := exec_saveLogs (s.sendCommand hubId commands out raised now) s.calls.length
    ((List.range commands.length).map db)
  exact ⟨_, exec_cons_eq_some.mpr ⟨_, rfl, hn⟩⟩

theorem inserts_of_allAccepted (hlen : ps.length = oks.length) (h : allAccepted ps oks = true) :
    inserts now ps oks = logRows now ps := by
  induction ps generalizing oks with
  | nil => rfl
  | cons p ps ih =>
      cases oks with
      | nil => cases hlen
      | cons ok oks =>
          rw [allAccepted, Bool.and_eq_true] at h
          rw [inserts, if_pos h.1, ih (Nat.succ.inj hlen) h.2]
          rfl

/-- A row is missing as soon as one insert raises. -/
theorem length_inserts_lt (h : allAccepted ps oks = false) :
    (inserts now ps oks).length < ps.length := by
  induction ps generalizing oks with
  | nil => cases h
  | cons p ps ih =>
      cases oks with
      | nil => cases h
      | cons ok oks =>
          rw [inserts]
          split_ifs with hp
          · rw [allAccepted, hp, Bool.true_and] at h
            exact Nat.succ_lt_succ (ih h)
          · exact Nat.succ_pos _

/-- What the second loop does from any point on: it inserts the rows of the commands in order,
up to the first insert that raises. -/
structure LoopEnd (s : Service) (k : Nat) (now : String) (ps : List Sent) (oks : List Bool)
    (u : Service) : Prop where
  logs : u.logs = s.logs ++ inserts now ps oks
  sent : u.sent.map Sent.bare = s.sent.map Sent.bare
  call : u.calls[k]? = some ⟨now, [], !allAccepted ps oks⟩

theorem map_bare_set {sent : List Sent} {j : Nat} {p : Sent} (hp : sent[j]? = some p) (row : Option Nat) :
    (sent.set j { p with row := row }).map Sent.bare = sent.map Sent.bare := by
  have hbare : (sent.map Sent.bare)[j]? = some { p with row := row }.bare := by
    rw [List.getElem?_map, hp]
    rfl
  obtain ⟨hj, hbare⟩ := List.getElem?_eq_some_iff.mp hbare
  rw [List.map_set, ← hbare, List.set_getElem_self]

theorem saveLogs_of_remaining_nil {call : Call} (hcall : s.calls[k]? = some call)
    (hrem : call.remaining = []) (oks : List Bool) : s.saveLogs k oks = s := by
  cases oks with
  | nil => rfl
  | cons ok oks => simp [Service.saveLogs, Service.saveLog, hcall, hrem]

theorem saveLog_of_remaining {call : Call} {j : Nat} {rest : List Nat} {p : Sent} (ok : Bool)
    (hcall : s.calls[k]? = some call) (hrem : call.remaining = j :: rest) (hp : s.sent[j]? = some p) :
    s.saveLog k ok = some (if p.accepted ok = true then
      { s with
        logs := s.logs ++ [p.log call.now]
        calls := s.calls.set k { call with remaining := rest }
        sent := s.sent.set j { p with row := some s.logs.length } }
      else s.raise k call) := by
  have hid : (p.log call.now).cmdId = p.command.cmdId := rfl
  simp only [Service.saveLog, hcall, hrem, hp, saveCommandLog, hid, Sent.accepted]
  by_cases hs : Storable p.command.cmdId
  · cases ok <;> simp [hs]
  · simp [hs]

theorem loopEnd_saveLogs (hcall : s.calls[k]? = some ⟨now, List.range' a ps.length, false⟩)
    (hps : ∀ (i : Nat) p, ps[i]? = some p → ∃ q, s.sent[a + i]? = some q ∧ q.bare = p.bare)
    (hlen : ps.length = oks.length) : LoopEnd s k now ps oks (s.saveLogs k oks) := by
  induction ps generalizing s a oks with
  | nil =>
      obtain rfl := List.length_eq_zero_iff.mp hlen.symm
      exact ⟨(List.append_nil _).symm, rfl, hcall⟩
  | cons p ps ih =>
      cases oks with
      | nil => cases hlen
      | cons ok oks =>
          have hklt := (List.getElem?_eq_some_iff.mp hcall).1
          obtain ⟨q, hq, hqp⟩ := hps 0 p rfl
          have hlog : q.log now = p.log now := by
            rw [← Sent.log_bare q, hqp, Sent.log_bare]
          have haccepted : q.accepted ok = p.accepted ok := by
            change q.bare.accepted ok = p.bare.accepted ok
            rw [hqp]
          rw [Service.saveLogs, saveLog_of_remaining ok hcall List.range'_succ hq, haccepted]
          cases hok : p.accepted ok with
          | false =>
              have hraised : (s.raise k ⟨now, List.range' a (p :: ps).length, false⟩).calls[k]? =
                  some ⟨now, [], true⟩ := List.getElem?_set_self hklt
              simp only [Bool.false_eq_true, if_false]
              rw [saveLogs_of_remaining_nil hraised rfl]
              constructor
              · simp [Service.raise, inserts, hok]
              · rfl
              · simpa [allAccepted, hok] using hraised
          | true =>
              simp only [if_true]
              have hnext := ih (s := { s with
                logs := s.logs ++ [q.log now]
                calls := s.calls.set k ⟨now, List.range' (a + 1) ps.length, false⟩
                sent := s.sent.set a { q with row := some s.logs.length } }) (a := a + 1)
                (List.getElem?_set_self hklt) (fun i p' hp' => ?_) (Nat.succ.inj hlen)
              · constructor
                · rw [hnext.logs, hlog, inserts, if_pos hok, List.append_assoc, List.singleton_append]
                · rw [hnext.sent]
                  exact map_bare_set hq _
                · rw [hnext.call, allAccepted, hok, Bool.true_and]
              · obtain ⟨q', hq', hbare⟩ := hps (i + 1) p' hp'
                refine ⟨q', ?_, hbare⟩
                rw [List.getElem?_set_ne (by omega), Nat.add_assoc, Nat.add_comm 1 i, hq']

theorem allAccepted_iff (hlen : ps.length = oks.length) : allAccepted ps oks = true ↔
    ∀ (i : Nat) p ok, ps[i]? = some p → oks[i]? = some ok → p.accepted ok = true := by
  induction ps generalizing oks with
  | nil => simp [allAccepted]
  | cons p ps ih =>
      cases oks with
      | nil => cases hlen
      | cons ok oks =>
          rw [allAccepted, Bool.and_eq_true, ih (Nat.succ.inj hlen)]
          constructor
          · rintro ⟨hp, hps⟩ i p' ok' hp' hok'
            cases i with
            | zero =>
                obtain rfl := Option.some.inj hp'
                obtain rfl := Option.some.inj hok'
                exact hp
            | succ i => exact hps i p' ok' hp' hok'
          · intro h
            exact ⟨h 0 p ok rfl rfl, fun i p' ok' hp' hok' => h (i + 1) p' ok' hp' hok'⟩

def fresh (hubId : String) (out : Bool) (commands : List Command) : List Sent :=
  commands.map fun cmd => ⟨hubId, cmd, out, none, false⟩

/-- Where a whole `send_command` ends. -/
structure SendEnd (s : Service) (now : String) (sent : List Sent) (rows : List CommandLog)
    (raised : Bool) (u : Service) : Prop where
  logs : u.logs = s.logs ++ rows
  sent : (handed s u).map Sent.bare = sent
  call : u.calls[s.calls.length]? = some ⟨now, [], raised⟩

def passes (commands : List Command) (db : Nat → Bool) : List Bool := (List.range commands.length).map db

theorem length_fresh (hubId : String) (out : Bool) :
    (fresh hubId out (assigned s commands)).length = (passes commands db).length := by
  rw [fresh, List.length_map, length_assigned, passes, List.length_map, List.length_range]

theorem allAccepted_fresh_iff :
    allAccepted (fresh hubId out (assigned s commands)) (passes commands db) = true ↔
    ∀ (i : Nat) (cmd : Command), (assigned s commands)[i]? = some cmd →
      db i = true ∧ Storable cmd.cmdId := by
  rw [allAccepted_iff (length_fresh hubId out)]
  constructor
  · intro h i cmd hcmd
    have hi := (List.getElem?_eq_some_iff.mp hcmd).1
    rw [length_assigned] at hi
    have := h i ⟨hubId, cmd, out, none, false⟩ (db i) (by simp [fresh, hcmd]) (by simp [passes, hi])
    simpa [Sent.accepted] using this
  · intro h i p ok hp hok
    rw [fresh, List.getElem?_map] at hp
    rw [passes, List.getElem?_map] at hok
    obtain ⟨cmd, hcmd, rfl⟩ := Option.map_eq_some_iff.mp hp
    obtain ⟨j, hj, rfl⟩ := Option.map_eq_some_iff.mp hok
    obtain rfl : i = j := by simpa using (List.getElem?_eq_some_iff.mp hj).2
    simpa [Sent.accepted] using h i cmd hcmd

theorem sendEnd_of_raised : SendEnd s now (fresh hubId out (assigned s commands)) [] true
    (s.sendCommandToEnd hubId commands out true now db) := by
  have hcall :
      (s.sendCommand hubId commands out true now).calls[s.calls.length]? = some ⟨now, [], true⟩ := by
    simp [Service.sendCommand]
  rw [Service.sendCommandToEnd, saveLogs_of_remaining_nil hcall rfl]
  refine ⟨(List.append_nil _).symm, ?_, hcall⟩
  simp [handed, Service.sendCommand, fresh, assigned, Sent.bare, Function.comp_def]

theorem sendEnd_of_not_raised : SendEnd s now (fresh hubId out (assigned s commands))
    (inserts now (fresh hubId out (assigned s commands)) (passes commands db))
    (!allAccepted (fresh hubId out (assigned s commands)) (passes commands db))
    (s.sendCommandToEnd hubId commands out false now db) := by
  have hlen : (fresh hubId out (assigned s commands)).length = commands.length := by
    rw [fresh, List.length_map, length_assigned]
  have hend : LoopEnd (s.sendCommand hubId commands out false now) s.calls.length now
      (fresh hubId out (assigned s commands)) (passes commands db)
      (s.sendCommandToEnd hubId commands out false now db) := by
    apply loopEnd_saveLogs (a := s.sent.length)
    · simp [Service.sendCommand, hlen]
    · intro i p hp
      refine ⟨p, ?_, rfl⟩
      simp only [Service.sendCommand]
      rw [List.getElem?_append_right (Nat.le_add_right ..), Nat.add_sub_cancel_left]
      exact hp
    · rw [hlen, passes, List.length_map, List.length_range]
  refine ⟨hend.logs, ?_, hend.call⟩
  rw [handed, List.map_drop, hend.sent]
  simp [Service.sendCommand, fresh, assigned, Sent.bare, Function.comp_def]

theorem logRows_map_bare (now : String) (sent : List Sent) :
    logRows now (sent.map Sent.bare) = logRows now sent := by
  simp [logRows, Function.comp_def]

theorem SendEnd.rows_published (h : SendEnd s now (fresh hubId out commands) rows r u) :
    logRows now (published s u) = if out = true then logRows now (fresh hubId out commands) else [] := by
  have hfilter : (published s u).map Sent.bare = (fresh hubId out commands).filter Sent.out := by
    rw [← h.sent, List.filter_map]
    rfl
  rw [← logRows_map_bare, hfilter]
  cases out with
  | true =>
      rw [if_pos rfl, List.filter_eq_self.mpr]
      intro p hp
      obtain ⟨cmd, _, rfl⟩ := List.mem_map.mp hp
      rfl
  | false =>
      rw [if_neg Bool.false_ne_true, List.filter_eq_nil_iff.mpr]
      · rfl
      · intro p hp
        obtain ⟨cmd, _, rfl⟩ := List.mem_map.mp hp
        exact Bool.false_ne_true

theorem SendEnd.added_eq (h : SendEnd s now sent rows r u) : added s u = rows := by
  rw [added, h.logs, List.drop_left]

theorem SendEnd.returned (h : SendEnd s now (fresh hubId out (assigned s commands)) rows r u)
    (hrows : r = false → rows = logRows now (fresh hubId out (assigned s commands)))
    (hret : Returned s u) :
    (handed s u).map Sent.command = assigned s commands ∧ u.logs = s.logs ++ logRows now (handed s u) := by
  obtain ⟨call, hcall, _, hr⟩ := hret
  obtain rfl := Option.some.inj (h.call.symm.trans hcall)
  constructor
  · have hcommand : (handed s u).map Sent.command = ((handed s u).map Sent.bare).map Sent.command := by
      rw [List.map_map]
      rfl
    rw [hcommand, h.sent, fresh, List.map_map]
    exact List.map_id _
  · rw [h.logs, hrows hr, ← logRows_map_bare now (handed s u), h.sent]

theorem SendEnd.allOrNothing_iff (h : SendEnd s now (fresh hubId out (assigned s commands)) rows r u)
    (hrows : r = false → rows = logRows now (fresh hubId out (assigned s commands)))
    (hmissing : r = true → assigned s commands ≠ [] → rows.length < commands.length) :
    AllOrNothing s commands now u ↔ (out = true → assigned s commands ≠ [] → r = false) := by
  constructor
  · rintro ⟨_, _, hlogged⟩ hout hne
    by_contra hr
    have hlt := hmissing (Bool.eq_true_of_not_eq_false hr) hne
    have hle := hlogged.length_le
    rw [h.rows_published, h.added_eq, if_pos hout, logRows, fresh, List.length_map, List.length_map,
      length_assigned] at hle
    exact absurd hle (Nat.not_le.mpr hlt)
  · intro hcond
    have hlogged : (logRows now (published s u)).Subperm (added s u) := by
      rw [h.rows_published, h.added_eq]
      split_ifs with hout
      · by_cases hne : assigned s commands = []
        · rw [hne]
          exact List.nil_subperm
        · rw [hrows (hcond hout hne)]
      · exact List.nil_subperm
    exact ⟨fun _ => .inr hlogged, h.returned hrows, hlogged⟩

end

/-- `send_command` is all or nothing for the log if and only if nothing raises once its
envelope is out, unless the envelope is empty. -/
theorem sendCommandToEnd_allOrNothing_iff (s : Service) (hubId : String) (commands : List Command)
    (out raised : Bool) (now : String) (db : Nat → Bool) :
    AllOrNothing s commands now (s.sendCommandToEnd hubId commands out raised now db) ↔
      NothingRaises s commands out raised db := by
  cases raised with
  | true =>
      rw [sendEnd_of_raised.allOrNothing_iff (by simp) (fun _ hne => ?_)]
      · constructor
        · intro h hout i cmd hcmd
          have := h hout (List.ne_nil_of_mem (List.mem_of_getElem? hcmd))
          cases this
        · intro h hout hne
          obtain ⟨cmd, hcmd⟩ := List.exists_mem_of_ne_nil _ hne
          obtain ⟨i, hi⟩ := List.getElem?_of_mem hcmd
          exact absurd (h hout i cmd hi).1 (by simp)
      · rw [← length_assigned (s := s)]
        exact List.length_pos_iff.mpr hne
  | false =>
      rw [sendEnd_of_not_raised.allOrNothing_iff (fun hr => ?_) (fun hr _ => ?_)]
      · rw [Bool.not_eq_false', allAccepted_fresh_iff]
        constructor
        · intro h hout i cmd hcmd
          exact ⟨rfl, h hout (List.ne_nil_of_mem (List.mem_of_getElem? hcmd)) i cmd hcmd⟩
        · intro h hout _ i cmd hcmd
          exact (h hout i cmd hcmd).2
      · exact inserts_of_allAccepted (length_fresh hubId out) (by simpa using hr)
      · refine (length_inserts_lt (by simpa using hr)).trans_eq ?_
        rw [fresh, List.length_map, length_assigned]

/-- A command that the INTEGER column cannot hold. -/
def hugeCommand : Command := ⟨"aa", "TEST", .obj [], 2 ^ 63⟩

def hugeRun : Service :=
  Service.init.sendCommandToEnd "hub" [hugeCommand] true false "10" fun _ => true

/-- It is published, its insert raises, and the log does not show it. -/
theorem hugeRun_unlogged :
    Raised Service.init hugeRun ∧ ¬ AllOrNothing Service.init [hugeCommand] "10" hugeRun := by
  refine ⟨⟨_, rfl, rfl, rfl⟩, ?_⟩
  rintro ⟨_, _, hlogged⟩
  exact absurd hlogged.length_le (by decide)

end Tempio.Server
