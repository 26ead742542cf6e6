import Tempio.Server.Service

namespace Tempio.Server

open Tempio.Lib.Search Tempio.Lib.Transition

/-- Which row belongs to which sent command, and which commands are still to be
logged. -/
structure Tracked (s : Service) : Prop where
  row : ∀ (j : Nat) (p : Sent) (r : Nat), s.sent[j]? = some p → p.row = some r →
    ∃ log : CommandLog, s.logs[r]? = some log ∧ log.hubId = p.hubId ∧
      log.cmdId = p.command.cmdId ∧ (log.status = .pending ↔ p.answered = false)
  inj : ∀ (i j : Nat) (p q : Sent) (r : Nat), s.sent[i]? = some p → s.sent[j]? = some q →
    p.row = some r → q.row = some r → i = j
  onto : ∀ r, r < s.logs.length → ∃ (j : Nat) (p : Sent), s.sent[j]? = some p ∧ p.row = some r
  waiting : ∀ j ∈ s.calls.flatMap Call.remaining, ∃ p : Sent, s.sent[j]? = some p ∧
    p.row = none ∧ p.answered = false
  nodup : (s.calls.flatMap Call.remaining).Nodup

def changedRows (before after : List CommandLog) : List Nat :=
  (List.range before.length).filter fun r =>
    before[r]?.map CommandLog.status ≠ after[r]?.map CommandLog.status

/-- An acknowledgement changes no status but that of the row of the command it answers. -/
def SettlesOwn (s : Service) : Action → Prop
  | .processAck j cmdId success now => ∀ p ∈ s.sent[j]?,
      ∀ r ∈ changedRows s.logs (updateCommandAck s.logs p.hubId cmdId success now), p.row = some r
  | _ => True

/-- Every other command that was sent to the hub under the acknowledged id, and
has its row, has had its acknowledgement. -/
def NoTwin (s : Service) : Action → Prop
  | .processAck j cmdId _ _ => ∀ p ∈ s.sent[j]?, ∀ i, i ≠ j → ∀ q ∈ s.sent[i]?,
      q.hubId = p.hubId → q.command.cmdId = cmdId → q.row.isSome = true → q.answered = true
  | _ => True

instance (s : Service) (a : Action) : Decidable (SettlesOwn s a) := by
  unfold SettlesOwn
  split <;> infer_instance

theorem tracked_init : Tracked Service.init where
  row _ _ _ h := by simp [Service.init] at h
  inj _ _ _ _ _ h := by simp [Service.init] at h
  onto _ h := by simp [Service.init] at h
  waiting _ h := by simp [Service.init] at h
  nodup := by simp [Service.init]

section

variable {s : Service}

theorem Tracked.lt_of_row (h : Tracked s) {j r : Nat} {p : Sent} (hp : s.sent[j]? = some p)
    (hr : p.row = some r) : r < s.logs.length := by
  obtain ⟨log, hlog, _⟩ := h.row j p r hp hr
  exact (List.getElem?_eq_some_iff.mp hlog).1

theorem getElem?_sent_sendCommand {hubId now : String} {commands : List Command} {out raised : Bool}
    {j : Nat} {p : Sent} (h : (s.sendCommand hubId commands out raised now).sent[j]? = some p) :
    s.sent[j]? = some p ∨ s.sent.length ≤ j ∧ p.row = none := by
  simp only [Service.sendCommand] at h
  by_cases hj : j < s.sent.length
  · rw [List.getElem?_append_left hj] at h
    exact .inl h
  · rw [List.getElem?_append_right (by omega), List.getElem?_map] at h
    obtain ⟨cmd, _, rfl⟩ := Option.map_eq_some_iff.mp h
    exact .inr ⟨by omega, rfl⟩

theorem Tracked.sendCommand (h : Tracked s) (hubId : String) (commands : List Command)
    (out raised : Bool) (now : String) : Tracked (s.sendCommand hubId commands out raised now) := by
  have hold {j : Nat} {p : Sent} (hp : s.sent[j]? = some p) :
      (s.sendCommand hubId commands out raised now).sent[j]? = some p := by
    have hj := (List.getElem?_eq_some_iff.mp hp).1
    simpa only [Service.sendCommand, List.getElem?_append_left hj] using hp
  have hcalls : (s.sendCommand hubId commands out raised now).calls.flatMap Call.remaining =
      s.calls.flatMap Call.remaining ++
        if raised then [] else List.range' s.sent.length commands.length := by
    simp [Service.sendCommand]
  have hadded {j : Nat} (hj : j ∈ if raised then [] else List.range' s.sent.length commands.length) :
      s.sent.length ≤ j ∧ j < s.sent.length + commands.length := by
    cases raised with
    | true => simp at hj
    | false => simpa [List.mem_range'_1] using hj
  constructor
  · intro j p r hp hr
    rcases getElem?_sent_sendCommand hp with hp | ⟨_, hn⟩
    · exact h.row j p r hp hr
    · simp [hn] at hr
  · intro i j p q r hp hq hpr hqr
    rcases getElem?_sent_sendCommand hp with hp | ⟨_, hn⟩
    · rcases getElem?_sent_sendCommand hq with hq | ⟨_, hn⟩
      · exact h.inj i j p q r hp hq hpr hqr
      · simp [hn] at hqr
    · simp [hn] at hpr
  · intro r hr
    obtain ⟨j, p, hp, hpr⟩ := h.onto r hr
    exact ⟨j, p, hold hp, hpr⟩
  · intro j hj
    rw [hcalls, List.mem_append] at hj
    rcases hj with hj | hj
    · obtain ⟨p, hp, hw⟩ := h.waiting j hj
      exact ⟨p, hold hp, hw⟩
    · have hlen := length_assignCmdIds s.counter commands
      have hrange := hadded hj
      have hcmd : ∃ cmd, (assignCmdIds s.counter commands).2[j - s.sent.length]? = some cmd :=
        ⟨_, List.getElem?_eq_getElem (by omega)⟩
      obtain ⟨cmd, hcmd⟩ := hcmd
      refine ⟨⟨hubId, cmd, out, none, false⟩, ?_, rfl, rfl⟩
      simp only [Service.sendCommand]
      rw [List.getElem?_append_right hrange.1, List.getElem?_map, hcmd, Option.map_some]
  · rw [hcalls, List.nodup_append]
    refine ⟨h.nodup, ?_, ?_⟩
    · cases raised with
      | true => exact List.nodup_nil
      | false => exact List.nodup_range'
    · intro i hi j hj
      obtain ⟨p, hp, _⟩ := h.waiting i hi
      have hlt := (List.getElem?_eq_some_iff.mp hp).1
      have hrange := hadded hj
      omega

theorem Tracked.raise (h : Tracked s) {k : Nat} {call : Call} (hk : s.calls[k]? = some call) :
    Tracked (s.raise k call) := by
  have hperm : (s.calls.flatMap Call.remaining).Perm
      (call.remaining ++ (s.raise k call).calls.flatMap Call.remaining) :=
    perm_flatMap_set hk (List.append_nil _).symm
  constructor
  · exact h.row
  · exact h.inj
  · exact h.onto
  · intro j hj
    apply h.waiting j
    apply hperm.mem_iff.mpr
    exact List.mem_append_right _ hj
  · exact (List.nodup_append.mp (hperm.nodup h.nodup)).2.1

theorem Tracked.saveLog (h : Tracked s) {k j : Nat} {call : Call} {rest : List Nat} {p : Sent}
    (hk : s.calls[k]? = some call) (hrem : call.remaining = j :: rest) (hp : s.sent[j]? = some p) :
    Tracked { s with
      logs := s.logs ++ [p.log call.now]
      calls := s.calls.set k { call with remaining := rest }
      sent := s.sent.set j { p with row := some s.logs.length } } := by
  have hperm : (s.calls.flatMap Call.remaining).Perm
      ([j] ++ (s.calls.set k { call with remaining := rest }).flatMap Call.remaining) :=
    perm_flatMap_set hk hrem
  have hnodup := List.nodup_cons.mp (hperm.nodup h.nodup)
  have hjlt := (List.getElem?_eq_some_iff.mp hp).1
  obtain ⟨p', hp', hnone, hopen⟩ := h.waiting j (hperm.mem_iff.mpr (List.mem_cons_self ..))
  obtain rfl : p' = p := Option.some.inj (hp'.symm.trans hp)
  have hcases {i : Nat} {q : Sent} (hq : (s.sent.set j { p' with row := some s.logs.length })[i]? = some q) :
      i = j ∧ q = { p' with row := some s.logs.length } ∨ i ≠ j ∧ s.sent[i]? = some q := by
    by_cases hij : i = j
    · subst hij
      rw [List.getElem?_set_self hjlt] at hq
      exact .inl ⟨rfl, (Option.some.inj hq).symm⟩
    · rw [List.getElem?_set_ne (Ne.symm hij)] at hq
      exact .inr ⟨hij, hq⟩
  constructor
  · intro i q r hq hr
    rcases hcases hq with ⟨rfl, rfl⟩ | ⟨_, hq⟩
    · obtain rfl : s.logs.length = r := Option.some.inj hr
      exact ⟨p'.log call.now, List.getElem?_concat_length, rfl, rfl, by simp [Sent.log, hopen]⟩
    · obtain ⟨log, hlog, hkey⟩ := h.row i q r hq hr
      refine ⟨log, ?_, hkey⟩
      rw [List.getElem?_append_left (h.lt_of_row hq hr), hlog]
  · intro i i' q q' r hq hq' hr hr'
    rcases hcases hq with ⟨rfl, rfl⟩ | ⟨_, hold⟩
    · rcases hcases hq' with ⟨rfl, rfl⟩ | ⟨_, hold'⟩
      · rfl
      · have := h.lt_of_row hold' hr'
        have : s.logs.length = r := Option.some.inj hr
        omega
    · rcases hcases hq' with ⟨rfl, rfl⟩ | ⟨_, hold'⟩
      · have := h.lt_of_row hold hr
        have : s.logs.length = r := Option.some.inj hr'
        omega
      · exact h.inj i i' q q' r hold hold' hr hr'
  · intro r hr
    by_cases hlt : r < s.logs.length
    · obtain ⟨i, q, hq, hqr⟩ := h.onto r hlt
      have hij : j ≠ i := by
        rintro rfl
        rw [Option.some.inj (hq.symm.trans hp), hnone] at hqr
        cases hqr
      exact ⟨i, q, by rw [List.getElem?_set_ne hij]; exact hq, hqr⟩
    · have : r = s.logs.length := by
        rw [List.length_append, List.length_singleton] at hr
        omega
      exact ⟨j, _, List.getElem?_set_self hjlt, congrArg some this.symm⟩
  · intro i hi
    obtain ⟨q, hq, hw⟩ := h.waiting i (hperm.mem_iff.mpr (List.mem_cons_of_mem _ hi))
    have hij : j ≠ i := by
      rintro rfl
      exact hnodup.1 hi
    exact ⟨q, by rw [List.getElem?_set_ne hij]; exact hq, hw⟩
  · exact hnodup.2

theorem pending_ack_iff {hubId now : String} {cmdId : Int} {success : Bool} {p : Sent}
    {log : CommandLog} (hrow : p.row.isSome = true) (hhub : log.hubId = p.hubId)
    (hid : log.cmdId = p.command.cmdId) (h : log.status = .pending ↔ p.answered = false) :
    (log.ack hubId cmdId success now).status = .pending ↔ (p.ack hubId cmdId).answered = false := by
  unfold CommandLog.ack Sent.ack
  by_cases hkey : p.hubId = hubId ∧ p.command.cmdId = cmdId
  · by_cases hpend : log.status = .pending <;> simp [hhub, hid, hkey, hpend, hrow]
  · rw [if_neg (fun hc => hkey ⟨hhub ▸ hc.1, hid ▸ hc.2.1⟩), if_neg (fun hc => hkey ⟨hc.1, hc.2.1⟩)]
    exact h

theorem Tracked.processAck (h : Tracked s) (hubId : String) (cmdId : Int) (success : Bool)
    (now : String) : Tracked (s.processAck hubId cmdId success now) := by
  have hsent {j : Nat} {q : Sent} (hq : (s.processAck hubId cmdId success now).sent[j]? = some q) :
      ∃ p, s.sent[j]? = some p ∧ q = p.ack hubId cmdId := by
    simp only [Service.processAck, List.getElem?_map] at hq
    obtain ⟨p, hp, rfl⟩ := Option.map_eq_some_iff.mp hq
    exact ⟨p, hp, rfl⟩
  have hmap {j : Nat} {p : Sent} (hp : s.sent[j]? = some p) :
      (s.processAck hubId cmdId success now).sent[j]? = some (p.ack hubId cmdId) := by
    simp only [Service.processAck, List.getElem?_map, hp, Option.map_some]
  constructor
  · intro j q r hq hr
    obtain ⟨p, hp, rfl⟩ := hsent hq
    rw [Sent.row_ack] at hr
    obtain ⟨log, hlog, hhub, hid, hopen⟩ := h.row j p r hp hr
    refine ⟨log.ack hubId cmdId success now, ?_, ?_, ?_, ?_⟩
    · simp only [Service.processAck, getElem?_updateCommandAck, hlog, Option.map_some]
    · rw [CommandLog.hubId_ack, Sent.hubId_ack, hhub]
    · rw [CommandLog.cmdId_ack, Sent.command_ack, hid]
    · exact pending_ack_iff (by rw [hr]; rfl) hhub hid hopen
  · intro i j q q' r hq hq' hr hr'
    obtain ⟨p, hp, rfl⟩ := hsent hq
    obtain ⟨p', hp', rfl⟩ := hsent hq'
    rw [Sent.row_ack] at hr hr'
    exact h.inj i j p p' r hp hp' hr hr'
  · intro r hr
    obtain ⟨j, p, hp, hpr⟩ := h.onto r (by simpa [Service.processAck] using hr)
    exact ⟨j, p.ack hubId cmdId, hmap hp, by rw [Sent.row_ack, hpr]⟩
  · intro j hj
    obtain ⟨p, hp, hnone, hopen⟩ := h.waiting j hj
    refine ⟨p.ack hubId cmdId, hmap hp, by rw [Sent.row_ack, hnone], ?_⟩
    simpa [Sent.ack, hnone] using hopen
  · exact h.nodup

theorem Tracked.restart (h : Tracked s) : Tracked s.restart where
  row := h.row
  inj := h.inj
  onto := h.onto
  waiting _ hj := by simp [Service.restart] at hj
  nodup := by simp [Service.restart]

theorem Tracked.step {t : Service} (h : Tracked s) {a : Action} (ht : step s a = some t) :
    Tracked t := by
  cases a with
  | sendCommand hubId commands out raised now =>
      exact Option.some.inj ht ▸ h.sendCommand hubId commands out raised now
  | saveLog k ok =>
      obtain ⟨call, j, rest, p, hk, hrem, hp, ⟨_, _, rfl⟩ | ⟨_, rfl⟩⟩ := saveLog_cases ht
      · exact h.saveLog hk hrem hp
      · exact h.raise hk
  | processAck j cmdId success now =>
      obtain ⟨p, _, _, rfl⟩ := step_processAck ht
      exact h.processAck p.hubId cmdId success now
  | restart => exact Option.some.inj ht ▸ h.restart

theorem mem_changedRows_iff {logs : List CommandLog} {hubId now : String} {cmdId : Int}
    {success : Bool} {r : Nat} :
    r ∈ changedRows logs (updateCommandAck logs hubId cmdId success now) ↔
      ∃ log, logs[r]? = some log ∧ log.hubId = hubId ∧ log.cmdId = cmdId ∧
        log.status = .pending := by
  simp only [changedRows, List.mem_filter, List.mem_range, getElem?_updateCommandAck,
    decide_eq_true_eq]
  cases hlog : logs[r]? with
  | none =>
      have := List.getElem?_eq_none_iff.mp hlog
      simp
  | some log =>
      have hlt := (List.getElem?_eq_some_iff.mp hlog).1
      have hne := status_ack_ne_iff hubId cmdId success now log
      simp only [hlt, true_and, Option.map_some, Option.some.injEq, exists_eq_left', ← hne]
      simp [ne_comm]

theorem Tracked.settlesOwn_iff (h : Tracked s) (a : Action) : SettlesOwn s a ↔ NoTwin s a := by
  cases a with
  | sendCommand | saveLog | restart => exact Iff.rfl
  | processAck j cmdId success now =>
      apply forall₂_congr
      intro p hp
      constructor
      · intro hown i hij q hq hhub hid hsome
        obtain ⟨r, hr⟩ := Option.isSome_iff_exists.mp hsome
        obtain ⟨log, hlog, hlhub, hlid, hopen⟩ := h.row i q r hq hr
        by_contra hans
        have hpend := hopen.mpr (by simpa using hans)
        have hpr : p.row = some r := by
          apply hown r
          apply mem_changedRows_iff.mpr
          exact ⟨log, hlog, hlhub.trans hhub, hlid.trans hid, hpend⟩
        exact hij (h.inj i j q p r hq hp hr hpr)
      · intro htwin r hr
        obtain ⟨log, hlog, hhub, hid, hpend⟩ := mem_changedRows_iff.mp hr
        obtain ⟨i, q, hq, hqr⟩ := h.onto r (List.getElem?_eq_some_iff.mp hlog).1
        obtain ⟨log', hlog', hqhub, hqid, hopen⟩ := h.row i q r hq hqr
        obtain rfl : log = log' := Option.some.inj (hlog.symm.trans hlog')
        by_cases hij : i = j
        · subst hij
          rwa [← Option.some.inj (hq.symm.trans hp)]
        · have hans : q.answered = true := by
            apply htwin i hij q hq
            · rw [← hqhub, hhub]
            · rw [← hqid, hid]
            · rw [hqr]
              rfl
          rw [hopen.mp hpend] at hans
          cases hans

end

/-- In every run, acknowledgements settle exactly the commands they answer if and
only if none of them finds a twin of its command still open. -/
theorem along_settlesOwn_iff (as : List Action) :
    Along step SettlesOwn Service.init as ↔ Along step NoTwin Service.init as :=
  along_congr (fun _ _ _ h ht => h.step ht) (fun _ a h => h.settlesOwn_iff a) tracked_init

/-- Two commands for one hub, a restart of the service between them, and the
acknowledgement of the second. -/
def restartedRun : List Action :=
  [.sendCommand "hub" [⟨"aa:aa:aa:aa:aa:aa", "TEST", .obj [], 0⟩] true false "10:00", .saveLog 0 true,
    .restart, .sendCommand "hub" [⟨"bb:bb:bb:bb:bb:bb", "TEST", .obj [], 0⟩] true false "11:00",
    .saveLog 0 true, .processAck 1 1 true "11:01"]

/-- The first command, of another node, is marked as done with the second. -/
theorem restartedRun_settles_both : ¬ Along step SettlesOwn Service.init restartedRun := by
  decide +kernel

end Tempio.Server
