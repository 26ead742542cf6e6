import Tempio.Lib.Json
import Tempio.Lib.Search
import Tempio.Lib.Transition

namespace Tempio.Server

open Tempio.Lib Tempio.Lib.Search

structure Command where
  target : String
  type : String
  payload : Json
  cmdId : Int

inductive Status
  | pending | success | fail
deriving DecidableEq

/-- A row of `command_logs`. Its `id` is its place in the table, as no row is
ever deleted. -/
structure CommandLog where
  cmdId : Int
  hubId : String
  target : String
  type : String
  payload : List Char
  status : Status
  createdAt : String
  ackedAt : Option String
deriving DecidableEq

/-- The INTEGER column holds 64 bits; binding a larger value raises. -/
def Storable (n : Int) : Prop := -2 ^ 63 ≤ n ∧ n < 2 ^ 63

instance (n : Int) : Decidable (Storable n) := inferInstanceAs (Decidable (_ ∧ _))

/-- `none` is an `OverflowError`. -/
def saveCommandLog (logs : List CommandLog) (log : CommandLog) : Option (List CommandLog) :=
  if Storable log.cmdId then some (logs ++ [log]) else none

def ackStatus (success : Bool) : Status := if success then .success else .fail

/-- The UPDATE on one row. -/
def CommandLog.ack (hubId : String) (cmdId : Int) (success : Bool) (now : String)
    (log : CommandLog) : CommandLog :=
  if log.hubId = hubId ∧ log.cmdId = cmdId ∧ log.status = .pending then
    { log with status := ackStatus success, ackedAt := some now }
  else log

def updateCommandAck (logs : List CommandLog) (hubId : String) (cmdId : Int) (success : Bool)
    (now : String) : List CommandLog :=
  logs.map (CommandLog.ack hubId cmdId success now)

def nextCmdId (counter : Nat) : Nat := counter % 65535 + 1

def assignCmdIds : Nat → List Command → Nat × List Command
  | counter, [] => (counter, [])
  | counter, cmd :: cmds =>
      if cmd.cmdId = 0 then
        let rest := assignCmdIds (nextCmdId counter) cmds
        (rest.1, { cmd with cmdId := nextCmdId counter } :: rest.2)
      else
        let rest := assignCmdIds counter cmds
        (rest.1, cmd :: rest.2)

/-- A command handed to the publisher. `out` says whether its envelope went out.
The last two fields are auxiliary, and no function of the server reads them:
the row written for the command, and whether an acknowledgement under its hub
and id has been handled since. -/
structure Sent where
  hubId : String
  command : Command
  out : Bool
  row : Option Nat
  answered : Bool

def Sent.log (p : Sent) (now : String) : CommandLog where
  cmdId := p.command.cmdId
  hubId := p.hubId
  target := p.command.target
  type := p.command.type
  payload := p.command.payload.dumps
  status := .pending
  createdAt := now
  ackedAt := none

def Sent.ack (hubId : String) (cmdId : Int) (p : Sent) : Sent :=
  if p.hubId = hubId ∧ p.command.cmdId = cmdId ∧ p.row.isSome = true then
    { p with answered := true }
  else p

/-- A `send_command` behind its `publish_commands`: the commands, as positions in
`sent`, that its second loop has still to log. -/
structure Call where
  now : String
  remaining : List Nat
  raised : Bool
deriving DecidableEq

structure Service where
  counter : Nat
  logs : List CommandLog
  calls : List Call
  sent : List Sent

def Service.init : Service := ⟨0, [], [], []⟩

/-- What can happen at the server. An acknowledgement answers one command that
was sent, under the id that the node received it with. -/
inductive Action
  | sendCommand (hubId : String) (commands : List Command) (out raised : Bool) (now : String)
  | saveLog (call : Nat) (ok : Bool)
  | processAck (sent : Nat) (cmdId : Int) (success : Bool) (now : String)
  | restart

/-- Up to the end of `publish_commands`, which may raise whether or not the
envelope went out. -/
def Service.sendCommand (s : Service) (hubId : String) (commands : List Command) (out raised : Bool)
    (now : String) : Service :=
  let assigned := assignCmdIds s.counter commands
  { s with
    counter := assigned.1
    sent := s.sent ++ assigned.2.map fun cmd => ⟨hubId, cmd, out, none, false⟩
    calls := s.calls ++
      [⟨now, if raised then [] else List.range' s.sent.length commands.length, raised⟩] }

/-- The error leaves `send_command`: what is still to be logged stays unlogged. -/
def Service.raise (s : Service) (k : Nat) (call : Call) : Service :=
  { s with calls := s.calls.set k { call with remaining := [], raised := true } }

/-- One pass of the second loop. The database may refuse any insert. -/
def Service.saveLog (s : Service) (k : Nat) (ok : Bool) : Option Service :=
  match s.calls[k]? with
  | none => none
  | some call =>
      match call.remaining with
      | [] => none
      | j :: rest =>
          match s.sent[j]? with
          | none => none
          | some p =>
              match saveCommandLog s.logs (p.log call.now), ok with
              | some logs, true => some
                  { s with
                    logs := logs
                    calls := s.calls.set k { call with remaining := rest }
                    sent := s.sent.set j { p with row := some s.logs.length } }
              | _, _ => some (s.raise k call)

def Service.processAck (s : Service) (hubId : String) (cmdId : Int) (success : Bool) (now : String) :
    Service :=
  { s with
    logs := updateCommandAck s.logs hubId cmdId success now
    sent := s.sent.map (Sent.ack hubId cmdId) }

/-- The counter and the running calls are lost, the database stays. -/
def Service.restart (s : Service) : Service := { s with counter := 0, calls := [] }

def step (s : Service) : Action → Option Service
  | .sendCommand hubId commands out raised now => some (s.sendCommand hubId commands out raised now)
  | .saveLog k ok => s.saveLog k ok
  | .processAck j cmdId success now =>
      match s.sent[j]? with
      | none => none
      | some p => if p.out then some (s.processAck p.hubId cmdId success now) else none
  | .restart => some s.restart

@[simp]
theorem ackStatus_ne_pending (success : Bool) : ackStatus success ≠ .pending := by
  cases success <;> simp [ackStatus]

@[simp]
theorem length_updateCommandAck (logs : List CommandLog) (hubId : String) (cmdId : Int)
    (success : Bool) (now : String) :
    (updateCommandAck logs hubId cmdId success now).length = logs.length :=
  List.length_map _

theorem getElem?_updateCommandAck (logs : List CommandLog) (hubId : String) (cmdId : Int)
    (success : Bool) (now : String) (r : Nat) :
    (updateCommandAck logs hubId cmdId success now)[r]? =
      logs[r]?.map (CommandLog.ack hubId cmdId success now) :=
  List.getElem?_map ..

theorem status_ack_ne_iff (hubId : String) (cmdId : Int) (success : Bool) (now : String)
    (log : CommandLog) : (log.ack hubId cmdId success now).status ≠ log.status ↔
      log.hubId = hubId ∧ log.cmdId = cmdId ∧ log.status = .pending := by
  unfold CommandLog.ack
  split_ifs with h
  · simp [h]
  · simpa using h

@[simp]
theorem Sent.row_ack (hubId : String) (cmdId : Int) (p : Sent) : (p.ack hubId cmdId).row = p.row := by
  unfold Sent.ack
  split_ifs <;> rfl

theorem CommandLog.hubId_ack (hubId : String) (cmdId : Int) (success : Bool) (now : String)
    (log : CommandLog) : (log.ack hubId cmdId success now).hubId = log.hubId := by
  unfold CommandLog.ack
  split_ifs <;> rfl

theorem CommandLog.cmdId_ack (hubId : String) (cmdId : Int) (success : Bool) (now : String)
    (log : CommandLog) : (log.ack hubId cmdId success now).cmdId = log.cmdId := by
  unfold CommandLog.ack
  split_ifs <;> rfl

theorem Sent.hubId_ack (hubId : String) (cmdId : Int) (p : Sent) :
    (p.ack hubId cmdId).hubId = p.hubId := by
  unfold Sent.ack
  split_ifs <;> rfl

theorem Sent.command_ack (hubId : String) (cmdId : Int) (p : Sent) :
    (p.ack hubId cmdId).command = p.command := by
  unfold Sent.ack
  split_ifs <;> rfl

theorem length_assignCmdIds (counter : Nat) (commands : List Command) :
    (assignCmdIds counter commands).2.length = commands.length := by
  induction commands generalizing counter with
  | nil => rfl
  | cons cmd cmds ih =>
      rw [assignCmdIds]
      split_ifs <;> simp [ih]

theorem nextCmdId_pos (counter : Nat) : 1 ≤ nextCmdId counter ∧ nextCmdId counter ≤ 65535 := by
  unfold nextCmdId
  omega

/-- No command goes out with id 0. -/
theorem cmdId_assignCmdIds (counter : Nat) (commands : List Command) :
    ∀ cmd ∈ (assignCmdIds counter commands).2, cmd.cmdId ≠ 0 := by
  induction commands generalizing counter with
  | nil => simp [assignCmdIds]
  | cons cmd cmds ih =>
      rw [assignCmdIds]
      split_ifs with h
      · have := nextCmdId_pos counter
        simp only [List.forall_mem_cons]
        exact ⟨by omega, ih _⟩
      · exact List.forall_mem_cons.mpr ⟨h, ih _⟩

theorem saveLog_cases {s t : Service} {k : Nat} {ok : Bool} (h : s.saveLog k ok = some t) :
    ∃ call j rest p, s.calls[k]? = some call ∧ call.remaining = j :: rest ∧ s.sent[j]? = some p ∧
      ((ok = true ∧ Storable p.command.cmdId ∧
          t = { s with
            logs := s.logs ++ [p.log call.now]
            calls := s.calls.set k { call with remaining := rest }
            sent := s.sent.set j { p with row := some s.logs.length } }) ∨
        (ok = false ∨ ¬ Storable p.command.cmdId) ∧ t = s.raise k call) := by
  unfold Service.saveLog at h
  cases hcall : s.calls[k]? with
  | none => simp [hcall] at h
  | some call =>
      cases hrem : call.remaining with
      | nil => simp [hcall, hrem] at h
      | cons j rest =>
          cases hp : s.sent[j]? with
          | none => simp [hcall, hrem, hp] at h
          | some p =>
              refine ⟨call, j, rest, p, rfl, hrem, hp, ?_⟩
              simp only [hcall, hrem, hp, saveCommandLog] at h
              by_cases hs : Storable p.command.cmdId
              · have hlog : Storable (p.log call.now).cmdId := hs
                cases ok with
                | true =>
                    rw [if_pos hlog] at h
                    exact .inl ⟨rfl, hs, (Option.some.inj h).symm⟩
                | false =>
                    rw [if_pos hlog] at h
                    exact .inr ⟨.inl rfl, (Option.some.inj h).symm⟩
              · have hlog : ¬ Storable (p.log call.now).cmdId := hs
                rw [if_neg hlog] at h
                exact .inr ⟨.inr hs, (Option.some.inj h).symm⟩

theorem step_processAck {s t : Service} {j : Nat} {cmdId : Int} {success : Bool} {now : String}
    (h : step s (.processAck j cmdId success now) = some t) :
    ∃ p, s.sent[j]? = some p ∧ p.out = true ∧ t = s.processAck p.hubId cmdId success now := by
  cases hp : s.sent[j]? with
  | none => simp [step, hp] at h
  | some p =>
      cases hout : p.out with
      | false => simp [step, hp, hout] at h
      | true =>
          simp only [step, hp, hout, if_true] at h
          exact ⟨p, rfl, hout, (Option.some.inj h).symm⟩

end Tempio.Server
