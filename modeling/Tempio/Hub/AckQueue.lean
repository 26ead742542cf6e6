import Tempio.Hub.BleData
import Tempio.Hub.ThreadSafeQueue
import Tempio.Lib.Transition

namespace Tempio.Hub

open Tempio.Lib.Transition Tempio.Protocol

/-- The way of the acknowledgements through the hub. `draining` says that `loop` is inside
its second `while`; the last three fields are the history. -/
structure AckPath where
  ackQueue : ThreadSafeQueue CmdAckReport cmdPendingPerNode
  connected : Bool
  wasConnected : Bool
  draining : Bool
  entered : List CmdAckReport
  refused : List CmdAckReport
  published : List CmdAckReport

namespace AckPath

def init : AckPath := ⟨ThreadSafeQueue.init, false, false, false, [], [], []⟩

/-- The end of `handleCmdAck`, which does not look at the result of the push. -/
def push (s : AckPath) (rpt : CmdAckReport) : AckPath :=
  match s.ackQueue.push rpt with
  | some q => { s with ackQueue := q, entered := s.entered ++ [rpt] }
  | none => { s with refused := s.refused ++ [rpt] }

/-- `msgId` is what `esp_mqtt_client_publish` returns. -/
def mqttPublishReport (s : AckPath) (msgId : Int) : Bool := s.connected && decide (0 ≤ msgId)

end AckPath

inductive AckAction
  | onDataNotify (data : List UInt8) (srcAddr : List Char)
  | onConnected
  | onDisconnected
  | mqttLoop (wifiNow : Bool)
  | drain (msgId : Int)

/-- `drain` is one pass of `while (bleGetPendingAck(&ack))`. -/
def ackStep (s : AckPath) : AckAction → Option AckPath
  | .onDataNotify data srcAddr =>
      match ackOfNotify data srcAddr with
      | none => some s
      | some rpt => some (s.push rpt)
  | .onConnected => some { s with connected := true }
  | .onDisconnected => some { s with connected := false }
  | .mqttLoop wifiNow =>
      if s.draining then none
      else some { s with
        connected := if !wifiNow && s.wasConnected then false else s.connected
        wasConnected := wifiNow
        draining := true }
  | .drain msgId =>
      if s.draining then
        match s.ackQueue.pop with
        | none => some { s with draining := false }
        | some (ack, q) =>
            some { s with
              ackQueue := q
              published := if s.mqttPublishReport msgId then s.published ++ [ack] else s.published }
      else none

/-- What entered the queue was published or is still there, in the order of arrival. -/
def Conserved (s : AckPath) : Prop := s.entered = s.published ++ s.ackQueue.contents

instance decidableConserved (s : AckPath) : Decidable (Conserved s) :=
  inferInstanceAs (Decidable (s.entered = s.published ++ s.ackQueue.contents))

/-- An acknowledgement is taken out only when it can be published. -/
def PublishSucceeds (s : AckPath) : AckAction → Prop
  | .drain msgId =>
      s.draining = true → s.ackQueue.contents ≠ [] → s.mqttPublishReport msgId = true
  | _ => True

section

variable {s t : AckPath}

theorem AckPath.push_cases (s : AckPath) (rpt : CmdAckReport) :
    (s.ackQueue.contents.length < cmdPendingPerNode ∧
      ∃ q : ThreadSafeQueue CmdAckReport cmdPendingPerNode,
        s.push rpt = { s with ackQueue := q, entered := s.entered ++ [rpt] } ∧
          q.contents = s.ackQueue.contents ++ [rpt]) ∨
    (cmdPendingPerNode ≤ s.ackQueue.contents.length ∧
      s.push rpt = { s with refused := s.refused ++ [rpt] }) := by
  cases h : s.ackQueue.pushUnsafe rpt with
  | some q =>
      left
      refine ⟨?_, q, by simp only [push, ThreadSafeQueue.push, h],
        ThreadSafeQueue.contents_pushUnsafe h⟩
      by_contra hfull
      rw [ThreadSafeQueue.pushUnsafe_eq_none.mpr (Nat.le_of_not_lt hfull)] at h
      cases h
  | none =>
      exact .inr ⟨ThreadSafeQueue.pushUnsafe_eq_none.mp h, by simp only [push, ThreadSafeQueue.push, h]⟩

theorem drain_cases (hd : s.draining = true) (msgId : Int) :
    (s.ackQueue.contents = [] ∧ ackStep s (.drain msgId) = some { s with draining := false }) ∨
    ∃ ack, ∃ q : ThreadSafeQueue CmdAckReport cmdPendingPerNode,
      s.ackQueue.contents = ack :: q.contents ∧ ackStep s (.drain msgId) = some { s with
        ackQueue := q
        published := if s.mqttPublishReport msgId then s.published ++ [ack] else s.published } := by
  cases h : s.ackQueue.popUnsafe with
  | none =>
      exact .inl ⟨ThreadSafeQueue.popUnsafe_eq_none.mp h,
        by simp only [ackStep, hd, if_true, ThreadSafeQueue.pop, h]⟩
  | some r =>
      obtain ⟨ack, q⟩ := r
      exact .inr ⟨ack, q, ThreadSafeQueue.contents_popUnsafe h,
        by simp only [ackStep, hd, if_true, ThreadSafeQueue.pop, h]⟩

theorem conserved_push (hs : Conserved s) (rpt : CmdAckReport) : Conserved (s.push rpt) := by
  obtain ⟨_, q, hp, hq⟩ | ⟨_, hp⟩ := s.push_cases rpt
  · rw [hp, Conserved, hq, ← List.append_assoc, ← hs]
  · rw [hp]
    exact hs

theorem conserved_step {a : AckAction} (hs : Conserved s) (hg : PublishSucceeds s a)
    (h : ackStep s a = some t) : Conserved t := by
  cases a with
  | onDataNotify data srcAddr =>
      cases hr : ackOfNotify data srcAddr with
      | none =>
          simp only [ackStep, hr, Option.some.injEq] at h
          exact h ▸ hs
      | some rpt =>
          simp only [ackStep, hr, Option.some.injEq] at h
          exact h ▸ conserved_push hs rpt
  | onConnected | onDisconnected => exact Option.some.inj h ▸ hs
  | mqttLoop wifiNow =>
      simp only [ackStep] at h
      split_ifs at h
      all_goals exact Option.some.inj h ▸ hs
  | drain msgId =>
      cases hd : s.draining with
      | false => simp [ackStep, hd] at h
      | true =>
          obtain ⟨_, ht⟩ | ⟨ack, q, hq, ht⟩ := drain_cases hd msgId
          · obtain rfl := Option.some.inj (h.symm.trans ht)
            exact hs
          · have hok := hg hd (by rw [hq]; exact List.cons_ne_nil _ _)
            obtain rfl := Option.some.inj (h.symm.trans ht)
            rw [Conserved, hs, hq]
            simp [hok]

theorem lost_of_failed {a : AckAction} (hs : Conserved s) (hg : ¬ PublishSucceeds s a) :
    ∃ t, ackStep s a = some t ∧ ¬ Conserved t := by
  cases a with
  | drain msgId =>
      simp only [PublishSucceeds, not_forall] at hg
      obtain ⟨hd, hne, hfail⟩ := hg
      obtain ⟨he, _⟩ | ⟨ack, q, hq, ht⟩ := drain_cases hd msgId
      · exact absurd he hne
      · refine ⟨_, ht, fun hc => ?_⟩
        have hlen := congrArg List.length hc
        simp only [if_neg hfail, List.length_append] at hlen
        rw [hs, hq, List.length_append, List.length_cons] at hlen
        omega
  | _ => exact absurd trivial hg

end

/-- Every acknowledgement that entered the queue is published once or still waits, in every
state of a run, exactly when no publish fails that an acknowledgement was taken out for. -/
theorem always_conserved_iff (as : List AckAction) :
    Always ackStep Conserved AckPath.init as ↔ Along ackStep PublishSucceeds AckPath.init as :=
  always_iff_along (fun _ _ _ => conserved_step) (fun _ => id) (fun _ _ => lost_of_failed) rfl

/-- An acknowledgement arrives while there is no connection to the broker. -/
def outageRun : List AckAction :=
  [.onDataNotify (CmdAck.bytes ⟨7, 1⟩) "aa:bb:cc:dd:ee:ff".toList, .mqttLoop false, .drain 0]

theorem outageRun_loses : ¬ Always ackStep Conserved AckPath.init outageRun := by
  decide +kernel

end Tempio.Hub
