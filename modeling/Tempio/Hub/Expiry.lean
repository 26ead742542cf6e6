import Tempio.Hub.Delivery
import Tempio.Lib.Projection

namespace Tempio.Hub

open PendingPool Tempio.Lib.Transition Tempio.Lib.Words

def HubState.youngAt (s : HubState) (now : Nat) (c : MqttCommand) : Prop :=
  ∃ d ∈ s.dispatched, d.2.origin = c.origin ∧ now < d.1 + cmdTtlMs.toNat

/-- No command was transmitted after its time. -/
def NeverStale (s : HubState) : Prop := ∀ e ∈ s.transmitted, s.youngAt e.1 e.2

instance (s : HubState) (now : Nat) (c : MqttCommand) : Decidable (s.youngAt now c) :=
  inferInstanceAs (Decidable (∃ d ∈ s.dispatched, _ ∧ _))

instance (s : HubState) : Decidable (NeverStale s) :=
  inferInstanceAs (Decidable (∀ e ∈ s.transmitted, s.youngAt e.1 e.2))

/-- The run ends before `millis()` wraps. -/
def BeforeWrap (s : HubState) : Action → Prop
  | .tick ms => s.now + ms < 2 ^ 32
  | _ => True

/-- The hub, with the time at which the loop task took the command that it holds out of the pool. -/
structure Popped where
  hub : HubState
  poppedAt : Nat

def Popped.init : Popped := ⟨HubState.init, 0⟩

def Popped.lastPop (s : Popped) : Action → Nat
  | .pop => s.hub.now
  | _ => s.poppedAt

def popStep (json : ArduinoJson) (s : Popped) (a : Action) : Option Popped :=
  (step json s.hub a).map fun hub => ⟨hub, s.lastPop a⟩

/-- By its stamp the command still has time. -/
def HubState.looksYoung (s : HubState) (c : MqttCommand) : Bool :=
  decide (s.now < c.queuedAt.toNat + cmdTtlMs.toNat)

/-- The time that the command has by its stamp is not more than what had passed between its dispatch and
the stamp, and a write of `ms` milliseconds. -/
def HubState.Lapsing (s : HubState) (ms : Nat) (c : MqttCommand) : Prop :=
  ∃ d ∈ s.dispatched, d.2.serial = c.serial ∧
    c.queuedAt.toNat + cmdTtlMs.toNat - s.now ≤ c.queuedAt.toNat - d.1 + ms

/-- A write ends at most `ms` milliseconds after the `dispatchCommand` or the `pop` before it, and `pop`
is not called while the first command of the queue that looks young is lapsing. -/
def KeepsAge (ms : Nat) (s : Popped) : Action → Prop
  | .send _ =>
      match s.hub.mqtt with
      | .sending cmd => ∀ d ∈ s.hub.dispatched, d.2.serial = cmd.serial → s.hub.now ≤ d.1 + ms
      | _ => True
  | .pop =>
      match s.hub.loop with
      | .popping nodeId _ =>
          ∀ c ∈ (s.hub.pool.queueOf nodeId).find? s.hub.looksYoung, ¬ s.hub.Lapsing ms c
      | _ => True
  | .resend _ => s.hub.now ≤ s.poppedAt + ms
  | _ => True

instance (s : HubState) (ms : Nat) (c : MqttCommand) : Decidable (s.Lapsing ms c) :=
  inferInstanceAs (Decidable (∃ d ∈ s.dispatched, _ ∧ _))

instance (s : HubState) : (a : Action) → Decidable (BeforeWrap s a)
  | .tick ms => inferInstanceAs (Decidable (s.now + ms < 2 ^ 32))
  | .dispatch _ | .send _ | .push | .flushNode _ | .flushAll | .nextNode | .connected _ | .pop
  | .resend _ | .pushFront => .isTrue trivial

instance (ms : Nat) (s : Popped) : (a : Action) → Decidable (KeepsAge ms s a)
  | .send _ => by unfold KeepsAge; cases s.hub.mqtt <;> infer_instance
  | .pop => by unfold KeepsAge; cases s.hub.loop <;> infer_instance
  | .resend _ => inferInstanceAs (Decidable (s.hub.now ≤ s.poppedAt + ms))
  | .tick _ | .dispatch _ | .push | .flushNode _ | .flushAll | .nextNode | .connected _
  | .pushFront => .isTrue trivial

/-- The stamp was made after the dispatch. -/
def HubState.Stamped (s : HubState) (c : MqttCommand) : Prop :=
  c.queuedAt.toNat ≤ s.now ∧ ∀ d ∈ s.dispatched, d.2.serial = c.serial → d.1 ≤ c.queuedAt.toNat

/-- The loop task holds no command that grows too old before its write ends. -/
structure Aged (ms : Nat) (s : Popped) : Prop extends Inv s.hub where
  small : s.hub.now < 2 ^ 32
  stamped : ∀ n, ∀ c ∈ s.hub.pool.queueOf n, s.hub.Stamped c
  heldYoung : ∀ c ∈ s.hub.loop.held, ∃ d ∈ s.hub.dispatched, d.2.origin = c.origin ∧
    s.poppedAt + ms < d.1 + cmdTtlMs.toNat
  neverStale : NeverStale s.hub

section

variable {json : ArduinoJson} {ms : Nat} {s : HubState} {c : MqttCommand}

theorem aged_init : Aged ms Popped.init where
  toInv := inv_init
  small := by decide
  stamped n c hc := by simp [Popped.init, queueOf_init] at hc
  heldYoung c hc := absurd hc List.not_mem_nil
  neverStale e he := absurd he List.not_mem_nil

theorem fresh_eq_looksYoung (hsmall : s.now < 2 ^ 32) (hc : c.queuedAt.toNat ≤ s.now) :
    c.fresh s.millis = s.looksYoung c := by
  have hsub : UInt32.ofNat s.now - UInt32.ofNat c.queuedAt.toNat < cmdTtlMs ↔
      s.now - c.queuedAt.toNat < cmdTtlMs.toNat := sub_lt_iff hc hsmall
  rw [UInt32.ofNat_toNat] at hsub
  rw [MqttCommand.fresh, HubState.millis, HubState.looksYoung, decide_eq_decide, hsub]
  omega

/-- The test of `pop` passes the first command that looks young. -/
theorem head?_unexpired (hsmall : s.now < 2 ^ 32) {l : List MqttCommand}
    (hstamp : ∀ c ∈ l, s.Stamped c) :
    (unexpired s.millis l).head? = l.find? s.looksYoung := by
  induction l with
  | nil => rfl
  | cons c cs ih =>
      obtain ⟨hc, hcs⟩ := List.forall_mem_cons.mp hstamp
      have hfresh := fresh_eq_looksYoung hsmall hc.1
      cases hyoung : s.looksYoung c with
      | true =>
          rw [hyoung] at hfresh
          rw [unexpired, List.dropWhile_cons_of_neg (by simp [hfresh]), List.head?_cons,
            List.find?_cons_of_pos hyoung]
      | false =>
          rw [hyoung] at hfresh
          rw [unexpired, List.dropWhile_cons_of_pos (by simp [hfresh]),
            List.find?_cons_of_neg (by simp [hyoung])]
          exact ih hcs

/-- A command that is not lapsing can be written in time. -/
theorem young_of_not_lapsing (hs : Inv s) {n : NodeId} (hc : c ∈ s.pool.queueOf n)
    (hleft : ¬ s.Lapsing ms c) :
    ∃ d ∈ s.dispatched, d.2.origin = c.origin ∧ s.now + ms < d.1 + cmdTtlMs.toNat := by
  obtain ⟨d, hd, ho⟩ := hs.known c (.inl ⟨n, hc⟩)
  have hlag : c.queuedAt.toNat - d.1 + ms < c.queuedAt.toNat + cmdTtlMs.toNat - s.now :=
    Nat.lt_of_not_le fun h => hleft ⟨d, hd, MqttCommand.serial_of_origin ho, h⟩
  exact ⟨d, hd, ho, by omega⟩

theorem Inv.dispatch_unique {s : HubState} (hs : Inv s) {d e : Nat × MqttCommand}
    (hd : d ∈ s.dispatched) (he : e ∈ s.dispatched) (h : d.2.serial = e.2.serial) : d = e := by
  have hnodup : (s.dispatched.map fun d => d.2.serial).Nodup := hs.serials ▸ List.nodup_range
  exact List.inj_on_of_nodup_map hnodup hd he h

theorem stamped_stamp (hs : Inv s) (hsmall : s.now < 2 ^ 32) (c : MqttCommand) :
    s.Stamped (c.stamp s.millis) := by
  have hnow : (c.stamp s.millis).queuedAt.toNat = s.now := by
    rw [MqttCommand.stamp_queuedAt, HubState.millis, UInt32.toNat_ofNat_of_lt' hsmall]
  rw [HubState.Stamped, hnow]
  exact ⟨Nat.le_refl _, fun d hd _ => hs.past d hd⟩

theorem exists_mem_append_left {α : Type} {P : α → Prop} {l : List α} (h : ∃ d ∈ l, P d)
    (m : List α) : ∃ d ∈ l ++ m, P d := by
  obtain ⟨d, hd, hP⟩ := h
  exact ⟨d, List.mem_append_left _ hd, hP⟩

theorem neverStale_append (h : NeverStale s) (hc : s.youngAt s.now c) :
    ∀ e ∈ s.transmitted ++ [(s.now, c)], s.youngAt e.1 e.2 := by
  intro e he
  rcases List.mem_append.mp he with he | he
  · exact h e he
  · rw [List.mem_singleton.mp he]
    exact hc

end

theorem aged_step {json : ArduinoJson} {ms : Nat} (hms : ms < cmdTtlMs.toNat) (s : Popped) (a : Action)
    (t : Popped) (hs : Aged ms s) (hg : BeforeWrap s.hub a ∧ KeepsAge ms s a)
    (h : popStep json s a = some t) : Aged ms t := by
  obtain ⟨hub, hhub, rfl⟩ := Option.map_eq_some_iff.mp h
  have hi := inv_step hs.toInv hhub
  obtain ⟨hw, hg⟩ := hg
  cases moves_of_step hs.wf hhub with
  | tick ms =>
      exact { hi, hs with
        small := hw
        stamped := fun n c hc => (hs.stamped n c hc).imp_left Nat.le_add_right_of_le }
  | dispatch cmd hm ht =>
      refine { hi, hs with
        stamped := fun n c hc => (hs.stamped n c hc).imp_right fun hlater d hd hserial => ?_
        heldYoung := fun c hc => exists_mem_append_left (hs.heldYoung c hc) _
        neverStale := fun e he => exists_mem_append_left (hs.neverStale e he) _ }
      rcases List.mem_append.mp hd with hd | hd
      · exact hlater d hd hserial
      · rw [List.mem_singleton.mp hd] at hserial
        have hlt := hs.serial_lt (hs.known c (.inl ⟨n, hc⟩))
        exact absurd hserial (Nat.ne_of_gt hlt)
  | sent link cmd hm hsend =>
      simp only [KeepsAge, hm] at hg
      obtain ⟨d, hd, ho⟩ := hs.known cmd (.inr (.inr (by simp [hm, MqttTask.inFlight])))
      have hlate := hg d hd (MqttCommand.serial_of_origin ho)
      exact { hi, hs with neverStale := neverStale_append hs.neverStale ⟨d, hd, ho, by omega⟩ }
  | unsent link cmd hm hsend | refused cmd hm hr => exact { hi, hs with }
  | pushed cmd p hm hr hu =>
      refine { hi, hs with stamped := hu.forall_queueOf hs.stamped fun c hc => ?_ }
      rcases List.mem_append.mp hc with hc | hc
      · exact hs.stamped _ c hc
      · rw [List.mem_singleton.mp hc]
        exact stamped_stamp hs.toInv hs.small cmd
  | flushNode nodeId hl | flushAll hl | scanEnd idx hl hx | scanSkip idx hl hx hw
  | scanFound idx hl hx hw | connected nodeId resume hl =>
      exact { hi, hs with heldYoung := fun c hc => absurd hc List.not_mem_nil }
  | notConnected nodeId resume hl | lost nodeId cmd resume hl hr =>
      exact { hi, hs with heldYoung := by simp }
  | popped nodeId resume cmd rest p hl hq hu =>
      simp only [KeepsAge, hl] at hg
      have hfound := head?_unexpired hs.small (hs.stamped nodeId)
      rw [hq, List.head?_cons] at hfound
      have hmem := mem_of_unexpired hq List.mem_cons_self
      have hyoung := young_of_not_lapsing hs.toInv hmem (hg cmd hfound.symm)
      refine { hi, hs with
        stamped := hu.forall_queueOf hs.stamped fun c hc => ?_
        heldYoung := fun c hc => ?_ }
      · exact hs.stamped _ c (mem_of_unexpired hq (List.mem_cons_of_mem _ hc))
      · rw [List.mem_singleton.mp hc]
        exact hyoung
  | drained nodeId resume p hl hq hu =>
      exact { hi, hs with
        stamped := hu.forall_queueOf hs.stamped fun c hc => absurd hc List.not_mem_nil
        heldYoung := by simp }
  | resent link nodeId cmd resume hl hsend =>
      obtain ⟨d, hd, ho, hyoung⟩ := hs.heldYoung cmd (by simp [hl, LoopTask.held])
      have hend : s.hub.now ≤ s.poppedAt + ms := hg
      exact { hi, hs with
        heldYoung := fun c hc => absurd hc List.not_mem_nil
        neverStale := neverStale_append hs.neverStale ⟨d, hd, ho, by omega⟩ }
  | unresent link nodeId cmd resume hl hsend =>
      have hheld := hs.heldYoung
      rw [hl] at hheld
      exact { hi, hs with heldYoung := hheld }
  | putBack nodeId cmd resume p hl hr hu =>
      refine { hi, hs with
        stamped := hu.forall_queueOf hs.stamped fun c hc => ?_
        heldYoung := by simp }
      rcases List.mem_cons.mp hc with rfl | hc
      · exact stamped_stamp hs.toInv hs.small cmd
      · exact hs.stamped _ c hc

/-- No other `pop` is shut out: a lapsing command that is popped, and gets through after `ms` milliseconds,
is stale. -/
theorem stale_of_lapsing {json : ArduinoJson} {ms : Nat} {s : Popped} (hs : Aged ms s) {nodeId : NodeId}
    {resume : Option Nat} {cmd : MqttCommand} {rest : List MqttCommand}
    (hl : s.hub.loop = .popping nodeId resume)
    (hq : unexpired s.hub.millis (s.hub.pool.queueOf nodeId) = cmd :: rest)
    (hlapsing : s.hub.Lapsing ms cmd) (hsend : trySend json (fun _ _ => true) cmd = true) :
    ∃ t, exec (step json) s.hub [.pop, .tick ms, .resend true] = some t ∧ ¬ NeverStale t := by
  obtain ⟨d, hd, hserial, hleft⟩ := hlapsing
  obtain ⟨_, hlater⟩ := hs.stamped nodeId cmd (mem_of_unexpired hq List.mem_cons_self)
  have hstamp := hlater d hd hserial
  obtain ⟨p, hpop⟩ : ∃ p, s.hub.pool.pop s.hub.millis nodeId = (some cmd, p) := by
    obtain ⟨-, hn⟩ | ⟨p, -, hn, -⟩ | ⟨cmd', rest', p, hpop, hq', -⟩ :=
      pop_cases hs.wf s.hub.millis nodeId
    · rw [queueOf, hn] at hq
      cases hq
    · cases hq.symm.trans hn
    · obtain ⟨rfl, rfl⟩ := List.cons.inj (hq.symm.trans hq')
      exact ⟨p, hpop⟩
  simp only [exec_cons, exec_nil, step, hl, hpop, hsend, Option.bind_some, if_true, Option.some.injEq,
    exists_eq_left']
  intro hnever
  obtain ⟨e, he, horigin, hyoung⟩ := hnever _ (List.mem_append_right _ (List.mem_singleton_self _))
  have hsame := hs.dispatch_unique hd he (hserial.trans (MqttCommand.serial_of_origin horigin).symm)
  rw [← hsame] at hyoung
  omega

def flushTest : List Action := [.flushNode (testCommand 1).target, .connected true, .pop]

/-- Writes take time here. One command is sent at its second attempt, the other is not sent. -/
def agingRun : List Action :=
  [.dispatch (testCommand 1), .tick 40, .send false, .push, .tick 199960] ++ flushTest ++
    [.tick 30, .resend false, .pushFront, .tick 90000] ++ flushTest ++ [.tick 20, .resend true, .pop] ++
    failedDispatch 2 ++ [.tick 300000] ++ flushTest

/-- A failed re-send in between makes the command look new again. -/
def restampingRun : List Action :=
  failedDispatch 1 ++ [.tick 200000] ++ flushTest ++ [.resend false, .pushFront] ++
    [.tick 200000] ++ flushTest ++ [.resend true]

end Tempio.Hub
