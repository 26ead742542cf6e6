import Tempio.Hub.Invariant
import Tempio.Lib.Words

namespace Tempio.Hub

open PendingPool Tempio.Lib.Transition Tempio.Lib.Words

/-- The pool under a clock that does not wrap. The `serial` of a command is the true time of
its last stamp here; the last two fields record what `pop` took out, and when. -/
structure TimedPool where
  pool : PendingPool
  now : Nat
  returned : List (Nat × MqttCommand)
  discarded : List (Nat × MqttCommand)

namespace TimedPool

def init : TimedPool := ⟨PendingPool.init, 0, [], []⟩

def millis (s : TimedPool) : UInt32 := UInt32.ofNat s.now

end TimedPool

/-- An insertion comes with the time of its stamp, which is read outside the critical section. -/
inductive TimedCall
  | tick (ms : Nat)
  | push (stamp : Nat) (nodeId : NodeId) (cmd : MqttCommand)
  | pushFront (stamp : Nat) (nodeId : NodeId) (cmd : MqttCommand)
  | pop (nodeId : NodeId)

def timedStep (s : TimedPool) : TimedCall → Option TimedPool
  | .tick ms => some { s with now := s.now + ms }
  | .push stamp nodeId cmd =>
      if stamp ≤ s.now then
        some { s with pool := (s.pool.push (UInt32.ofNat stamp) nodeId { cmd with serial := stamp }).2 }
      else none
  | .pushFront stamp nodeId cmd =>
      if stamp ≤ s.now then
        some { s with
          pool := (s.pool.pushFront (UInt32.ofNat stamp) nodeId { cmd with serial := stamp }).2 }
      else none
  | .pop nodeId =>
      some { s with
        pool := (s.pool.pop s.millis nodeId).2
        returned := s.returned ++ (s.pool.pop s.millis nodeId).1.toList.map (Prod.mk s.now)
        discarded := s.discarded ++
          (expiredPrefix s.millis (s.pool.queueOf nodeId)).map (Prod.mk s.now) }

/-- `pop` judges every command by its true age. -/
structure Exact (s : TimedPool) : Prop where
  returned : ∀ e ∈ s.returned, e.1 - e.2.serial < cmdTtlMs.toNat
  discarded : ∀ e ∈ s.discarded, cmdTtlMs.toNat ≤ e.1 - e.2.serial

instance decidableExact (s : TimedPool) : Decidable (Exact s) :=
  decidable_of_iff ((∀ e ∈ s.returned, e.1 - e.2.serial < cmdTtlMs.toNat) ∧
      ∀ e ∈ s.discarded, cmdTtlMs.toNat ≤ e.1 - e.2.serial)
    ⟨fun h => ⟨h.1, h.2⟩, fun h => ⟨h.1, h.2⟩⟩

/-- An age that 32 bits show as a small one. -/
def Wrapped (age : Nat) : Prop := 2 ^ 32 ≤ age ∧ age % 2 ^ 32 < cmdTtlMs.toNat

/-- `pop` comes to no command whose age has wrapped: in front of each such command stands one
that it returns. -/
def NoneWrapped (s : TimedPool) : TimedCall → Prop
  | .pop nodeId => ∀ before c after, s.pool.queueOf nodeId = before ++ c :: after →
      (∀ d ∈ before, cmdTtlMs.toNat ≤ (s.now - d.serial) % 2 ^ 32) → ¬ Wrapped (s.now - c.serial)
  | _ => True

/-- The stamp of a queued command is the wrapped form of its time. -/
def StampedAt (now : Nat) (c : MqttCommand) : Prop :=
  c.serial ≤ now ∧ c.queuedAt = UInt32.ofNat c.serial

structure Timed (s : TimedPool) : Prop extends Exact s where
  wf : s.pool.Wf
  stamped : ∀ n, ∀ c ∈ s.pool.queueOf n, StampedAt s.now c

section

variable {s t : TimedPool} {c : MqttCommand} {l rest : List MqttCommand} {now : Nat} {nodeId : NodeId}

theorem timed_init : Timed TimedPool.init where
  returned e he := absurd he List.not_mem_nil
  discarded e he := absurd he List.not_mem_nil
  wf := wf_init
  stamped n c hc := by
    change c ∈ HubState.init.pool.queueOf n at hc
    rw [queueOf_init] at hc
    cases hc

theorem StampedAt.fresh_iff (h : StampedAt now c) :
    c.fresh (UInt32.ofNat now) = true ↔ (now - c.serial) % 2 ^ 32 < cmdTtlMs.toNat := by
  rw [MqttCommand.fresh, decide_eq_true_iff, UInt32.lt_iff_toNat_lt, h.2, toNat_sub_ofNat h.1]

theorem StampedAt.mono (h : StampedAt now c) (ms : Nat) : StampedAt (now + ms) c :=
  ⟨Nat.le_add_right_of_le h.1, h.2⟩

/-- Where the wrapped test says that a command has expired, it has. -/
theorem ttl_le_of_expired (h : ∀ c ∈ l, StampedAt now c) :
    ∀ c ∈ expiredPrefix (UInt32.ofNat now) l, cmdTtlMs.toNat ≤ (now - c.serial) % 2 ^ 32 := by
  intro c hc
  have hmem : c ∈ l := (List.takeWhile_sublist _).subset hc
  have hnot := List.mem_takeWhile_imp hc
  rw [Bool.not_eq_true', ← Bool.not_eq_true, (h c hmem).fresh_iff] at hnot
  exact Nat.le_of_not_lt hnot

theorem unexpired_of_split {before after : List MqttCommand} (h : ∀ c ∈ l, StampedAt now c)
    (hl : l = before ++ c :: after)
    (hbefore : ∀ d ∈ before, cmdTtlMs.toNat ≤ (now - d.serial) % 2 ^ 32)
    (hc : (now - c.serial) % 2 ^ 32 < cmdTtlMs.toNat) :
    unexpired (UInt32.ofNat now) l = c :: after := by
  subst hl
  have hfresh := (h c (List.mem_append_right _ List.mem_cons_self)).fresh_iff.mpr hc
  rw [unexpired, List.dropWhile_append_of_pos, List.dropWhile_cons_of_neg (by simp [hfresh])]
  intro d hd
  have hd' := (h d (List.mem_append_left _ hd)).fresh_iff.not.mpr (Nat.not_lt.mpr (hbefore d hd))
  simpa using hd'

/-- One insertion, at either end of the queue. -/
theorem Timed.insert (h : Timed s) {p : PendingPool} {q : List MqttCommand}
    (hu : Update s.pool nodeId (some q) p)
    (hq : ∀ c ∈ q, StampedAt s.now c) : Timed { s with pool := p } where
  toExact := ⟨h.returned, h.discarded⟩
  wf := hu.wf
  stamped := hu.forall_queueOf h.stamped hq

theorem stampedAt_stamp {stamp : Nat} (h : stamp ≤ now) (cmd : MqttCommand) :
    StampedAt now (MqttCommand.stamp { cmd with serial := stamp } (UInt32.ofNat stamp)) :=
  ⟨h, rfl⟩

theorem Timed.push (h : Timed s) {stamp : Nat} (hstamp : stamp ≤ s.now) (nodeId : NodeId)
    (cmd : MqttCommand) :
    Timed { s with
      pool := (s.pool.push (UInt32.ofNat stamp) nodeId { cmd with serial := stamp }).2 } := by
  rcases push_cases h.wf (UInt32.ofNat stamp) nodeId { cmd with serial := stamp } with
    ⟨p, hr, _, hu⟩ | ⟨hr, _⟩
  · rw [hr]
    refine h.insert hu fun c hc => ?_
    rcases List.mem_append.mp hc with hc | hc
    · exact h.stamped nodeId c hc
    · rw [List.mem_singleton.mp hc]
      exact stampedAt_stamp hstamp cmd
  · rw [hr]
    exact h

theorem Timed.pushFront (h : Timed s) {stamp : Nat} (hstamp : stamp ≤ s.now) (nodeId : NodeId)
    (cmd : MqttCommand) :
    Timed { s with
      pool := (s.pool.pushFront (UInt32.ofNat stamp) nodeId { cmd with serial := stamp }).2 } := by
  rcases pushFront_cases h.wf (UInt32.ofNat stamp) nodeId { cmd with serial := stamp } with
    ⟨p, hr, _, hu⟩ | ⟨hr, _⟩
  · rw [hr]
    refine h.insert hu fun c hc => ?_
    rcases List.mem_cons.mp hc with rfl | hc
    · exact stampedAt_stamp hstamp cmd
    · exact h.stamped nodeId c hc
  · rw [hr]
    exact h

/-- What `pop` leaves in the pool was there before. -/
theorem Timed.pop_pool (h : Timed s) (nodeId : NodeId) : (s.pool.pop s.millis nodeId).2.Wf ∧
    ∀ n, ∀ c ∈ (s.pool.pop s.millis nodeId).2.queueOf n, c ∈ s.pool.queueOf n := by
  obtain ⟨hr, _⟩ | ⟨p, hr, _, hu⟩ | ⟨cmd, rest, p, hr, hq, hu⟩ := pop_cases h.wf s.millis nodeId
  · rw [hr]
    exact ⟨h.wf, fun _ _ hc => hc⟩
  · rw [hr]
    exact ⟨hu.wf, hu.forall_queueOf (fun _ _ hc => hc) fun _ hc => absurd hc List.not_mem_nil⟩
  · rw [hr]
    exact ⟨hu.wf, hu.forall_queueOf (fun _ _ hc => hc) fun c hc =>
      mem_of_unexpired hq (List.mem_cons_of_mem _ hc)⟩

/-- The command that `pop` returns stands behind the expired ones, and looks fresh. -/
theorem Timed.pop_returned (h : Timed s) {cmd : MqttCommand}
    (hr : (s.pool.pop s.millis nodeId).1 = some cmd) :
    ∃ after, s.pool.queueOf nodeId = expiredPrefix s.millis (s.pool.queueOf nodeId) ++ cmd :: after ∧
      cmd.fresh s.millis = true := by
  rw [fst_pop h.wf] at hr
  obtain ⟨after, hafter⟩ := List.head?_eq_some_iff.mp hr
  refine ⟨after, ?_, fresh_of_unexpired hafter⟩
  rw [← hafter, expiredPrefix_append_unexpired]

theorem timed_step {a : TimedCall} (h : Timed s) (hG : NoneWrapped s a) (ht : timedStep s a = some t) :
    Timed t := by
  cases a with
  | tick ms =>
      rw [← Option.some.inj ht]
      exact { h with stamped := fun n c hc => (h.stamped n c hc).mono ms }
  | push stamp nodeId cmd =>
      simp only [timedStep] at ht
      split_ifs at ht with hstamp
      exact Option.some.inj ht ▸ h.push hstamp nodeId cmd
  | pushFront stamp nodeId cmd =>
      simp only [timedStep] at ht
      split_ifs at ht with hstamp
      exact Option.some.inj ht ▸ h.pushFront hstamp nodeId cmd
  | pop nodeId =>
      rw [← Option.some.inj ht]
      have hexpired := ttl_le_of_expired (h.stamped nodeId)
      refine ⟨⟨fun e he => ?_, fun e he => ?_⟩, (h.pop_pool nodeId).1,
        fun n c hc => h.stamped n c ((h.pop_pool nodeId).2 n c hc)⟩
      · rcases List.mem_append.mp he with he | he
        · exact h.returned e he
        · obtain ⟨cmd, hcmd, rfl⟩ := List.mem_map.mp he
          obtain ⟨after, hsplit, hfresh⟩ := h.pop_returned (Option.mem_toList.mp hcmd)
          have hstamp := h.stamped nodeId cmd (by rw [hsplit]; simp)
          have hlt := hstamp.fresh_iff.mp hfresh
          have hwrap := hG _ cmd after hsplit hexpired
          have hsmall : s.now - cmd.serial < 2 ^ 32 := Nat.lt_of_not_le fun hle => hwrap ⟨hle, hlt⟩
          rwa [Nat.mod_eq_of_lt hsmall] at hlt
      · rcases List.mem_append.mp he with he | he
        · exact h.discarded e he
        · obtain ⟨cmd, hcmd, rfl⟩ := List.mem_map.mp he
          exact (hexpired cmd hcmd).trans (Nat.mod_le _ _)

theorem inexact_of_wrapped {a : TimedCall} (h : Timed s) (hG : ¬ NoneWrapped s a) :
    ∃ t, timedStep s a = some t ∧ ¬ Exact t := by
  cases a with
  | pop nodeId =>
      simp only [NoneWrapped, not_forall, not_not] at hG
      obtain ⟨before, cmd, after, hsplit, hbefore, hle, hlt⟩ := hG
      have hunexpired := unexpired_of_split (h.stamped nodeId) hsplit hbefore hlt
      have hreturned : (s.pool.pop s.millis nodeId).1 = some cmd := by
        rw [fst_pop h.wf, TimedPool.millis, hunexpired, List.head?_cons]
      refine ⟨_, rfl, fun hexact => ?_⟩
      have hyoung := hexact.returned (s.now, cmd) (List.mem_append_right _ (by simp [hreturned]))
      have hlong : cmdTtlMs.toNat ≤ 2 ^ 32 := by decide
      exact absurd hyoung (Nat.not_lt.mpr (hlong.trans hle))
  | _ => exact absurd trivial hG

end

/-- Expiry is exact in every state of a run if and only if no `pop` of the run comes to a command
whose age has wrapped. -/
theorem always_exact_iff (as : List TimedCall) :
    Always timedStep Exact TimedPool.init as ↔ Along timedStep NoneWrapped TimedPool.init as :=
  always_iff_along (fun _ _ _ => timed_step) (fun _ => Timed.toExact)
    (fun _ _ => inexact_of_wrapped) timed_init

/-- A command waits until `millis()` has come round. -/
def forgottenRun : List TimedCall :=
  [.push 0 (strlcpy 18 "aa:bb".toList) default, .tick (2 ^ 32), .pop (strlcpy 18 "aa:bb".toList)]

theorem forgottenRun_inexact : ¬ Always timedStep Exact TimedPool.init forgottenRun := by
  decide

end Tempio.Hub
