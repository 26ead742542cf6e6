import Mathlib.Data.Set.Card
import Tempio.Hub.Flush
import Tempio.Hub.PoolMap

namespace Tempio.Hub

open PendingPool Tempio.Lib Tempio.Lib.Transition

/-- The nodes that have at least one queued command. -/
def PendingPool.waiting (p : PendingPool) : Set NodeId := {n | p.queueOf n ≠ []}

namespace LoopTask

/-- `flushNodePending` has been called and has not returned yet. -/
def InFlush : LoopTask → Prop
  | .idle | .scanning _ => False
  | _ => True

/-- The node whose slot the loop of `flushNodePending` may have left used and empty. -/
def draining : LoopTask → Option NodeId
  | .popping nodeId _ | .sending nodeId _ _ | .puttingBack nodeId _ _ => some nodeId
  | _ => none

theorem draining_of_not_inFlush {l : LoopTask} (h : ¬ l.InFlush) : l.draining = none := by
  cases l with
  | idle | scanning => rfl
  | _ => exact absurd trivial h

end LoopTask

/-- An entry of the map is empty only while its node is being drained. -/
def Drained (s : HubState) : Prop :=
  ∀ n, s.pool.lookup n = some [] → s.loop.draining = some n

theorem drained_update {s : HubState} {p : PendingPool} {n : NodeId} {o : Option (List MqttCommand)}
    (hs : Drained s) (hu : Update s.pool n o p) {m : NodeId} (hm : p.lookup m = some []) :
    m = n ∧ o = some [] ∨ m ≠ n ∧ s.loop.draining = some m := by
  rw [hu.lookup] at hm
  by_cases he : m = n
  · subst he
    rw [Function.update_self] at hm
    exact .inl ⟨rfl, hm⟩
  · rw [Function.update_of_ne he] at hm
    exact .inr ⟨he, hs m hm⟩

theorem drained_step {json : ArduinoJson} {s t : HubState} {a : Action} (hi : Inv s) (hs : Drained s)
    (h : step json s a = some t) : Drained t := by
  cases moves_of_step hi.wf h with
  | tick | dispatch | sent | unsent | refused => exact hs
  | pushed cmd p hm hr hu =>
      intro m hm
      rcases drained_update hs hu hm with ⟨_, he⟩ | ⟨_, hd⟩
      · simp at he
      · exact hd
  | flushNode nodeId hl | flushAll hl | scanEnd idx hl | scanSkip idx hl | scanFound idx hl
  | connected nodeId resume hl =>
      intro m hm
      have hd := hs m hm
      rw [hl] at hd
      cases hd
  | notConnected nodeId resume hl =>
      intro m hm
      have hd := hs m hm
      rw [hl] at hd
      cases hd
  | popped nodeId resume cmd rest p hl hq hu =>
      intro m hm
      have hkeep : s.loop.draining = some nodeId := by rw [hl]; rfl
      rcases drained_update hs hu hm with ⟨rfl, _⟩ | ⟨_, hd⟩
      · rfl
      · exact hkeep.symm.trans hd
  | drained nodeId resume p hl hq hu =>
      intro m hm
      have hkeep : s.loop.draining = some nodeId := by rw [hl]; rfl
      rcases drained_update hs hu hm with ⟨_, he⟩ | ⟨hne, hd⟩
      · cases he
      · exact absurd (Option.some.inj (hd.symm.trans hkeep)) hne
  | resent link nodeId cmd resume hl hsend | unresent link nodeId cmd resume hl hsend =>
      intro m hm
      have hd := hs m hm
      rw [hl] at hd
      exact hd
  | putBack nodeId cmd resume p hl hr hu =>
      intro m hm
      have hkeep : s.loop.draining = some nodeId := by rw [hl]; rfl
      rcases drained_update hs hu hm with ⟨_, he⟩ | ⟨hne, hd⟩
      · simp at he
      · exact absurd (Option.some.inj (hd.symm.trans hkeep)) hne
  | lost nodeId cmd resume hl hr =>
      -- the queue took commands of the other task until it was full, so it is not empty
      intro m hm
      have hd := hs m hm
      rw [hl] at hd
      obtain rfl : nodeId = m := Option.some.inj hd
      rcases hr with ⟨l, hlook, hfull⟩ | ⟨hlook, _⟩
      · rw [hm] at hlook
        rw [← Option.some.inj hlook] at hfull
        exact absurd hfull (by decide)
      · rw [hm] at hlook
        cases hlook

theorem drained_init : Drained HubState.init := by
  intro n h
  obtain ⟨i, hi, _⟩ := wf_init.lookup_iff.mp h
  rw [slots_init] at hi
  cases hi

theorem Reachable.drained {json : ArduinoJson} {s : HubState}
    (h : Reachable (step json) HubState.init s) : Drained s := by
  have hboth : Inv s ∧ Drained s := by
    apply Reachable.invariant (I := fun s => Inv s ∧ Drained s) _ ⟨inv_init, drained_init⟩ h
    intro s a t hs ht
    exact ⟨inv_step hs.1 ht, drained_step hs.1 hs.2 ht⟩
  exact hboth.2

/-- No slot is held for nothing: slots in use are nodes with work. -/
structure NoLeak (p : PendingPool) : Prop where
  nonempty : ∀ i, (p.slots.get i).used = true → (p.slots.get i).queue.contents ≠ []
  active : p.activeSlots = p.waiting.ncard
  refused : ∀ now n cmd, p.queueOf n = [] → (p.push now n cmd).1 = false → p.waiting.ncard = maxNodes

section

variable {p : PendingPool} (hp : p.Wf)
  (hne : ∀ i, (p.slots.get i).used = true → (p.slots.get i).queue.contents ≠ [])

include hp hne

theorem waiting_eq_image :
    p.waiting = ↑(p.usedSlots.image fun i => (p.slots.get i).nodeId) := by
  ext n
  rw [Finset.mem_coe, Finset.mem_image, ← hp.lookup_ne_none_iff, waiting, Set.mem_ofPred_eq, queueOf]
  cases hl : p.lookup n with
  | none => simp
  | some l =>
      obtain ⟨i, hu, _, rfl⟩ := hp.lookup_iff.mp hl
      simpa using hne i hu

theorem ncard_waiting : p.waiting.ncard = p.usedSlots.card := by
  rw [waiting_eq_image hp hne, Set.ncard_coe_finset, Finset.card_image_of_injOn hp.injOn_nodeId]

theorem noLeak_of_nonempty : NoLeak p := by
  have hcard := ncard_waiting hp hne
  refine ⟨hne, ?_, fun now n cmd hq hr => ?_⟩
  · rw [hcard, ← size_asMap hp, QueueMap.size, card_keys_asMap]
  · obtain ⟨p', hpush, _, _⟩ | ⟨_, hf⟩ := push_cases hp now n cmd
    · rw [hpush] at hr
      cases hr
    · have hall : ∀ i, (p.slots.get i).used = true := by
        rcases hf with ⟨l, hl, hfull⟩ | ⟨_, hall⟩
        · rw [queueOf, hl, Option.getD_some] at hq
          rw [hq] at hfull
          exact absurd hfull (by decide)
        · exact hall
      have huniv : p.usedSlots = Finset.univ := by
        rw [Finset.eq_univ_iff_forall]
        exact fun i => mem_usedSlots.mpr (hall i)
      rw [hcard, huniv, Finset.card_univ, Fintype.card_fin]

end

/-- Whatever the esp_mqtt task pushed in between, the pool holds no empty slot
once `flushNodePending` has returned. -/
theorem noLeak_at_rest (json : ArduinoJson) (s : HubState)
    (h : Reachable (step json) HubState.init s) (hrest : ¬ s.loop.InFlush) : NoLeak s.pool := by
  have hp := (Reachable.inv h).wf
  apply noLeak_of_nonempty hp
  intro i hu hempty
  have hd := Reachable.drained h _ (hp.lookup_iff.mpr ⟨i, hu, rfl, hempty⟩)
  rw [LoopTask.draining_of_not_inFlush hrest] at hd
  cases hd

/-- The second of two waiting commands could not be sent, and was put back. -/
def putBackLast : List Action :=
  failedDispatch 1 ++ failedDispatch 2 ++ [.flushAll, .nextNode, .connected true, .pop,
    .resend true, .pop, .resend false, .pushFront]

theorem noLeak_putBackLast :
    (stateAfter putBackLast).pool.totalPending = 1 ∧ NoLeak (stateAfter putBackLast).pool := by
  refine ⟨by decide +kernel, ?_⟩
  apply noLeak_at_rest emptyObjectJson (stateAfter putBackLast)
  · exact ⟨putBackLast, rfl⟩
  · exact id

end Tempio.Hub
