import Tempio.Hub.PendingPool

namespace Tempio.Hub

open Tempio.Lib Tempio.Lib.Search

namespace PendingPool

/-- Used slots belong to different nodes, and a slot that is not used is empty. -/
structure Wf (p : PendingPool) : Prop where
  distinct : ∀ i j, (p.slots.get i).used = true → (p.slots.get j).used = true →
    (p.slots.get i).nodeId = (p.slots.get j).nodeId → i = j
  unused : ∀ i, (p.slots.get i).used = false → (p.slots.get i).queue.contents = []

/-- The map from node ids to queues that the slots represent. -/
def lookup (p : PendingPool) (nodeId : NodeId) : Option (List MqttCommand) :=
  (p.findSlot nodeId).map fun i => (p.slots.get i).queue.contents

def queueOf (p : PendingPool) (nodeId : NodeId) : List MqttCommand := (p.lookup nodeId).getD []

def stored (p : PendingPool) : List MqttCommand := collect Slot.stored p.slots

theorem slots_init (i : Fin maxNodes) :
    init.slots.get i = ⟨ThreadSafeQueue.init, default, false⟩ :=
  Vector.getElem_replicate i.isLt

theorem wf_init : init.Wf where
  distinct i j hi := by simp [slots_init] at hi
  unused i _ := by rw [slots_init]; rfl

theorem holds_iff {nodeId : NodeId} {s : Slot} :
    s.holds nodeId = true ↔ s.used = true ∧ s.nodeId = nodeId := by
  simp [Slot.holds]

theorem Wf.findSlot_iff {p : PendingPool} (hp : p.Wf) {nodeId : NodeId} {i : Fin maxNodes} :
    p.findSlot nodeId = some i ↔ (p.slots.get i).used = true ∧ (p.slots.get i).nodeId = nodeId := by
  constructor
  · intro h
    apply holds_iff.mp
    exact of_firstIndex h
  · intro h
    apply firstIndex_of_unique (holds_iff.mpr h)
    intro j hj
    have hj' := holds_iff.mp hj
    exact hp.distinct j i hj'.1 h.1 (hj'.2.trans h.2.symm)

theorem Wf.lookup_iff {p : PendingPool} (hp : p.Wf) {nodeId : NodeId} {l : List MqttCommand} :
    p.lookup nodeId = some l ↔ ∃ i, (p.slots.get i).used = true ∧
      (p.slots.get i).nodeId = nodeId ∧ (p.slots.get i).queue.contents = l := by
  simp only [lookup, Option.map_eq_some_iff, hp.findSlot_iff, and_assoc]

theorem Wf.mem_stored {p : PendingPool} (hp : p.Wf) {c : MqttCommand} :
    c ∈ p.stored ↔ ∃ nodeId, c ∈ p.queueOf nodeId := by
  simp only [stored, mem_collect]
  constructor
  · rintro ⟨i, hc⟩
    cases hu : (p.slots.get i).used with
    | false => simp [Slot.stored, hu] at hc
    | true =>
        have hl := hp.lookup_iff.mpr ⟨i, hu, rfl, rfl⟩
        refine ⟨(p.slots.get i).nodeId, ?_⟩
        simpa [queueOf, hl, Slot.stored, hu] using hc
  · rintro ⟨nodeId, hc⟩
    cases hl : p.lookup nodeId with
    | none => simp [queueOf, hl] at hc
    | some l =>
        obtain ⟨i, hu, _, rfl⟩ := hp.lookup_iff.mp hl
        exact ⟨i, by simpa [queueOf, hl, Slot.stored, hu] using hc⟩

/-- One entry of the map is replaced and the commands of all others stay where they are. -/
structure Update (p : PendingPool) (nodeId : NodeId) (entry : Option (List MqttCommand))
    (p' : PendingPool) : Prop where
  wf : p'.Wf
  lookup : p'.lookup = Function.update p.lookup nodeId entry
  stored : ∀ q, p'.stored.countP q + (p.queueOf nodeId).countP q =
    p.stored.countP q + (entry.getD []).countP q

theorem Update.queueOf_self {p p' : PendingPool} {nodeId : NodeId} {o : Option (List MqttCommand)}
    (h : Update p nodeId o p') : p'.queueOf nodeId = o.getD [] := by
  rw [queueOf, h.lookup, Function.update_self]

theorem Update.queueOf_of_ne {p p' : PendingPool} {nodeId n : NodeId}
    {o : Option (List MqttCommand)} (h : Update p nodeId o p') (hn : n ≠ nodeId) :
    p'.queueOf n = p.queueOf n := by
  rw [queueOf, h.lookup, Function.update_of_ne hn, queueOf]

/-- What holds of every waiting command still does after an update, if it does of the new entry. -/
theorem Update.forall_queueOf {P : NodeId → MqttCommand → Prop} {p p' : PendingPool} {nodeId : NodeId}
    {o : Option (List MqttCommand)} (h : Update p nodeId o p')
    (hold : ∀ n, ∀ c ∈ p.queueOf n, P n c) (hnew : ∀ c ∈ o.getD [], P nodeId c) :
    ∀ n, ∀ c ∈ p'.queueOf n, P n c := by
  intro n c hc
  by_cases hn : n = nodeId
  · subst hn
    rw [h.queueOf_self] at hc
    exact hnew c hc
  · rw [h.queueOf_of_ne hn] at hc
    exact hold n c hc

theorem update_none_self {p : PendingPool} (hp : p.Wf) {nodeId : NodeId}
    (h : p.lookup nodeId = none) : Update p nodeId none p where
  wf := hp
  lookup := by rw [← h, Function.update_eq_self]
  stored q := by simp [queueOf, h]

structure Owns (p : PendingPool) (i : Fin maxNodes) (nodeId : NodeId) : Prop where
  self : (p.slots.get i).used = true → (p.slots.get i).nodeId = nodeId
  only : ∀ j, (p.slots.get j).used = true → (p.slots.get j).nodeId = nodeId → j = i

theorem Owns.queueOf {p : PendingPool} (hp : p.Wf) {i : Fin maxNodes} {nodeId : NodeId}
    (h : p.Owns i nodeId) : p.queueOf nodeId = (p.slots.get i).stored := by
  cases hu : (p.slots.get i).used with
  | true =>
      have hl := hp.lookup_iff.mpr ⟨i, hu, h.self hu, rfl⟩
      simp [PendingPool.queueOf, hl, Slot.stored, hu]
  | false =>
      cases hl : p.lookup nodeId with
      | none => simp [PendingPool.queueOf, hl, Slot.stored, hu]
      | some l =>
          obtain ⟨j, hj, hid, _⟩ := hp.lookup_iff.mp hl
          rw [h.only j hj hid, hu] at hj
          exact absurd hj (by decide)

theorem wf_setAt {p : PendingPool} (hp : p.Wf) {i : Fin maxNodes} {nodeId : NodeId}
    (ho : p.Owns i nodeId) {s : Slot} (hid : s.nodeId = nodeId)
    (hs : s.used = false → s.queue.contents = []) : Wf ⟨setAt p.slots i s⟩ := by
  constructor
  · intro j k hj hk hjk
    by_cases hij : i = j
    · subst hij
      by_cases hik : i = k
      · exact hik
      · rw [get_setAt_self] at hjk
        rw [get_setAt_of_ne _ _ hik] at hk hjk
        exact (ho.only k hk (hjk.symm.trans hid)).symm
    · rw [get_setAt_of_ne _ _ hij] at hj hjk
      by_cases hik : i = k
      · subst hik
        rw [get_setAt_self] at hjk
        exact ho.only j hj (hjk.trans hid)
      · rw [get_setAt_of_ne _ _ hik] at hk hjk
        exact hp.distinct j k hj hk hjk
  · intro j hj
    by_cases hij : i = j
    · subst hij
      rw [get_setAt_self] at hj ⊢
      exact hs hj
    · rw [get_setAt_of_ne _ _ hij] at hj ⊢
      exact hp.unused j hj

theorem lookup_setAt {p : PendingPool} (hp : p.Wf) {i : Fin maxNodes} {nodeId : NodeId}
    (ho : p.Owns i nodeId) {s : Slot} (hid : s.nodeId = nodeId) (hwf : Wf ⟨setAt p.slots i s⟩) :
    lookup ⟨setAt p.slots i s⟩ =
      Function.update p.lookup nodeId (if s.used then some s.queue.contents else none) := by
  funext n
  apply Option.ext
  intro l
  rw [hwf.lookup_iff]
  by_cases hn : n = nodeId
  · subst hn
    rw [Function.update_self]
    constructor
    · rintro ⟨j, hj, hjn, hl⟩
      by_cases hij : i = j
      · subst hij
        rw [get_setAt_self] at hj hl
        simp [hj, hl]
      · rw [get_setAt_of_ne _ _ hij] at hj hjn
        exact absurd (ho.only j hj hjn).symm hij
    · intro hl
      cases hu : s.used with
      | false => simp [hu] at hl
      | true => exact ⟨i, by simpa [hu, hid] using hl⟩
  · rw [Function.update_of_ne hn, hp.lookup_iff]
    apply exists_congr
    intro j
    by_cases hij : i = j
    · subst hij
      rw [get_setAt_self]
      constructor
      · rintro ⟨_, hjn, _⟩
        exact absurd (hjn.symm.trans hid) hn
      · rintro ⟨hj, hjn, _⟩
        exact absurd (hjn.symm.trans (ho.self hj)) hn
    · rw [get_setAt_of_ne _ _ hij]

theorem update_setAt {p : PendingPool} (hp : p.Wf) {i : Fin maxNodes} {nodeId : NodeId}
    (ho : p.Owns i nodeId) {s : Slot} (hid : s.nodeId = nodeId)
    (hs : s.used = false → s.queue.contents = []) :
    Update p nodeId (if s.used then some s.queue.contents else none) ⟨setAt p.slots i s⟩ := by
  have hwf := wf_setAt hp ho hid hs
  refine ⟨hwf, lookup_setAt hp ho hid hwf, fun q => ?_⟩
  have he : ((if s.used then some s.queue.contents else none).getD [] : List MqttCommand) =
      s.stored := by
    cases hu : s.used <;> simp [Slot.stored, hu]
  rw [he, ho.queueOf hp]
  exact countP_collect_setAt q Slot.stored p.slots i s

theorem Wf.owns_of_findSlot {p : PendingPool} (hp : p.Wf) {nodeId : NodeId} {i : Fin maxNodes}
    (h : p.findSlot nodeId = some i) : p.Owns i nodeId := by
  have hi := hp.findSlot_iff.mp h
  exact ⟨fun _ => hi.2, fun j hj hid => hp.distinct j i hj hi.1 (hid.trans hi.2.symm)⟩

theorem update_setQueue {p : PendingPool} (hp : p.Wf) {nodeId : NodeId} {i : Fin maxNodes}
    (h : p.findSlot nodeId = some i) (q : CommandQueue) :
    Update p nodeId (some q.contents) (p.setQueue i q) := by
  have hi := hp.findSlot_iff.mp h
  have hu := update_setAt (s := ⟨q, (p.slots.get i).nodeId, (p.slots.get i).used⟩) hp
    (hp.owns_of_findSlot h) hi.2 (fun hf => absurd (hi.1.symm.trans hf) (by decide))
  rwa [if_pos hi.1] at hu

theorem owns_of_unused {p : PendingPool} {nodeId : NodeId} {i : Fin maxNodes}
    (h : p.findSlot nodeId = none) (hi : (p.slots.get i).used = false) : p.Owns i nodeId := by
  refine ⟨fun hu => absurd hu (by simp [hi]), fun j hj hid => ?_⟩
  have := firstIndex_eq_none.mp h j
  rw [holds_iff.mpr ⟨hj, hid⟩] at this
  exact absurd this (by decide)

/-- Why an insertion is refused: the node's queue is full, or the node is new
and every slot is taken. -/
def Refuses (p : PendingPool) (nodeId : NodeId) : Prop :=
  (∃ l, p.lookup nodeId = some l ∧ cmdPendingPerNode ≤ l.length) ∨
    (p.lookup nodeId = none ∧ ∀ i, (p.slots.get i).used = true)

theorem insertWith_cases {op : CommandQueue → MqttCommand → Option CommandQueue}
    (put : MqttCommand → List MqttCommand → List MqttCommand)
    (hput : ∀ q c r, op q c = some r → r.contents = put c q.contents)
    (hnone : ∀ q c, op q c = none ↔ cmdPendingPerNode ≤ q.contents.length)
    {p : PendingPool} (hp : p.Wf) (now : UInt32) (nodeId : NodeId) (cmd : MqttCommand) :
    (∃ p', p.insertWith op now nodeId cmd = (true, p') ∧ ¬ p.Refuses nodeId ∧
      Update p nodeId (some (put (cmd.stamp now) (p.queueOf nodeId))) p') ∨
    (p.insertWith op now nodeId cmd = (false, p) ∧ p.Refuses nodeId) := by
  cases hf : p.findSlot nodeId with
  | some i =>
      have hi := hp.findSlot_iff.mp hf
      have hl : p.lookup nodeId = some (p.slots.get i).queue.contents := by
        rw [lookup, hf, Option.map_some]
      have hfc : p.findOrCreate nodeId = some (i, p) := by
        simp only [findSlot] at hf
        simp only [findOrCreate, hf]
      cases ho : op (p.slots.get i).queue (cmd.stamp now) with
      | none =>
          right
          refine ⟨?_, .inl ⟨_, hl, (hnone _ _).mp ho⟩⟩
          simp only [insertWith, hfc, ho]
      | some q =>
          left
          refine ⟨p.setQueue i q, by simp only [insertWith, hfc, ho], ?_, ?_⟩
          · rintro (⟨l, hl', hlen⟩ | ⟨hl', _⟩)
            · rw [hl] at hl'
              rw [← Option.some.inj hl', ← hnone _ (cmd.stamp now), ho] at hlen
              exact absurd hlen (by simp)
            · simp [hl] at hl'
          · rw [queueOf, hl, Option.getD_some, ← hput _ _ _ ho]
            exact update_setQueue hp hf q
  | none =>
      have hl : p.lookup nodeId = none := by rw [lookup, hf, Option.map_none]
      cases hg : firstIndex (fun s : Slot => !s.used) p.slots with
      | none =>
          right
          have hall : ∀ i, (p.slots.get i).used = true := fun i => by
            simpa using firstIndex_eq_none.mp hg i
          refine ⟨?_, .inr ⟨hl, hall⟩⟩
          simp only [findSlot] at hf
          simp only [insertWith, findOrCreate, hf, hg]
      | some i =>
          left
          have hi : (p.slots.get i).used = false := by simpa using of_firstIndex hg
          have he := hp.unused i hi
          cases ho : op (p.slots.get i).queue (cmd.stamp now) with
          | none =>
              have := (hnone _ _).mp ho
              rw [he] at this
              exact absurd this (by decide)
          | some q =>
              have hu := update_setAt (s := ⟨q, nodeId, true⟩) hp (owns_of_unused hf hi) rfl (by simp)
              refine ⟨⟨setAt p.slots i ⟨q, nodeId, true⟩⟩, ?_, ?_, ?_⟩
              · simp only [findSlot] at hf
                simp only [insertWith, findOrCreate, hf, hg, get_setAt_self, ho, setQueue, setAt_setAt]
              · rintro (⟨l, hl', _⟩ | ⟨_, hall⟩)
                · simp [hl] at hl'
                · simp [hall i] at hi
              · rw [queueOf, hl, Option.getD_none, ← he, ← hput _ _ _ ho]
                exact hu

theorem push_cases {p : PendingPool} (hp : p.Wf) (now : UInt32) (nodeId : NodeId)
    (cmd : MqttCommand) :
    (∃ p', p.push now nodeId cmd = (true, p') ∧ ¬ p.Refuses nodeId ∧
      Update p nodeId (some (p.queueOf nodeId ++ [cmd.stamp now])) p') ∨
    (p.push now nodeId cmd = (false, p) ∧ p.Refuses nodeId) :=
  insertWith_cases (fun c l => l ++ [c])
    (fun _ _ _ => ThreadSafeQueue.contents_pushUnsafe)
    (fun _ _ => ThreadSafeQueue.pushUnsafe_eq_none) hp now nodeId cmd

theorem pushFront_cases {p : PendingPool} (hp : p.Wf) (now : UInt32) (nodeId : NodeId)
    (cmd : MqttCommand) :
    (∃ p', p.pushFront now nodeId cmd = (true, p') ∧ ¬ p.Refuses nodeId ∧
      Update p nodeId (some (cmd.stamp now :: p.queueOf nodeId)) p') ∨
    (p.pushFront now nodeId cmd = (false, p) ∧ p.Refuses nodeId) :=
  insertWith_cases (fun c l => c :: l)
    (fun _ _ _ => ThreadSafeQueue.contents_pushFrontUnsafe)
    (fun _ _ => ThreadSafeQueue.pushFrontUnsafe_eq_none) hp now nodeId cmd

def expiredPrefix (now : UInt32) (l : List MqttCommand) : List MqttCommand :=
  l.takeWhile fun c => !c.fresh now

def unexpired (now : UInt32) (l : List MqttCommand) : List MqttCommand :=
  l.dropWhile fun c => !c.fresh now

theorem expiredPrefix_append_unexpired (now : UInt32) (l : List MqttCommand) :
    expiredPrefix now l ++ unexpired now l = l :=
  List.takeWhile_append_dropWhile

theorem unexpired_sublist (now : UInt32) (l : List MqttCommand) : (unexpired now l).Sublist l :=
  List.dropWhile_sublist _

theorem fresh_of_unexpired {now : UInt32} {l rest : List MqttCommand} {c : MqttCommand}
    (h : unexpired now l = c :: rest) : c.fresh now = true := by
  have hhead := List.head?_dropWhile_not (fun c : MqttCommand => !c.fresh now) l
  have hdrop : l.dropWhile (fun c : MqttCommand => !c.fresh now) = c :: rest := h
  rw [hdrop] at hhead
  simpa using hhead

theorem popFresh_spec (now : UInt32) (n : Nat) (q : CommandQueue) (hn : q.contents.length ≤ n) :
    unexpired now q.contents =
      (popFresh now n q).1.toList ++ (popFresh now n q).2.contents ∧
      ((popFresh now n q).1 = none → (popFresh now n q).2.contents = []) := by
  induction n generalizing q with
  | zero =>
      have he : q.contents = [] := List.eq_nil_of_length_eq_zero (by omega)
      simp [popFresh, he, unexpired]
  | succ n ih =>
      cases hq : q.popUnsafe with
      | none => simp [popFresh, hq, ThreadSafeQueue.popUnsafe_eq_none.mp hq, unexpired]
      | some r =>
          obtain ⟨c, r⟩ := r
          have hc := ThreadSafeQueue.contents_popUnsafe hq
          rw [hc, List.length_cons] at hn
          cases hf : c.fresh now with
          | true => simp [popFresh, hq, hf, hc, unexpired]
          | false =>
              have hr := ih r (by omega)
              simpa [popFresh, hq, hf, hc, unexpired] using hr

/-- `pop` drops the expired prefix and hands out the next command, or empties
and releases the slot. -/
theorem pop_cases {p : PendingPool} (hp : p.Wf) (now : UInt32) (nodeId : NodeId) :
    (p.pop now nodeId = (none, p) ∧ p.lookup nodeId = none) ∨
    (∃ p', p.pop now nodeId = (none, p') ∧ unexpired now (p.queueOf nodeId) = [] ∧
      Update p nodeId none p') ∨
    (∃ c rest p', p.pop now nodeId = (some c, p') ∧
      unexpired now (p.queueOf nodeId) = c :: rest ∧ Update p nodeId (some rest) p') := by
  cases hf : p.findSlot nodeId with
  | none => exact .inl ⟨by simp only [pop, hf], by rw [lookup, hf, Option.map_none]⟩
  | some i =>
      right
      have hi := hp.findSlot_iff.mp hf
      have hl : p.queueOf nodeId = (p.slots.get i).queue.contents := by
        rw [queueOf, lookup, hf, Option.map_some, Option.getD_some]
      have hs := popFresh_spec now (p.slots.get i).queue.count (p.slots.get i).queue (by simp)
      cases hr : popFresh now (p.slots.get i).queue.count (p.slots.get i).queue with
      | mk o q =>
          simp only [hr] at hs
          cases o with
          | none =>
              left
              have hq := hs.2 rfl
              have hu := update_setAt (s := ⟨q, (p.slots.get i).nodeId, false⟩) hp
                (hp.owns_of_findSlot hf) hi.2 (fun _ => hq)
              refine ⟨⟨setAt p.slots i ⟨q, (p.slots.get i).nodeId, false⟩⟩,
                by simp only [pop, hf, hr], ?_, by simpa using hu⟩
              rw [hl, hs.1, hq]
              rfl
          | some c =>
              right
              refine ⟨c, q.contents, p.setQueue i q, by simp only [pop, hf, hr], ?_,
                update_setQueue hp hf q⟩
              rw [hl, hs.1]
              rfl

theorem fst_pop {p : PendingPool} (hp : p.Wf) (now : UInt32) (nodeId : NodeId) :
    (p.pop now nodeId).1 = (unexpired now (p.queueOf nodeId)).head? := by
  obtain ⟨hr, hn⟩ | ⟨p', hr, hq, _⟩ | ⟨c, rest, p', hr, hq, _⟩ := pop_cases hp now nodeId
  · rw [hr, queueOf, hn]
    rfl
  · rw [hr, hq]
    rfl
  · rw [hr, hq]
    rfl

end PendingPool

end Tempio.Hub
