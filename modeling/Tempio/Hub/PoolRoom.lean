import Tempio.Hub.FlushSteps
import Tempio.Hub.Rest

namespace Tempio.Hub

open PendingPool Tempio.Lib Tempio.Lib.Transition

/-- The pool and the clock between two calls. -/
structure PoolState where
  pool : PendingPool
  now : Nat

def PoolState.init : PoolState := ⟨PendingPool.init, 0⟩

def PoolState.millis (s : PoolState) : UInt32 := UInt32.ofNat s.now

/-- A command arrives, or the clock advances and `loop` flushes. `link n k` is the result
of the write for the `k`-th command that the flush tries to send to node `n`. -/
inductive PoolAction
  | dispatchCommand (bleSendToNode : NodeId → List UInt8 → Bool) (cmd : MqttCommand)
  | loop (ms : Nat) (connected : NodeId → Bool) (link : NodeId → Nat → Bool)

/-- The world counts the attempts for each node. -/
def perNode (json : ArduinoJson) (link : NodeId → Nat → Bool) :
    (NodeId → Nat) → MqttCommand → Bool × (NodeId → Nat) :=
  FlushAll.sending json (fun tries cmd => link cmd.target (tries cmd.target))
    (fun tries cmd => Function.update tries cmd.target (tries cmd.target + 1))

def roomStep (json : ArduinoJson) (s : PoolState) : PoolAction → Option PoolState
  | .dispatchCommand bleSendToNode cmd =>
      some { s with pool := (dispatchCommand json bleSendToNode s.millis (s.pool, []) cmd).1 }
  | .loop ms connected link =>
      (FlushAll.flushAllPending (perNode json link) connected (fun _ => s.now + ms)
        (.start s.pool fun _ => 0)).map fun t => ⟨t.pool, s.now + ms⟩

/-- The nodes with a command that has not expired. -/
def PendingPool.young (p : PendingPool) (now : UInt32) : Set NodeId :=
  {n | ∃ c ∈ p.queueOf n, c.fresh now = true}

/-- Commands that have not expired are all that can keep a command out. -/
def HasRoom (s : PoolState) : Prop :=
  ∀ n cmd, (s.pool.young s.millis \ {n}).ncard < maxNodes →
    ((s.pool.queueOf n).filter (·.fresh s.millis)).length < cmdPendingPerNode →
      (s.pool.push s.millis n cmd).1 = true

structure Unoccupied (s : PoolState) : Prop where
  fresh : ∀ n, ∀ c ∈ s.pool.queueOf n, c.fresh s.millis = true
  room : HasRoom s

/-- The unexpired commands of the list are sent, one after the other. -/
def AllSent (json : ArduinoJson) (link : Nat → Bool) (now : UInt32) (l : List MqttCommand) : Prop :=
  ∀ k d, (l.filter (·.fresh now))[k]? = some d → trySend json (fun _ _ => link k) d = true

/-- The flush comes as far as every command that has expired: the node is connected and
nothing ahead of the command in its queue fails to be sent. -/
def ExpiredReached (json : ArduinoJson) (s : PoolState) : PoolAction → Prop
  | .dispatchCommand _ _ => True
  | .loop ms connected link =>
      ∀ n ahead c behind, s.pool.queueOf n = ahead ++ c :: behind →
        c.fresh (UInt32.ofNat (s.now + ms)) = false →
          connected n = true ∧ AllSent json (link n) (UInt32.ofNat (s.now + ms)) ahead

section

variable {json : ArduinoJson} {link : Nat → Bool} {now : UInt32}

/-- What a flush at one moment makes of the queue of a connected node. -/
inductive Flushed (json : ArduinoJson) (link : Nat → Bool) (now : UInt32) :
    List MqttCommand → List MqttCommand → Prop
  | emptied (l) (h : AllSent json link now l) : Flushed json link now l []
  | stopped (ahead c behind) (hc : c.fresh now = true) (h : AllSent json link now ahead)
      (hf : trySend json (fun _ _ => link (ahead.filter (·.fresh now)).length) c = false) :
      Flushed json link now (ahead ++ c :: behind) (c.stamp now :: behind)

theorem AllSent.of_append {l l' : List MqttCommand} (h : AllSent json link now (l ++ l')) :
    AllSent json link now l := by
  intro k d hd
  apply h k d
  rw [List.filter_append, List.getElem?_append_left (List.getElem?_eq_some_iff.mp hd).1]
  exact hd

theorem fresh_stamp (now : UInt32) (c : MqttCommand) : (c.stamp now).fresh now = true := by
  simp [MqttCommand.fresh, cmdTtlMs]

theorem Flushed.fresh {q q' : List MqttCommand} (h : Flushed json link now q q')
    (hreached : ∀ ahead c behind, q = ahead ++ c :: behind → c.fresh now = false →
      AllSent json link now ahead) : ∀ c ∈ q', c.fresh now = true := by
  intro d hd
  cases h with
  | emptied => cases hd
  | stopped ahead c behind hc hsent hf =>
      rcases List.mem_cons.mp hd with rfl | hd
      · exact fresh_stamp now c
      · by_contra hexp
        obtain ⟨between, rest, rfl⟩ := List.append_of_mem hd
        have hall := hreached (ahead ++ c :: between) d rest (by simp) (by simpa using hexp)
        have hat : ((ahead ++ c :: between).filter (·.fresh now))[(ahead.filter (·.fresh now)).length]? =
            some c := by
          simp [List.filter_append, hc]
        rw [hall _ c hat] at hf
        cases hf

theorem Flushed.target {q q' : List MqttCommand} (h : Flushed json link now q q') {c : MqttCommand}
    (hc : c ∈ q') : ∃ d ∈ q, d.target = c.target := by
  cases h with
  | emptied => cases hc
  | stopped ahead d behind =>
      rcases List.mem_cons.mp hc with rfl | hc
      · exact ⟨d, by simp, rfl⟩
      · exact ⟨c, by simp [hc], rfl⟩

theorem Flushed.keeps {q q' ahead behind : List MqttCommand} {c : MqttCommand}
    (h : Flushed json link now q q') (hq : q = ahead ++ c :: behind) (hexp : c.fresh now = false)
    (hstop : ¬ AllSent json link now ahead) : c ∈ q' := by
  cases h with
  | emptied _ hsent =>
      rw [hq] at hsent
      exact absurd hsent.of_append hstop
  | stopped front d rest hd hsent hf =>
      rcases List.append_eq_append_iff.mp hq with ⟨m, rfl, hm⟩ | ⟨m, rfl, hm⟩
      · cases m with
        | nil =>
            obtain ⟨rfl, _⟩ := List.cons.inj hm
            rw [hexp] at hd
            cases hd
        | cons e m =>
            obtain ⟨_, rfl⟩ := List.cons.inj hm
            simp
      · exact absurd hsent.of_append hstop

open FlushAll in
theorem flushed_of_nodeFlushed {time : Nat} {q behind : List MqttCommand} {tried : List Tried}
    {after : Option (List MqttCommand)} {looked : List (MqttCommand × Nat)}
    (h : NodeFlushed time time q tried after looked behind)
    (hok : ∀ k t, tried[k]? = some t → t.ok = trySend json (fun _ _ => link k) t.cmd) :
    Flushed json link (UInt32.ofNat time) q (after.getD []) := by
  have hcmds : tried.map Tried.cmd = (looked.map Prod.fst).filter (·.fresh (UInt32.ofNat time)) := by
    rw [h.unexpired, List.filter_map]
    congr 1
    apply List.filter_congr
    intro e he
    have := h.during e he
    rw [show e.2 = time by omega]
    rfl
  have hsent : ∀ ts, (∀ t ∈ ts, t.ok = true) → ts <+: tried → ∀ l,
      l.filter (·.fresh (UInt32.ofNat time)) = ts.map Tried.cmd → AllSent json link (UInt32.ofNat time) l := by
    rintro ts hall ⟨more, rfl⟩ l hl k d hd
    rw [hl, List.getElem?_map, Option.map_eq_some_iff] at hd
    obtain ⟨t, ht, rfl⟩ := hd
    have hk : (ts ++ more)[k]? = some t := by
      rw [List.getElem?_append_left (List.getElem?_eq_some_iff.mp ht).1, ht]
    rw [← hok k t hk]
    exact hall t (List.mem_of_getElem? ht)
  rcases h.result with ⟨rfl, rfl, hall⟩ | ⟨sent, failed, t, back, rfl, hall, hf, hlast, hle, hback, rfl⟩
  · rw [h.split, List.append_nil]
    exact .emptied _ (hsent tried hall List.prefix_rfl _ hcmds.symm)
  · obtain ⟨front, rfl⟩ := List.getLast?_eq_some_iff.mp hlast
    have hin := h.during (failed.cmd, t) (List.mem_append_right _ (List.mem_singleton_self _))
    obtain rfl : back = time := by omega
    have hfresh : failed.cmd.fresh (UInt32.ofNat back) = true := by
      have hmem : failed.cmd ∈ (sent ++ [failed]).map Tried.cmd := by simp
      rw [hcmds] at hmem
      exact (List.mem_filter.mp hmem).2
    have hfront : (front.map Prod.fst).filter (·.fresh (UInt32.ofNat back)) = sent.map Tried.cmd := by
      have hsplit := hcmds
      simp only [List.map_append, List.map_cons, List.map_nil, List.filter_append] at hsplit
      rw [List.filter_cons_of_pos hfresh, List.filter_nil] at hsplit
      exact (List.append_cancel_right hsplit).symm
    have hlen : ((front.map Prod.fst).filter (·.fresh (UInt32.ofNat back))).length = sent.length := by
      rw [hfront, List.length_map]
    have hq : q = front.map Prod.fst ++ failed.cmd :: behind := by rw [h.split]; simp
    rw [hq, Option.getD_some]
    apply Flushed.stopped _ _ _ hfresh
    · exact hsent sent hall (List.prefix_append _ _) _ hfront
    · rw [hlen, ← hok sent.length failed (by simp), hf]

end

open FlushAll in
/-- The `k`-th attempt at a node gets the `k`-th result for that node. -/
theorem ok_of_answered {json : ArduinoJson} {link : NodeId → Nat → Bool} {w w' : NodeId → Nat}
    {ts : List Tried} (h : Answered (perNode json link) w ts w') (n : NodeId) {k : Nat} {t : Tried}
    (ht : (ts.filter (·.cmd.target = n))[k]? = some t) :
    t.ok = trySend json (fun _ _ => link n (w n + k)) t.cmd := by
  induction ts generalizing w k with
  | nil => cases ht
  | cons u ts ih =>
      obtain ⟨hu, h⟩ := h
      by_cases hn : u.cmd.target = n
      · rw [List.filter_cons_of_pos (by simpa using hn)] at ht
        cases k with
        | zero =>
            obtain rfl : u = t := by simpa using ht
            rw [← hu, ← hn]
            rfl
        | succ k =>
            rw [ih h (by simpa using ht)]
            have hcount : (perNode json link w u.cmd).2 n = w n + 1 := by
              rw [← hn]
              exact Function.update_self ..
            rw [hcount, Nat.add_right_comm, Nat.add_assoc]
      · rw [List.filter_cons_of_neg (by simpa using hn)] at ht
        rw [ih h ht]
        have hcount : (perNode json link w u.cmd).2 n = w n :=
          Function.update_of_ne (Ne.symm hn) _ _
        rw [hcount]

structure Tidy (s : PoolState) : Prop where
  wf : s.pool.Wf
  nonempty : ∀ n, s.pool.lookup n ≠ some []
  queued : ∀ n, ∀ c ∈ s.pool.queueOf n, c.target = n

theorem nonempty_update {p p' : PendingPool} {n : NodeId} {o : Option (List MqttCommand)}
    (hp : ∀ m, p.lookup m ≠ some []) (hu : Update p n o p') (ho : o ≠ some []) (m : NodeId) :
    p'.lookup m ≠ some [] := by
  rw [hu.lookup]
  by_cases hm : m = n
  · subst hm
    rwa [Function.update_self]
  · rw [Function.update_of_ne hm]
    exact hp m

section

variable {json : ArduinoJson} {s : PoolState}

open FlushAll in
/-- What `loop` does to the pool, node by node. -/
theorem loop_spec (hs : Tidy s) (ms : Nat) (connected : NodeId → Bool) (link : NodeId → Nat → Bool) :
    ∃ t, roomStep json s (.loop ms connected link) = some t ∧ t.now = s.now + ms ∧ Tidy t ∧
      (∀ n, connected n = false → t.pool.queueOf n = s.pool.queueOf n) ∧
      ∀ n, connected n = true →
        Flushed json (link n) t.millis (s.pool.queueOf n) (t.pool.queueOf n) := by
  obtain ⟨u, hu, h⟩ := flushedAll_of_wf (perNode json link) connected
    (fun _ => s.now + ms) monotone_const hs.wf fun _ => 0
  have hother : ∀ n, connected n = false ∨ s.pool.queueOf n = [] →
      u.pool.lookup n = s.pool.lookup n ∧ triedFor n u.tried = [] := h.others
  have hsame : ∀ n, connected n = false ∨ s.pool.queueOf n = [] →
      u.pool.queueOf n = s.pool.queueOf n := fun n hn => congrArg (·.getD []) (hother n hn).1
  have htarget : ∀ e ∈ u.tried, e.cmd.target = e.nodeId := by
    intro e he
    have hmem : e ∈ triedFor e.nodeId u.tried := List.mem_filter.mpr ⟨he, by simp⟩
    have hvisited : ¬ (connected e.nodeId = false ∨ s.pool.queueOf e.nodeId = []) := by
      intro hn
      rw [(hother _ hn).2] at hmem
      cases hmem
    obtain ⟨hc, hq⟩ := not_or.mp hvisited
    obtain ⟨looked, behind, hn⟩ := h.reached e.nodeId (by simpa using hc) hq
    have hin := List.mem_map_of_mem (f := Tried.cmd) hmem
    rw [hn.unexpired] at hin
    apply hs.queued
    rw [show s.pool.queueOf e.nodeId = looked.map Prod.fst ++ behind from hn.split]
    exact List.mem_append_left _ (List.map_subset _ (List.filter_subset_self _) hin)
  have hok : ∀ n k t, (triedFor n u.tried)[k]? = some t →
      t.ok = trySend json (fun _ _ => link n k) t.cmd := by
    intro n k t ht
    have hown : triedFor n u.tried = u.tried.filter (·.cmd.target = n) :=
      List.filter_congr fun e he => by rw [htarget e he]
    rw [hown] at ht
    have h0 := ok_of_answered h.answered n ht
    rwa [State.start, Nat.zero_add] at h0
  have hflushed : ∀ n, connected n = true →
      Flushed json (link n) (UInt32.ofNat (s.now + ms)) (s.pool.queueOf n) (u.pool.queueOf n) := by
    intro n hc
    by_cases hq : s.pool.queueOf n = []
    · rw [hsame n (.inr hq), hq]
      exact .emptied [] fun k d hd => by cases hd
    · obtain ⟨looked, behind, hn⟩ := h.reached n hc hq
      exact flushed_of_nodeFlushed hn (hok n)
  have hkept : ∀ n, connected n = false → u.pool.queueOf n = s.pool.queueOf n :=
    fun n hc => hsame n (.inl hc)
  refine ⟨⟨u.pool, s.now + ms⟩, by rw [roomStep, hu, Option.map_some], rfl,
    ⟨h.wf, fun n => ?_, fun n c hmem => ?_⟩, hkept, hflushed⟩
  · by_cases hn : connected n = false ∨ s.pool.queueOf n = []
    · rw [(hother n hn).1]
      exact hs.nonempty n
    · obtain ⟨hc, hq⟩ := not_or.mp hn
      obtain ⟨looked, behind, hn⟩ := h.reached n (by simpa using hc) hq
      rcases hn.result with ⟨_, ha, _⟩ | ⟨_, _, _, _, _, _, _, _, _, _, ha⟩
      · simp [ha]
      · rw [ha]
        simp
  · cases hc : connected n with
    | false =>
        rw [hkept n hc] at hmem
        exact hs.queued n c hmem
    | true =>
        obtain ⟨d, hd, ht⟩ := (hflushed n hc).target hmem
        rw [← ht]
        exact hs.queued n d hd

theorem dispatch_spec (hs : Tidy s) (bleSendToNode : NodeId → List UInt8 → Bool) (cmd : MqttCommand) :
    ∃ t, roomStep json s (.dispatchCommand bleSendToNode cmd) = some t ∧ t.now = s.now ∧ Tidy t ∧
      ∀ n, ∀ c ∈ t.pool.queueOf n, c ∈ s.pool.queueOf n ∨ c.fresh t.millis = true := by
  refine ⟨_, rfl, rfl, ?_⟩
  unfold dispatchCommand
  split_ifs with hempty hsent
  · exact ⟨hs, fun n c hc => .inl hc⟩
  · exact ⟨hs, fun n c hc => .inl hc⟩
  · obtain ⟨p, hp, _, hu⟩ | ⟨hp, _⟩ := push_cases hs.wf s.millis cmd.target cmd
    · have hmem : ∀ n, ∀ c ∈ p.queueOf n, c ∈ s.pool.queueOf n ∨
          n = cmd.target ∧ c = cmd.stamp s.millis := by
        refine hu.forall_queueOf (fun n c hc => .inl hc) fun c hc => ?_
        rcases List.mem_append.mp hc with hc | hc
        · exact .inl hc
        · exact .inr ⟨rfl, List.mem_singleton.mp hc⟩
      simp only [hp]
      refine ⟨⟨hu.wf, fun n => nonempty_update hs.nonempty hu (by simp) n, fun n c hc => ?_⟩,
        fun n c hc => ?_⟩
      · rcases hmem n c hc with hc | ⟨rfl, rfl⟩
        · exact hs.queued n c hc
        · rfl
      · rcases hmem n c hc with hc | ⟨_, rfl⟩
        · exact .inl hc
        · exact .inr (fresh_stamp _ cmd)
    · simp only [hp]
      exact ⟨hs, fun n c hc => .inl hc⟩

/-- Where nothing has expired, the slots and the places in the queues that are taken are
taken by the commands that may keep others out. -/
theorem hasRoom_of_fresh (hs : Tidy s)
    (hfresh : ∀ n, ∀ c ∈ s.pool.queueOf n, c.fresh s.millis = true) : HasRoom s := by
  intro n cmd hothers hown
  obtain ⟨p, hp, _⟩ | ⟨_, hfull | ⟨hnew, hall⟩⟩ := push_cases hs.wf s.millis n cmd
  · rw [hp]
  · obtain ⟨l, hl, hlen⟩ := hfull
    have hq : s.pool.queueOf n = l := by rw [queueOf, hl, Option.getD_some]
    rw [List.filter_eq_self.mpr (hfresh n), hq] at hown
    omega
  · have hne : ∀ i, (s.pool.slots.get i).used = true → (s.pool.slots.get i).queue.contents ≠ [] :=
      fun i hu he => hs.nonempty _ (hs.wf.lookup_iff.mpr ⟨i, hu, rfl, he⟩)
    have hyoung : s.pool.young s.millis \ {n} = s.pool.waiting := by
      ext m
      constructor
      · rintro ⟨⟨c, hc, _⟩, _⟩
        exact List.ne_nil_of_mem hc
      · intro hm
        obtain ⟨c, hc⟩ := List.exists_mem_of_ne_nil _ hm
        refine ⟨⟨c, hc, hfresh m c hc⟩, fun he => ?_⟩
        rw [Set.mem_singleton_iff.mp he, queueOf, hnew] at hc
        cases hc
    have huniv : s.pool.usedSlots = Finset.univ := by
      rw [Finset.eq_univ_iff_forall]
      exact fun i => mem_usedSlots.mpr (hall i)
    rw [hyoung, ncard_waiting hs.wf hne, huniv, Finset.card_univ, Fintype.card_fin] at hothers
    exact absurd hothers (lt_irrefl _)

theorem tidy_step {a : PoolAction} {t : PoolState} (hs : Tidy s) (h : roomStep json s a = some t) :
    Tidy t := by
  cases a with
  | dispatchCommand bleSendToNode cmd =>
      obtain ⟨u, hu, _, hu', _⟩ := dispatch_spec hs bleSendToNode cmd
      rw [h] at hu
      exact Option.some.inj hu ▸ hu'
  | loop ms connected link =>
      obtain ⟨u, hu, _, hu', _⟩ := loop_spec hs ms connected link
      rw [h] at hu
      exact Option.some.inj hu ▸ hu'

theorem fresh_step {a : PoolAction} {t : PoolState} (hs : Tidy s)
    (hfresh : ∀ n, ∀ c ∈ s.pool.queueOf n, c.fresh s.millis = true) (hg : ExpiredReached json s a)
    (h : roomStep json s a = some t) : ∀ n, ∀ c ∈ t.pool.queueOf n, c.fresh t.millis = true := by
  intro n c hc
  cases a with
  | dispatchCommand bleSendToNode cmd =>
      obtain ⟨u, hu, hnow, _, hmem⟩ := dispatch_spec hs bleSendToNode cmd
      obtain rfl := Option.some.inj (h.symm.trans hu)
      rcases hmem n c hc with hold | hnew
      · rw [PoolState.millis, hnow]
        exact hfresh n c hold
      · exact hnew
  | loop ms connected link =>
      obtain ⟨u, hu, hnow, _, hkept, hflushed⟩ := loop_spec hs ms connected link
      obtain rfl := Option.some.inj (h.symm.trans hu)
      have hmillis : t.millis = UInt32.ofNat (s.now + ms) := by rw [PoolState.millis, hnow]
      cases hcon : connected n with
      | true =>
          apply (hflushed n hcon).fresh _ c hc
          intro ahead d behind hq hexp
          rw [hmillis] at hexp ⊢
          exact (hg n ahead d behind hq hexp).2
      | false =>
          rw [hkept n hcon] at hc
          by_contra hexp
          obtain ⟨ahead, behind, hq⟩ := List.append_of_mem hc
          have := (hg n ahead c behind hq (by simpa [hmillis] using hexp)).1
          rw [hcon] at this
          cases this

theorem occupied_of_not_reached {a : PoolAction} (hs : Tidy s) (hg : ¬ ExpiredReached json s a) :
    ∃ t, roomStep json s a = some t ∧ ¬ Unoccupied t := by
  cases a with
  | dispatchCommand bleSendToNode cmd => exact absurd trivial hg
  | loop ms connected link =>
      simp only [ExpiredReached, not_forall] at hg
      obtain ⟨n, ahead, c, behind, hq, hexp, hstop⟩ := hg
      obtain ⟨t, ht, hnow, _, hkept, hflushed⟩ := loop_spec hs ms connected link
      have hmillis : t.millis = UInt32.ofNat (s.now + ms) := by rw [PoolState.millis, hnow]
      refine ⟨t, ht, fun hun => ?_⟩
      have hstays : c ∈ t.pool.queueOf n := by
        cases hcon : connected n with
        | false =>
            rw [hkept n hcon, hq]
            simp
        | true =>
            apply (hflushed n hcon).keeps hq
            · rw [hmillis, hexp]
            · rw [hmillis]
              exact fun hall => hstop ⟨hcon, hall⟩
      have hfresh := hun.fresh n c hstays
      rw [hmillis, hexp] at hfresh
      cases hfresh

end

theorem tidy_init : Tidy PoolState.init where
  wf := wf_init
  nonempty n h := by
    obtain ⟨i, hi, _⟩ := wf_init.lookup_iff.mp h
    rw [slots_init] at hi
    cases hi
  queued n c hc := by
    rw [show PoolState.init.pool.queueOf n = [] from queueOf_init n] at hc
    cases hc

/-- No expired command takes up a place in the pool, and none keeps another command out,
exactly when every flush comes as far as the commands that have expired. -/
theorem always_unoccupied_iff (json : ArduinoJson) (as : List PoolAction) :
    Always (roomStep json) Unoccupied PoolState.init as ↔
      Along (roomStep json) (ExpiredReached json) PoolState.init as := by
  apply always_iff_along
    (I := fun s => Tidy s ∧ ∀ n, ∀ c ∈ s.pool.queueOf n, c.fresh s.millis = true)
  · intro s a t hs hg ht
    exact ⟨tidy_step hs.1 ht, fresh_step hs.1 hs.2 hg ht⟩
  · intro s hs
    exact ⟨hs.2, hasRoom_of_fresh hs.1 hs.2⟩
  · intro s a hs hg
    exact occupied_of_not_reached hs.1 hg
  · refine ⟨tidy_init, fun n c hc => ?_⟩
    rw [show PoolState.init.pool.queueOf n = [] from queueOf_init n] at hc
    cases hc

def commandFor (target : String) : MqttCommand :=
  { testCommand 1 with target := strlcpy 18 target.toList }

/-- Five nodes that never appear get a command each, and five minutes go by. -/
def absentNodesRun : List PoolAction :=
  ["00:00:00:00:00:01", "00:00:00:00:00:02", "00:00:00:00:00:03", "00:00:00:00:00:04",
    "00:00:00:00:00:05"].map (fun target => .dispatchCommand (fun _ _ => false) (commandFor target)) ++
    [.loop 300000 (fun _ => false) fun _ _ => false]

/-- The pool is full of expired commands and refuses a command for a sixth node. -/
theorem absentNodesRun_refuses :
    ¬ Always (roomStep emptyObjectJson) HasRoom PoolState.init absentNodesRun := by
  intro hA
  obtain ⟨s, hs⟩ : ∃ s, exec (roomStep emptyObjectJson) PoolState.init absentNodesRun = some s :=
    Option.isSome_iff_exists.mp (by decide +kernel)
  have hwf := (Reachable.invariant (fun _ _ _ => tidy_step) tidy_init ⟨_, hs⟩).wf
  have hold : ∀ t ∈ exec (roomStep emptyObjectJson) PoolState.init absentNodesRun,
      (∀ c ∈ t.pool.stored, c.fresh t.millis = false) ∧
        t.pool.stored.length = 5 ∧
        (t.pool.push t.millis (testCommand 1).target (testCommand 1)).1 = false ∧
        (t.pool.queueOf (testCommand 1).target).length = 0 := by
    decide +kernel
  obtain ⟨hexp, _, hrefused, hq⟩ := hold s hs
  have hyoung : s.pool.young s.millis = ∅ := by
    apply Set.eq_empty_of_forall_notMem
    rintro n ⟨c, hc, hfresh⟩
    rw [hexp c (hwf.mem_stored.mpr ⟨n, hc⟩)] at hfresh
    cases hfresh
  have hroom := hA.at_end hs (testCommand 1).target (testCommand 1)
    (by simp [hyoung, maxNodes]) (by simp [List.eq_nil_of_length_eq_zero hq, cmdPendingPerNode])
  rw [hrefused] at hroom
  cases hroom

end Tempio.Hub
