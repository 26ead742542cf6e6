import Tempio.Hub.Delivery

namespace Tempio.Hub

open PendingPool Tempio.Lib.Transition

section

variable (json : ArduinoJson)

/-- The loop of `flushNodePending` with the commands it transmits. `clock n` is
the n-th reading of `millis()` in the call and `link n` the result of the n-th
write. The fuel bounds the iterations; `none` means that it ran out. -/
def flushLoop (link : Nat → Bool) (clock : Nat → Nat) (nodeId : NodeId) :
    Nat → Nat → PendingPool → Option (PendingPool × List MqttCommand)
  | 0, _, _ => none
  | fuel + 1, i, p =>
      match p.pop (UInt32.ofNat (clock i)) nodeId with
      | (none, p) => some (p, [])
      | (some cmd, p) =>
          if trySend json (fun _ _ => link i) cmd then
            (flushLoop link clock nodeId fuel (i + 1) p).map fun r => (r.1, cmd :: r.2)
          else some ((p.pushFront (UInt32.ofNat (clock (i + 1))) nodeId cmd).2, [])

def flushNodePending (isConnected : Bool) (link : Nat → Bool) (clock : Nat → Nat) (nodeId : NodeId)
    (p : PendingPool) : Option (PendingPool × List MqttCommand) :=
  if isConnected then flushLoop json link clock nodeId (cmdPendingPerNode + 1) 0 p else some (p, [])

def flushRepeatedly (nodeId : NodeId) : List (Nat → Nat) → PendingPool → Option PendingPool
  | [], p => some p
  | clock :: clocks, p =>
      (flushNodePending json true (fun _ => true) clock nodeId p).bind fun r =>
        flushRepeatedly nodeId clocks r.1

end

/-- The readings of one flush never decrease, and the next flush starts after them. -/
def Ticking : Nat → List (Nat → Nat) → Prop
  | _, [] => True
  | now, clock :: clocks => now ≤ clock 0 ∧ Monotone clock ∧ Ticking (clock cmdPendingPerNode) clocks

/-- What flushing a connected node promises: the commands that can be sent and
do not expire are sent, and the others are gone once their time is over. -/
structure FlushContract (json : ArduinoJson) (s : HubState) (nodeId : NodeId) : Prop where
  sends : ∀ clock, Monotone clock → s.now ≤ clock 0 →
    ∃ p sent, flushNodePending json true (fun _ => true) clock nodeId s.pool = some (p, sent) ∧
      ∀ c ∈ s.pool.queueOf nodeId, ¬ Unsendable json c →
        (∀ i ≤ cmdPendingPerNode, c.fresh (UInt32.ofNat (clock i)) = true) → c ∈ sent
  expires : ∀ clocks clock, Ticking s.now (clocks ++ [clock]) →
    ∃ p, flushRepeatedly json nodeId (clocks ++ [clock]) s.pool = some p ∧
      ∀ c ∈ p.queueOf nodeId, Unsendable json c → ∀ d ∈ s.dispatched, d.2.origin = c.origin →
        clock 0 ≤ d.1 + cmdTtlMs.toNat

section

variable {json : ArduinoJson}

theorem length_queueOf_le {p : PendingPool} (hp : p.Wf) (nodeId : NodeId) :
    (p.queueOf nodeId).length ≤ cmdPendingPerNode := by
  cases hl : p.lookup nodeId with
  | none => simp [queueOf, hl]
  | some l =>
      obtain ⟨i, _, _, rfl⟩ := hp.lookup_iff.mp hl
      rw [queueOf, hl, Option.getD_some]
      exact ThreadSafeQueue.length_contents_le _

/-- A popped command goes back to the front: its queue has just lost a command, and it has
not lost its slot. -/
theorem pushFront_of_popped {p p' : PendingPool} (hp : p.Wf) {nodeId : NodeId} {now : UInt32}
    {c : MqttCommand} {rest : List MqttCommand} (hq : unexpired now (p.queueOf nodeId) = c :: rest)
    (hu : Update p nodeId (some rest) p') (later : UInt32) :
    ∃ p'', p'.pushFront later nodeId c = (true, p'') ∧
      Update p' nodeId (some (c.stamp later :: rest)) p'' := by
  have hlen := (unexpired_sublist now (p.queueOf nodeId)).length_le
  rw [hq, List.length_cons] at hlen
  have hmax := length_queueOf_le hp nodeId
  obtain ⟨p'', hf, _, hu'⟩ | ⟨_, hf⟩ := pushFront_cases hu.wf later nodeId c
  · rw [hu.queueOf_self, Option.getD_some] at hu'
    exact ⟨p'', hf, hu'⟩
  · rw [Refuses, hu.lookup, Function.update_self] at hf
    rcases hf with ⟨l, hl, hfull⟩ | ⟨hl, _⟩
    · rw [← Option.some.inj hl] at hfull
      omega
    · cases hl

variable (json) in
theorem flushLoop_cases {p : PendingPool} (hp : p.Wf) (link : Nat → Bool) (clock : Nat → Nat)
    (nodeId : NodeId) (fuel i : Nat) :
    (∃ p', flushLoop json link clock nodeId (fuel + 1) i p = some (p', []) ∧ p'.Wf ∧
      unexpired (UInt32.ofNat (clock i)) (p.queueOf nodeId) = [] ∧ p'.queueOf nodeId = []) ∨
    (∃ c rest p', flushLoop json link clock nodeId (fuel + 1) i p =
        (flushLoop json link clock nodeId fuel (i + 1) p').map (fun r => (r.1, c :: r.2)) ∧ p'.Wf ∧
      unexpired (UInt32.ofNat (clock i)) (p.queueOf nodeId) = c :: rest ∧
      p'.queueOf nodeId = rest ∧ trySend json (fun _ _ => link i) c = true) ∨
    (∃ c rest p', flushLoop json link clock nodeId (fuel + 1) i p = some (p', []) ∧ p'.Wf ∧
      unexpired (UInt32.ofNat (clock i)) (p.queueOf nodeId) = c :: rest ∧
      p'.queueOf nodeId = c.stamp (UInt32.ofNat (clock (i + 1))) :: rest ∧
      trySend json (fun _ _ => link i) c = false) := by
  obtain ⟨hr, hn⟩ | ⟨p', hr, hq, hu⟩ | ⟨c, rest, p', hr, hq, hu⟩ :=
    pop_cases hp (UInt32.ofNat (clock i)) nodeId
  · have hq : p.queueOf nodeId = [] := by rw [queueOf, hn, Option.getD_none]
    exact .inl ⟨p, by simp only [flushLoop, hr], hp, by rw [hq]; rfl, hq⟩
  · exact .inl ⟨p', by simp only [flushLoop, hr], hu.wf, hq, by rw [hu.queueOf_self]; rfl⟩
  · have hrest : p'.queueOf nodeId = rest := by rw [hu.queueOf_self, Option.getD_some]
    cases hs : trySend json (fun _ _ => link i) c with
    | true =>
        exact .inr (.inl ⟨c, rest, p', by simp only [flushLoop, hr, hs, if_true], hu.wf, hq, hrest, hs⟩)
    | false =>
        right; right
        obtain ⟨p'', hf, hu'⟩ := pushFront_of_popped hp hq hu (UInt32.ofNat (clock (i + 1)))
        refine ⟨c, rest, p'', ?_, hu'.wf, hq, by rw [hu'.queueOf_self]; rfl, hs⟩
        simp only [flushLoop, hr, hs, Bool.false_eq_true, if_false, hf]

theorem mem_expired_or_unexpired (now : UInt32) {l : List MqttCommand} {c : MqttCommand} (hc : c ∈ l) :
    c.fresh now = false ∨ c ∈ unexpired now l := by
  rw [← expiredPrefix_append_unexpired now l, List.mem_append] at hc
  exact hc.imp_left fresh_of_mem_expiredPrefix

theorem flushLoop_total (link : Nat → Bool) (clock : Nat → Nat) (nodeId : NodeId) (fuel i : Nat)
    {p : PendingPool} (hp : p.Wf) (hf : (p.queueOf nodeId).length < fuel) :
    ∃ p' sent, flushLoop json link clock nodeId fuel i p = some (p', sent) ∧ p'.Wf := by
  induction fuel generalizing i p with
  | zero => omega
  | succ fuel ih =>
      have hsub := unexpired_sublist (UInt32.ofNat (clock i)) (p.queueOf nodeId)
      obtain ⟨p', hr, hw, _, hq⟩ | ⟨c, rest, p', hr, hw, hu, hq, _⟩ | ⟨c, rest, p', hr, hw, hu, hq, _⟩ :=
        flushLoop_cases json hp link clock nodeId fuel i
      · exact ⟨p', [], hr, hw⟩
      · rw [hu] at hsub
        have hlen := hsub.length_le
        rw [List.length_cons] at hlen
        obtain ⟨p'', sent, hr', hw'⟩ := ih (i + 1) hw (by rw [hq]; omega)
        exact ⟨p'', c :: sent, by rw [hr, hr']; rfl, hw'⟩
      · exact ⟨p', [], hr, hw⟩

theorem flushLoop_sends {clock : Nat → Nat} {nodeId : NodeId} {fuel i N : Nat} {p p' : PendingPool}
    {sent : List MqttCommand} (hp : p.Wf)
    (hr : flushLoop json (fun _ => true) clock nodeId fuel i p = some (p', sent))
    (hall : ∀ c ∈ p.queueOf nodeId, ¬ Unsendable json c)
    (hi : i + (p.queueOf nodeId).length ≤ N) {c : MqttCommand} (hc : c ∈ p.queueOf nodeId)
    (hfresh : ∀ j ≤ N, c.fresh (UInt32.ofNat (clock j)) = true) : c ∈ sent := by
  induction fuel generalizing i p sent with
  | zero => cases hr
  | succ fuel ih =>
      have hin : c ∈ unexpired (UInt32.ofNat (clock i)) (p.queueOf nodeId) := by
        apply (mem_expired_or_unexpired _ hc).resolve_left
        intro h
        rw [hfresh i (by omega)] at h
        cases h
      have hsub := unexpired_sublist (UInt32.ofNat (clock i)) (p.queueOf nodeId)
      obtain ⟨q, hf, _, hu, _⟩ | ⟨d, rest, q, hf, hw, hu, hq, _⟩ | ⟨d, rest, q, hf, _, hu, _, hs⟩ :=
        flushLoop_cases json hp (fun _ => true) clock nodeId fuel i
      · rw [hu] at hin
        exact absurd hin List.not_mem_nil
      · rw [hu] at hin hsub
        have hlen := hsub.length_le
        rw [List.length_cons] at hlen
        rw [hf] at hr
        obtain ⟨⟨q', sent'⟩, hr', he⟩ := Option.map_eq_some_iff.mp hr
        obtain ⟨rfl, rfl⟩ := Prod.mk.inj he
        rcases List.mem_cons.mp hin with rfl | hin
        · exact List.mem_cons_self
        · apply List.mem_cons_of_mem
          apply ih hw hr'
          · intro e he
            rw [hq] at he
            exact hall e (hsub.subset (List.mem_cons_of_mem _ he))
          · rw [hq]
            omega
          · rwa [hq]
      · rw [hu] at hsub
        exact absurd (unsendable_iff.mpr hs) (hall d (hsub.subset List.mem_cons_self))

/-- Nothing stays behind, since nothing is put back. -/
theorem queueOf_flushLoop {clock : Nat → Nat} {nodeId : NodeId} {fuel i : Nat} {p p' : PendingPool}
    {sent : List MqttCommand} (hp : p.Wf)
    (hr : flushLoop json (fun _ => true) clock nodeId fuel i p = some (p', sent))
    (hall : ∀ c ∈ p.queueOf nodeId, ¬ Unsendable json c) : p'.queueOf nodeId = [] := by
  induction fuel generalizing i p sent with
  | zero => cases hr
  | succ fuel ih =>
      obtain ⟨q, hf, _, _, hempty⟩ | ⟨d, rest, q, hf, hw, hu, hq, _⟩ | ⟨d, rest, q, _, _, hu, _, hs⟩ :=
        flushLoop_cases json hp (fun _ => true) clock nodeId fuel i
      · rw [hf] at hr
        obtain ⟨rfl, _⟩ := Prod.mk.inj (Option.some.inj hr)
        exact hempty
      · rw [hf] at hr
        obtain ⟨⟨q', sent'⟩, hr', he⟩ := Option.map_eq_some_iff.mp hr
        obtain ⟨rfl, _⟩ := Prod.mk.inj he
        refine ih hw hr' fun e he => ?_
        rw [hq] at he
        exact hall e (mem_of_unexpired hu (List.mem_cons_of_mem _ he))
      · exact absurd (unsendable_iff.mpr hs) (hall d (mem_of_unexpired hu List.mem_cons_self))

/-- The command is put back with the stamp that it already has. -/
theorem flushLoop_keeps_unsendable {now : Nat} {nodeId : NodeId} {fuel i : Nat}
    {p p' : PendingPool} {sent : List MqttCommand} (hp : p.Wf)
    (hr : flushLoop json (fun _ => true) (fun _ => now) nodeId fuel i p = some (p', sent))
    {c : MqttCommand} (hc : c ∈ p.queueOf nodeId) (hu : Unsendable json c)
    (hnow : UInt32.ofNat now = c.queuedAt) : c ∈ p'.queueOf nodeId := by
  have hfresh : c.fresh (UInt32.ofNat now) = true := by simp [MqttCommand.fresh, hnow, cmdTtlMs]
  have hstamp : c.stamp (UInt32.ofNat now) = c := by rw [hnow]; rfl
  induction fuel generalizing i p sent with
  | zero => cases hr
  | succ fuel ih =>
      have hin : c ∈ unexpired (UInt32.ofNat now) (p.queueOf nodeId) := by
        apply (mem_expired_or_unexpired _ hc).resolve_left
        intro h
        rw [hfresh] at h
        cases h
      obtain ⟨q, hf, _, hq, _⟩ | ⟨d, rest, q, hf, hw, hq, hrest, hs⟩ |
          ⟨d, rest, q, hf, _, hq, hrest, _⟩ :=
        flushLoop_cases json hp (fun _ => true) (fun _ => now) nodeId fuel i
      · rw [hq] at hin
        exact absurd hin List.not_mem_nil
      · rw [hq] at hin
        rw [hf] at hr
        obtain ⟨⟨q', sent'⟩, hr', he⟩ := Option.map_eq_some_iff.mp hr
        obtain ⟨rfl, rfl⟩ := Prod.mk.inj he
        rcases List.mem_cons.mp hin with rfl | hin
        · rw [hu] at hs
          cases hs
        · exact ih hw hr' (hrest.symm ▸ hin)
      · rw [hq] at hin
        rw [hf] at hr
        obtain ⟨rfl, rfl⟩ := Prod.mk.inj (Option.some.inj hr)
        rw [hrest]
        rcases List.mem_cons.mp hin with rfl | hin
        · rw [hstamp]
          exact List.mem_cons_self
        · exact List.mem_cons_of_mem _ hin

variable (json) in
theorem flushNodePending_total (link : Nat → Bool) (clock : Nat → Nat) (nodeId : NodeId)
    {p : PendingPool} (hp : p.Wf) :
    ∃ p' sent, flushNodePending json true link clock nodeId p = some (p', sent) ∧ p'.Wf :=
  flushLoop_total link clock nodeId (cmdPendingPerNode + 1) 0 hp
    (Nat.lt_succ_of_le (length_queueOf_le hp nodeId))

/-- Flushing empties a queue of commands that can all be sent. -/
theorem flushRepeatedly_empties (nodeId : NodeId) (clocks : List (Nat → Nat)) (clock : Nat → Nat)
    {p : PendingPool} (hp : p.Wf) (hall : ∀ c ∈ p.queueOf nodeId, ¬ Unsendable json c) :
    ∃ p', flushRepeatedly json nodeId (clocks ++ [clock]) p = some p' ∧ p'.queueOf nodeId = [] := by
  induction clocks generalizing p with
  | nil =>
      obtain ⟨p', sent, hr, _⟩ := flushNodePending_total json (fun _ => true) clock nodeId hp
      exact ⟨p', by rw [List.nil_append, flushRepeatedly, hr]; rfl, queueOf_flushLoop hp hr hall⟩
  | cons first clocks ih =>
      obtain ⟨p', sent, hr, hw⟩ := flushNodePending_total json (fun _ => true) first nodeId hp
      have hempty : p'.queueOf nodeId = [] := queueOf_flushLoop hp hr hall
      obtain ⟨p'', hr', hq⟩ := ih hw (by simp [hempty])
      exact ⟨p'', by rw [List.cons_append, flushRepeatedly, hr, Option.bind_some, hr'], hq⟩

theorem exists_stamp_after (stamp : UInt32) (now : Nat) :
    ∃ later, now ≤ later ∧ UInt32.ofNat later = stamp :=
  ⟨stamp.toNat + 2 ^ 32 * now, by omega, by simp⟩

theorem FlushContract.unblocked {s : HubState} (hs : Inv s) {nodeId : NodeId}
    (h : FlushContract json s nodeId) : ∀ c ∈ s.pool.queueOf nodeId, ¬ Unsendable json c := by
  intro c hc hu
  obtain ⟨d, hd, ho⟩ := hs.known c (.inl ⟨nodeId, hc⟩)
  have hpast := hs.past d hd
  -- a time at which the clock shows the stamp again
  obtain ⟨later, hlater, hstamp⟩ := exists_stamp_after c.queuedAt (s.now + cmdTtlMs.toNat + 1)
  have htick : Ticking s.now [fun _ => later] :=
    ⟨Nat.le_trans (by omega) hlater, monotone_const, trivial⟩
  obtain ⟨p, hr, hgone⟩ := h.expires [] (fun _ => later) htick
  obtain ⟨p', sent, hr', _⟩ :=
    flushNodePending_total json (fun _ => true) (fun _ => later) nodeId hs.wf
  have hp : p' = p := by
    rw [List.nil_append, flushRepeatedly, hr'] at hr
    exact Option.some.inj hr
  have hkept := flushLoop_keeps_unsendable hs.wf hr' hc hu hstamp
  have hold := hgone c (hp ▸ hkept) hu d hd ho
  omega

theorem flushContract_of_unblocked {s : HubState} (hs : Inv s) {nodeId : NodeId}
    (h : ∀ c ∈ s.pool.queueOf nodeId, ¬ Unsendable json c) : FlushContract json s nodeId where
  sends clock _ _ := by
    obtain ⟨p, sent, hr, _⟩ := flushNodePending_total json (fun _ => true) clock nodeId hs.wf
    refine ⟨p, sent, hr, fun c hc _ hfresh => ?_⟩
    have hlen := length_queueOf_le hs.wf nodeId
    exact flushLoop_sends hs.wf hr h (by omega) hc hfresh
  expires clocks clock _ := by
    obtain ⟨p, hr, hempty⟩ := flushRepeatedly_empties nodeId clocks clock hs.wf h
    exact ⟨p, hr, by simp [hempty]⟩

/-- The call is a run of the loop task: ticks up to each reading, and one action
for every operation, while the esp_mqtt task does nothing. -/
theorem exec_flushLoop {link : Nat → Bool} {clock : Nat → Nat} (hclock : Monotone clock)
    {nodeId : NodeId} {resume : Option Nat} {fuel i : Nat} {s : HubState} {p : PendingPool}
    {sent : List MqttCommand} (hl : s.loop = .popping nodeId resume) (hnow : s.now ≤ clock i)
    (hr : flushLoop json link clock nodeId fuel i s.pool = some (p, sent)) :
    ∃ as t, exec (step json) s as = some t ∧ t.pool = p ∧ t.loop = .returned resume ∧
      t.transmitted.map Prod.snd = s.transmitted.map Prod.snd ++ sent := by
  induction fuel generalizing i s sent with
  | zero => cases hr
  | succ fuel ih =>
      have htick : s.now + (clock i - s.now) = clock i := Nat.add_sub_of_le hnow
      rw [flushLoop] at hr
      cases hp : s.pool.pop (UInt32.ofNat (clock i)) nodeId with
      | mk o q =>
          cases o with
          | none =>
              simp only [hp, Option.some.injEq, Prod.mk.injEq] at hr
              obtain ⟨rfl, rfl⟩ := hr
              refine ⟨[.tick (clock i - s.now), .pop], ?_⟩
              simp [step, hl, HubState.millis, htick, hp]
          | some cmd =>
              simp only [hp] at hr
              cases hs : trySend json (fun _ _ => link i) cmd with
              | true =>
                  rw [hs, if_pos rfl] at hr
                  obtain ⟨⟨q', sent'⟩, hr', he⟩ := Option.map_eq_some_iff.mp hr
                  obtain ⟨rfl, rfl⟩ := Prod.mk.inj he
                  obtain ⟨as, t, hx, hpool, hloop, htx⟩ :=
                    ih (s := { s with
                      now := clock i
                      pool := q
                      loop := .popping nodeId resume
                      discarded := s.discarded ++
                        (expiredPrefix (UInt32.ofNat (clock i)) (s.pool.queueOf nodeId)).map
                          (Prod.mk (clock i))
                      transmitted := s.transmitted ++ [(clock i, cmd)] })
                      rfl (hclock (Nat.le_succ i)) hr'
                  refine ⟨.tick (clock i - s.now) :: .pop :: .resend (link i) :: as, t, ?_, hpool,
                    hloop, by simp [htx]⟩
                  simpa [step, hl, HubState.millis, htick, hp, hs] using hx
              | false =>
                  simp only [hs, Bool.false_eq_true, if_false, Option.some.injEq,
                    Prod.mk.injEq] at hr
                  obtain ⟨rfl, rfl⟩ := hr
                  have hnext : clock i + (clock (i + 1) - clock i) = clock (i + 1) :=
                    Nat.add_sub_of_le (hclock (Nat.le_succ i))
                  refine ⟨[.tick (clock i - s.now), .pop, .resend (link i),
                    .tick (clock (i + 1) - clock i), .pushFront], ?_⟩
                  simp only [exec_cons, exec_nil, step, hl, HubState.millis, htick, hp, hs,
                    Bool.false_eq_true, if_false, Option.bind_some, hnext]
                  exact ⟨_, rfl, rfl, rfl, (List.append_nil _).symm⟩

theorem exec_flushNodePending {link : Nat → Bool} {clock : Nat → Nat} (hclock : Monotone clock)
    {isConnected : Bool} {nodeId : NodeId} {s : HubState} {p : PendingPool}
    {sent : List MqttCommand} (hl : s.loop = .idle) (hnow : s.now ≤ clock 0)
    (hr : flushNodePending json isConnected link clock nodeId s.pool = some (p, sent)) :
    ∃ as t, exec (step json) s as = some t ∧ t.pool = p ∧ t.loop = .idle ∧
      t.transmitted.map Prod.snd = s.transmitted.map Prod.snd ++ sent := by
  cases isConnected with
  | false =>
      simp only [flushNodePending, Bool.false_eq_true, if_false, Option.some.injEq,
        Prod.mk.injEq] at hr
      obtain ⟨rfl, rfl⟩ := hr
      exact ⟨[.flushNode nodeId, .connected false], by simp [step, hl, LoopTask.returned]⟩
  | true =>
      obtain ⟨as, t, hx, hpool, hloop, htx⟩ :=
        exec_flushLoop (s := { s with loop := .popping nodeId none }) hclock rfl hnow hr
      exact ⟨.flushNode nodeId :: .connected true :: as, t, by simpa [step, hl] using hx, hpool,
        hloop, htx⟩

end

theorem Reachable.inv {json : ArduinoJson} {s : HubState}
    (h : Reachable (step json) HubState.init s) : Inv s :=
  Reachable.invariant (fun _ _ _ hs => inv_step hs) inv_init h

/-- Flushing a connected node keeps its promise exactly while its queue holds
no command that can never be sent. -/
theorem flushContract_iff (json : ArduinoJson) (s : HubState) (nodeId : NodeId)
    (h : Reachable (step json) HubState.init s) :
    FlushContract json s nodeId ↔ ∀ c ∈ s.pool.queueOf nodeId, ¬ Unsendable json c :=
  ⟨fun hc => hc.unblocked (Reachable.inv h), flushContract_of_unblocked (Reachable.inv h)⟩

def unknownCommand : MqttCommand := { testCommand 1 with type := strlcpy 16 "SET_COLOUR".toList }

def stateAfter (as : List Action) : HubState :=
  (exec (step emptyObjectJson) HubState.init as).getD HubState.init

def twoQueued : HubState := stateAfter (failedDispatch 1 ++ failedDispatch 2)

def blockedQueue : HubState :=
  stateAfter ([.dispatch unknownCommand, .send true, .push] ++ failedDispatch 2)

theorem flushContract_twoQueued :
    (twoQueued.pool.queueOf (testCommand 1).target).length = 2 ∧
      (FlushContract emptyObjectJson twoQueued (testCommand 1).target ↔
        ∀ c ∈ twoQueued.pool.queueOf (testCommand 1).target, ¬ Unsendable emptyObjectJson c) :=
  ⟨by decide +kernel,
    flushContract_iff emptyObjectJson twoQueued (testCommand 1).target
      ⟨failedDispatch 1 ++ failedDispatch 2, rfl⟩⟩

/-- The TEST command behind the unknown one is not sent, on a link that works. -/
theorem blockedQueue_starves :
    Reachable (step emptyObjectJson) HubState.init blockedQueue ∧
      ¬ FlushContract emptyObjectJson blockedQueue (testCommand 2).target := by
  refine ⟨⟨[.dispatch unknownCommand, .send true, .push] ++ failedDispatch 2, rfl⟩, fun h => ?_⟩
  obtain ⟨p, sent, hr, hsent⟩ := h.sends (fun _ => 0) monotone_const (by decide +kernel)
  have hnone : (flushNodePending emptyObjectJson true (fun _ => true) (fun _ => 0)
      (testCommand 2).target blockedQueue.pool).map Prod.snd = some [] := by
    decide +kernel
  rw [hr] at hnone
  have hwaits : ∃ c ∈ blockedQueue.pool.queueOf (testCommand 2).target,
      ¬ Unsendable emptyObjectJson c ∧ c.fresh (UInt32.ofNat 0) = true := by
    decide +kernel
  obtain ⟨c, hc, hu, hf⟩ := hwaits
  have hin := hsent c hc hu fun _ _ => hf
  rw [show sent = [] from Option.some.inj hnone] at hin
  exact List.not_mem_nil hin

end Tempio.Hub
