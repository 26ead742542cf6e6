import Tempio.Hub.FlushAll

namespace Tempio.Hub

open PendingPool Tempio.Lib Tempio.Lib.Search Tempio.Lib.Transition

namespace FlushAll

variable {W : Type} {json : ArduinoJson} {link : W → MqttCommand → Bool}
  {after : W → MqttCommand → W} {connected : NodeId → Bool} {clock : Nat → Nat}
  {before : List MqttCommand}

/-- `trySend` as it is in the code, with a result of the BLE write that may depend on
everything that happened before. -/
def sending (json : ArduinoJson) (link : W → MqttCommand → Bool) (after : W → MqttCommand → W)
    (w : W) (cmd : MqttCommand) : Bool × W :=
  (trySend json (fun _ _ => link w cmd) cmd, after w cmd)

/-- The tasks have come as far as the call; `before` was transmitted before it. -/
structure Mirrors (clock : Nat → Nat) (before : List MqttCommand) (s : HubState) (x : State W) :
    Prop where
  pool : s.pool = x.pool
  now : s.now ≤ clock x.calls
  sent : s.transmitted.map Prod.snd = before ++ (x.tried.filter Tried.ok).map Tried.cmd

variable (json) in
theorem step_tick (s : HubState) {time : Nat} (h : s.now ≤ time) :
    step json s (.tick (time - s.now)) = some { s with now := time } := by
  simp only [step, Nat.add_sub_of_le h]

theorem step_pop {s : HubState} {n : NodeId} {resume : Option Nat} (hl : s.loop = .popping n resume)
    {o : Option MqttCommand} {p : PendingPool} (hp : s.pool.pop s.millis n = (o, p)) :
    ∃ t, step json s .pop = some t ∧ t.pool = p ∧ t.now = s.now ∧ t.transmitted = s.transmitted ∧
      t.loop = o.elim (.returned resume) (.sending n · resume) := by
  cases o with
  | none => simp [step, hl, hp]
  | some cmd => simp [step, hl, hp]

theorem step_resend {s : HubState} {n : NodeId} {cmd : MqttCommand} {resume : Option Nat}
    (hl : s.loop = .sending n cmd resume) {ok : Bool} {result : Bool}
    (hs : trySend json (fun _ _ => ok) cmd = result) :
    ∃ t, step json s (.resend ok) = some t ∧ t.pool = s.pool ∧ t.now = s.now ∧
      t.transmitted = s.transmitted ++ (if result then [(s.now, cmd)] else []) ∧
      t.loop = if result then .popping n resume else .puttingBack n cmd resume := by
  cases result with
  | true => simp [step, hl, hs]
  | false => simp [step, hl, hs]

theorem step_pushFront {s : HubState} {n : NodeId} {cmd : MqttCommand} {resume : Option Nat}
    (hl : s.loop = .puttingBack n cmd resume) :
    ∃ t, step json s .pushFront = some t ∧ t.pool = (s.pool.pushFront s.millis n cmd).2 ∧
      t.now = s.now ∧ t.transmitted = s.transmitted ∧ t.loop = .returned resume := by
  simp [step, hl]

theorem reaches_drain (hclock : Monotone clock) {n : NodeId} {resume : Option Nat} {fuel : Nat}
    {s : HubState} {x y : State W} (hs : Mirrors clock before s x) (hl : s.loop = .popping n resume)
    (hd : drain (sending json link after) clock n fuel x = some y) :
    ∃ t, Reachable (step json) s t ∧ t.loop = .returned resume ∧ Mirrors clock before t y := by
  induction fuel generalizing s x with
  | zero => cases hd
  | succ fuel ih =>
      have hnext : clock x.calls ≤ clock (x.calls + 1) := hclock (Nat.le_succ _)
      have htick := step_tick json s hs.now
      rw [drain] at hd
      cases hp : x.pool.pop (UInt32.ofNat (clock x.calls)) n with
      | mk o p =>
          have hpop : s.pool.pop (UInt32.ofNat (clock x.calls)) n = (o, p) := by rw [hs.pool, hp]
          obtain ⟨t, ht, htp, htn, htt, htl⟩ := step_pop
            (s := { s with now := clock x.calls }) hl hpop
          rw [hp] at hd
          cases o with
          | none =>
              obtain rfl := Option.some.inj hd
              refine ⟨t, .cons htick (.cons ht (.refl t)), htl, htp, ?_, ?_⟩
              · rw [htn]
                exact hnext
              · rw [htt]
                exact hs.sent
          | some cmd =>
              cases hok : trySend json (fun _ _ => link x.world cmd) cmd with
              | true =>
                  obtain ⟨u, hu, hup, hun, hut, hul⟩ := step_resend htl hok
                  simp only [sending, hok] at hd
                  have hm : Mirrors clock before u { x with
                      pool := p
                      world := after x.world cmd
                      calls := x.calls + 1
                      tried := x.tried ++ [⟨n, cmd, true⟩] } := by
                    refine ⟨hup.trans htp, ?_, ?_⟩
                    · rw [hun, htn]
                      exact hnext
                    · simp [hut, htt, hs.sent]
                  obtain ⟨v, hv, hvl, hvm⟩ := ih hm hul hd
                  exact ⟨v, .cons htick (.cons ht (.cons hu hv)), hvl, hvm⟩
              | false =>
                  obtain ⟨u, hu, hup, hun, hut, hul⟩ := step_resend htl hok
                  simp only [sending, hok] at hd
                  obtain rfl := Option.some.inj hd
                  have hle : u.now ≤ clock (x.calls + 1) := by
                    rw [hun, htn]
                    exact hnext
                  obtain ⟨v, hv, hvp, hvn, hvt, hvl⟩ := step_pushFront
                    (s := { u with now := clock (x.calls + 1) }) hul
                  refine ⟨v, .cons htick (.cons ht (.cons hu (.cons (step_tick json u hle) (.cons hv (.refl v))))),
                    hvl, ?_, ?_, ?_⟩
                  · rw [hvp]
                    simp only [hup, htp, HubState.millis]
                  · rw [hvn]
                    exact hclock (Nat.le_succ _)
                  · simp [hvt, hut, htt, hs.sent]

variable (json) in
theorem reaches_nextNode (s : HubState) {idx : Nat} (hl : s.loop = .scanning idx)
    (hidx : idx ≤ maxNodes) :
    Reachable (step json) s { s with
      loop := (s.pool.nextNode idx).elim .idle fun r => .checking r.1 (some r.2) } := by
  generalize hk : maxNodes - idx = k
  induction k generalizing s idx with
  | zero =>
      have hnone : s.pool.nextNode idx = none := by
        rw [nextNode, Option.map_eq_none_iff, firstFrom_eq_none]
        intro i hi
        omega
      have hstep : step json s .nextNode = some { s with loop := .idle } := by
        simp only [step, hl, dif_neg (show ¬ idx < maxNodes by omega)]
      rw [hnone]
      exact .cons hstep (.refl _)
  | succ k ih =>
      have hlt : idx < maxNodes := by omega
      cases hw : (s.pool.slots.get ⟨idx, hlt⟩).hasWork with
      | true =>
          have hfound : s.pool.nextNode idx =
              some ((s.pool.slots.get ⟨idx, hlt⟩).nodeId, idx + 1) := by
            rw [nextNode, firstFrom_of_pos (i := ⟨idx, hlt⟩) hw, Option.map_some]
          have hstep : step json s .nextNode = some { s with
              loop := .checking (s.pool.slots.get ⟨idx, hlt⟩).nodeId (some (idx + 1)) } := by
            simp only [step, hl, dif_pos hlt, hw, if_true]
          rw [hfound]
          exact .cons hstep (.refl _)
      | false =>
          have hskip : s.pool.nextNode idx = s.pool.nextNode (idx + 1) := by
            rw [nextNode, nextNode, firstFrom_succ (i := ⟨idx, hlt⟩) hw]
          have hstep : step json s .nextNode = some { s with loop := .scanning (idx + 1) } := by
            simp only [step, hl, dif_pos hlt, hw, Bool.false_eq_true, if_false]
          rw [hskip]
          exact .cons hstep (ih { s with loop := .scanning (idx + 1) } rfl hlt (by omega))

theorem reaches_scan (hclock : Monotone clock) {fuel idx : Nat} {s : HubState} {x y : State W}
    (hs : Mirrors clock before s x) (hl : s.loop = .scanning idx) (hidx : idx ≤ maxNodes)
    (hr : scan (sending json link after) connected clock fuel idx x = some y) :
    ∃ t, Reachable (step json) s t ∧ t.loop = .idle ∧ Mirrors clock before t y := by
  induction fuel generalizing idx s x with
  | zero => cases hr
  | succ fuel ih =>
      have hnext := reaches_nextNode json s hl hidx
      rw [scan] at hr
      cases hn : s.pool.nextNode idx with
      | none =>
          rw [← hs.pool, hn] at hr
          rw [hn] at hnext
          obtain rfl := Option.some.inj hr
          exact ⟨_, hnext, rfl, hs.pool, hs.now, hs.sent⟩
      | some r =>
          obtain ⟨n, next⟩ := r
          have hn' : x.pool.nextNode idx = some (n, next) := by rw [← hs.pool, hn]
          rw [hn'] at hr
          rw [hn] at hnext
          obtain ⟨u, hu, hr⟩ := Option.bind_eq_some_iff.mp hr
          have hle : next ≤ maxNodes := by
            obtain ⟨i, _, he⟩ := Option.map_eq_some_iff.mp hn
            have := (Prod.mk.inj he).2
            omega
          have hm : ∀ l, Mirrors clock before { s with loop := l }
              { x with visited := x.visited ++ [n] } := fun l => ⟨hs.pool, hs.now, hs.sent⟩
          cases hc : connected n with
          | false =>
              rw [flushNodePending, hc] at hu
              obtain rfl := Option.some.inj hu
              have hstep : step json { s with loop := .checking n (some next) } (.connected false) =
                  some { s with loop := .scanning next } := rfl
              obtain ⟨t, ht, htl, htm⟩ := ih (hm (.scanning next)) rfl hle hr
              exact ⟨t, hnext.trans (.cons hstep ht), htl, htm⟩
          | true =>
              rw [flushNodePending, hc, if_pos rfl] at hu
              have hstep : step json { s with loop := .checking n (some next) } (.connected true) =
                  some { s with loop := .popping n (some next) } := rfl
              obtain ⟨v, hv, hvl, hvm⟩ := reaches_drain hclock (hm (.popping n (some next))) rfl hu
              obtain ⟨t, ht, htl, htm⟩ := ih hvm hvl hle hr
              exact ⟨t, hnext.trans (.cons hstep (hv.trans ht)), htl, htm⟩

/-- The call is a run of the loop task in which the esp_mqtt task does nothing. -/
theorem reaches_flushAllPending (hclock : Monotone clock) {s : HubState} {w : W} {y : State W}
    (hl : s.loop = .idle) (hnow : s.now ≤ clock 0)
    (hr : flushAllPending (sending json link after) connected clock (.start s.pool w) = some y) :
    ∃ t, Reachable (step json) s t ∧ t.pool = y.pool ∧ t.loop = .idle ∧
      t.transmitted.map Prod.snd =
        s.transmitted.map Prod.snd ++ (y.tried.filter Tried.ok).map Tried.cmd := by
  have hstep : step json s .flushAll = some { s with loop := .scanning 0 } := by
    simp only [step, hl]
  have hm : Mirrors clock (s.transmitted.map Prod.snd) { s with loop := .scanning 0 }
      (.start s.pool w) := ⟨rfl, hnow, by simp [State.start]⟩
  obtain ⟨t, ht, htl, htm⟩ := reaches_scan hclock hm rfl (Nat.zero_le _) hr
  exact ⟨t, .cons hstep ht, htm.pool, htl, htm.sent⟩

end FlushAll

end Tempio.Hub
