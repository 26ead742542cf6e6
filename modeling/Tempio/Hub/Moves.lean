import Tempio.Hub.Tasks

namespace Tempio.Hub

open PendingPool

/-- The same steps over the map of queues that the pool represents. -/
inductive Moves (json : ArduinoJson) (s : HubState) : Action → HubState → Prop
  | tick (ms) : Moves json s (.tick ms) { s with now := s.now + ms }
  | dispatch (cmd : MqttCommand) (hm : s.mqtt = .idle) (ht : cmd.target.chars ≠ []) :
      Moves json s (.dispatch cmd) { s with
        mqtt := .sending { cmd with serial := s.dispatched.length }
        dispatched := s.dispatched ++ [(s.now, { cmd with serial := s.dispatched.length })] }
  | sent (link) (cmd) (hm : s.mqtt = .sending cmd) (hs : trySend json (fun _ _ => link) cmd = true) :
      Moves json s (.send link)
        { s with mqtt := .idle, transmitted := s.transmitted ++ [(s.now, cmd)] }
  | unsent (link) (cmd) (hm : s.mqtt = .sending cmd)
      (hs : trySend json (fun _ _ => link) cmd = false) :
      Moves json s (.send link) { s with mqtt := .pushing cmd }
  | pushed (cmd) (p) (hm : s.mqtt = .pushing cmd) (hr : ¬ s.pool.Refuses cmd.target)
      (hu : Update s.pool cmd.target (some (s.pool.queueOf cmd.target ++ [cmd.stamp s.millis])) p) :
      Moves json s .push { s with mqtt := .idle, pool := p, accepted := s.accepted ++ [cmd] }
  | refused (cmd) (hm : s.mqtt = .pushing cmd) (hr : s.pool.Refuses cmd.target) :
      Moves json s .push { s with mqtt := .idle }
  | flushNode (nodeId) (hl : s.loop = .idle) :
      Moves json s (.flushNode nodeId) { s with loop := .checking nodeId none }
  | flushAll (hl : s.loop = .idle) : Moves json s .flushAll { s with loop := .scanning 0 }
  | scanEnd (idx) (hl : s.loop = .scanning idx) (hi : maxNodes ≤ idx) :
      Moves json s .nextNode { s with loop := .idle }
  | scanSkip (idx) (hl : s.loop = .scanning idx) (hi : idx < maxNodes)
      (hw : (s.pool.slots.get ⟨idx, hi⟩).hasWork = false) :
      Moves json s .nextNode { s with loop := .scanning (idx + 1) }
  | scanFound (idx) (hl : s.loop = .scanning idx) (hi : idx < maxNodes)
      (hw : (s.pool.slots.get ⟨idx, hi⟩).hasWork = true) :
      Moves json s .nextNode
        { s with loop := .checking (s.pool.slots.get ⟨idx, hi⟩).nodeId (some (idx + 1)) }
  | connected (nodeId) (resume) (hl : s.loop = .checking nodeId resume) :
      Moves json s (.connected true) { s with loop := .popping nodeId resume }
  | notConnected (nodeId) (resume) (hl : s.loop = .checking nodeId resume) :
      Moves json s (.connected false) { s with loop := .returned resume }
  | popped (nodeId) (resume) (cmd) (rest) (p) (hl : s.loop = .popping nodeId resume)
      (hq : unexpired s.millis (s.pool.queueOf nodeId) = cmd :: rest)
      (hu : Update s.pool nodeId (some rest) p) :
      Moves json s .pop { s with
        pool := p
        loop := .sending nodeId cmd resume
        discarded := s.discarded ++
          (expiredPrefix s.millis (s.pool.queueOf nodeId)).map (Prod.mk s.now) }
  | drained (nodeId) (resume) (p) (hl : s.loop = .popping nodeId resume)
      (hq : unexpired s.millis (s.pool.queueOf nodeId) = [])
      (hu : Update s.pool nodeId none p) :
      Moves json s .pop { s with
        pool := p
        loop := .returned resume
        discarded := s.discarded ++
          (expiredPrefix s.millis (s.pool.queueOf nodeId)).map (Prod.mk s.now) }
  | resent (link) (nodeId) (cmd) (resume) (hl : s.loop = .sending nodeId cmd resume)
      (hs : trySend json (fun _ _ => link) cmd = true) :
      Moves json s (.resend link) { s with
        loop := .popping nodeId resume, transmitted := s.transmitted ++ [(s.now, cmd)] }
  | unresent (link) (nodeId) (cmd) (resume) (hl : s.loop = .sending nodeId cmd resume)
      (hs : trySend json (fun _ _ => link) cmd = false) :
      Moves json s (.resend link) { s with loop := .puttingBack nodeId cmd resume }
  | putBack (nodeId) (cmd) (resume) (p) (hl : s.loop = .puttingBack nodeId cmd resume)
      (hr : ¬ s.pool.Refuses nodeId)
      (hu : Update s.pool nodeId (some (cmd.stamp s.millis :: s.pool.queueOf nodeId)) p) :
      Moves json s .pushFront { s with pool := p, loop := .returned resume }
  | lost (nodeId) (cmd) (resume) (hl : s.loop = .puttingBack nodeId cmd resume)
      (hr : s.pool.Refuses nodeId) :
      Moves json s .pushFront { s with loop := .returned resume }

/-- Everything a step of the tasks can do. -/
theorem moves_of_step {json : ArduinoJson} {s t : HubState} {a : Action} (hp : s.pool.Wf)
    (h : step json s a = some t) : Moves json s a t := by
  cases a with
  | tick ms => exact Option.some.inj h ▸ .tick ms
  | dispatch cmd =>
      cases hm : s.mqtt with
      | idle =>
          by_cases ht : cmd.target.chars = []
          · simp [step, hm, ht] at h
          · simp only [step, hm, ht, if_false, Option.some.injEq] at h
            exact h ▸ .dispatch cmd hm ht
      | sending | pushing => simp [step, hm] at h
  | send link =>
      cases hm : s.mqtt with
      | sending cmd =>
          cases hs : trySend json (fun _ _ => link) cmd with
          | true =>
              simp only [step, hm, hs, if_true, Option.some.injEq] at h
              exact h ▸ .sent link cmd hm hs
          | false =>
              simp only [step, hm, hs, Bool.false_eq_true, if_false, Option.some.injEq] at h
              exact h ▸ .unsent link cmd hm hs
      | idle | pushing => simp [step, hm] at h
  | push =>
      cases hm : s.mqtt with
      | pushing cmd =>
          obtain ⟨p, hr, hn, hu⟩ | ⟨hr, hf⟩ := push_cases hp s.millis cmd.target cmd
          · simp only [step, hm, hr, Option.some.injEq] at h
            exact h ▸ .pushed cmd p hm hn hu
          · simp only [step, hm, hr, Option.some.injEq] at h
            exact h ▸ .refused cmd hm hf
      | idle | sending => simp [step, hm] at h
  | flushNode nodeId =>
      cases hl : s.loop with
      | idle =>
          simp only [step, hl, Option.some.injEq] at h
          exact h ▸ .flushNode nodeId hl
      | _ => simp [step, hl] at h
  | flushAll =>
      cases hl : s.loop with
      | idle =>
          simp only [step, hl, Option.some.injEq] at h
          exact h ▸ .flushAll hl
      | _ => simp [step, hl] at h
  | nextNode =>
      cases hl : s.loop with
      | scanning idx =>
          simp only [step, hl] at h
          split_ifs at h with hi hw
          · exact Option.some.inj h ▸ .scanFound idx hl hi hw
          · exact Option.some.inj h ▸ .scanSkip idx hl hi (by simpa using hw)
          · exact Option.some.inj h ▸ .scanEnd idx hl (by omega)
      | _ => simp [step, hl] at h
  | connected answer =>
      cases hl : s.loop with
      | checking nodeId resume =>
          simp only [step, hl, Option.some.injEq] at h
          subst h
          cases answer with
          | true => exact .connected nodeId resume hl
          | false => exact .notConnected nodeId resume hl
      | _ => simp [step, hl] at h
  | pop =>
      cases hl : s.loop with
      | popping nodeId resume =>
          obtain ⟨hr, hn⟩ | ⟨p, hr, hq, hu⟩ | ⟨cmd, rest, p, hr, hq, hu⟩ :=
            pop_cases hp s.millis nodeId
          · simp only [step, hl, hr, Option.some.injEq] at h
            have hq : s.pool.queueOf nodeId = [] := by rw [queueOf, hn, Option.getD_none]
            exact h ▸ .drained nodeId resume s.pool hl (by rw [hq]; rfl) (update_none_self hp hn)
          · simp only [step, hl, hr, Option.some.injEq] at h
            exact h ▸ .drained nodeId resume p hl hq hu
          · simp only [step, hl, hr, Option.some.injEq] at h
            exact h ▸ .popped nodeId resume cmd rest p hl hq hu
      | _ => simp [step, hl] at h
  | resend link =>
      cases hl : s.loop with
      | sending nodeId cmd resume =>
          cases hs : trySend json (fun _ _ => link) cmd with
          | true =>
              simp only [step, hl, hs, if_true, Option.some.injEq] at h
              exact h ▸ .resent link nodeId cmd resume hl hs
          | false =>
              simp only [step, hl, hs, Bool.false_eq_true, if_false, Option.some.injEq] at h
              exact h ▸ .unresent link nodeId cmd resume hl hs
      | _ => simp [step, hl] at h
  | pushFront =>
      cases hl : s.loop with
      | puttingBack nodeId cmd resume =>
          obtain ⟨p, hr, hn, hu⟩ | ⟨hr, hf⟩ := pushFront_cases hp s.millis nodeId cmd
          · simp only [step, hl, hr, Option.some.injEq] at h
            exact h ▸ .putBack nodeId cmd resume p hl hn hu
          · simp only [step, hl, hr, Option.some.injEq] at h
            exact h ▸ .lost nodeId cmd resume hl hf
      | _ => simp [step, hl] at h

end Tempio.Hub
