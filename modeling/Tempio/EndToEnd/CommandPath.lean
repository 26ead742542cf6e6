import Tempio.EndToEnd.HubAddress
import Tempio.Hub.MqttHandler

namespace Tempio.EndToEnd

open Tempio.Lib.Topic Tempio.Lib.Transition Tempio.Hub Tempio.Server

/-- The way of the commands from `publish_commands` to `parseAndDispatchCommands` of one hub. `sent`
and `dispatched` are the texts at its two ends. -/
structure CommandPath where
  session : Mqtt.Session
  inFlight : List (List Char)
  sent : List (List Char)
  dispatched : List (List Char)

def CommandPath.init (wifiConnected : Bool) : CommandPath := ⟨.mqttInit wifiConnected, [], [], []⟩

inductive PathAction
  | publishCommands (hubId : String) (commands : List Command)
  | deliver (pieces : List (List Char))
  | mqttLoop (wifiNow : Bool)
  | onConnected (granted : Bool)
  | onDisconnected

/-- What the broker holds for a connection is gone with it. -/
def CommandPath.setSession (s : CommandPath) (session : Mqtt.Session) : CommandPath :=
  { s with session := session, inFlight := if session.subscribed then s.inFlight else [] }

section

variable (mac : Mac)

/-- The broker passes on what it gets for the topic of the hub while the hub is subscribed. The client
of the hub hands it over in pieces that fit in its buffer, and has events only when it runs. -/
def pathStep (s : CommandPath) : PathAction → Option CommandPath
  | .publishCommands hubId commands =>
      if receives (Mqtt.topicCommands mac).chars (mqttTopicCommands hubId) then
        some { s with
          sent := s.sent ++ [Server.publishCommands commands]
          inFlight :=
            if s.session.subscribed then s.inFlight ++ [Server.publishCommands commands] else s.inFlight }
      else some s
  | .deliver pieces =>
      if s.inFlight.head? = some pieces.flatten ∧ ∀ p ∈ pieces, p ≠ [] ∧ p.length ≤ Mqtt.bufferSize then
        some { s with
          inFlight := s.inFlight.tail
          dispatched := s.dispatched ++
            (Mqtt.dataEvents (Mqtt.topicCommands mac).chars pieces).filterMap Mqtt.Event.payload }
      else none
  | .mqttLoop wifiNow => some (s.setSession (s.session.mqttLoop wifiNow))
  | .onConnected granted =>
      if s.session.started then
        some ({ s with inFlight := [] }.setSession (s.session.onConnected granted))
      else none
  | .onDisconnected =>
      if s.session.started then some (s.setSession s.session.onDisconnected) else none

/-- The hub has dispatched what was sent for it and is not on its way. -/
def AllDispatched (s : CommandPath) : Prop := s.sent = s.dispatched ++ s.inFlight

/-- Nothing was made up, doubled, cut or put in another order. -/
structure Genuine (s : CommandPath) : Prop where
  order : (s.dispatched ++ s.inFlight).Sublist s.sent
  fits : ∀ text ∈ s.dispatched, text.length ≤ Mqtt.bufferSize
  session : s.session.Sound
  held : s.inFlight ≠ [] → s.session.subscribed = true

/-- The hub is subscribed when its commands are sent, the client hands each message over in one piece,
and no connection ends with a message under way. -/
def Arrives (s : CommandPath) : PathAction → Prop
  | .publishCommands hubId _ => hubId = knownAs mac → s.session.subscribed = true
  | .deliver pieces => s.inFlight.head? = some pieces.flatten →
      (∀ p ∈ pieces, p ≠ [] ∧ p.length ≤ Mqtt.bufferSize) → pieces.length = 1
  | .mqttLoop wifiNow => (s.session.mqttLoop wifiNow).subscribed = false → s.inFlight = []
  | .onConnected _ | .onDisconnected => s.session.started = true → s.inFlight = []

end

section

variable {mac : Mac} {s t : CommandPath} {a : PathAction}

theorem deliver_cases {pieces : List (List Char)} (h : pathStep mac s (.deliver pieces) = some t) :
    s.inFlight = pieces.flatten :: t.inFlight ∧ t.sent = s.sent ∧ t.session = s.session ∧
      (∀ p ∈ pieces, p ≠ [] ∧ p.length ≤ Mqtt.bufferSize) ∧
      t.dispatched = s.dispatched ++ if pieces.length = 1 then [pieces.flatten] else [] := by
  simp only [pathStep] at h
  split_ifs at h with hguard
  obtain ⟨hhead, hpieces⟩ := hguard
  obtain rfl := Option.some.inj h
  have htopic : (Mqtt.topicCommands mac).chars ≠ [] := by
    rw [chars_topicCommands_eq]
    exact List.cons_ne_nil _ _
  refine ⟨(List.cons_head?_tail hhead).symm, rfl, rfl, hpieces, ?_⟩
  simp only [Mqtt.payloads_dataEvents htopic fun p hp => (hpieces p hp).1]
  split_ifs with hone
  · obtain ⟨p, rfl⟩ := List.length_eq_one_iff.mp hone
    simp
  · rfl

theorem genuine_setSession (h : Genuine s) {session : Mqtt.Session} (hsound : session.Sound) :
    Genuine (s.setSession session) := by
  refine ⟨?_, h.fits, hsound, ?_⟩
  · simp only [CommandPath.setSession]
    split_ifs
    · exact h.order
    · rw [List.append_nil]
      exact (List.sublist_append_left _ _).trans h.order
  · simp only [CommandPath.setSession]
    split_ifs with hsub
    · exact fun _ => hsub
    · exact fun hne => absurd rfl hne

theorem genuine_step (h : Genuine s) (hst : pathStep mac s a = some t) : Genuine t := by
  cases a with
  | publishCommands hubId commands =>
      simp only [pathStep] at hst
      split_ifs at hst with hours hsub
      · obtain rfl := Option.some.inj hst
        refine ⟨?_, h.fits, h.session, fun _ => hsub⟩
        rw [← List.append_assoc]
        exact h.order.append (List.Sublist.refl _)
      · obtain rfl := Option.some.inj hst
        exact ⟨h.order.trans (List.sublist_append_left _ _), h.fits, h.session, h.held⟩
      · exact Option.some.inj hst ▸ h
  | deliver pieces =>
      obtain ⟨hflight, hsent, hsession, hfits, hdispatched⟩ := deliver_cases hst
      refine ⟨?_, fun text htext => ?_, hsession ▸ h.session, fun hne => ?_⟩
      · rw [hsent, hdispatched]
        refine List.Sublist.trans ?_ h.order
        rw [hflight]
        split_ifs
        · simp
        · simp
      · rw [hdispatched] at htext
        rcases List.mem_append.mp htext with htext | htext
        · exact h.fits text htext
        · split_ifs at htext with hone
          · obtain ⟨p, rfl⟩ := List.length_eq_one_iff.mp hone
            rw [List.mem_singleton.mp htext, List.flatten_singleton]
            exact (hfits p List.mem_cons_self).2
          · cases htext
      · rw [hsession]
        exact h.held (by simp [hflight])
  | mqttLoop wifiNow => exact Option.some.inj hst ▸ genuine_setSession h (h.session.mqttLoop wifiNow)
  | onConnected granted =>
      simp only [pathStep] at hst
      split_ifs at hst with hstarted
      obtain rfl := Option.some.inj hst
      have hnew : Genuine { s with inFlight := [] } := by
        refine ⟨?_, h.fits, h.session, fun hne => absurd rfl hne⟩
        rw [List.append_nil]
        exact (List.sublist_append_left _ _).trans h.order
      exact genuine_setSession hnew (Mqtt.Session.Sound.onConnected hstarted granted)
  | onDisconnected =>
      simp only [pathStep] at hst
      split_ifs at hst
      exact Option.some.inj hst ▸ genuine_setSession h s.session.sound_onDisconnected

theorem genuine_init (wifiConnected : Bool) : Genuine (CommandPath.init wifiConnected) :=
  ⟨List.Sublist.refl _, nofun, Mqtt.Session.sound_mqttInit wifiConnected, fun h => absurd rfl h⟩

theorem inFlight_setSession_of_nil (h : s.inFlight = []) (session : Mqtt.Session) :
    (s.setSession session).inFlight = [] := by
  simp only [CommandPath.setSession, h, ite_self]

theorem allDispatched_step (h : AllDispatched s) (ha : Arrives mac s a) (hst : pathStep mac s a = some t) :
    AllDispatched t := by
  cases a with
  | publishCommands hubId commands =>
      simp only [pathStep] at hst
      split_ifs at hst with hours hsub
      · obtain rfl := Option.some.inj hst
        rw [AllDispatched, ← List.append_assoc, ← h]
      · exact absurd (ha ((receives_topicCommands_iff mac hubId).mp hours)) hsub
      · exact Option.some.inj hst ▸ h
  | deliver pieces =>
      obtain ⟨hflight, hsent, _, hpieces, hdispatched⟩ := deliver_cases hst
      have hone := ha (by rw [hflight, List.head?_cons]) hpieces
      rw [AllDispatched, hsent, hdispatched, if_pos hone, h, hflight, List.append_assoc, List.singleton_append]
  | mqttLoop wifiNow =>
      obtain rfl := Option.some.inj hst
      simp only [AllDispatched, CommandPath.setSession]
      split_ifs with hsub
      · exact h
      · rw [← ha (eq_false_of_ne_true hsub)]
        exact h
  | onConnected granted =>
      simp only [pathStep] at hst
      split_ifs at hst with hstarted
      obtain rfl := Option.some.inj hst
      rw [AllDispatched, inFlight_setSession_of_nil rfl, ← ha hstarted]
      exact h
  | onDisconnected =>
      simp only [pathStep] at hst
      split_ifs at hst with hstarted
      obtain rfl := Option.some.inj hst
      rw [AllDispatched, inFlight_setSession_of_nil (ha hstarted), ← ha hstarted]
      exact h

/-- What does not arrive is missed at once. -/
theorem missed_of_not_arrives (h : AllDispatched s) (ha : ¬ Arrives mac s a) :
    ∃ t, pathStep mac s a = some t ∧ ¬ AllDispatched t := by
  have hlen := congrArg List.length h
  rw [List.length_append] at hlen
  have hgone {t : CommandPath} (hsent : t.sent = s.sent) (hdispatched : t.dispatched = s.dispatched)
      (hflight : t.inFlight = []) (hne : s.inFlight ≠ []) : ¬ AllDispatched t := by
    intro ht
    have hpos := List.length_pos_iff.mpr hne
    rw [AllDispatched, hsent, hdispatched, hflight, List.append_nil] at ht
    rw [ht] at hlen
    omega
  cases a with
  | publishCommands hubId commands =>
      simp only [Arrives, Classical.not_imp] at ha
      obtain ⟨hours, hsub⟩ := ha
      refine ⟨_, by rw [pathStep, if_pos ((receives_topicCommands_iff mac hubId).mpr hours)], fun ht => ?_⟩
      have hlen' := congrArg List.length ht
      simp only [if_neg hsub, List.length_append, List.length_singleton] at hlen'
      omega
  | deliver pieces =>
      simp only [Arrives, Classical.not_imp] at ha
      obtain ⟨hhead, hpieces, hmore⟩ := ha
      obtain ⟨t, hst⟩ : ∃ t, pathStep mac s (.deliver pieces) = some t := ⟨_, if_pos ⟨hhead, hpieces⟩⟩
      obtain ⟨hflight, hsent, _, _, hdispatched⟩ := deliver_cases hst
      refine ⟨t, hst, fun ht => ?_⟩
      rw [AllDispatched, hsent, hdispatched, if_neg hmore, List.append_nil] at ht
      have hlen' := congrArg List.length ht
      rw [List.length_append] at hlen'
      rw [hflight, List.length_cons] at hlen
      omega
  | mqttLoop wifiNow =>
      simp only [Arrives, Classical.not_imp] at ha
      obtain ⟨hsub, hne⟩ := ha
      exact ⟨_, rfl, hgone rfl rfl (if_neg (ne_true_of_eq_false hsub)) hne⟩
  | onConnected granted =>
      simp only [Arrives, Classical.not_imp] at ha
      obtain ⟨hstarted, hne⟩ := ha
      exact ⟨_, if_pos hstarted, hgone rfl rfl (inFlight_setSession_of_nil rfl _) hne⟩
  | onDisconnected =>
      simp only [Arrives, Classical.not_imp] at ha
      obtain ⟨hstarted, hne⟩ := ha
      exact ⟨_, if_pos hstarted, hgone rfl rfl rfl hne⟩

end

/-- Whatever happens on the way, the hub dispatches some of the envelopes that were sent for it, each
once, whole and in order, and none that is longer than the buffer of its client. -/
theorem always_kept (mac : Mac) (wifiConnected : Bool) (as : List PathAction) :
    Always (pathStep mac) (fun s => s.dispatched.Sublist s.sent ∧
      ∀ text ∈ s.dispatched, text.length ≤ Mqtt.bufferSize) (CommandPath.init wifiConnected) as :=
  always_of_invariant (fun _ _ _ => genuine_step)
    (fun _ h => ⟨(List.sublist_append_left _ _).trans h.order, h.fits⟩) (genuine_init wifiConnected)

/-- The hub dispatches all of them exactly in the runs in which each is sent while it is subscribed,
comes in one piece and is not under way when a connection ends. -/
theorem always_allDispatched_iff (mac : Mac) (wifiConnected : Bool) (as : List PathAction) :
    Always (pathStep mac) AllDispatched (CommandPath.init wifiConnected) as ↔
      Along (pathStep mac) (Arrives mac) (CommandPath.init wifiConnected) as :=
  always_iff_along (fun _ _ _ => allDispatched_step) (fun _ => id) (fun _ _ => missed_of_not_arrives) rfl

end Tempio.EndToEnd
