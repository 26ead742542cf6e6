import Tempio.Sensor.NodeState

namespace Tempio.Sensor

/-- A call of the state, or the loss of power, which only the storage survives. -/
inductive StateCall
  | begin
  | endPrefs
  | clear
  | setSleepInterval (sec : UInt16)
  | reboot

namespace NodeState

def call (s : NodeState) : StateCall → NodeState
  | .begin => s.begin
  | .endPrefs => s.endPrefs
  | .clear => s.clear
  | .setSleepInterval sec => s.setSleepInterval sec
  | .reboot => init s.prefs

def run (s : NodeState) (cs : List StateCall) : NodeState := cs.foldl call s

/-- The stored interval if it is in range, else the default. -/
def restored (prefs : Option UInt16) : UInt16 :=
  match prefs with
  | some sec => if minInterval ≤ sec ∧ sec ≤ maxInterval then sec else defaultInterval
  | none => defaultInterval

/-- While the storage is open, the memory says what the storage says. -/
def Coherent (s : NodeState) : Prop := s.opened = true → s.sleepInterval = restored s.prefs

theorem sleepInterval_begin_eq (s : NodeState) : s.begin.sleepInterval = restored s.prefs := by
  rw [sleepInterval_begin]
  cases s.prefs with
  | none => rfl
  | some sec =>
      simp only [restored, Option.getD_some]
      by_cases h : minInterval ≤ sec ∧ sec ≤ maxInterval
      · rw [if_pos h, if_neg]
        rintro (hlow | hhigh)
        · exact UInt16.not_lt.mpr h.1 hlow
        · exact UInt16.not_lt.mpr h.2 hhigh
      · rw [if_neg h]
        split_ifs with hout
        · rfl
        · rw [not_or, gt_iff_lt, UInt16.not_lt, UInt16.not_lt] at hout
          exact absurd hout h

/-- Every call leaves memory and storage in agreement, or the storage closed. -/
theorem coherent_call (s : NodeState) (c : StateCall) : (s.call c).Coherent := by
  intro hopen
  cases c with
  | begin =>
      change s.begin.sleepInterval = restored s.begin.prefs
      rw [sleepInterval_begin_eq, prefs_begin]
  | endPrefs | reboot => cases hopen
  | clear =>
      have hs : s.opened = true := hopen
      change defaultInterval = restored (if s.opened then none else s.prefs)
      rw [hs]
      rfl
  | setSleepInterval sec =>
      have hs : s.opened = true := hopen
      change clampInterval sec = restored (if s.opened then some (clampInterval sec) else s.prefs)
      rw [hs, if_pos rfl, restored, if_pos (clampInterval_inRange sec)]

theorem coherent_run {s : NodeState} (h : s.Coherent) (cs : List StateCall) : (s.run cs).Coherent := by
  induction cs generalizing s with
  | nil => exact h
  | cons c cs ih => exact ih (coherent_call s c)

/-- Only `begin` opens the storage, and nothing is written while it is closed. -/
theorem prefs_run_of_closed {s : NodeState} (h : s.opened = false) {cs : List StateCall}
    (hc : .begin ∉ cs) : (s.run cs).prefs = s.prefs := by
  induction cs generalizing s with
  | nil => rfl
  | cons c cs ih =>
      rw [List.mem_cons, not_or] at hc
      have hcall : (s.call c).opened = false ∧ (s.call c).prefs = s.prefs := by
        cases c with
        | begin => exact absurd rfl hc.1
        | endPrefs | reboot => exact ⟨rfl, rfl⟩
        | clear => exact ⟨h, if_neg (by simp [h])⟩
        | setSleepInterval sec => exact ⟨h, if_neg (by simp [h])⟩
      exact (ih hcall.1 hc.2).trans hcall.2

/-- Whatever was stored before and whatever is called, the interval is in range, power may be
lost while the storage is open without a change of the interval, and a closed storage stays
as it is. -/
theorem run_coherent (prefs : Option UInt16) (cs : List StateCall) :
    (10 ≤ ((init prefs).run cs).sleepInterval.toNat ∧ ((init prefs).run cs).sleepInterval.toNat ≤ 3600) ∧
    (((init prefs).run cs).opened = true →
      ((init prefs).run cs).sleepInterval = restored ((init prefs).run cs).prefs ∧
      ((init prefs).run (cs ++ [.reboot, .begin])).sleepInterval = ((init prefs).run cs).sleepInterval) ∧
    (init prefs).run (cs ++ [.endPrefs, .endPrefs]) = (init prefs).run (cs ++ [.endPrefs]) ∧
    ∀ ds, .begin ∉ ds →
      ((init prefs).run (cs ++ .endPrefs :: ds)).prefs = ((init prefs).run cs).prefs := by
  have happend (ds : List StateCall) : (init prefs).run (cs ++ ds) = ((init prefs).run cs).run ds :=
    List.foldl_append
  simp only [happend]
  generalize hs : (init prefs).run cs = s
  have hcoherent : s.Coherent := hs ▸ coherent_run (fun h => by cases h) cs
  refine ⟨⟨UInt16.le_iff_toNat_le.mp s.inRange.1, UInt16.le_iff_toNat_le.mp s.inRange.2⟩, ?_, rfl, ?_⟩
  · intro hopen
    refine ⟨hcoherent hopen, ?_⟩
    change (init s.prefs).begin.sleepInterval = s.sleepInterval
    rw [sleepInterval_begin_eq, hcoherent hopen]
    rfl
  · intro ds hds
    exact prefs_run_of_closed (s := s.endPrefs) rfl hds

end NodeState

end Tempio.Sensor
