import Mathlib.Data.UInt
import Mathlib.Tactic.Common

namespace Tempio.Sensor

def minInterval : UInt16 := 10

def maxInterval : UInt16 := 3600

def defaultInterval : UInt16 := 60

/-- The state of a node that survives its deep sleep. `prefs` is the stored
interval, if there is one. -/
structure NodeState where
  sleepInterval : UInt16
  opened : Bool
  prefs : Option UInt16
  inRange : minInterval ≤ sleepInterval ∧ sleepInterval ≤ maxInterval

/-- The two comparisons of `setSleepInterval`, one after the other. -/
def clampInterval (sec : UInt16) : UInt16 :=
  let sec := if sec < minInterval then minInterval else sec
  if sec > maxInterval then maxInterval else sec

theorem toNat_clampInterval (sec : UInt16) :
    (clampInterval sec).toNat = max 10 (min 3600 sec.toNat) := by
  have h10 : minInterval.toNat = 10 := rfl
  have h3600 : maxInterval.toNat = 3600 := rfl
  simp only [clampInterval, UInt16.lt_iff_toNat_lt]
  split_ifs <;> omega

theorem clampInterval_inRange (sec : UInt16) :
    minInterval ≤ clampInterval sec ∧ clampInterval sec ≤ maxInterval := by
  have h10 : minInterval.toNat = 10 := rfl
  have h3600 : maxInterval.toNat = 3600 := rfl
  simp only [UInt16.le_iff_toNat_le, toNat_clampInterval]
  omega

namespace NodeState

def init (prefs : Option UInt16) : NodeState := ⟨defaultInterval, false, prefs, by decide⟩

/-- Open the storage and take over the stored interval when it is in range. -/
def begin (s : NodeState) : NodeState :=
  let stored := s.prefs.getD defaultInterval
  if h : stored < minInterval ∨ stored > maxInterval then
    { s with sleepInterval := defaultInterval, opened := true, inRange := by decide }
  else
    { s with
      sleepInterval := stored
      opened := true
      inRange := by
        simpa only [not_or, gt_iff_lt, UInt16.not_lt] using h }

def endPrefs (s : NodeState) : NodeState := { s with opened := false }

def clear (s : NodeState) : NodeState :=
  { s with
    sleepInterval := defaultInterval
    prefs := if s.opened then none else s.prefs
    inRange := by decide }

def setSleepInterval (s : NodeState) (sec : UInt16) : NodeState :=
  { s with
    sleepInterval := clampInterval sec
    prefs := if s.opened then some (clampInterval sec) else s.prefs
    inRange := clampInterval_inRange sec }

@[simp]
theorem opened_begin (s : NodeState) : s.begin.opened = true := by
  simp only [begin]
  split_ifs <;> rfl

theorem sleepInterval_begin (s : NodeState) :
    s.begin.sleepInterval =
      if s.prefs.getD defaultInterval < minInterval ∨ s.prefs.getD defaultInterval > maxInterval then
        defaultInterval
      else s.prefs.getD defaultInterval := by
  simp only [begin]
  split_ifs <;> rfl

@[simp]
theorem prefs_begin (s : NodeState) : s.begin.prefs = s.prefs := by
  simp only [begin]
  split_ifs <;> rfl

theorem sleepInterval_begin_congr {s t : NodeState} (h : s.prefs = t.prefs) :
    s.begin.sleepInterval = t.begin.sleepInterval := by
  rw [sleepInterval_begin, sleepInterval_begin, h]

/-- What was stored while the storage is open is what the next `begin` takes over. -/
theorem sleepInterval_begin_setSleepInterval {s : NodeState} (h : s.opened = true) (sec : UInt16) :
    (s.setSleepInterval sec).begin.sleepInterval = clampInterval sec := by
  have hrange := clampInterval_inRange sec
  have hprefs : (s.setSleepInterval sec).prefs = some (clampInterval sec) := if_pos h
  rw [sleepInterval_begin, hprefs, Option.getD_some, if_neg]
  rintro (hlow | hhigh)
  · exact UInt16.not_lt.mpr hrange.1 hlow
  · exact UInt16.not_lt.mpr hrange.2 hhigh

end NodeState

end Tempio.Sensor
