import Mathlib.Data.List.Basic
import Mathlib.Data.Option.Basic

namespace Tempio.Lib.Transition

variable {S A : Type}

/-- Take the actions in order; `none` as soon as one of them is not enabled. -/
def exec (step : S → A → Option S) : S → List A → Option S
  | s, [] => some s
  | s, a :: as => (step s a).bind (exec step · as)

/-- Every action of the run meets its condition in the state it is taken from. -/
def Along (step : S → A → Option S) (G : S → A → Prop) : S → List A → Prop
  | _, [] => True
  | s, a :: as => G s a ∧ ∀ t ∈ step s a, Along step G t as

/-- Every state the run passes through satisfies the predicate. -/
def Always (step : S → A → Option S) (P : S → Prop) : S → List A → Prop
  | s, [] => P s
  | s, a :: as => P s ∧ ∀ t ∈ step s a, Always step P t as

def Reachable (step : S → A → Option S) (init s : S) : Prop :=
  ∃ as, exec step init as = some s

instance decidableAlong (step : S → A → Option S) (G : S → A → Prop)
    [∀ s a, Decidable (G s a)] : ∀ s as, Decidable (Along step G s as)
  | _, [] => .isTrue trivial
  | s, a :: as =>
      have : ∀ t, Decidable (Along step G t as) := fun t => decidableAlong step G t as
      inferInstanceAs (Decidable (G s a ∧ ∀ t ∈ step s a, Along step G t as))

instance decidableAlways (step : S → A → Option S) (P : S → Prop)
    [∀ s, Decidable (P s)] : ∀ s as, Decidable (Always step P s as)
  | s, [] => inferInstanceAs (Decidable (P s))
  | s, a :: as =>
      have : ∀ t, Decidable (Always step P t as) := fun t => decidableAlways step P t as
      inferInstanceAs (Decidable (P s ∧ ∀ t ∈ step s a, Always step P t as))

variable {step : S → A → Option S} {I P : S → Prop} {G : S → A → Prop}

@[simp]
theorem exec_nil (s : S) : exec step s [] = some s := rfl

@[simp]
theorem exec_cons (s : S) (a : A) (as : List A) :
    exec step s (a :: as) = (step s a).bind (exec step · as) := rfl

theorem exec_append (s : S) (as bs : List A) :
    exec step s (as ++ bs) = (exec step s as).bind (exec step · bs) := by
  induction as generalizing s with
  | nil => rfl
  | cons a as ih => cases h : step s a <;> simp [h, ih]

theorem exec_cons_eq_some {s u : S} {a : A} {as : List A} :
    exec step s (a :: as) = some u ↔ ∃ t, step s a = some t ∧ exec step t as = some u :=
  Option.bind_eq_some_iff

theorem Reachable.refl (s : S) : Reachable step s s := ⟨[], rfl⟩

theorem Reachable.cons {s t u : S} {a : A} (h : step s a = some t) (h' : Reachable step t u) :
    Reachable step s u := by
  obtain ⟨as, h'⟩ := h'
  exact ⟨a :: as, exec_cons_eq_some.mpr ⟨t, h, h'⟩⟩

theorem Reachable.trans {s t u : S} (h : Reachable step s t) (h' : Reachable step t u) :
    Reachable step s u := by
  obtain ⟨as, h⟩ := h
  obtain ⟨bs, h'⟩ := h'
  exact ⟨as ++ bs, by rw [exec_append, h, Option.bind_some, h']⟩

/-- An invariant that every step under the condition keeps holds at the end of
every run whose steps all meet the condition. -/
theorem Along.invariant (hstep : ∀ s a t, I s → G s a → step s a = some t → I t)
    {s t : S} {as : List A} (hs : I s) (hG : Along step G s as) (h : exec step s as = some t) :
    I t := by
  induction as generalizing s with
  | nil => exact Option.some.inj h ▸ hs
  | cons a as ih =>
      obtain ⟨u, hu, hr⟩ := exec_cons_eq_some.mp h
      exact ih (hstep s a u hs hG.1 hu) (hG.2 u hu) hr

theorem Reachable.invariant (hstep : ∀ s a t, I s → step s a = some t → I t)
    {init s : S} (hi : I init) (h : Reachable step init s) : I s := by
  obtain ⟨as, h⟩ := h
  induction as generalizing init with
  | nil => exact Option.some.inj h ▸ hi
  | cons a as ih =>
      obtain ⟨u, hu, hr⟩ := exec_cons_eq_some.mp h
      exact ih (hstep init a u hi hu) hr

theorem always_of_along (hstep : ∀ s a t, I s → G s a → step s a = some t → I t)
    (hP : ∀ s, I s → P s) {s : S} {as : List A} (hs : I s) (hG : Along step G s as) :
    Always step P s as := by
  induction as generalizing s with
  | nil => exact hP s hs
  | cons a as ih => exact ⟨hP s hs, fun t ht => ih (hstep s a t hs hG.1 ht) (hG.2 t ht)⟩

theorem always_of_invariant (hstep : ∀ s a t, I s → step s a = some t → I t)
    (hP : ∀ s, I s → P s) {s : S} {as : List A} (hs : I s) : Always step P s as := by
  induction as generalizing s with
  | nil => exact hP s hs
  | cons a as ih => exact ⟨hP s hs, fun t ht => ih (hstep s a t hs ht)⟩

theorem Always.at_end {s t : S} {as : List A} (h : Always step P s as)
    (hx : exec step s as = some t) : P t := by
  induction as generalizing s with
  | nil => exact Option.some.inj hx ▸ h
  | cons a as ih =>
      obtain ⟨u, hu, hr⟩ := exec_cons_eq_some.mp hx
      exact ih (h.2 u hu) hr

/-- The condition is exact when a step that breaks it is enabled and leads
out of the predicate at once. -/
theorem always_iff_along (hstep : ∀ s a t, I s → G s a → step s a = some t → I t)
    (hP : ∀ s, I s → P s)
    (hbad : ∀ s a, I s → ¬ G s a → ∃ t, step s a = some t ∧ ¬ P t)
    {s : S} {as : List A} (hs : I s) : Always step P s as ↔ Along step G s as := by
  refine ⟨fun h => ?_, always_of_along hstep hP hs⟩
  induction as generalizing s with
  | nil => trivial
  | cons a as ih =>
      have hG : G s a := by
        by_contra hG
        obtain ⟨t, ht, hn⟩ := hbad s a hs hG
        apply hn
        have hA := h.2 t ht
        cases as with
        | nil => exact hA
        | cons b bs => exact hA.1
      exact ⟨hG, fun t ht => ih (hstep s a t hs hG ht) (h.2 t ht)⟩

theorem along_and {H : S → A → Prop} {s : S} {as : List A} :
    Along step (fun s a => G s a ∧ H s a) s as ↔ Along step G s as ∧ Along step H s as := by
  induction as generalizing s with
  | nil => simp [Along]
  | cons a as ih =>
      simp only [Along, ih]
      constructor
      · rintro ⟨⟨hg, hh⟩, h⟩
        exact ⟨⟨hg, fun t ht => (h t ht).1⟩, hh, fun t ht => (h t ht).2⟩
      · rintro ⟨⟨hg, h⟩, hh, h'⟩
        exact ⟨⟨hg, hh⟩, fun t ht => ⟨h t ht, h' t ht⟩⟩

/-- Conditions on single steps may be compared state by state along an invariant. -/
theorem along_congr {H : S → A → Prop} (hstep : ∀ s a t, I s → step s a = some t → I t)
    (hGH : ∀ s a, I s → (G s a ↔ H s a)) {s : S} {as : List A} (hs : I s) :
    Along step G s as ↔ Along step H s as := by
  induction as generalizing s with
  | nil => exact Iff.rfl
  | cons a as ih =>
      exact and_congr (hGH s a hs)
        (forall_congr' fun t => forall_congr' fun ht => ih (hstep s a t hs ht))

end Tempio.Lib.Transition
