import Tempio.Lib.Transition

namespace Tempio.Lib.Transition

variable {S A V : Type} {step : S → A → Option S} {view : S → V} {p : A → Bool}

/-- A part of the state that some actions do not touch, and that the others change by itself alone,
runs as if those had never been there. -/
theorem exec_filter (hother : ∀ s a t, p a = false → step s a = some t → view t = view s)
    (hown : ∀ s s' a t, p a = true → view s' = view s → step s a = some t →
      ∃ t', step s' a = some t' ∧ view t' = view t)
    {s s' t : S} {as : List A} (hview : view s' = view s) (h : exec step s as = some t) :
    ∃ t', exec step s' (as.filter p) = some t' ∧ view t' = view t := by
  induction as generalizing s s' with
  | nil =>
      obtain rfl := Option.some.inj h
      exact ⟨s', rfl, hview⟩
  | cons a as ih =>
      obtain ⟨u, hu, ht⟩ := exec_cons_eq_some.mp h
      cases hp : p a with
      | false =>
          rw [List.filter_cons_of_neg (by simp [hp])]
          exact ih (hview.trans (hother s a u hp hu).symm) ht
      | true =>
          obtain ⟨u', hu', hview'⟩ := hown s s' a u hp hview hu
          obtain ⟨t', ht', hend⟩ := ih hview' ht
          rw [List.filter_cons_of_pos hp]
          exact ⟨t', exec_cons_eq_some.mpr ⟨u', hu', ht'⟩, hend⟩

section

variable {T : Type} {step' : T → A → Option T} {project : T → S} {P : S → Prop} {G : S → A → Prop}

/-- A relation that only records more has the same runs. -/
theorem always_project (h : ∀ s a, step (project s) a = (step' s a).map project) {s : T} {as : List A} :
    Always step P (project s) as ↔ Always step' (fun s => P (project s)) s as := by
  induction as generalizing s with
  | nil => exact Iff.rfl
  | cons a as ih =>
      refine and_congr_right fun _ => ?_
      rw [h]
      constructor
      · exact fun hall t ht => ih.mp (hall _ (Option.mem_map_of_mem project ht))
      · intro hall t ht
        obtain ⟨t', ht', rfl⟩ := Option.map_eq_some_iff.mp ht
        exact ih.mpr (hall t' ht')

theorem along_project (h : ∀ s a, step (project s) a = (step' s a).map project) {s : T} {as : List A} :
    Along step G (project s) as ↔ Along step' (fun s a => G (project s) a) s as := by
  induction as generalizing s with
  | nil => exact Iff.rfl
  | cons a as ih =>
      refine and_congr_right fun _ => ?_
      rw [h]
      constructor
      · exact fun hall t ht => ih.mp (hall _ (Option.mem_map_of_mem project ht))
      · intro hall t ht
        obtain ⟨t', ht', rfl⟩ := Option.map_eq_some_iff.mp ht
        exact ih.mpr (hall t' ht')

end

end Tempio.Lib.Transition
