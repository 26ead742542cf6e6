import Mathlib.Data.List.Basic

namespace Tempio.Lib.Topic

def levels (text : List Char) : List (List Char) := text.splitOn '/'

/-- Whether the levels of a filter match those of a topic: `+` stands for one level, `#` for all
that are left. -/
def matchLevels : List (List Char) → List (List Char) → Bool
  | [['#']], _ => true
  | [], [] => true
  | f :: fs, t :: ts => (f == ['+'] || f == t) && matchLevels fs ts
  | _, _ => false

/-- A topic that begins with `$` is kept from a filter that begins with a wildcard. -/
def receives (filter topic : List Char) : Bool :=
  matchLevels (levels filter) (levels topic) &&
    !(topic.head? == some '$' && (filter.head? == some '+' || filter.head? == some '#'))

/-- No level is a wildcard. -/
def Plain (filter : List Char) : Prop := ∀ f ∈ levels filter, f ≠ ['+'] ∧ f ≠ ['#']

section

variable {filter topic : List Char}

theorem levels_inj : levels filter = levels topic ↔ filter = topic := by
  refine ⟨fun h => ?_, congrArg _⟩
  calc filter = ['/'].intercalate (levels filter) := (List.intercalate_splitOn '/').symm
    _ = ['/'].intercalate (levels topic) := congrArg _ h
    _ = topic := List.intercalate_splitOn '/'

theorem slash_not_mem_of_mem_levels {level : List Char} (h : level ∈ levels topic) : '/' ∉ level := by
  induction topic generalizing level with
  | nil =>
      rw [List.mem_singleton.mp h]
      exact List.not_mem_nil
  | cons c topic ih =>
      rw [levels, List.splitOn_cons_eq_if_modifyHead] at h
      split_ifs at h with hc
      · rcases List.mem_cons.mp h with rfl | h
        · exact List.not_mem_nil
        · exact ih h
      · cases hl : topic.splitOn '/' with
        | nil => exact absurd hl (List.splitOn_ne_nil _ _)
        | cons first rest =>
            rw [hl, List.modifyHead_cons] at h
            have hrest : ∀ l ∈ first :: rest, '/' ∉ l := by
              rw [← hl]
              exact fun l hl => ih hl
            rcases List.mem_cons.mp h with rfl | h
            · have hne : '/' ≠ c := fun heq => hc (beq_iff_eq.mpr heq.symm)
              simp [hne, hrest first List.mem_cons_self]
            · exact hrest level (List.mem_cons_of_mem _ h)

theorem matchLevels_iff_of_plain {fs ts : List (List Char)} (h : ∀ f ∈ fs, f ≠ ['+'] ∧ f ≠ ['#']) :
    matchLevels fs ts = true ↔ fs = ts := by
  induction fs generalizing ts with
  | nil => cases ts <;> simp [matchLevels]
  | cons f fs ih =>
      obtain ⟨⟨hplus, hhash⟩, hfs⟩ := List.forall_mem_cons.mp h
      cases ts with
      | nil => simp [matchLevels, hhash]
      | cons t ts =>
          rw [matchLevels]
          · simp [hplus, ih hfs]
          · simp [hhash]

theorem matchLevels_between {f g : List Char} {ts : List (List Char)} (hf : f ≠ ['+'] ∧ f ≠ ['#'])
    (hg : g ≠ ['+'] ∧ g ≠ ['#']) :
    matchLevels [f, ['+'], g] ts = true ↔ ∃ t, ts = [f, t, g] := by
  have hlast {us : List (List Char)} : matchLevels [g] us = true ↔ us = [g] := by
    rw [matchLevels_iff_of_plain (by simpa using hg), eq_comm]
  cases ts with
  | nil => simp [matchLevels]
  | cons a ts =>
      cases ts with
      | nil => simp [matchLevels]
      | cons t us =>
          have hstep : matchLevels [f, ['+'], g] (a :: t :: us) = (f == a && matchLevels [g] us) := by
            have hplus : (f == ['+']) = false := beq_false_of_ne hf.1
            simp [matchLevels, hplus]
          rw [hstep, Bool.and_eq_true, beq_iff_eq, hlast]
          constructor
          · rintro ⟨rfl, rfl⟩
            exact ⟨t, rfl⟩
          · rintro ⟨_, ⟨⟩⟩
            exact ⟨rfl, rfl⟩

/-- A filter without wildcards receives the one topic that it is. -/
theorem receives_iff_of_plain (h : Plain filter) : receives filter topic = true ↔ filter = topic := by
  have hmatch : matchLevels (levels filter) (levels topic) = true ↔ filter = topic :=
    (matchLevels_iff_of_plain h).trans levels_inj
  rw [receives, Bool.and_eq_true, hmatch]
  refine ⟨And.left, fun heq => ⟨heq, ?_⟩⟩
  subst heq
  by_cases hdollar : filter.head? = some '$' <;> simp [hdollar]

end

end Tempio.Lib.Topic
