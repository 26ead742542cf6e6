import Mathlib.Algebra.Order.Field.Rat
import Mathlib.Tactic.Ring
import Tempio.Lib.JsonRoundTrip

namespace Tempio.Lib.Json

def minus (neg : Bool) : List Char := if neg then ['-'] else []

def signed (neg : Bool) (n : Nat) : Int := if neg then -(n : Int) else n

/-- A number with one digit behind its point. -/
def tenthsText (neg : Bool) (whole : Nat) (tenth : Fin 10) : List Char :=
  minus neg ++ (Nat.toDigits 10 whole ++ ['.', tenth.val.digitChar])

def expValue : List Char → Int
  | [] => 0
  | _ :: cs =>
      let n : Int := Nat.ofDigitChars 10 (cs.drop (signText cs).length) 0
      if signText cs = ['-'] then -n else n

/-- What the text of a number stands for, less its sign. -/
def magnitude (text : List Char) : ℚ :=
  let cs := text.drop (minusText text).length
  let whole := wholeText cs
  let cs := cs.drop whole.length
  let frac := fracText cs
  let exp := expText (cs.drop frac.length)
  Nat.ofDigitChars 10 (whole ++ frac.tail) 0 * 10 ^ (expValue exp - frac.tail.length)

/-- Text that is no number, or not all of one, in front of a comma. -/
structure Broken (text : List Char) : Prop where
  start : ∃ c cs, text = c :: cs ∧ isBlank c = false ∧ c ≠ quoteMark ∧ c ≠ '[' ∧ c ≠ '{'
  reads : ∀ rest j rest', readScalar (text ++ ',' :: rest) = some (j, rest') →
    ∃ d ds, rest' = d :: ds ∧ isBlank d = false ∧ d ≠ ',' ∧ d ≠ '}'

section

variable {neg : Bool} {n k : Nat} {rest : List Char}

theorem isDigit_digitChar (t : Fin 10) : t.val.digitChar.isDigit = true := by
  revert t
  decide

theorem minusText_minus {d : Char} (hd : d.isDigit = true) (cs : List Char) :
    minusText (minus neg ++ d :: cs) = minus neg := by
  cases neg with
  | false => exact minusText_of_isDigit hd cs
  | true => rfl

theorem minusText_toDigits : minusText (minus neg ++ (Nat.toDigits 10 n ++ rest)) = minus neg := by
  obtain ⟨d, ds, hds, hd⟩ := toDigits_eq_cons n
  rw [hds]
  exact minusText_minus hd _

theorem readScalar_toDigits :
    readScalar (minus neg ++ (Nat.toDigits 10 n ++ rest)) =
      readNumber (minus neg ++ (Nat.toDigits 10 n ++ rest)) := by
  obtain ⟨d, ds, hds, hd⟩ := toDigits_eq_cons n
  rw [hds]
  cases neg with
  | false => exact readScalar_of_isDigit hd _
  | true => exact readScalar_minus hd _

theorem fracText_digit {d : Char} (hd : d.isDigit = true) (h : ∀ c ∈ rest.head?, c.isDigit = false) :
    fracText ('.' :: d :: rest) = ['.', d] := by
  have htake : (d :: rest).takeWhile Char.isDigit = [d] := by
    change ([d] ++ rest).takeWhile Char.isDigit = [d]
    exact takeWhile_digits (by simpa using hd) h
  simp [fracText, htake]

theorem readScalar_tenthsText (t : Fin 10) (h : EndsScalar rest) :
    readScalar (tenthsText neg n t ++ rest) = some (.real (tenthsText neg n t), rest) := by
  have hfrac := fracText_digit (isDigit_digitChar t) h.isDigit_head?
  have hwhole : wholeText (Nat.toDigits 10 n ++ '.' :: t.val.digitChar :: rest) = Nat.toDigits 10 n :=
    wholeText_toDigits n (by rintro c ⟨⟩; rfl)
  have htext : tenthsText neg n t ++ rest =
      minus neg ++ (Nat.toDigits 10 n ++ '.' :: t.val.digitChar :: rest) := by
    simp [tenthsText]
  rw [htext, readScalar_toDigits]
  simp [readNumber, minusText_toDigits, hwhole, hfrac, h.expText_eq_nil, tenthsText]

theorem realText_tenthsText (t : Fin 10) : RealText (tenthsText neg n t) where
  start := by
    obtain ⟨d, ds, hds, hd⟩ := toDigits_eq_cons n
    cases neg with
    | false => exact ⟨d, _, by rw [tenthsText, hds]; rfl, .inl hd⟩
    | true => exact ⟨'-', _, rfl, .inr (.inl rfl)⟩
  reads _ h := readScalar_tenthsText t h

theorem minusText_tenthsText (t : Fin 10) : minusText (tenthsText neg n t) = minus neg :=
  minusText_toDigits

theorem magnitude_tenthsText (t : Fin 10) :
    magnitude (tenthsText neg n t) = n + (t.val : ℚ) / 10 := by
  have hfrac : fracText ['.', t.val.digitChar] = ['.', t.val.digitChar] :=
    fracText_digit (isDigit_digitChar t) (by simp)
  have hwhole : wholeText (Nat.toDigits 10 n ++ ['.', t.val.digitChar]) = Nat.toDigits 10 n :=
    wholeText_toDigits n (by rintro c ⟨⟩; rfl)
  have hvalue : Nat.ofDigitChars 10 (Nat.toDigits 10 n ++ [t.val.digitChar]) 0 = 10 * n + t.val := by
    rw [Nat.ofDigitChars_append, Nat.ofDigitChars_toDigits (by decide) (by decide),
      Nat.ofDigitChars_cons_digitChar_of_lt_ten t.isLt, Nat.ofDigitChars_nil]
  have hexp : expText [] = [] := rfl
  simp only [magnitude, minusText_tenthsText]
  rw [tenthsText, List.drop_left, hwhole, List.drop_left, hfrac]
  simp only [List.length_cons, List.length_nil, List.drop_succ_cons, List.drop_zero, List.tail_cons,
    hvalue, hexp, expValue]
  push_cast
  norm_num
  ring

/-- The first digits of a number are the digits of its quotient. -/
theorem take_toDigits (hk : 0 < k) (h : k ≤ (Nat.toDigits 10 n).length) :
    (Nat.toDigits 10 n).take k = Nat.toDigits 10 (n / 10 ^ ((Nat.toDigits 10 n).length - k)) := by
  obtain ⟨j, hj⟩ : ∃ j, (Nat.toDigits 10 n).length = k + j := ⟨_, (Nat.add_sub_cancel' h).symm⟩
  rw [hj, Nat.add_sub_cancel_left]
  clear h
  induction j generalizing n with
  | zero => rw [List.take_of_length_le (by omega), pow_zero, Nat.div_one]
  | succ j ih =>
      have hbase : 10 ≤ n := by
        by_contra hlt
        rw [Nat.toDigits_of_lt_base (by omega)] at hj
        simp at hj
        omega
      have hsplit := Nat.toDigits_of_base_le (by decide : 1 < 10) hbase
      have hlen : (Nat.toDigits 10 (n / 10)).length = k + j := by
        rw [hsplit, List.length_append, List.length_singleton] at hj
        omega
      rw [hsplit, List.take_append_of_le_length (by omega), ih hlen, Nat.div_div_eq_div_mul, pow_succ']

theorem length_intText_le {i : Int} (hk : 0 < k) (h : i.natAbs < 10 ^ k) :
    (intText i).length ≤ k + 1 := by
  cases i with
  | ofNat n => exact ((Nat.length_toDigits_le_iff (by decide) hk).mpr h).trans (Nat.le_succ k)
  | negSucc n => exact Nat.succ_le_succ ((Nat.length_toDigits_le_iff (by decide) hk).mpr h)

theorem length_writeFields_le (fields : List (String × Json)) :
    (compactStyle.writeFields fields).length ≤
      (fields.map fun f => (compactStyle.strText f.1).length + f.2.compact.length + 2).sum := by
  have hcomma : compactStyle.comma.length = 1 := rfl
  have hcolon : compactStyle.colon.length = 1 := rfl
  induction fields with
  | nil => exact Nat.le_refl 0
  | cons f fields ih =>
      cases fields with
      | nil =>
          simp only [Style.writeFields, List.length_append, hcolon, List.map_cons, List.map_nil,
            List.sum_cons, List.sum_nil, compact]
          omega
      | cons g fields =>
          rw [List.map_cons, List.sum_cons]
          simp only [Style.writeFields, List.length_append, hcomma, hcolon, compact] at ih ⊢
          omega

theorem intText_of_pos (h : 0 < n) :
    intText (signed neg n) = minus neg ++ Nat.toDigits 10 n := by
  cases neg with
  | false => rfl
  | true =>
      obtain ⟨m, rfl⟩ := Nat.exists_eq_add_of_lt h
      rw [Nat.zero_add]
      rfl

end

section

variable {text rest : List Char}

theorem broken_nan : Broken "nan".toList where
  start := ⟨'n', _, rfl, by decide⟩
  reads rest j rest' h := by
    have hnone : readScalar ("nan".toList ++ ',' :: rest) = none := rfl
    rw [hnone] at h
    cases h

theorem broken_inf (neg : Bool) : Broken (minus neg ++ "inf".toList) where
  start := by cases neg <;> exact ⟨_, _, rfl, by decide⟩
  reads rest j rest' h := by
    have hnone : readScalar (minus neg ++ "inf".toList ++ ',' :: rest) = none := by cases neg <;> rfl
    rw [hnone] at h
    cases h

/-- A number cut behind its point. -/
theorem broken_point (neg : Bool) (n : Nat) : Broken (minus neg ++ (Nat.toDigits 10 n ++ ['.'])) where
  start := by
    obtain ⟨d, ds, hds, hd⟩ := toDigits_eq_cons n
    have h {c : Char} (hc : c.isDigit = false) : d ≠ c := ne_of_isDigit hd hc
    cases neg with
    | false => exact ⟨d, _, by rw [hds]; rfl, by simp [isBlank, h], h rfl, h rfl, h rfl⟩
    | true => exact ⟨'-', _, rfl, by decide⟩
  reads rest j rest' h := by
    have hwhole : wholeText (Nat.toDigits 10 n ++ '.' :: ',' :: rest) = Nat.toDigits 10 n :=
      wholeText_toDigits n (by rintro c ⟨⟩; rfl)
    have hfrac : fracText ('.' :: ',' :: rest) = [] := rfl
    have hexp : expText ('.' :: ',' :: rest) = [] := rfl
    have htext : minus neg ++ (Nat.toDigits 10 n ++ ['.']) ++ ',' :: rest =
        minus neg ++ (Nat.toDigits 10 n ++ '.' :: ',' :: rest) := by simp
    rw [htext, readScalar_toDigits] at h
    simp [readNumber, minusText_toDigits, hwhole, hfrac, hexp] at h
    exact ⟨'.', _, h.2.symm, by decide⟩

end

section

variable {st : Style} {text : List Char}

theorem Broken.readValue {n : Nat} (h : Broken text) (rest : List Char) :
    ∀ p ∈ readValue n (text ++ ',' :: rest),
      ∃ d ds, p.2 = d :: ds ∧ isBlank d = false ∧ d ≠ ',' ∧ d ≠ '}' := by
  intro p hp
  cases n with
  | zero => simp [Json.readValue] at hp
  | succ n =>
      obtain ⟨c, cs, hc, _, hscalar⟩ := h.start
      have hread := h.reads rest
      rw [hc, List.cons_append] at hp hread
      rw [readValue_scalar hscalar] at hp
      exact hread p.1 p.2 hp

theorem Broken.skipBlanks_append (h : Broken text) {bs : List Char} (hb : ∀ b ∈ bs, isBlank b = true)
    (rest : List Char) : skipBlanks (bs ++ (text ++ rest)) = text ++ rest := by
  obtain ⟨c, cs, rfl, hblank, _⟩ := h.start
  rw [Json.skipBlanks_append hb]
  exact skipBlanks_cons hblank _

theorem writableFields_append {xs ys : List (String × Json)} (hx : st.WritableFields xs)
    (hy : st.WritableFields ys) : st.WritableFields (xs ++ ys) := by
  induction xs with
  | nil => exact hy
  | cons f xs ih => exact ⟨hx.1, hx.2.1, ih hx.2.2⟩

/-- A broken member spoils the members before it too. -/
theorem readFields_broken (hst : st.Plain) (h : Broken text) {k : String} (hk : st.KeepsAll k)
    (f : String × Json) (fs : List (String × Json)) (rest : List Char) :
    ∀ (done : List (String × Json)) (n : Nat), st.WritableFields done →
      (st.writeFields (done ++ (k, .real text) :: f :: fs)).length < n →
      readFields n (st.writeFields (done ++ (k, .real text) :: f :: fs) ++ rest) = none
  | _, 0, _, hn => absurd hn (Nat.not_lt_zero _)
  | [], n + 1, _, _ => by
      obtain ⟨bs, hcolon, hb⟩ := hst.colon
      obtain ⟨cs, hcomma, _⟩ := hst.comma
      have hread := h.readValue (n := n) (cs ++ (st.writeFields (f :: fs) ++ rest))
      rw [List.nil_append, Style.writeFields, Style.write, hcomma, hcolon]
      simp only [List.append_assoc, List.cons_append, strText_append]
      rw [readFields, if_pos rfl, readChars_strText hk]
      simp only [skipBlanks_cons (show isBlank ':' = false by decide), h.skipBlanks_append hb]
      cases hv : Json.readValue n (text ++ ',' :: (cs ++ (st.writeFields (f :: fs) ++ rest))) with
      | none => rfl
      | some p =>
          obtain ⟨d, ds, hds, hblank, hne, hne'⟩ := hread p hv
          simp only [hds, skipBlanks_cons hblank]
          split
          · simp_all
          · simp_all
          · rfl
  | (k', x) :: done, n + 1, hj, hn => by
      obtain ⟨g, gs, hg⟩ : ∃ g gs, done ++ (k, .real text) :: f :: fs = g :: gs := by
        cases done <;> exact ⟨_, _, rfl⟩
      have hrec := readFields_broken hst h hk f fs rest done n hj.2.2
      obtain ⟨bs, hcomma, hb⟩ := hst.comma
      rw [List.cons_append, hg, Style.writeFields, hcomma] at hn ⊢
      simp only [List.length_append, List.length_cons] at hn
      rw [hg] at hrec
      have hx := readValue_write hst x n (',' :: (bs ++ (st.writeFields (g :: gs) ++ rest))) hj.2.1
        (by omega) (endsScalar_cons (by decide) _)
      obtain ⟨cs, hskip, hcs⟩ := skipBlanks_writeFields st g gs hb rest
      simp only [List.append_assoc, List.cons_append]
      rw [readFields_next hst hj.1 hj.2.1 hx, hskip, hcs, hrec (by omega), Option.map_none]

theorem loads_write_broken (hst : st.Plain) (h : Broken text) {k : String} (hk : st.KeepsAll k)
    {done : List (String × Json)} (hdone : st.WritableFields done) (f : String × Json)
    (fs : List (String × Json)) :
    loads (st.write (.obj (done ++ (k, .real text) :: f :: fs))) = none := by
  obtain ⟨g, gs, hg⟩ : ∃ g gs, done ++ (k, .real text) :: f :: fs = g :: gs := by
    cases done <;> exact ⟨_, _, rfl⟩
  have hnone := readFields_broken hst h hk f fs ['}'] done
    (st.write (.obj (done ++ (k, .real text) :: f :: fs))).length hdone
  rw [hg] at hnone ⊢
  obtain ⟨cs, hskip, hcs⟩ := skipBlanks_writeFields st g gs (List.forall_mem_nil _) ['}']
  have hopen : st.write (.obj (g :: gs)) = '{' :: (st.writeFields (g :: gs) ++ ['}']) := by
    rw [Style.write]
  have hfields := hnone (by rw [hopen, List.length_cons, List.length_append]; omega)
  rw [← hcs] at hfields
  have hvalue := readValue_obj (n := (st.write (.obj (g :: gs))).length) hskip (by decide)
  rw [hfields, List.nil_append, Option.map_none, ← hopen] at hvalue
  have hblank : skipBlanks (st.write (.obj (g :: gs))) = st.write (.obj (g :: gs)) := by
    rw [hopen]
    exact skipBlanks_cons (by decide) _
  rw [loads, hblank, hvalue]

end

end Tempio.Lib.Json
