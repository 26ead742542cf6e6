import Tempio.Lib.JsonRead

namespace Tempio.Lib.Json

def EndsScalar (rest : List Char) : Prop :=
  ∀ c ∈ rest.head?, c.isDigit = false ∧ c ≠ '.' ∧ c ≠ 'e' ∧ c ≠ 'E'

structure RealText (text : List Char) : Prop where
  start : ∃ c cs, text = c :: cs ∧ (c.isDigit = true ∨ c = '-' ∨ c = 'N' ∨ c = 'I')
  reads : ∀ rest, EndsScalar rest → readScalar (text ++ rest) = some (.real text, rest)

namespace Style

variable (st : Style)

structure Keeps (c : Char) : Prop where
  start : ∃ d ds, st.escape c = d :: ds ∧ d ≠ quoteMark
  reads : ∀ rest, readChar (st.escape c ++ rest) = some (c, rest)

def KeepsAll (s : String) : Prop := ∀ c ∈ s.toList, st.Keeps c

structure Plain : Prop where
  comma : ∃ bs, st.comma = ',' :: bs ∧ ∀ b ∈ bs, isBlank b = true
  colon : ∃ bs, st.colon = ':' :: bs ∧ ∀ b ∈ bs, isBlank b = true

mutual

/-- A document whose text says everything about it. -/
def Writable : Json → Prop
  | .null | .bool _ | .int _ => True
  | .real text => RealText text
  | .str s => st.KeepsAll s
  | .arr items => WritableItems items
  | .obj fields => (fields.map Prod.fst).Nodup ∧ WritableFields fields

def WritableItems : List Json → Prop
  | [] => True
  | x :: xs => Writable x ∧ WritableItems xs

def WritableFields : List (String × Json) → Prop
  | [] => True
  | (k, x) :: fs => st.KeepsAll k ∧ Writable x ∧ WritableFields fs

end

end Style

section

variable {rest : List Char}

theorem ne_of_isDigit {c d : Char} (h : c.isDigit = true) (hd : d.isDigit = false) : c ≠ d := by
  rintro rfl
  rw [h] at hd
  cases hd

theorem EndsScalar.isDigit_head? (h : EndsScalar rest) : ∀ c ∈ rest.head?, c.isDigit = false :=
  fun c hc => (h c hc).1

theorem takeWhile_digits {ds : List Char} (hd : ∀ c ∈ ds, c.isDigit = true)
    (h : ∀ c ∈ rest.head?, c.isDigit = false) : (ds ++ rest).takeWhile Char.isDigit = ds := by
  have hrest : rest.takeWhile Char.isDigit = [] := by
    cases rest with
    | nil => rfl
    | cons c cs => simp [h c rfl]
  rw [List.takeWhile_append_of_pos hd, hrest, List.append_nil]

theorem EndsScalar.fracText_eq_nil (h : EndsScalar rest) : fracText rest = [] := by
  cases rest with
  | nil => rfl
  | cons c cs =>
      have := (h c rfl).2.1
      unfold fracText
      split
      · simp_all
      · rfl

theorem EndsScalar.expText_eq_nil (h : EndsScalar rest) : expText rest = [] := by
  cases rest with
  | nil => rfl
  | cons c cs =>
      obtain ⟨_, _, he, hE⟩ := h c rfl
      simp [expText, he, hE]

theorem head?_toDigits (n : Nat) (h : 0 < n) : (Nat.toDigits 10 n).head? ≠ some '0' := by
  induction n using Nat.strongRecOn with
  | ind n ih =>
      by_cases hlt : n < 10
      · have hsmall : ∀ m < 10, 0 < m → [m.digitChar].head? ≠ some '0' := by decide
        rw [Nat.toDigits_of_lt_base hlt]
        exact hsmall n hlt h
      · rw [Nat.toDigits_of_base_le (by decide) (by omega), List.head?_append]
        have := ih (n / 10) (by omega) (by omega)
        cases hd : (Nat.toDigits 10 (n / 10)).head? with
        | none => exact absurd (List.head?_eq_none_iff.mp hd) Nat.toDigits_ne_nil
        | some c =>
            rw [hd] at this
            simpa using this

theorem wholeText_toDigits (n : Nat) (h : ∀ c ∈ rest.head?, c.isDigit = false) :
    wholeText (Nat.toDigits 10 n ++ rest) = Nat.toDigits 10 n := by
  rcases Nat.eq_zero_or_pos n with rfl | hpos
  · rfl
  · have hhead := head?_toDigits n hpos
    have hdigit : ∀ c ∈ Nat.toDigits 10 n, c.isDigit = true :=
      fun c hc => Nat.isDigit_of_mem_toDigits (by decide) (by decide) hc
    cases hds : Nat.toDigits 10 n with
    | nil => exact absurd hds Nat.toDigits_ne_nil
    | cons d ds =>
        rw [hds] at hhead hdigit
        have htake := takeWhile_digits hdigit h
        rw [List.cons_append] at htake ⊢
        unfold wholeText
        split
        · simp_all
        · exact htake

theorem toDigits_eq_cons (n : Nat) : ∃ d ds, Nat.toDigits 10 n = d :: ds ∧ d.isDigit = true := by
  cases hds : Nat.toDigits 10 n with
  | nil => exact absurd hds Nat.toDigits_ne_nil
  | cons d ds =>
      have hmem : d ∈ Nat.toDigits 10 n := by
        rw [hds]
        exact List.mem_cons_self
      exact ⟨d, ds, rfl, Nat.isDigit_of_mem_toDigits (by decide) (by decide) hmem⟩

theorem minusText_of_isDigit {d : Char} (hd : d.isDigit = true) (cs : List Char) :
    minusText (d :: cs) = [] := by
  have hne : d ≠ '-' := ne_of_isDigit hd (by decide)
  unfold minusText
  split
  · simp_all
  · rfl

theorem readNumber_intText (n : Int) (h : EndsScalar rest) :
    readNumber (intText n ++ rest) = some (.int n, rest) := by
  cases n with
  | ofNat n =>
      obtain ⟨d, ds, hds, hd⟩ := toDigits_eq_cons n
      have hminus : minusText (Nat.toDigits 10 n ++ rest) = [] := by
        rw [hds]
        exact minusText_of_isDigit hd _
      simp [readNumber, intText, hminus, wholeText_toDigits n h.isDigit_head?, h.fracText_eq_nil,
        h.expText_eq_nil]
  | negSucc n =>
      have hminus : minusText ('-' :: (Nat.toDigits 10 (n + 1) ++ rest)) = ['-'] := rfl
      simp [readNumber, intText, hminus, wholeText_toDigits (n + 1) h.isDigit_head?, h.fracText_eq_nil,
        h.expText_eq_nil]
      omega

theorem readScalar_of_isDigit {d : Char} (hd : d.isDigit = true) (cs : List Char) :
    readScalar (d :: cs) = readNumber (d :: cs) := by
  have h {c : Char} (hc : c.isDigit = false) : ¬ c = d := fun h => ne_of_isDigit hd hc h.symm
  have hnone : (literals.find? fun l => l.1.toList.isPrefixOf (d :: cs)) = none := by
    simp [literals, List.isPrefixOf, h]
  rw [readScalar, hnone]

theorem readScalar_minus {d : Char} (hd : d.isDigit = true) (cs : List Char) :
    readScalar ('-' :: d :: cs) = readNumber ('-' :: d :: cs) := by
  have h {c : Char} (hc : c.isDigit = false) : ¬ c = d := fun h => ne_of_isDigit hd hc h.symm
  have hnone : (literals.find? fun l => l.1.toList.isPrefixOf ('-' :: d :: cs)) = none := by
    simp [literals, List.isPrefixOf, h]
  rw [readScalar, hnone]

theorem readScalar_intText (n : Int) (h : EndsScalar rest) :
    readScalar (intText n ++ rest) = some (.int n, rest) := by
  rw [← readNumber_intText n h]
  cases n with
  | ofNat n =>
      obtain ⟨d, ds, hds, hd⟩ := toDigits_eq_cons n
      rw [intText, hds]
      exact readScalar_of_isDigit hd _
  | negSucc n =>
      obtain ⟨d, ds, hds, hd⟩ := toDigits_eq_cons (n + 1)
      rw [intText, hds]
      exact readScalar_minus hd _

theorem skipBlanks_append {bs : List Char} (hb : ∀ b ∈ bs, isBlank b = true) (cs : List Char) :
    skipBlanks (bs ++ cs) = skipBlanks cs :=
  List.dropWhile_append_of_pos hb

theorem skipBlanks_cons {c : Char} (hc : isBlank c = false) (cs : List Char) :
    skipBlanks (c :: cs) = c :: cs := by
  simp [skipBlanks, hc]

variable {st : Style}

theorem readChars_write {s : List Char} (hs : ∀ c ∈ s, st.Keeps c) {n : Nat} (hn : s.length < n)
    (rest : List Char) :
    readChars n (s.flatMap st.escape ++ quoteMark :: rest) = some (s, rest) := by
  induction s generalizing n with
  | nil =>
      obtain ⟨m, rfl⟩ : ∃ m, n = m + 1 := ⟨n - 1, by simp at hn; omega⟩
      simp [readChars]
  | cons c s ih =>
      obtain ⟨m, rfl⟩ : ∃ m, n = m + 1 := ⟨n - 1, by simp at hn; omega⟩
      obtain ⟨d, ds, hd, hne⟩ := (hs c List.mem_cons_self).start
      have hread := (hs c List.mem_cons_self).reads (s.flatMap st.escape ++ quoteMark :: rest)
      have hrec := ih (fun x hx => hs x (List.mem_cons_of_mem c hx)) (n := m) (by simpa using hn)
      rw [List.flatMap_cons, List.append_assoc, hd, List.cons_append, readChars, if_neg hne,
        ← List.cons_append, ← hd, hread, Option.bind_some, hrec, Option.map_some]

theorem length_le_length_flatMap {s : List Char} (hs : ∀ c ∈ s, st.Keeps c) :
    s.length ≤ (s.flatMap st.escape).length := by
  induction s with
  | nil => exact Nat.zero_le _
  | cons c s ih =>
      obtain ⟨d, ds, hd, _⟩ := (hs c List.mem_cons_self).start
      have := ih fun x hx => hs x (List.mem_cons_of_mem c hx)
      rw [List.flatMap_cons, List.length_append, hd, List.length_cons, List.length_cons]
      omega

theorem readChars_strText {s : String} (hs : st.KeepsAll s) (rest : List Char) :
    readChars ((s.toList.flatMap st.escape ++ quoteMark :: rest).length + 1)
      (s.toList.flatMap st.escape ++ quoteMark :: rest) = some (s.toList, rest) := by
  have hlen := length_le_length_flatMap hs
  exact readChars_write hs (by rw [List.length_append]; omega) rest

theorem strText_append (st : Style) (s : String) (rest : List Char) :
    st.strText s ++ rest = quoteMark :: (s.toList.flatMap st.escape ++ quoteMark :: rest) := by
  simp [Style.strText]

theorem endsScalar_nil : EndsScalar [] := by
  intro c hc
  cases hc

theorem endsScalar_cons {c : Char} (h : c.isDigit = false ∧ c ≠ '.' ∧ c ≠ 'e' ∧ c ≠ 'E')
    (cs : List Char) : EndsScalar (c :: cs) := by
  intro d hd
  cases hd
  exact h

theorem start_write {j : Json} (hj : st.Writable j) :
    ∃ c cs, st.write j = c :: cs ∧ isBlank c = false ∧ c ≠ ']' := by
  have hdigit {d : Char} (hd : d.isDigit = true) : isBlank d = false ∧ d ≠ ']' := by
    have h {c : Char} (hc : c.isDigit = false) : d ≠ c := ne_of_isDigit hd hc
    simp [isBlank, h]
  cases j with
  | null => exact ⟨'n', _, rfl, by decide, by decide⟩
  | bool b => cases b <;> exact ⟨_, _, rfl, by decide, by decide⟩
  | int n =>
      cases n with
      | ofNat n =>
          obtain ⟨d, ds, hds, hd⟩ := toDigits_eq_cons n
          exact ⟨d, ds, hds, hdigit hd⟩
      | negSucc n => exact ⟨'-', _, rfl, by decide, by decide⟩
  | real text =>
      obtain ⟨c, cs, hc, h | h | h | h⟩ := RealText.start hj
      · exact ⟨c, cs, hc, hdigit h⟩
      all_goals exact ⟨c, cs, hc, by rw [h]; decide, by rw [h]; decide⟩
  | str s => exact ⟨quoteMark, _, rfl, by decide, by decide⟩
  | arr items => exact ⟨'[', _, rfl, by decide, by decide⟩
  | obj fields => exact ⟨'{', _, rfl, by decide, by decide⟩

theorem skipBlanks_write {j : Json} (hj : st.Writable j) {bs : List Char}
    (hb : ∀ b ∈ bs, isBlank b = true) (rest : List Char) :
    skipBlanks (bs ++ (st.write j ++ rest)) = st.write j ++ rest := by
  obtain ⟨c, cs, hc, hblank, _⟩ := start_write hj
  rw [skipBlanks_append hb, hc]
  exact skipBlanks_cons hblank _

theorem readValue_scalar {n : Nat} {c : Char} (h : c ≠ quoteMark ∧ c ≠ '[' ∧ c ≠ '{') (cs : List Char) :
    readValue (n + 1) (c :: cs) = readScalar (c :: cs) := by
  rw [readValue, if_neg h.1, if_neg h.2.1, if_neg h.2.2]

theorem readValue_of_isDigit {n : Nat} {d : Char} (hd : d.isDigit = true) (cs : List Char) :
    readValue (n + 1) (d :: cs) = readScalar (d :: cs) :=
  readValue_scalar ⟨ne_of_isDigit hd (by decide), ne_of_isDigit hd (by decide),
    ne_of_isDigit hd (by decide)⟩ cs

theorem readValue_intText (k : Int) {n : Nat} (h : EndsScalar rest) :
    readValue (n + 1) (intText k ++ rest) = some (.int k, rest) := by
  rw [← readScalar_intText k h]
  cases k with
  | ofNat k =>
      obtain ⟨d, ds, hds, hd⟩ := toDigits_eq_cons k
      rw [intText, hds]
      exact readValue_of_isDigit hd _
  | negSucc k => exact readValue_scalar (by decide) _

theorem RealText.readValue {text : List Char} (ht : RealText text) {n : Nat} (h : EndsScalar rest) :
    readValue (n + 1) (text ++ rest) = some (.real text, rest) := by
  rw [← ht.reads rest h]
  obtain ⟨c, cs, rfl, hc | hc | hc | hc⟩ := ht.start
  · exact readValue_of_isDigit hc _
  all_goals
    subst hc
    exact readValue_scalar (by decide) _

theorem insertField_of_notMem {fields : List (String × Json)} {k : String} {x : Json}
    (h : k ∉ fields.map Prod.fst) : insertField fields k x = fields ++ [(k, x)] := if_neg h

theorem dict_of_nodup {fields : List (String × Json)} (h : (fields.map Prod.fst).Nodup) :
    dict fields = fields := by
  have hgen (done rest : List (String × Json)) (hn : ((done ++ rest).map Prod.fst).Nodup) :
      rest.foldl (fun fields p => insertField fields p.1 p.2) done = done ++ rest := by
    induction rest generalizing done with
    | nil => rw [List.foldl_nil, List.append_nil]
    | cons f rest ih =>
        have hf : f.1 ∉ done.map Prod.fst := by
          rw [List.map_append, List.map_cons] at hn
          exact fun hmem => (List.nodup_append.mp hn).2.2 _ hmem _ List.mem_cons_self rfl
        rw [List.foldl_cons, insertField_of_notMem hf,
          ih _ (by rwa [List.append_assoc, List.singleton_append]), List.append_assoc,
          List.singleton_append]
  exact hgen [] fields h

theorem readValue_arr {n : Nat} {cs ds : List Char} {d : Char} (h : skipBlanks cs = d :: ds)
    (hd : d ≠ ']') : readValue (n + 1) ('[' :: cs) =
      (readItems n (d :: ds)).map fun p => (.arr p.1, p.2) := by
  rw [readValue, if_neg (by decide), if_pos rfl, h]
  split
  · simp_all
  · rfl

theorem readValue_obj {n : Nat} {cs ds : List Char} {d : Char} (h : skipBlanks cs = d :: ds)
    (hd : d ≠ '}') : readValue (n + 1) ('{' :: cs) =
      (readFields n (d :: ds)).map fun p => (.obj (dict p.1), p.2) := by
  rw [readValue, if_neg (by decide), if_neg (by decide), if_pos rfl, h]
  split
  · simp_all
  · rfl

theorem readFields_last (hst : st.Plain) {k : String} (hk : st.KeepsAll k) {j : Json}
    (hj : st.Writable j) {n : Nat} {rest : List Char}
    (hv : readValue n (st.write j ++ '}' :: rest) = some (j, '}' :: rest)) :
    readFields (n + 1) (st.strText k ++ (st.colon ++ (st.write j ++ '}' :: rest))) =
      some ([(k, j)], rest) := by
  obtain ⟨bs, hcolon, hb⟩ := hst.colon
  have hskip := skipBlanks_write hj hb ('}' :: rest)
  have hend := skipBlanks_cons (show isBlank '}' = false by decide) rest
  rw [strText_append, readFields, if_pos rfl, readChars_strText hk, hcolon, List.cons_append]
  simp only [skipBlanks_cons (show isBlank ':' = false by decide), hskip, hv, hend,
    String.ofList_toList]

theorem readFields_next (hst : st.Plain) {k : String} (hk : st.KeepsAll k) {j : Json}
    (hj : st.Writable j) {n : Nat} {rest : List Char}
    (hv : readValue n (st.write j ++ ',' :: rest) = some (j, ',' :: rest)) :
    readFields (n + 1) (st.strText k ++ (st.colon ++ (st.write j ++ ',' :: rest))) =
      (readFields n (skipBlanks rest)).map fun p => ((k, j) :: p.1, p.2) := by
  obtain ⟨bs, hcolon, hb⟩ := hst.colon
  have hskip := skipBlanks_write hj hb (',' :: rest)
  have hcomma := skipBlanks_cons (show isBlank ',' = false by decide) rest
  rw [strText_append, readFields, if_pos rfl, readChars_strText hk, hcolon, List.cons_append]
  simp only [skipBlanks_cons (show isBlank ':' = false by decide), hskip, hv, hcomma,
    String.ofList_toList]

theorem skipBlanks_writeItems {x : Json} (xs : List Json) (hx : st.Writable x) {bs : List Char}
    (hb : ∀ b ∈ bs, isBlank b = true) (rest : List Char) :
    ∃ c cs, skipBlanks (bs ++ (st.writeItems (x :: xs) ++ rest)) = c :: cs ∧ c ≠ ']' ∧
      c :: cs = st.writeItems (x :: xs) ++ rest := by
  obtain ⟨c, cs, hc, hblank, hne⟩ := start_write hx
  cases xs with
  | nil =>
      refine ⟨c, cs ++ rest, ?_, hne, by rw [Style.writeItems, hc, List.cons_append]⟩
      rw [skipBlanks_append hb, Style.writeItems, hc]
      exact skipBlanks_cons hblank _
  | cons y ys =>
      refine ⟨c, cs ++ (st.comma ++ st.writeItems (y :: ys)) ++ rest, ?_, hne, ?_⟩
      · rw [skipBlanks_append hb, Style.writeItems, hc]
        exact skipBlanks_cons hblank _
      · rw [Style.writeItems, hc, List.cons_append, List.cons_append]

theorem skipBlanks_writeFields (st : Style) (f : String × Json) (fs : List (String × Json)) {bs : List Char}
    (hb : ∀ b ∈ bs, isBlank b = true) (rest : List Char) :
    ∃ cs, skipBlanks (bs ++ (st.writeFields (f :: fs) ++ rest)) = quoteMark :: cs ∧
      quoteMark :: cs = st.writeFields (f :: fs) ++ rest := by
  have hblank : isBlank quoteMark = false := by decide
  cases fs with
  | nil =>
      refine ⟨_, ?_, (strText_append st f.1 _).symm.trans (by rw [Style.writeFields, List.append_assoc])⟩
      rw [skipBlanks_append hb, Style.writeFields, List.append_assoc, strText_append]
      exact skipBlanks_cons hblank _
  | cons g gs =>
      refine ⟨_, ?_, (strText_append st f.1 _).symm.trans (by rw [Style.writeFields, List.append_assoc])⟩
      rw [skipBlanks_append hb, Style.writeFields, List.append_assoc, strText_append]
      exact skipBlanks_cons hblank _

mutual

theorem readValue_write (hst : st.Plain) : ∀ (j : Json) (n : Nat) (rest : List Char), st.Writable j →
    (st.write j).length ≤ n → EndsScalar rest → readValue n (st.write j ++ rest) = some (j, rest)
  | .null, n + 1, rest, _, _, _ => by
      rw [Style.write]
      exact readValue_scalar (by decide) _
  | .bool true, n + 1, rest, _, _, _ => by
      rw [Style.write]
      exact readValue_scalar (by decide) _
  | .bool false, n + 1, rest, _, _, _ => by
      rw [Style.write]
      exact readValue_scalar (by decide) _
  | .int k, n + 1, rest, _, _, h => by
      rw [Style.write]
      exact readValue_intText k h
  | .real text, n + 1, rest, hj, _, h => by
      rw [Style.write]
      exact RealText.readValue hj h
  | .str s, n + 1, rest, hj, _, _ => by
      rw [Style.write, strText_append, readValue, if_pos rfl, readChars_strText hj, Option.map_some,
        String.ofList_toList]
  | .arr [], n + 1, rest, _, _, _ => by
      rw [Style.write, Style.writeItems, List.nil_append, List.cons_append, List.singleton_append,
        readValue]
      rfl
  | .arr (x :: xs), n + 1, rest, hj, hn, _ => by
      have hlen : (st.writeItems (x :: xs)).length < n := by
        rw [Style.write, List.length_cons, List.length_append, List.length_singleton] at hn
        omega
      have hitems := readItems_write hst x xs n rest hj hlen
      obtain ⟨c, cs, hskip, hne, hcs⟩ := skipBlanks_writeItems xs hj.1 (List.forall_mem_nil _) (']' :: rest)
      rw [List.nil_append] at hskip
      rw [Style.write, List.cons_append, List.append_assoc, List.singleton_append,
        readValue_arr hskip hne, hcs, hitems, Option.map_some]
  | .obj [], n + 1, rest, _, _, _ => by
      rw [Style.write, Style.writeFields, List.nil_append, List.cons_append, List.singleton_append,
        readValue]
      rfl
  | .obj (f :: fs), n + 1, rest, hj, hn, _ => by
      have hlen : (st.writeFields (f :: fs)).length < n := by
        rw [Style.write, List.length_cons, List.length_append, List.length_singleton] at hn
        omega
      have hfields := readFields_write hst f fs n rest hj.2 hlen
      obtain ⟨cs, hskip, hcs⟩ := skipBlanks_writeFields st f fs (List.forall_mem_nil _) ('}' :: rest)
      rw [List.nil_append] at hskip
      rw [Style.write, List.cons_append, List.append_assoc, List.singleton_append,
        readValue_obj hskip (by decide), hcs, hfields, Option.map_some, dict_of_nodup hj.1]
  | j, 0, rest, hj, hn, _ => by
      obtain ⟨c, cs, hc, _⟩ := start_write hj
      rw [hc] at hn
      simp at hn

theorem readItems_write (hst : st.Plain) : ∀ (x : Json) (xs : List Json) (n : Nat) (rest : List Char),
    st.WritableItems (x :: xs) → (st.writeItems (x :: xs)).length < n →
    readItems n (st.writeItems (x :: xs) ++ ']' :: rest) = some (x :: xs, rest)
  | x, [], n + 1, rest, hj, hn => by
      rw [Style.writeItems] at hn
      have hx := readValue_write hst x n (']' :: rest) hj.1 (by omega) (endsScalar_cons (by decide) _)
      rw [Style.writeItems, readItems, hx]
      rfl
  | x, y :: ys, n + 1, rest, hj, hn => by
      obtain ⟨bs, hcomma, hb⟩ := hst.comma
      rw [Style.writeItems, hcomma, List.length_append, List.length_append, List.length_cons] at hn
      have hx := readValue_write hst x n
        (',' :: (bs ++ (st.writeItems (y :: ys) ++ ']' :: rest))) hj.1 (by omega)
        (endsScalar_cons (by decide) _)
      have hrest := readItems_write hst y ys n rest hj.2 (by omega)
      obtain ⟨c, cs, hskip, _, hcs⟩ := skipBlanks_writeItems ys hj.2.1 hb (']' :: rest)
      rw [Style.writeItems, hcomma, List.cons_append, List.append_assoc, List.cons_append,
        List.append_assoc, readItems, hx]
      simp only [skipBlanks_cons (show isBlank ',' = false by decide), hskip, hcs, hrest,
        Option.map_some]
  | x, xs, 0, rest, _, hn => absurd hn (Nat.not_lt_zero _)

theorem readFields_write (hst : st.Plain) : ∀ (f : String × Json) (fs : List (String × Json)) (n : Nat)
    (rest : List Char), st.WritableFields (f :: fs) → (st.writeFields (f :: fs)).length < n →
    readFields n (st.writeFields (f :: fs) ++ '}' :: rest) = some (f :: fs, rest)
  | (k, x), [], n + 1, rest, hj, hn => by
      rw [Style.writeFields, List.length_append, List.length_append] at hn
      have hx := readValue_write hst x n ('}' :: rest) hj.2.1 (by omega)
        (endsScalar_cons (by decide) _)
      rw [Style.writeFields, List.append_assoc, List.append_assoc, readFields_last hst hj.1 hj.2.1 hx]
  | (k, x), g :: gs, n + 1, rest, hj, hn => by
      obtain ⟨bs, hcomma, hb⟩ := hst.comma
      rw [Style.writeFields, hcomma, List.length_append, List.length_append, List.length_append,
        List.length_append, List.length_cons] at hn
      have hx := readValue_write hst x n
        (',' :: (bs ++ (st.writeFields (g :: gs) ++ '}' :: rest))) hj.2.1 (by omega)
        (endsScalar_cons (by decide) _)
      have hrest := readFields_write hst g gs n rest hj.2.2 (by omega)
      obtain ⟨cs, hskip, hcs⟩ := skipBlanks_writeFields st g gs hb ('}' :: rest)
      rw [Style.writeFields, hcomma, List.append_assoc, List.append_assoc, List.append_assoc,
        List.cons_append, List.cons_append, List.append_assoc, readFields_next hst hj.1 hj.2.1 hx,
        hskip, hcs, hrest, Option.map_some]
  | f, fs, 0, rest, _, hn => absurd hn (Nat.not_lt_zero _)

end

/-- What a plain style writes is read back, whatever the style. -/
theorem loads_write (hst : st.Plain) {j : Json} (hj : st.Writable j) : loads (st.write j) = some j := by
  have hread := readValue_write hst j ((st.write j).length + 1) [] hj (by omega) endsScalar_nil
  have hskip := skipBlanks_write hj (List.forall_mem_nil _) []
  rw [List.append_nil] at hread
  rw [List.nil_append, List.append_nil] at hskip
  rw [loads, hskip, hread]
  rfl

end

theorem hexValue_digitChar {d : Nat} (h : d < 16) : hexValue d.digitChar = some d := by
  have hall : ∀ d < 16, hexValue d.digitChar = some d := by decide
  exact hall d h

theorem readHex_digits {n : Nat} (h : n < 65536) (rest : List Char) :
    readHex ([n / 4096 % 16, n / 256 % 16, n / 16 % 16, n % 16].map Nat.digitChar ++ rest) =
      some (n, rest) := by
  have hsum : n / 4096 % 16 * 4096 + n / 256 % 16 * 256 + n / 16 % 16 * 16 + n % 16 = n := by omega
  have hlt (m : Nat) : m % 16 < 16 := Nat.mod_lt m (by decide)
  simp only [List.map_cons, List.map_nil, List.cons_append, List.nil_append, readHex,
    hexValue_digitChar (hlt _), hsum]

theorem readChar_hexText {n : Nat} (h : n < 0xd800 ∨ 0xe000 ≤ n ∧ n < 65536) (rest : List Char) :
    readChar (hexText n ++ rest) = some (Char.ofNat n, rest) := by
  have hread := readHex_digits (n := n) (by omega) rest
  rw [hexText, List.cons_append, List.cons_append, readChar, if_pos rfl, readEscape, if_pos rfl,
    readUnicode, hread]
  simp only
  rw [if_neg (by omega), if_neg (by omega)]

theorem readChar_surrogates {c : Char} (h : 65536 ≤ c.toNat) (rest : List Char) :
    readChar (hexText (0xd800 + (c.toNat - 0x10000) / 1024) ++
      hexText (0xdc00 + c.toNat % 1024) ++ rest) = some (c, rest) := by
  have hlt : c.toNat < 0x110000 := by
    rcases c.valid with hv | hv
    · exact Nat.lt_trans hv (by decide)
    · exact hv.2
  have hhigh := readHex_digits (n := 0xd800 + (c.toNat - 0x10000) / 1024) (by omega)
    (hexText (0xdc00 + c.toNat % 1024) ++ rest)
  have hlow := readHex_digits (n := 0xdc00 + c.toNat % 1024) (by omega) rest
  have hsum : 0x10000 + (0xd800 + (c.toNat - 0x10000) / 1024 - 0xd800) * 1024 +
      (0xdc00 + c.toNat % 1024 - 0xdc00) = c.toNat := by omega
  rw [List.append_assoc, hexText, List.cons_append, List.cons_append, readChar, if_pos rfl, readEscape,
    if_pos rfl, readUnicode, hhigh]
  simp only
  rw [if_pos (by omega), hexText, List.cons_append, List.cons_append]
  simp only [hlow]
  rw [if_pos (by omega), hsum, Char.ofNat_toNat]

theorem readChar_self {c : Char} (hb : c ≠ '\\') (h : 32 ≤ c.toNat) (rest : List Char) :
    readChar (c :: rest) = some (c, rest) := by
  rw [readChar, if_neg hb, if_neg (by omega)]

theorem plain_compactStyle : compactStyle.Plain where
  comma := ⟨[], rfl, List.forall_mem_nil _⟩
  colon := ⟨[], rfl, List.forall_mem_nil _⟩

theorem plain_spacedStyle : spacedStyle.Plain where
  comma := ⟨[' '], rfl, by simp [isBlank]⟩
  colon := ⟨[' '], rfl, by simp [isBlank]⟩

theorem readEscape_shortEscape {c d : Char} (h : shortEscape c = some d) (rest : List Char) :
    readEscape (d :: rest) = some (c, rest) := by
  have hcode {n : Nat} (hn : c.toNat = n) : Char.ofNat n = c := hn ▸ Char.ofNat_toNat c
  unfold shortEscape at h
  split_ifs at h with h₁ h₂ h₃ h₄ h₅ h₆ h₇ <;> cases h
  · subst h₁
    rfl
  · subst h₂
    rfl
  · exact hcode h₃ ▸ rfl
  · exact hcode h₄ ▸ rfl
  · exact hcode h₅ ▸ rfl
  · exact hcode h₆ ▸ rfl
  · exact hcode h₇ ▸ rfl

theorem readChar_shortEscape {c d : Char} (h : shortEscape c = some d) (rest : List Char) :
    readChar ('\\' :: d :: rest) = some (c, rest) := by
  rw [readChar, if_pos rfl, readEscape_shortEscape h]

theorem of_shortEscape_eq_none {c : Char} (h : shortEscape c = none) : c ≠ quoteMark ∧ c ≠ '\\' := by
  unfold shortEscape at h
  split_ifs at h with h₁ h₂
  exact ⟨h₁, h₂⟩

theorem keeps_compactStyle {c : Char} (h : 32 ≤ c.toNat) : compactStyle.Keeps c := by
  have hescape : compactStyle.escape c = escape c := rfl
  cases hs : shortEscape c with
  | some d =>
      have htext : compactStyle.escape c = ['\\', d] := by simp [hescape, escape, hs]
      refine ⟨⟨_, _, htext, by decide⟩, fun rest => ?_⟩
      rw [htext]
      exact readChar_shortEscape hs rest
  | none =>
      obtain ⟨hquote, hslash⟩ := of_shortEscape_eq_none hs
      have htext : compactStyle.escape c = [c] := by
        have : c.toNat ≠ 0 := by omega
        simp [hescape, escape, hs, this]
      refine ⟨⟨_, _, htext, hquote⟩, fun rest => ?_⟩
      rw [htext]
      exact readChar_self hslash h rest

theorem keeps_spacedStyle (c : Char) : spacedStyle.Keeps c := by
  have hescape : spacedStyle.escape c = escapeAscii c := rfl
  have hstart (n : Nat) : hexText n = '\\' :: (hexText n).tail := rfl
  cases hs : shortEscape c with
  | some d =>
      have htext : spacedStyle.escape c = ['\\', d] := by simp [hescape, escapeAscii, hs]
      refine ⟨⟨_, _, htext, by decide⟩, fun rest => ?_⟩
      rw [htext]
      exact readChar_shortEscape hs rest
  | none =>
      obtain ⟨hquote, hslash⟩ := of_shortEscape_eq_none hs
      by_cases hprint : 32 ≤ c.toNat ∧ c.toNat < 127
      · have htext : spacedStyle.escape c = [c] := by simp [hescape, escapeAscii, hs, hprint]
        refine ⟨⟨_, _, htext, hquote⟩, fun rest => ?_⟩
        rw [htext]
        exact readChar_self hslash hprint.1 rest
      · by_cases hwide : c.toNat < 0x10000
        · have htext : spacedStyle.escape c = hexText c.toNat := by
            simp only [hescape, escapeAscii, hs, if_neg hprint, if_pos hwide]
          have hvalid : c.toNat < 0xd800 ∨ 0xe000 ≤ c.toNat ∧ c.toNat < 65536 := by
            rcases c.valid with hv | hv
            · exact .inl hv
            · exact .inr ⟨hv.1, hwide⟩
          refine ⟨⟨_, _, htext.trans (hstart _), by decide⟩, fun rest => ?_⟩
          rw [htext, readChar_hexText hvalid, Char.ofNat_toNat]
        · have htext : spacedStyle.escape c = hexText (0xd800 + (c.toNat - 0x10000) / 1024) ++
              hexText (0xdc00 + c.toNat % 1024) := by
            simp only [hescape, escapeAscii, hs, if_neg hprint, if_neg hwide]
          refine ⟨⟨'\\', _, htext.trans rfl, by decide⟩, fun rest => ?_⟩
          rw [htext]
          exact readChar_surrogates (by omega) rest

theorem loads_compact {j : Json} (hj : compactStyle.Writable j) : loads j.compact = some j :=
  loads_write plain_compactStyle hj

theorem loads_dumps {j : Json} (hj : spacedStyle.Writable j) : loads j.dumps = some j :=
  loads_write plain_spacedStyle hj

end Tempio.Lib.Json
