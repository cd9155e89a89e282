/-
# Numbers that are read back

A number is written as a literal: digits without a zero too many in front, maybe a point and digits
behind it, and maybe an exponent with its sign. A reader takes such a literal as a whole and nothing
else, if what follows could not be a part of a number (`Json.readNumber_text`).

Integers are written in decimal, and the literal has the value that it was written for, if that fits
64 bits (`Json.value?_literal`). A float is written with the digits of its shortest decimal, which
are put before and after the point in one of four ways, or with an exponent. These digits are not
those of zero, so none of the four has zeros in front that it must not have
(`Binary64.shortest_significand`). That they read back as the same float is not followed here.

Key definitions: `Json.Ends`, `Json.NumberLiteral.text`, `Json.NumberLiteral.Spelled`,
`Json.Number.literal`, `Json.Number.Whole`.
Key theorems: `Json.readNumber_text`, `Json.Number.render_eq`, `Json.Number.spelled_literal`,
`Json.value?_literal`.
-/
import ImagePolicy.Json.Printer
import ImagePolicy.Json.Reader
import ImagePolicy.Proofs.Text.Digits

namespace ImagePolicy

/-! ### Shortest decimals -/

namespace Binary64.Interval

variable {i : Interval} {grid : Int}

/-- Zero does not round to anything else. -/
theorem holds_zero (h : 0 < i.low) : i.holds 0 grid = false := by
  have hlow : 0 < i.low * Nat.pow 2 i.exponent.toNat * Nat.pow 10 (-grid).toNat :=
    Nat.mul_pos (Nat.mul_pos h (Nat.pow_pos (by decide))) (Nat.pow_pos (by decide))
  simp only [holds, crossed, Nat.zero_mul, Nat.not_le.mpr hlow, Nat.not_lt_zero, decide_false,
    Bool.false_and, ite_self]

theorem neighbour?_ne_zero (h : 0 < i.low) {n : Nat} (hn : i.neighbour? grid = some n) :
    n ≠ 0 := by
  unfold neighbour? at hn
  by_cases hunder : i.under grid = 0
  · cases hone : i.holds 1 grid with
    | false => simp [hunder, holds_zero h, hone] at hn
    | true =>
      simp only [hunder, Nat.zero_add, holds_zero h, hone, Option.some.injEq] at hn
      omega
  · dsimp only at hn
    split at hn
    · cases hn
    · cases hn
      exact hunder
    · cases hn
      exact Nat.succ_ne_zero _
    · split at hn
      · cases hn
        exact hunder
      · split at hn
        · cases hn
          exact Nat.succ_ne_zero _
        · cases hn
          omega

theorem search_ne_zero (h : 0 < i.low) : ∀ (tries : Nat) (grid : Int) {d : Decimal},
    i.search tries grid = some d → d.significand ≠ 0
  | 0, _, _, hd => nomatch hd
  | tries + 1, grid, d, hd => by
    unfold search at hd
    split at hd
    · next hn =>
      cases hd
      exact neighbour?_ne_zero h hn
    · exact search_ne_zero h tries (grid - 1) hd

end Binary64.Interval

theorem Decimal.strip_ne_zero (d : Decimal) (h : d.significand ≠ 0) :
    d.strip.significand ≠ 0 := by
  induction d using Decimal.strip.induct with
  | case1 d hd ih =>
    rw [strip, dif_pos hd]
    exact ih (by simp only; omega)
  | case2 d hd =>
    rw [strip, dif_neg hd]
    exact h

/-- The shortest decimal of a magnitude other than zero is not zero either, if there is one. -/
theorem Binary64.shortest_significand {m : Binary64} (h : m.mantissa ≠ 0) :
    m.shortest.significand ≠ 0 ∨ m.shortest = ⟨0, 0⟩ := by
  have hlow : 0 < m.interval.low := by
    unfold interval
    simp only
    split <;> omega
  unfold shortest
  simp only
  split
  · next d hd => exact .inl (d.strip_ne_zero (Interval.search_ne_zero hlow _ _ hd))
  · exact .inr rfl

namespace Json

/-! ### Where a number ends -/

/-- What may follow a value inside another: the end of it, a comma, or a line break. Nothing of this
could be part of a number. -/
def Ends (rest : Source) : Prop :=
  rest = [] ∨ ∃ c s, rest = some c :: s ∧ (c = ',' ∨ c = ']' ∨ c = '\x7d' ∨ c = '\n')

theorem ends_comma (s : Source) : Ends (some ',' :: s) :=
  .inr ⟨_, s, rfl, .inl rfl⟩

theorem ends_bracket (s : Source) : Ends (some ']' :: s) :=
  .inr ⟨_, s, rfl, .inr (.inl rfl)⟩

theorem ends_brace (s : Source) : Ends (some '\x7d' :: s) :=
  .inr ⟨_, s, rfl, .inr (.inr (.inl rfl))⟩

theorem ends_break (s : Source) : Ends (some '\n' :: s) :=
  .inr ⟨_, s, rfl, .inr (.inr (.inr rfl))⟩

theorem readDigits_of_ends {rest : Source} (h : Ends rest) : readDigits rest = ([], rest) := by
  rcases h with rfl | ⟨c, s, rfl, rfl | rfl | rfl | rfl⟩ <;> rfl

theorem readFraction_of_ends {rest : Source} (h : Ends rest) :
    readFraction rest = some ([], rest) := by
  rcases h with rfl | ⟨c, s, rfl, rfl | rfl | rfl | rfl⟩ <;> rfl

theorem readExponent_of_ends {rest : Source} (h : Ends rest) :
    readExponent rest = some (none, rest) := by
  rcases h with rfl | ⟨c, s, rfl, rfl | rfl | rfl | rfl⟩ <;> rfl

/-! ### Literals -/

/-- Digits are read up to the first character that is none. -/
theorem readDigits_append {ds : List Nat} (hds : ∀ d ∈ ds, d < 10) {rest : Source}
    (h : readDigits rest = ([], rest)) :
    readDigits ((ds.map Text.digitChar).map some ++ rest) = (ds, rest) := by
  induction ds with
  | nil => exact h
  | cons d ds ih =>
    obtain ⟨hd, hrest⟩ := List.forall_mem_cons.mp hds
    simp only [List.map_cons, List.cons_append, readDigits, Text.digit?_digitChar hd, ih hrest]

/-- A number has one digit, or its first is not zero. -/
theorem digits_eq (n : Nat) : (∃ d, Text.digits n = [d]) ∨
    ∃ d e ds, Text.digits n = d :: e :: ds ∧ d ≠ 0 := by
  induction n using Text.digits.induct with
  | case1 n h =>
    rw [Text.digits, if_pos h]
    exact .inl ⟨n, rfl⟩
  | case2 n h ih =>
    rw [Text.digits, if_neg h]
    right
    rcases ih with ⟨d, hd⟩ | ⟨d, e, ds, hd, hne⟩
    · refine ⟨d, n % 10, [], by rw [hd]; rfl, fun hzero => ?_⟩
      have hspell : Text.ofDigits (Text.digits (n / 10)) = n / 10 := Text.ofDigits_digits _
      rw [hd, hzero] at hspell
      have hnil : n / 10 = 0 := hspell.symm
      omega
    · exact ⟨d, e, ds ++ [n % 10], by rw [hd]; rfl, hne⟩

theorem digits_ne_nil (n : Nat) : Text.digits n ≠ [] := by
  rcases digits_eq n with ⟨d, hd⟩ | ⟨d, e, ds, hd, -⟩ <;> simp [hd]

/-- The first digit of a number other than zero is not zero. -/
theorem head_digits_ne_zero {n d : Nat} {ds : List Nat} (hn : n ≠ 0)
    (hd : Text.digits n = d :: ds) : d ≠ 0 := by
  rcases digits_eq n with ⟨e, he⟩ | ⟨e, f, es, he, hne⟩
  · have hspell : Text.ofDigits (Text.digits n) = n := Text.ofDigits_digits n
    rw [hd] at he hspell
    cases he
    rintro rfl
    exact hn hspell.symm
  · rw [hd] at he
    cases he
    exact hne

namespace NumberLiteral

/-- The text of an exponent, which has a sign. -/
def exponentText : Option Int → List Char
  | some e => 'e' :: (if e < 0 then '-' else '+') :: Text.decimal e.natAbs
  | none => []

/-- The text of the digits after the point. -/
def fractionText (ds : List Nat) : List Char :=
  if ds = [] then [] else '.' :: ds.map Text.digitChar

/-- The text of a literal after its sign. -/
def text (l : NumberLiteral) : List Char :=
  l.whole.map Text.digitChar ++ fractionText l.fraction ++ exponentText l.exponent

/-- A literal has digits, and zero does not stand in front of others. -/
structure Spelled (l : NumberLiteral) : Prop where
  whole : ∀ d ∈ l.whole, d < 10
  fraction : ∀ d ∈ l.fraction, d < 10
  filled : l.whole ≠ []
  leading : ∀ d e ds, l.whole = d :: e :: ds → d ≠ 0

end NumberLiteral

open NumberLiteral (exponentText fractionText)

section Reading

variable {rest : Source} (h : Ends rest)
include h

theorem readExponent_exponentText (e : Option Int) :
    readExponent ((exponentText e).map some ++ rest) = some (e, rest) := by
  cases e with
  | none => exact readExponent_of_ends h
  | some e =>
    have hdigits : readDigits ((Text.decimal e.natAbs).map some ++ rest) =
        (Text.digits e.natAbs, rest) :=
      readDigits_append Text.lt_ten_of_mem_digits (readDigits_of_ends h)
    have hpower : ∀ negative, readPower negative ((Text.decimal e.natAbs).map some ++ rest) =
        some (some (if negative then -(e.natAbs : Int) else e.natAbs), rest) := by
      intro negative
      rw [readPower, hdigits]
      rcases hd : Text.digits e.natAbs with _ | ⟨d, ds⟩
      · exact absurd hd (digits_ne_nil _)
      · simp only [← hd, Text.ofDigits_digits]
    by_cases hneg : e < 0
    · have hvalue : -(e.natAbs : Int) = e := by omega
      simp only [exponentText, if_pos hneg, List.map_cons, List.cons_append, readExponent, true_or,
        ↓reduceIte, hpower, hvalue]
    · have hvalue : (e.natAbs : Int) = e := by omega
      simp [exponentText, if_neg hneg, readExponent, hpower, hvalue]

theorem readDigits_exponentText (e : Option Int) :
    readDigits ((exponentText e).map some ++ rest) =
      ([], (exponentText e).map some ++ rest) := by
  cases e with
  | none => exact readDigits_of_ends h
  | some e => rfl

theorem readFraction_exponentText (e : Option Int) :
    readFraction ((exponentText e).map some ++ rest) =
      some ([], (exponentText e).map some ++ rest) := by
  cases e with
  | none => exact readFraction_of_ends h
  | some e => rfl

/-- **A literal is read as a whole**, from what follows its sign. -/
theorem readNumber_text {l : NumberLiteral} (hl : l.Spelled) :
    readNumber l.negative (l.text.map some ++ rest) = some (.number l, rest) := by
  obtain ⟨negative, whole, fraction, exponent⟩ := l
  obtain ⟨hwhole, hfraction, hfilled, hleading⟩ := hl
  have hexponent := readExponent_exponentText h exponent
  have hafter := readDigits_exponentText h exponent
  have hnone := readFraction_exponentText h exponent
  simp only [NumberLiteral.text, List.map_append, List.append_assoc] at *
  generalize (exponentText exponent).map some ++ rest = behind at *
  have hpoint : readFraction ((fractionText fraction).map some ++ behind) =
      some (fraction, behind) := by
    unfold NumberLiteral.fractionText
    split
    · next hnil =>
      rw [hnil]
      exact hnone
    · next hsome =>
      simp only [List.map_cons, List.cons_append, readFraction, readDigits_append hfraction hafter]
  have hstop : readDigits ((fractionText fraction).map some ++ behind) =
      ([], (fractionText fraction).map some ++ behind) := by
    unfold NumberLiteral.fractionText
    split
    · exact hafter
    · rfl
  have hfront : readWhole ((whole.map Text.digitChar).map some ++
      ((fractionText fraction).map some ++ behind)) =
        some (whole, (fractionText fraction).map some ++ behind) := by
    rw [readWhole, readDigits_append hwhole hstop]
    rcases whole with _ | ⟨d, _ | ⟨e, ds⟩⟩
    · exact absurd rfl hfilled
    · rfl
    · have hd := hleading d e ds rfl
      cases d with
      | zero => exact absurd rfl hd
      | succ d => rfl
  simp only [readNumber, hfront, hpoint, hexponent]

end Reading

/-! ### The literals of numbers -/

/-- The literal that a decimal is written as: with zeros behind it, with a point in it, with zeros
in front of it, or with an exponent. -/
def NumberLiteral.ofDecimal (negative : Bool) (d : Decimal) : NumberLiteral :=
  let ds := Text.digits d.significand
  let point : Int := ds.length + d.exponent
  if 0 ≤ d.exponent ∧ point ≤ 16 then
    ⟨negative, ds ++ List.replicate d.exponent.toNat 0, [0], none⟩
  else if 0 < point ∧ point ≤ 16 then ⟨negative, ds.take point.toNat, ds.drop point.toNat, none⟩
  else if -5 < point ∧ point ≤ 0 then
    ⟨negative, [0], List.replicate (-point).toNat 0 ++ ds, none⟩
  else ⟨negative, ds.take 1, ds.drop 1, some (point - 1)⟩

/-- The literal that a number is written as. -/
def Number.literal : Number → NumberLiteral
  | .integer n => ⟨decide (n < 0), Text.digits n.natAbs, [], none⟩
  | .real negative m =>
    if m.mantissa = 0 then ⟨negative, [0], [0], none⟩ else .ofDecimal negative m.shortest

/-- Where a number has several digits, the first is not zero. -/
theorem ne_zero_of_digits_eq {n d e : Nat} {ds : List Nat} (h : Text.digits n = d :: e :: ds) :
    d ≠ 0 := by
  rcases digits_eq n with ⟨f, hf⟩ | ⟨f, g, fs, hf, hne⟩
  · cases h.symm.trans hf
  · cases h.symm.trans hf
    exact hne

theorem ne_zero_of_take_digits {n k d e : Nat} {ds : List Nat}
    (h : (Text.digits n).take k = d :: e :: ds) : d ≠ 0 := by
  have hall : Text.digits n = d :: e :: (ds ++ (Text.digits n).drop k) := by
    rw [← List.cons_append, ← List.cons_append, ← h, List.take_append_drop]
  exact ne_zero_of_digits_eq hall

theorem spelled_ofDecimal (negative : Bool) {d : Decimal}
    (h : d.significand ≠ 0 ∨ d = ⟨0, 0⟩) : (NumberLiteral.ofDecimal negative d).Spelled := by
  have hdigits : ∀ x ∈ Text.digits d.significand, x < 10 := Text.lt_ten_of_mem_digits
  have htake : ∀ k, ∀ x ∈ (Text.digits d.significand).take k, x < 10 := fun k x hx =>
    hdigits x (List.mem_of_mem_take hx)
  have hdrop : ∀ k, ∀ x ∈ (Text.digits d.significand).drop k, x < 10 := fun k x hx =>
    hdigits x (List.mem_of_mem_drop hx)
  have hzeros : ∀ k, ∀ x ∈ List.replicate k 0, x < 10 := fun k x hx => by
    rw [List.eq_of_mem_replicate hx]
    decide
  unfold NumberLiteral.ofDecimal
  simp only
  split
  · refine ⟨List.forall_mem_append.mpr ⟨hdigits, hzeros _⟩, by simp, by simp [digits_ne_nil], ?_⟩
    intro x y ds hx
    rcases h with hne | rfl
    · obtain ⟨z, zs, hz⟩ := List.exists_cons_of_ne_nil (digits_ne_nil d.significand)
      rw [hz, List.cons_append, List.cons.injEq] at hx
      exact hx.1 ▸ head_digits_ne_zero hne hz
    · simp [Text.digits] at hx
  · split
    · next hpoint =>
      refine ⟨htake _, hdrop _, ?_, fun _ _ _ => ne_zero_of_take_digits⟩
      have hk : ((Text.digits d.significand).length + d.exponent).toNat ≠ 0 := by omega
      simp [digits_ne_nil, hk]
    · split
      · exact ⟨by simp, List.forall_mem_append.mpr ⟨hzeros _, hdigits⟩, by simp, by simp⟩
      · exact ⟨htake 1, hdrop 1, by simp [digits_ne_nil], fun _ _ _ => ne_zero_of_take_digits⟩

theorem Number.spelled_literal (n : Number) : n.literal.Spelled := by
  cases n with
  | integer n =>
    exact ⟨Text.lt_ten_of_mem_digits, nofun, digits_ne_nil _, fun _ _ _ => ne_zero_of_digits_eq⟩
  | real negative m =>
    simp only [literal]
    split
    · exact ⟨by simp, by simp, by simp, nofun⟩
    · next hm => exact spelled_ofDecimal negative (Binary64.shortest_significand hm)

/-- A decimal is written as its literal. -/
theorem renderDecimal_eq (negative : Bool) (d : Decimal) :
    renderDecimal d = (NumberLiteral.ofDecimal negative d).text := by
  have hlength : (Text.decimal d.significand).length = (Text.digits d.significand).length := by
    simp [Text.decimal]
  have hzero : Text.digitChar 0 = '0' := rfl
  unfold renderDecimal NumberLiteral.ofDecimal
  simp only [hlength]
  split
  · simp [NumberLiteral.text, NumberLiteral.fractionText, NumberLiteral.exponentText, Text.decimal,
      hzero]
  · split
    · next hpoint =>
      have hback : (Text.digits d.significand).drop
          ((Text.digits d.significand).length + d.exponent).toNat ≠ [] := by
        rw [ne_eq, List.drop_eq_nil_iff]
        omega
      simp [NumberLiteral.text, NumberLiteral.fractionText, NumberLiteral.exponentText, pointed,
        Text.decimal, List.map_take, List.map_drop, hback]
    · split
      · simp [NumberLiteral.text, NumberLiteral.fractionText, NumberLiteral.exponentText,
          Text.decimal, hzero, digits_ne_nil]
      · next hlarge _ hsmall =>
        obtain ⟨z, zs, hz⟩ := List.exists_cons_of_ne_nil (digits_ne_nil d.significand)
        generalize ((Text.digits d.significand).length : Int) + d.exponent = point at *
        have hexponent : (if 0 < point then ['+'] else []) ++ Text.integer (point - 1) =
            (if point - 1 < 0 then '-' else '+') :: Text.decimal (point - 1).natAbs := by
          by_cases hpos : 0 < point
          · have hsign : ¬point - 1 < 0 := by omega
            simp [Text.integer, hpos, hsign]
          · have hsign : point - 1 < 0 := by omega
            simp [Text.integer, hpos, hsign]
        simp only [NumberLiteral.text, NumberLiteral.exponentText, ← hexponent]
        cases zs <;> simp [NumberLiteral.fractionText, pointed, Text.decimal, hz]

/-- **A number is written as its literal**, behind its sign. -/
theorem Number.render_eq (n : Number) :
    n.render = (if n.literal.negative then ['-'] else []) ++ n.literal.text := by
  cases n with
  | integer n =>
    by_cases hneg : n < 0 <;>
      simp [render, literal, Text.integer, Text.decimal, NumberLiteral.text,
        NumberLiteral.fractionText, NumberLiteral.exponentText, hneg]
  | real negative m =>
    have hsign : (Number.real negative m).literal.negative = negative := by
      simp only [literal, NumberLiteral.ofDecimal]
      split_ifs <;> rfl
    have hmagnitude : (if m.mantissa = 0 then ['0', '.', '0'] else renderDecimal m.shortest) =
        (Number.real negative m).literal.text := by
      simp only [literal]
      split
      · rfl
      · exact renderDecimal_eq negative m.shortest
    rw [hsign, ← hmagnitude, render]
    cases negative <;> rfl

/-! ### Integers -/

/-- A number is an integer of those that stay integers. -/
def Number.Whole : Number → Prop
  | .integer n => IntegerRange n
  | .real _ _ => False

theorem le_foldl_digits (ds : List Nat) (n : Nat) : n ≤ ds.foldl (fun n d => 10 * n + d) n := by
  induction ds generalizing n with
  | nil => exact Nat.le_refl n
  | cons d ds ih =>
    have hnext : n ≤ 10 * n + d := by omega
    exact Nat.le_trans hnext (ih _)

/-- Digits fit a significand if the number that they spell does. -/
theorem takeDigits_of_lt {ds : List Nat} {significand : Nat}
    (h : ds.foldl (fun n d => 10 * n + d) significand < significandLimit) :
    takeDigits significand ds = (ds.foldl (fun n d => 10 * n + d) significand, []) := by
  induction ds generalizing significand with
  | nil => rfl
  | cons d ds ih =>
    rw [List.foldl_cons] at h ⊢
    have hnext : significand * 10 + d = 10 * significand + d := by omega
    have hfits : 10 * significand + d < significandLimit :=
      Nat.lt_of_le_of_lt (le_foldl_digits ds _) h
    rw [takeDigits, hnext]
    simp only [if_pos hfits]
    exact ih h

theorem takeDigits_digits {n : Nat} (h : n < significandLimit) :
    takeDigits 0 (Text.digits n) = (n, []) := by
  have hspell : (Text.digits n).foldl (fun n d => 10 * n + d) 0 = n := Text.ofDigits_digits n
  have htake := takeDigits_of_lt (hspell.symm ▸ h)
  rw [htake, hspell]

/-- **An integer that fits 64 bits has the value that it was written for.** -/
theorem value?_literal {n : Number} (h : n.Whole) : n.literal.value? = some n := by
  cases n with
  | real negative m => exact absurd h id
  | integer n =>
    have hrange : -9223372036854775808 ≤ n ∧ n < 18446744073709551616 := h
    have hfits : n.natAbs < significandLimit := by
      unfold significandLimit
      omega
    simp only [Number.literal, NumberLiteral.value?, takeDigits_digits hfits]
    by_cases hneg : n < 0
    · have hsign : 0 < n.natAbs ∧ n.natAbs ≤ 9223372036854775808 := by omega
      have hvalue : -(n.natAbs : Int) = n := by omega
      simp only [hneg, hsign, hvalue, decide_true, Bool.not_true, Bool.false_eq_true, and_self,
        ↓reduceIte]
    · have hvalue : (n.natAbs : Int) = n := by omega
      simp only [hneg, hvalue, decide_false, Bool.not_false, ↓reduceIte]

end Json
end ImagePolicy
