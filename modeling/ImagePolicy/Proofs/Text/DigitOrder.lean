/-
# The order of numbers in digits

Texts are in the order of their first characters that differ. So of two texts with parts of equal
length the first parts decide, and the rest only where these are alike (`Text.append_lt_iff`). As
many digits on either side are in the order of the numbers that they spell
(`Text.map_digitChar_lt_iff`), and no two lists of so many digits spell the same number
(`Text.ofDigits_inj`).

Key theorems: `Text.append_lt_iff`, `Text.ofDigits_cons`, `Text.ofDigits_lt`,
`Text.map_digitChar_lt_iff`, `Text.ofDigits_inj`, `Text.padded_ofDigits`.
-/
import ImagePolicy.Proofs.Text.Digits
import Mathlib.Data.List.Basic
import Mathlib.Data.List.Induction
import Mathlib.Data.Nat.Digits.Defs

namespace ImagePolicy
namespace Text

variable {ds es : List Nat}

/-- Of two texts the parts of equal length in front decide, and the rest where they are alike. -/
theorem append_lt_iff {front front' back back' : List Char} (h : front.length = front'.length) :
    front ++ back < front' ++ back' ↔ front < front' ∨ front = front' ∧ back < back' := by
  induction front generalizing front' with
  | nil =>
    obtain rfl := List.length_eq_zero_iff.mp h.symm
    simp
  | cons c front ih =>
    cases front' with
    | nil => cases h
    | cons c' front' =>
      have hlength : front.length = front'.length := Nat.succ.inj h
      rw [List.cons_append, List.cons_append, List.cons_lt_cons_iff, List.cons_lt_cons_iff,
        ih hlength, List.cons.injEq]
      tauto

/-- Digits spell, the last one first, what they spell in the library. -/
theorem ofDigits_eq (ds : List Nat) : ofDigits ds = Nat.ofDigits 10 ds.reverse := by
  induction ds using List.reverseRecOn with
  | nil => rfl
  | append_singleton ds d ih =>
    rw [ofDigits_append, ih, List.reverse_append, List.reverse_singleton, List.singleton_append,
      Nat.ofDigits_cons, Nat.add_comm]

/-- The first digit counts as often as the rest has values. -/
theorem ofDigits_cons (d : Nat) (ds : List Nat) :
    ofDigits (d :: ds) = d * 10 ^ ds.length + ofDigits ds := by
  rw [ofDigits_eq, ofDigits_eq, Nat.ofDigits_reverse_cons, Nat.add_comm, Nat.mul_comm]

theorem ofDigits_lt (h : ∀ d ∈ ds, d < 10) : ofDigits ds < 10 ^ ds.length := by
  rw [ofDigits_eq, ← List.length_reverse]
  exact Nat.ofDigits_lt_base_pow_length (by decide) fun d hd => h d (List.mem_reverse.mp hd)

/-- As many digits spell different numbers. -/
theorem ofDigits_inj (hlength : ds.length = es.length) (hds : ∀ d ∈ ds, d < 10)
    (hes : ∀ e ∈ es, e < 10) (h : ofDigits ds = ofDigits es) : ds = es := by
  rw [ofDigits_eq, ofDigits_eq] at h
  refine List.reverse_injective (Nat.ofDigits_inj_of_len_eq (by decide) (by simpa using hlength)
    (fun d hd => hds d (List.mem_reverse.mp hd)) (fun e he => hes e (List.mem_reverse.mp he)) h)

/-- Digits are the padded form of the number that they spell. -/
theorem padded_ofDigits (hne : ds ≠ []) (hds : ∀ d ∈ ds, d < 10) :
    padded ds.length (ofDigits ds) = ds.map digitChar := by
  obtain ⟨es, hes, hlength, hlt, hn⟩ :=
    padded_eq (by simpa using hne : ds.length ≠ 0) (ofDigits_lt hds)
  rw [hes, ofDigits_inj hlength hlt hds hn]

/-- Numbers in two places are in the order of the first, and then of the second. -/
theorem mul_add_lt_iff {d e k a b : Nat} (ha : a < k) (hb : b < k) :
    d * k + a < e * k + b ↔ d < e ∨ d = e ∧ a < b := by
  have hstep : ∀ {x y : Nat}, x < y → x * k + k ≤ y * k := by
    intro x y hxy
    have hmul := Nat.mul_le_mul_right k (Nat.succ_le_of_lt hxy)
    rwa [Nat.succ_mul] at hmul
  rcases Nat.lt_trichotomy d e with h | rfl | h
  · have := hstep h
    omega
  · omega
  · have := hstep h
    omega

theorem digitChar_lt_iff {d e : Nat} (hd : d < 10) (he : e < 10) :
    digitChar d < digitChar e ↔ d < e := by
  have hval : ∀ {n : Nat}, n < 10 → (digitChar n).toNat = 48 + n := by
    intro n hn
    interval_cases n <;> rfl
  have hlt : digitChar d < digitChar e ↔ (digitChar d).toNat < (digitChar e).toNat := Iff.rfl
  rw [hlt, hval hd, hval he]
  omega

/-- **As many digits are in the order of their numbers.** -/
theorem map_digitChar_lt_iff (hlength : ds.length = es.length) (hds : ∀ d ∈ ds, d < 10)
    (hes : ∀ e ∈ es, e < 10) :
    ds.map digitChar < es.map digitChar ↔ ofDigits ds < ofDigits es := by
  induction ds generalizing es with
  | nil =>
    obtain rfl := List.length_eq_zero_iff.mp hlength.symm
    simp
  | cons d ds ih =>
    cases es with
    | nil => cases hlength
    | cons e es =>
      obtain ⟨hd, hds⟩ := List.forall_mem_cons.mp hds
      obtain ⟨he, hes⟩ := List.forall_mem_cons.mp hes
      have hlen : ds.length = es.length := Nat.succ.inj hlength
      have hsame : digitChar d = digitChar e ↔ d = e :=
        ⟨fun heq => by simpa [digit?_digitChar, hd, he] using congrArg digit? heq,
          fun heq => heq ▸ rfl⟩
      have hbound := ofDigits_lt hes
      rw [← hlen] at hbound
      rw [List.map_cons, List.map_cons, List.cons_lt_cons_iff, ih hlen hds hes,
        digitChar_lt_iff hd he, hsame, ofDigits_cons, ofDigits_cons, ← hlen,
        mul_add_lt_iff (ofDigits_lt hds) hbound]

end Text
end ImagePolicy
