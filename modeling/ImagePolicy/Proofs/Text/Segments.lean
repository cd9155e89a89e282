/-
# The segments of a text

Cutting a text at every separator gives its segments: texts without the separator that make up
the text again when they are put together with separators between them (`join_split`). A text has
only one such list (`split_eq_iff`), so whatever is said of segments can be said of the text, for
instance what its last two segments are (`split_reverse_eq_iff`).

Key definitions: `Text.join`.
Key theorems: `Text.join_split`, `Text.split_flatMap`, `Text.split_eq_iff`,
`Text.split_reverse_eq_iff`.
-/
import ImagePolicy.Text.Split

namespace ImagePolicy
namespace Text

variable {sep : Char}

/-- Texts put together, with a separator between any two. -/
def join (sep : Char) : List (List Char) → List Char
  | [] => []
  | [part] => part
  | part :: rest => part ++ sep :: join sep rest

theorem join_cons {parts : List (List Char)} (part : List Char) (h : parts ≠ []) :
    join sep (part :: parts) = part ++ sep :: join sep parts := by
  cases parts with
  | nil => exact absurd rfl h
  | cons _ _ => rfl

/-- What stands before the last segments is put together on its own. -/
theorem join_append {parts rest : List (List Char)} (hp : parts ≠ []) (hr : rest ≠ []) :
    join sep (parts ++ rest) = join sep parts ++ sep :: join sep rest := by
  induction parts with
  | nil => exact absurd rfl hp
  | cons part parts ih =>
    cases parts with
    | nil => exact join_cons part hr
    | cons next parts =>
      rw [List.cons_append, join_cons part (by simp), ih (by simp), join_cons part (by simp)]
      simp

/-- A text is its segments put together. -/
theorem join_split (cs : List Char) : join sep (split sep cs) = cs := by
  induction cs with
  | nil => rfl
  | cons c cs ih =>
    have hne := split_ne_nil sep cs
    rw [split]
    by_cases hc : c = sep
    · rw [if_pos hc, join_cons [] hne, ih, List.nil_append, hc]
    · rw [if_neg hc]
      cases hs : split sep cs with
      | nil => exact absurd hs hne
      | cons part parts =>
        rw [hs] at ih
        cases parts with
        | nil => rw [← ih]; rfl
        | cons next parts =>
          rw [join_cons part (by simp)] at ih
          rw [join_cons (c :: part) (by simp), List.cons_append, ih]

/-- A segment holds no separator. -/
theorem not_mem_of_mem_split {cs part : List Char} (h : part ∈ split sep cs) : sep ∉ part := by
  induction cs generalizing part with
  | nil =>
    obtain rfl : part = [] := by simpa [split] using h
    simp
  | cons c cs ih =>
    rw [split] at h
    by_cases hc : c = sep
    · rw [if_pos hc] at h
      rcases List.mem_cons.mp h with rfl | h
      · simp
      · exact ih h
    · rw [if_neg hc] at h
      cases hs : split sep cs with
      | nil => exact absurd hs (split_ne_nil sep cs)
      | cons first parts =>
        rw [hs] at h ih
        rcases List.mem_cons.mp h with rfl | h
        · have hf := ih (List.mem_cons_self (a := first))
          intro hm
          rcases List.mem_cons.mp hm with he | hm
          · exact hc he.symm
          · exact hf hm
        · exact ih (List.mem_cons_of_mem _ h)

/-- What a text holds is a separator or stands in a segment. -/
theorem mem_split_of_mem (sep : Char) {c : Char} {cs : List Char} (h : c ∈ cs) :
    c = sep ∨ ∃ part ∈ split sep cs, c ∈ part := by
  have hjoin : ∀ parts, c ∈ join sep parts → c = sep ∨ ∃ part ∈ parts, c ∈ part := by
    intro parts
    induction parts with
    | nil => exact fun h => nomatch h
    | cons part parts ih =>
      intro hc
      by_cases hnil : parts = []
      · subst hnil
        exact .inr ⟨part, List.mem_cons_self, hc⟩
      · rw [join_cons part hnil, List.mem_append, List.mem_cons] at hc
        rcases hc with hc | rfl | hc
        · exact .inr ⟨part, List.mem_cons_self, hc⟩
        · exact .inl rfl
        · obtain heq | ⟨other, hother, hmem⟩ := ih hc
          · exact .inl heq
          · exact .inr ⟨other, List.mem_cons_of_mem _ hother, hmem⟩
  have hjoined : c ∈ join sep (split sep cs) := by rwa [join_split]
  exact hjoin _ hjoined

theorem split_of_not_mem {part : List Char} (h : sep ∉ part) : split sep part = [part] := by
  induction part with
  | nil => rfl
  | cons c cs ih =>
    have hc : c ≠ sep := fun he => h (by simp [he])
    rw [split, if_neg hc, ih (fun hm => h (List.mem_cons_of_mem _ hm))]

theorem split_append {part : List Char} (cs : List Char) (h : sep ∉ part) :
    split sep (part ++ sep :: cs) = part :: split sep cs := by
  induction part with
  | nil => simp [split]
  | cons c part ih =>
    have hc : c ≠ sep := fun he => h (by simp [he])
    rw [List.cons_append, split, if_neg hc, ih (fun hm => h (List.mem_cons_of_mem _ hm))]

/-- Texts that each have a separator behind them are the segments, and nothing behind the last. -/
theorem split_flatMap {parts : List (List Char)} (h : ∀ part ∈ parts, sep ∉ part) :
    split sep (parts.flatMap (· ++ [sep])) = parts ++ [[]] := by
  induction parts with
  | nil => rfl
  | cons part parts ih =>
    obtain ⟨hpart, hparts⟩ := List.forall_mem_cons.mp h
    rw [List.flatMap_cons, List.append_assoc, List.singleton_append, split_append _ hpart,
      ih hparts]
    rfl

/-- **A text has one list of segments**: texts without the separator that make it up. -/
theorem split_eq_iff {cs : List Char} {parts : List (List Char)} :
    split sep cs = parts ↔ parts ≠ [] ∧ (∀ part ∈ parts, sep ∉ part) ∧ join sep parts = cs := by
  constructor
  · rintro rfl
    exact ⟨split_ne_nil sep cs, fun _ => not_mem_of_mem_split, join_split cs⟩
  · rintro ⟨hne, hsep, rfl⟩
    induction parts with
    | nil => exact absurd rfl hne
    | cons part parts ih =>
      have hpart := hsep part List.mem_cons_self
      cases parts with
      | nil => exact split_of_not_mem hpart
      | cons next parts =>
        rw [join_cons part (by simp), split_append _ hpart,
          ih (by simp) fun x hx => hsep x (List.mem_cons_of_mem _ hx)]

/-- The last two segments of a text, seen from its end. -/
theorem split_reverse_eq_iff {cs last before : List Char} :
    (∃ rest, (split sep cs).reverse = last :: before :: rest) ↔
      sep ∉ last ∧ sep ∉ before ∧
        (cs = before ++ sep :: last ∨ ∃ front, cs = front ++ sep :: before ++ sep :: last) := by
  constructor
  · rintro ⟨rest, h⟩
    have hs : split sep cs = rest.reverse ++ [before, last] := by
      rw [← List.reverse_reverse (split sep cs), h]
      simp
    obtain ⟨-, hsep, rfl⟩ := split_eq_iff.mp hs
    refine ⟨hsep last (by simp), hsep before (by simp), ?_⟩
    by_cases hr : rest.reverse = []
    · left
      rw [hr]
      rfl
    · right
      exact ⟨join sep rest.reverse, by rw [join_append hr (by simp)]; simp [join]⟩
  · rintro ⟨hl, hb, rfl | ⟨front, rfl⟩⟩
    · exact ⟨[], by rw [split_append _ hb, split_of_not_mem hl]; rfl⟩
    · refine ⟨(split sep front).reverse, ?_⟩
      have hs : split sep (front ++ sep :: before ++ sep :: last) =
          split sep front ++ [before, last] := by
        refine split_eq_iff.mpr ⟨by simp, fun part hp => ?_, ?_⟩
        · simp only [List.mem_append, List.mem_cons, List.not_mem_nil, or_false] at hp
          rcases hp with hp | rfl | rfl
          · exact not_mem_of_mem_split hp
          · exact hb
          · exact hl
        · rw [join_append (split_ne_nil sep front) (by simp), join_split]
          simp [join]
      rw [hs]
      simp

end Text
end ImagePolicy
