/-
# Indented JSON that is read back

The indented text of a value differs from the one on a single line by blanks only, and the reader
skips blanks wherever the printer puts them. So it reads the same tree (`Json.read_renderIndented`).

Key theorems: `Json.readValue_renderAt`, `Json.read_renderIndented`.
-/
import ImagePolicy.Proofs.Json.RoundTrip

namespace ImagePolicy
namespace Json

/-! ### Blanks -/

theorem skipBlanks_newline (level : Nat) (s : Source) :
    skipBlanks ((newline level).map some ++ s) = skipBlanks s := by
  have hblanks : ∀ count, skipBlanks ((List.replicate count ' ').map some ++ s) = skipBlanks s := by
    intro count
    induction count with
    | zero => rfl
    | succ count ih =>
      rw [List.replicate_succ, List.map_cons, List.cons_append, skipBlanks]
      exact ih
  rw [newline, List.map_cons, List.cons_append, skipBlanks]
  exact hblanks _

section Skipping

variable {s s' : Source} (h : skipBlanks s = skipBlanks s') (fuel : Nat)
include h

/-- A reader cannot tell two sources apart that differ in the blanks in front. -/
theorem readValue_congr : readValue fuel s = readValue fuel s' := by
  cases fuel with
  | zero => rfl
  | succ fuel => rw [readValue, readValue, h]

theorem readItems_congr : readItems fuel s = readItems fuel s' := by
  cases fuel with
  | zero => rfl
  | succ fuel => rw [readItems, readItems, h]

theorem readMember_congr : readMember fuel s = readMember fuel s' := by
  cases fuel with
  | zero => rfl
  | succ fuel => rw [readMember, readMember, h]

theorem readMembers_congr : readMembers fuel s = readMembers fuel s' := by
  cases fuel with
  | zero => rfl
  | succ fuel => rw [readMembers, readMembers, h]

/-- Blanks behind an opening bracket make no difference. -/
theorem readValue_bracket : readValue fuel (some '[' :: s) = readValue fuel (some '[' :: s') := by
  have hopen : ∀ r : Source, skipBlanks (some '[' :: r) = some '[' :: r := fun _ => rfl
  cases fuel with
  | zero => rfl
  | succ fuel => rw [readValue, readValue, hopen, hopen]; simp only [h]

/-- Blanks behind an opening brace make no difference. -/
theorem readValue_brace :
    readValue fuel (some '\x7b' :: s) = readValue fuel (some '\x7b' :: s') := by
  have hopen : ∀ r : Source, skipBlanks (some '\x7b' :: r) = some '\x7b' :: r := fun _ => rfl
  cases fuel with
  | zero => rfl
  | succ fuel => rw [readValue, readValue, hopen, hopen]; simp only [h]

end Skipping

/-! ### Reading what was written -/

theorem renderAt_eq_cons (level : Nat) (v : Value) :
    ∃ c cs, renderAt level v = c :: cs ∧ c ∉ closers := by
  cases v with
  | list vs => cases vs <;> exact ⟨'[', _, rfl, by decide⟩
  | object ms => cases ms <;> exact ⟨'\x7b', _, rfl, by decide⟩
  | null => exact render_eq_cons .null
  | bool b => exact render_eq_cons (.bool b)
  | number n => exact render_eq_cons (.number n)
  | text s => exact render_eq_cons (.text s)

theorem ends_renderItemsAt (level : Nat) (vs : List Value) (rest : Source) :
    Ends ((renderItemsAt level vs).map some ++ rest) := by
  cases vs with
  | nil => exact ends_break _
  | cons v vs => exact ends_comma _

theorem ends_renderMembersAt (level : Nat) (ms : Members) (rest : Source) :
    Ends ((renderMembersAt level ms).map some ++ rest) := by
  cases ms with
  | nil => exact ends_break _
  | cons m ms => exact ends_comma _

/-- A member is read by its key and the value behind a blank. -/
theorem readMember_spaced {fuel : Nat} (key : String) {s rest : Source} {t : Tree}
    (hvalue : readValue fuel s = some (t, rest)) :
    readMember (fuel + 1) ((renderText key ++ [':']).map some ++ some ' ' :: s) =
      some ((some key, t), rest) := by
  have hblank : skipBlanks (some ' ' :: s) = skipBlanks s := rfl
  exact readMember_renderText key ((readValue_congr hblank fuel).trans hvalue)

mutual

/-- **The indented text of a value is read as its tree**, at every level. -/
theorem readValue_renderAt : ∀ (v : Value) (level fuel : Nat) (rest : Source),
    (renderAt level v).length ≤ fuel → Ends rest →
    readValue fuel ((renderAt level v).map some ++ rest) = some (v.tree, rest)
  | v, level, 0, rest, hfuel, _ => by
    obtain ⟨c, cs, hv, -⟩ := renderAt_eq_cons level v
    simp [hv] at hfuel
  | .null, _, fuel + 1, rest, _, _ => rfl
  | .bool true, _, fuel + 1, rest, _, _ => rfl
  | .bool false, _, fuel + 1, rest, _, _ => rfl
  | .number n, _, fuel + 1, rest, _, hends => readValue_number n fuel hends
  | .text t, _, fuel + 1, rest, _, _ => readValue_text t fuel rest
  | .list [], _, fuel + 1, rest, _, _ => rfl
  | .list (v :: vs), level, fuel + 1, rest, hfuel, _ => by
    obtain ⟨c, cs, hv, hc⟩ := renderAt_eq_cons (level + 1) v
    have hlength : (renderAt (level + 1) v).length + (renderItemsAt level vs).length ≤ fuel := by
      simp only [renderAt, List.length_cons, List.length_append] at hfuel
      omega
    have hfirst := readValue_renderAt v (level + 1) fuel
      ((renderItemsAt level vs).map some ++ rest) (by omega) (ends_renderItemsAt level vs rest)
    have hitems := readItems_renderItemsAt vs level fuel rest (by omega)
    have hsource : (renderAt level (.list (v :: vs))).map some ++ rest =
        some '[' :: ((newline (level + 1)).map some ++ ((renderAt (level + 1) v).map some ++
          ((renderItemsAt level vs).map some ++ rest))) := by
      simp [renderAt]
    rw [hsource, readValue_bracket (skipBlanks_newline _ _)]
    rw [hv, List.map_cons, List.cons_append] at hfirst ⊢
    exact readValue_list hc hfirst hitems
  | .object [], _, fuel + 1, rest, _, _ => rfl
  | .object ((k, v) :: ms), level, fuel + 1, rest, hfuel, _ => by
    have hlength : (renderText k).length + (renderAt (level + 1) v).length +
        (renderMembersAt level ms).length + 1 ≤ fuel := by
      simp only [renderAt, List.length_cons, List.length_append] at hfuel
      omega
    obtain ⟨fuel, rfl⟩ : ∃ n, fuel = n + 1 := ⟨fuel - 1, by omega⟩
    have hvalue := readValue_renderAt v (level + 1) fuel
      ((renderMembersAt level ms).map some ++ rest) (by omega) (ends_renderMembersAt level ms rest)
    have hmembers := readMembers_renderMembersAt ms level (fuel + 1) rest (by omega)
    have hsource : (renderAt level (.object ((k, v) :: ms))).map some ++ rest =
        some '\x7b' :: ((newline (level + 1)).map some ++ ((renderText k ++ [':']).map some ++
          some ' ' :: ((renderAt (level + 1) v).map some ++
            ((renderMembersAt level ms).map some ++ rest)))) := by
      simp [renderAt]
    rw [hsource, readValue_brace (skipBlanks_newline _ _)]
    exact readValue_object (readMember_spaced k hvalue) hmembers

/-- The items behind the first are read as their trees. -/
theorem readItems_renderItemsAt : ∀ (vs : List Value) (level fuel : Nat) (rest : Source),
    (renderItemsAt level vs).length ≤ fuel →
    readItems fuel ((renderItemsAt level vs).map some ++ rest) = some (Value.itemTrees vs, rest)
  | [], level, 0, _, hfuel => by simp [renderItemsAt] at hfuel
  | [], level, fuel + 1, rest, _ => by
    have hsource : (renderItemsAt level []).map some ++ rest =
        (newline level).map some ++ some ']' :: rest := by
      simp [renderItemsAt]
    rw [hsource, readItems_congr (skipBlanks_newline _ _)]
    rfl
  | v :: vs, level, 0, rest, hfuel => by simp [renderItemsAt] at hfuel
  | v :: vs, level, fuel + 1, rest, hfuel => by
    have hlength : (renderAt (level + 1) v).length + (renderItemsAt level vs).length ≤ fuel := by
      simp only [renderItemsAt, List.length_cons, List.length_append] at hfuel
      omega
    have hfirst := readValue_renderAt v (level + 1) fuel
      ((renderItemsAt level vs).map some ++ rest) (by omega) (ends_renderItemsAt level vs rest)
    have hitems := readItems_renderItemsAt vs level fuel rest (by omega)
    have hsource : (renderItemsAt level (v :: vs)).map some ++ rest =
        some ',' :: ((newline (level + 1)).map some ++ ((renderAt (level + 1) v).map some ++
          ((renderItemsAt level vs).map some ++ rest))) := by
      simp [renderItemsAt]
    rw [hsource]
    exact readItems_cons ((readValue_congr (skipBlanks_newline _ _) fuel).trans hfirst) hitems

/-- The members behind the first are read as their trees. -/
theorem readMembers_renderMembersAt : ∀ (ms : Members) (level fuel : Nat) (rest : Source),
    (renderMembersAt level ms).length ≤ fuel →
    readMembers fuel ((renderMembersAt level ms).map some ++ rest) =
      some (Value.memberTrees ms, rest)
  | [], level, 0, _, hfuel => by simp [renderMembersAt] at hfuel
  | [], level, fuel + 1, rest, _ => by
    have hsource : (renderMembersAt level []).map some ++ rest =
        (newline level).map some ++ some '\x7d' :: rest := by
      simp [renderMembersAt]
    rw [hsource, readMembers_congr (skipBlanks_newline _ _)]
    rfl
  | (k, v) :: ms, level, 0, rest, hfuel => by simp [renderMembersAt] at hfuel
  | (k, v) :: ms, level, fuel + 1, rest, hfuel => by
    have hlength : (renderText k).length + (renderAt (level + 1) v).length +
        (renderMembersAt level ms).length + 1 ≤ fuel := by
      simp only [renderMembersAt, List.length_cons, List.length_append] at hfuel
      omega
    obtain ⟨fuel, rfl⟩ : ∃ n, fuel = n + 1 := ⟨fuel - 1, by omega⟩
    have hvalue := readValue_renderAt v (level + 1) fuel
      ((renderMembersAt level ms).map some ++ rest) (by omega) (ends_renderMembersAt level ms rest)
    have hmembers := readMembers_renderMembersAt ms level (fuel + 1) rest (by omega)
    have hsource : (renderMembersAt level ((k, v) :: ms)).map some ++ rest =
        some ',' :: ((newline (level + 1)).map some ++ ((renderText k ++ [':']).map some ++
          some ' ' :: ((renderAt (level + 1) v).map some ++
            ((renderMembersAt level ms).map some ++ rest)))) := by
      simp [renderMembersAt]
    have hfirst := (readMember_congr (skipBlanks_newline (level + 1) _) (fuel + 1)).trans
      (readMember_spaced k hvalue)
    rw [hsource]
    exact readMembers_cons hfirst hmembers

end

/-- The indented text of a value is read as its tree, also with blanks behind it. -/
theorem read_renderIndented_append (v : Value) {rest : Source} (hends : Ends rest)
    (hblanks : skipBlanks rest = []) :
    read ((renderIndented v).map some ++ rest) = some v.tree := by
  have hread := readValue_renderAt v 0 (3 * ((renderAt 0 v).map some ++ rest).length + 3)
    rest (by simp; omega) hends
  simp only [read, renderIndented, hread, hblanks, ↓reduceIte]

/-- **The indented text of a value is read as its tree**, also with a line break behind it. -/
theorem read_renderIndented (v : Value) :
    read ((renderIndented v ++ ['\n']).map some) = some v.tree := by
  rw [List.map_append]
  exact read_renderIndented_append v (ends_break []) rfl

end Json
end ImagePolicy
