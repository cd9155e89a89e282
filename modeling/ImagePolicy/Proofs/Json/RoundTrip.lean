/-
# JSON that is read back

The text of a value is read as one tree (`Json.Value.tree`), and this tree has the value again, with
the members of every object in key order, if it may be nested as deep as the value is
(`Json.value?_tree`). For that its numbers are supposed to be integers of those that stay integers
(`Json.Whole`); a float is written with the digits that read back as the nearest one, which is not
followed here.

A value that was read has its members in key order, so it is read back as it is
(`Json.ordered_of_value?`, `Json.ordered_eq_of_ordered`).

Reading goes along the value: one step of fuel for each list, object, item and member, and none of
these is written without a character of its own, so the length of a text is fuel enough for it.

Key definitions: `Json.Value.tree`, `Json.Whole`, `Json.depth`.
Key theorems: `Json.readValue_render`, `Json.value?_tree`, `Json.read_render`,
`Json.ordered_eq_of_ordered`, `Json.ordered_of_value?`.
-/
import ImagePolicy.Proofs.Json.Numbers
import ImagePolicy.Proofs.Json.Strings

namespace ImagePolicy
namespace Json

/-! ### The tree of a value -/

namespace Value

mutual

/-- The tree that the text of a value is read as. -/
def tree : Value → Tree
  | .null => .null
  | .bool b => .bool b
  | .number n => .number n.literal
  | .text s => .text (some s)
  | .list vs => .list (itemTrees vs)
  | .object ms => .object (memberTrees ms)

/-- The trees of items. -/
def itemTrees : List Value → List Tree
  | [] => []
  | v :: vs => tree v :: itemTrees vs

/-- The trees of members. -/
def memberTrees : Members → List (Option String × Tree)
  | [] => []
  | (k, v) :: ms => (some k, tree v) :: memberTrees ms

end

end Value

mutual

/-- Every number in a value is an integer of those that stay integers. -/
def Whole : Value → Prop
  | .number n => n.Whole
  | .list vs => WholeItems vs
  | .object ms => WholeMembers ms
  | _ => True

/-- Every number in an item is such an integer. -/
def WholeItems : List Value → Prop
  | [] => True
  | v :: vs => Whole v ∧ WholeItems vs

/-- Every number in a member's value is such an integer. -/
def WholeMembers : Members → Prop
  | [] => True
  | (_, v) :: ms => Whole v ∧ WholeMembers ms

end

mutual

/-- How many lists and objects enclose one another in a value, at most. -/
def depth : Value → Nat
  | .list vs => depthItems vs + 1
  | .object ms => depthMembers ms + 1
  | _ => 0

/-- The depth of the deepest item. -/
def depthItems : List Value → Nat
  | [] => 0
  | v :: vs => max (depth v) (depthItems vs)

/-- The depth of the deepest member's value. -/
def depthMembers : Members → Nat
  | [] => 0
  | (_, v) :: ms => max (depth v) (depthMembers ms)

end

/-! ### First characters -/

/-- The characters that no value is written with at its start: blanks, and the end of a list. -/
def closers : List Char := [' ', '\n', '\t', '\r', ']']

theorem digitChar_not_mem_closers : ∀ d, d < 10 → Text.digitChar d ∉ closers := by
  decide

/-- The text of a literal begins with a digit. -/
theorem text_eq_cons {l : NumberLiteral} (hl : l.Spelled) :
    ∃ d cs, d < 10 ∧ l.text = Text.digitChar d :: cs := by
  obtain ⟨d, ds, hd⟩ := List.exists_cons_of_ne_nil hl.filled
  refine ⟨d, ds.map Text.digitChar ++ NumberLiteral.fractionText l.fraction ++
    NumberLiteral.exponentText l.exponent, hl.whole d (by simp [hd]), ?_⟩
  simp [NumberLiteral.text, hd]

/-- A value is written with a character at its start that is no blank and closes no list. -/
theorem render_eq_cons (v : Value) : ∃ c cs, render v = c :: cs ∧ c ∉ closers := by
  cases v with
  | null => exact ⟨'n', _, rfl, by decide⟩
  | bool b =>
    cases b with
    | true => exact ⟨'t', _, rfl, by decide⟩
    | false => exact ⟨'f', _, rfl, by decide⟩
  | number n =>
    obtain ⟨d, cs, hd, htext⟩ := text_eq_cons n.spelled_literal
    rw [render, n.render_eq, htext]
    cases n.literal.negative
    · exact ⟨_, cs, rfl, digitChar_not_mem_closers d hd⟩
    · exact ⟨'-', _, rfl, by decide⟩
  | text s => exact ⟨'"', _, rfl, by decide⟩
  | list vs => cases vs <;> exact ⟨'[', _, rfl, by decide⟩
  | object ms => cases ms <;> exact ⟨'\x7b', _, rfl, by decide⟩

theorem skipBlanks_of_not_mem {c : Char} (h : c ∉ closers) (s : Source) :
    skipBlanks (some c :: s) = some c :: s := by
  simp only [closers, List.mem_cons, List.not_mem_nil, or_false, not_or] at h
  rw [skipBlanks, if_neg (by simp [h])]

/-! ### Steps of the reader -/

theorem readValue_digit {d : Nat} (hd : d < 10) (fuel : Nat) (s : Source) :
    readValue (fuel + 1) (some (Text.digitChar d) :: s) =
      readNumber false (some (Text.digitChar d) :: s) := by
  rw [readValue, skipBlanks_of_not_mem (digitChar_not_mem_closers d hd)]
  have hother : ∀ d, d < 10 → Text.digitChar d ∉ ['"', '[', '\x7b', '-', 'n', 't', 'f'] := by decide
  have hc := hother d hd
  generalize Text.digitChar d = c at hc
  simp only [List.mem_cons, List.not_mem_nil, or_false, not_or] at hc
  split <;> simp_all

/-- A list is read by its first item and those behind it. -/
theorem readValue_list {c : Char} (hc : c ∉ closers) {fuel : Nat} {s after rest : Source}
    {t : Tree} {ts : List Tree} (hfirst : readValue fuel (some c :: s) = some (t, after))
    (hitems : readItems fuel after = some (ts, rest)) :
    readValue (fuel + 1) (some '[' :: some c :: s) = some (.list (t :: ts), rest) := by
  have hopen : skipBlanks (some '[' :: some c :: s) = some '[' :: some c :: s := rfl
  have hclose : c ≠ ']' := fun he => hc (by simp [closers, he])
  rw [readValue, hopen]
  simp only [skipBlanks_of_not_mem hc]
  split
  · next heq =>
    simp only [List.cons.injEq, Option.some.injEq] at heq
    exact absurd heq.1 hclose
  · simp only [hfirst, hitems, Option.map_some]

/-- An object is read by its first member and those behind it. -/
theorem readValue_object {fuel : Nat} {s after rest : Source} {m : Option String × Tree}
    {ms : List (Option String × Tree)} (hfirst : readMember fuel (some '"' :: s) = some (m, after))
    (hmembers : readMembers fuel after = some (ms, rest)) :
    readValue (fuel + 1) (some '\x7b' :: some '"' :: s) = some (.object (m :: ms), rest) := by
  have hopen : skipBlanks (some '\x7b' :: some '"' :: s) = some '\x7b' :: some '"' :: s := rfl
  have hquote : skipBlanks (some '"' :: s) = some '"' :: s := rfl
  rw [readValue, hopen]
  simp only [hquote]
  split
  · next heq => exact absurd heq (by simp)
  · simp only [hfirst, hmembers, Option.map_some]

theorem readItems_cons {fuel : Nat} {s after rest : Source} {t : Tree} {ts : List Tree}
    (hfirst : readValue fuel s = some (t, after))
    (hitems : readItems fuel after = some (ts, rest)) :
    readItems (fuel + 1) (some ',' :: s) = some (t :: ts, rest) := by
  have hcomma : skipBlanks (some ',' :: s) = some ',' :: s := rfl
  rw [readItems, hcomma]
  simp only [hfirst, hitems, Option.map_some]

theorem readMembers_cons {fuel : Nat} {s after rest : Source} {m : Option String × Tree}
    {ms : List (Option String × Tree)} (hfirst : readMember fuel s = some (m, after))
    (hmembers : readMembers fuel after = some (ms, rest)) :
    readMembers (fuel + 1) (some ',' :: s) = some (m :: ms, rest) := by
  have hcomma : skipBlanks (some ',' :: s) = some ',' :: s := rfl
  rw [readMembers, hcomma]
  simp only [hfirst, hmembers, Option.map_some]

/-- A member is read by its key and its value. -/
theorem readMember_renderText {fuel : Nat} (key : String) {s rest : Source} {t : Tree}
    (hvalue : readValue fuel s = some (t, rest)) :
    readMember (fuel + 1) ((renderText key ++ [':']).map some ++ s) =
      some ((some key, t), rest) := by
  have hsource : (renderText key ++ [':']).map some ++ s =
      some '"' :: ((key.toList.flatMap renderChar).map some ++ some '"' :: some ':' :: s) := by
    simp [renderText]
  have hquote : ∀ r : Source, skipBlanks (some '"' :: r) = some '"' :: r := fun _ => rfl
  have hcolon : skipBlanks (some ':' :: s) = some ':' :: s := rfl
  rw [hsource, readMember, hquote]
  simp only [readText_renderText, hcolon, hvalue, Option.map_some]

/-! ### Reading what was written -/

theorem ends_renderItems (vs : List Value) (rest : Source) :
    Ends ((renderItems vs).map some ++ rest) := by
  cases vs with
  | nil => exact ends_bracket _
  | cons v vs => exact ends_comma _

theorem ends_renderMembers (ms : Members) (rest : Source) :
    Ends ((renderMembers ms).map some ++ rest) := by
  cases ms with
  | nil => exact ends_brace _
  | cons m ms => exact ends_comma _

theorem readValue_number (n : Number) (fuel : Nat) {rest : Source} (hends : Ends rest) :
    readValue (fuel + 1) (n.render.map some ++ rest) = some (.number n.literal, rest) := by
  have hread := readNumber_text hends n.spelled_literal
  obtain ⟨d, cs, hd, htext⟩ := text_eq_cons n.spelled_literal
  rw [n.render_eq]
  cases hnegative : n.literal.negative
  · rw [hnegative] at hread
    have hstart : n.literal.text.map some ++ rest =
        some (Text.digitChar d) :: (cs.map some ++ rest) := by
      rw [htext, List.map_cons, List.cons_append]
    simp only [Bool.false_eq_true, ↓reduceIte, List.nil_append]
    rw [hstart, readValue_digit hd, ← hstart, hread]
  · rw [hnegative] at hread
    have hskip : ∀ s : Source, skipBlanks (some '-' :: s) = some '-' :: s := fun _ => rfl
    simp only [↓reduceIte, List.map_cons, List.cons_append, List.nil_append, readValue, hskip,
      hread]

theorem readValue_text (t : String) (fuel : Nat) (rest : Source) :
    readValue (fuel + 1) ((render (.text t)).map some ++ rest) = some (.text (some t), rest) := by
  have hsource : (render (.text t)).map some ++ rest =
      some '"' :: ((t.toList.flatMap renderChar).map some ++ some '"' :: rest) := by
    simp [render, renderText]
  have hquote : ∀ s : Source, skipBlanks (some '"' :: s) = some '"' :: s := fun _ => rfl
  rw [hsource, readValue, hquote]
  simp only [readText_renderText, Option.map_some]

mutual

/-- **The text of a value is read as its tree**, whatever stands behind it that ends a value. -/
theorem readValue_render : ∀ (v : Value) (fuel : Nat) (rest : Source),
    (render v).length ≤ fuel → Ends rest →
    readValue fuel ((render v).map some ++ rest) = some (v.tree, rest)
  | v, 0, rest, hfuel, _ => by
    obtain ⟨c, cs, hv, -⟩ := render_eq_cons v
    simp [hv] at hfuel
  | .null, fuel + 1, rest, _, _ => rfl
  | .bool true, fuel + 1, rest, _, _ => rfl
  | .bool false, fuel + 1, rest, _, _ => rfl
  | .number n, fuel + 1, rest, _, hends => readValue_number n fuel hends
  | .text t, fuel + 1, rest, _, _ => readValue_text t fuel rest
  | .list [], fuel + 1, rest, _, _ => rfl
  | .list (v :: vs), fuel + 1, rest, hfuel, _ => by
    obtain ⟨c, cs, hv, hc⟩ := render_eq_cons v
    have hlength : (render v).length + (renderItems vs).length ≤ fuel := by
      simp only [render, List.length_cons, List.length_append] at hfuel
      omega
    have hfirst := readValue_render v fuel ((renderItems vs).map some ++ rest)
      (by omega) (ends_renderItems vs rest)
    have hitems := readItems_renderItems vs fuel rest (by omega)
    rw [hv, List.map_cons, List.cons_append] at hfirst
    have hlist := readValue_list hc hfirst hitems
    simpa [render, hv, Value.tree, Value.itemTrees] using hlist
  | .object [], fuel + 1, rest, _, _ => rfl
  | .object ((k, v) :: ms), fuel + 1, rest, hfuel, _ => by
    have hlength : (renderText k).length + (render v).length + (renderMembers ms).length + 1 ≤
        fuel := by
      simp only [render, List.length_cons, List.length_append] at hfuel
      omega
    obtain ⟨fuel, rfl⟩ : ∃ n, fuel = n + 1 := ⟨fuel - 1, by omega⟩
    have hvalue := readValue_render v fuel ((renderMembers ms).map some ++ rest)
      (by omega) (ends_renderMembers ms rest)
    have hmembers := readMembers_renderMembers ms (fuel + 1) rest (by omega)
    have hfirst := readMember_renderText k hvalue
    have hobject := readValue_object (by simpa [renderText] using hfirst) hmembers
    simpa [render, renderText, Value.tree, Value.memberTrees] using hobject

/-- The items behind the first are read as their trees. -/
theorem readItems_renderItems : ∀ (vs : List Value) (fuel : Nat) (rest : Source),
    (renderItems vs).length ≤ fuel →
    readItems fuel ((renderItems vs).map some ++ rest) = some (Value.itemTrees vs, rest)
  | [], 0, _, hfuel => by simp [renderItems] at hfuel
  | [], fuel + 1, rest, _ => rfl
  | v :: vs, 0, rest, hfuel => by simp [renderItems] at hfuel
  | v :: vs, fuel + 1, rest, hfuel => by
    have hlength : (render v).length + (renderItems vs).length ≤ fuel := by
      simp only [renderItems, List.length_cons, List.length_append] at hfuel
      omega
    have hfirst := readValue_render v fuel ((renderItems vs).map some ++ rest)
      (by omega) (ends_renderItems vs rest)
    have hitems := readItems_renderItems vs fuel rest (by omega)
    have hall := readItems_cons hfirst hitems
    simpa [renderItems, Value.itemTrees] using hall

/-- The members behind the first are read as their trees. -/
theorem readMembers_renderMembers : ∀ (ms : Members) (fuel : Nat) (rest : Source),
    (renderMembers ms).length ≤ fuel →
    readMembers fuel ((renderMembers ms).map some ++ rest) = some (Value.memberTrees ms, rest)
  | [], 0, _, hfuel => by simp [renderMembers] at hfuel
  | [], fuel + 1, rest, _ => rfl
  | (k, v) :: ms, 0, rest, hfuel => by simp [renderMembers] at hfuel
  | (k, v) :: ms, fuel + 1, rest, hfuel => by
    have hlength : (renderText k).length + (render v).length + (renderMembers ms).length + 1 ≤
        fuel := by
      simp only [renderMembers, List.length_cons, List.length_append] at hfuel
      omega
    obtain ⟨fuel, rfl⟩ : ∃ n, fuel = n + 1 := ⟨fuel - 1, by omega⟩
    have hvalue := readValue_render v fuel ((renderMembers ms).map some ++ rest)
      (by omega) (ends_renderMembers ms rest)
    have hmembers := readMembers_renderMembers ms (fuel + 1) rest (by omega)
    have hall := readMembers_cons (readMember_renderText k hvalue) hmembers
    simpa [renderMembers, Value.memberTrees] using hall

end

/-- **The text of a value is read as its tree.** -/
theorem read_render (v : Value) : read ((render v).map some) = some v.tree := by
  have hread := readValue_render v (3 * ((render v).map some).length + 3) [] (by simp; omega)
    (.inl rfl)
  rw [List.append_nil] at hread
  simp only [read, hread, skipBlanks, ↓reduceIte]

/-! ### The value of the tree -/

mutual

/-- **The tree of a value has the value again**, with the members of every object in key order, if
it may be nested as deep as the value is. -/
theorem value?_tree : ∀ (v : Value) (levels : Nat), Whole v → depth v ≤ levels →
    v.tree.value? levels = some v.ordered
  | .null, _, _, _ => rfl
  | .bool _, _, _, _ => rfl
  | .number n, _, hwhole, _ => by
    have hvalue : n.literal.value? = some n := value?_literal hwhole
    simp only [Value.tree, Tree.value?, hvalue, Option.map_some, Value.ordered]
  | .text _, _, _, _ => rfl
  | .list vs, 0, _, hdepth => by simp [depth] at hdepth
  | .list vs, levels + 1, hwhole, hdepth => by
    have hitems := items?_itemTrees vs levels hwhole (by simpa [depth] using hdepth)
    simp only [Value.tree, Tree.value?, hitems, Option.map_some, Value.ordered]
  | .object ms, 0, _, hdepth => by simp [depth] at hdepth
  | .object ms, levels + 1, hwhole, hdepth => by
    have hmembers := members?_memberTrees ms levels hwhole (by simpa [depth] using hdepth)
    simp only [Value.tree, Tree.value?, hmembers, Option.map_some, Value.ordered]

/-- The trees of items have the items again. -/
theorem items?_itemTrees : ∀ (vs : List Value) (levels : Nat), WholeItems vs →
    depthItems vs ≤ levels → Tree.items? levels (Value.itemTrees vs) = some (Value.orderedItems vs)
  | [], _, _, _ => rfl
  | v :: vs, levels, hwhole, hdepth => by
    have hmax := Nat.max_le.mp hdepth
    have hfirst := value?_tree v levels hwhole.1 hmax.1
    have hrest := items?_itemTrees vs levels hwhole.2 hmax.2
    simp only [Value.itemTrees, Tree.items?, hfirst, hrest, Value.orderedItems]

/-- The trees of members have the members again, where they stand. -/
theorem members?_memberTrees : ∀ (ms : Members) (levels : Nat), WholeMembers ms →
    depthMembers ms ≤ levels →
    Tree.members? levels (Value.memberTrees ms) = some (Value.orderedMembers ms)
  | [], _, _, _ => rfl
  | (k, v) :: ms, levels, hwhole, hdepth => by
    have hmax := Nat.max_le.mp hdepth
    have hfirst := value?_tree v levels hwhole.1 hmax.1
    have hrest := members?_memberTrees ms levels hwhole.2 hmax.2
    simp only [Value.memberTrees, Tree.members?, hfirst, hrest, Value.orderedMembers]

end

/-! ### Members in key order -/

/-- A member whose key is behind all others is added at the end. -/
theorem insert_of_forall_lt {key : String} {value : Value} : ∀ {ms : Members},
    (∀ m ∈ ms, m.1 < key) → insert key value ms = ms ++ [(key, value)]
  | [], _ => rfl
  | (k, v) :: ms, h => by
    obtain ⟨hk, hms⟩ := List.forall_mem_cons.mp h
    have hlt : ¬key < k := String.lt_asymm hk
    have hne : key ≠ k := fun he => String.lt_irrefl k (he ▸ hk)
    rw [insert, if_neg hlt, if_neg hne, insert_of_forall_lt hms]
    rfl

theorem foldl_insert_of_ascending : ∀ {ms sorted : Members}, Ascending (sorted ++ ms) →
    ms.foldl (fun sorted m => insert m.1 m.2 sorted) sorted = sorted ++ ms
  | [], sorted, _ => (List.append_nil sorted).symm
  | (k, v) :: ms, sorted, h => by
    have hlt : ∀ m ∈ sorted, m.1 < k := by
      simp only [Ascending, List.map_append, List.map_cons, List.pairwise_append] at h
      exact fun m hm => h.2.2 _ (List.mem_map_of_mem hm) _ List.mem_cons_self
    have hnext : Ascending (sorted ++ [(k, v)] ++ ms) := by
      rwa [List.append_assoc]
    rw [List.foldl_cons, insert_of_forall_lt hlt, foldl_insert_of_ascending hnext,
      List.append_assoc]
    rfl

/-- Members in strictly ascending order of their keys stay as they are. -/
theorem collect_of_ascending {ms : Members} (h : Ascending ms) : collect ms = ms := by
  have hnone : Ascending ([] ++ ms) := h
  exact foldl_insert_of_ascending hnone

mutual

/-- **A value in which all members are in key order stays as it is.** -/
theorem ordered_eq_of_ordered : ∀ {v : Value}, Ordered v → v.ordered = v
  | .null, _ => rfl
  | .bool _, _ => rfl
  | .number _, _ => rfl
  | .text _, _ => rfl
  | .list _, h => congrArg Value.list (orderedItems_eq_of_ordered h)
  | .object _, h => by
    rw [Value.ordered, orderedMembers_eq_of_ordered h.2, collect_of_ascending h.1]

theorem orderedItems_eq_of_ordered : ∀ {vs : List Value}, OrderedItems vs →
    Value.orderedItems vs = vs
  | [], _ => rfl
  | v :: vs, h => by
    rw [Value.orderedItems, ordered_eq_of_ordered h.1, orderedItems_eq_of_ordered h.2]

theorem orderedMembers_eq_of_ordered : ∀ {ms : Members}, OrderedMembers ms →
    Value.orderedMembers ms = ms
  | [], _ => rfl
  | (k, v) :: ms, h => by
    rw [Value.orderedMembers, ordered_eq_of_ordered h.1, orderedMembers_eq_of_ordered h.2]

end

/-! ### What is read is in key order -/

theorem mem_insert {key : String} {value : Value} {m : String × Value} : ∀ {ms : Members},
    m ∈ insert key value ms → m = (key, value) ∨ m ∈ ms
  | [], h => .inl (List.mem_singleton.mp h)
  | (k, v) :: ms, h => by
    unfold insert at h
    split at h
    · exact List.mem_cons.mp h
    · split at h
      · exact (List.mem_cons.mp h).imp_right (List.mem_cons_of_mem _)
      · rcases List.mem_cons.mp h with rfl | hrest
        · exact .inr List.mem_cons_self
        · exact (mem_insert hrest).imp_right (List.mem_cons_of_mem _)

theorem ascending_cons_iff {k : String} {v : Value} {ms : Members} :
    Ascending ((k, v) :: ms) ↔ (∀ m ∈ ms, k < m.1) ∧ Ascending ms := by
  simp only [Ascending, List.map_cons, List.pairwise_cons, List.forall_mem_map]

/-- A member is added where members stay in ascending order. -/
theorem ascending_insert {key : String} {value : Value} : ∀ {ms : Members}, Ascending ms →
    Ascending (insert key value ms)
  | [], _ => List.pairwise_singleton _ _
  | (k, v) :: ms, h => by
    obtain ⟨hfirst, hrest⟩ := ascending_cons_iff.mp h
    unfold insert
    split
    · next hlt =>
      exact ascending_cons_iff.mpr
        ⟨List.forall_mem_cons.mpr ⟨hlt, fun m hm => String.lt_trans hlt (hfirst m hm)⟩, h⟩
    · next hge =>
      split
      · next heq => exact ascending_cons_iff.mpr ⟨heq ▸ hfirst, hrest⟩
      · next hne =>
        have hlt : k < key := Std.lt_of_le_of_ne (String.not_lt.mp hge) fun he => hne he.symm
        refine ascending_cons_iff.mpr ⟨fun m hm => ?_, ascending_insert hrest⟩
        rcases mem_insert hm with rfl | hm
        · exact hlt
        · exact hfirst m hm

theorem orderedMembers_iff {ms : Members} : OrderedMembers ms ↔ ∀ m ∈ ms, Ordered m.2 := by
  induction ms with
  | nil => simp [OrderedMembers]
  | cons m ms ih => rw [OrderedMembers, ih, List.forall_mem_cons]

/-- Members that are collected are in ascending order, and their values are those they had. -/
theorem ordered_collect {ms : Members} (h : OrderedMembers ms) :
    Ordered (.object (collect ms)) := by
  have hfold : ∀ (ms sorted : Members), Ascending sorted → OrderedMembers sorted →
      OrderedMembers ms →
      Ordered (.object (ms.foldl (fun sorted m => insert m.1 m.2 sorted) sorted)) := by
    intro ms
    induction ms with
    | nil => exact fun _ hsorted hvalues _ => ⟨hsorted, hvalues⟩
    | cons m ms ih =>
      intro sorted hsorted hvalues hms
      refine ih _ (ascending_insert hsorted) (orderedMembers_iff.mpr fun x hx => ?_) hms.2
      rcases mem_insert hx with rfl | hx
      · exact hms.1
      · exact orderedMembers_iff.mp hvalues x hx
  exact hfold ms [] List.Pairwise.nil trivial h

mutual

/-- **A value that is read has all members in key order.** -/
theorem ordered_of_value? : ∀ {levels : Nat} {t : Tree} {v : Value}, t.value? levels = some v →
    Ordered v
  | _, .null, v, h => by cases h; trivial
  | _, .bool _, v, h => by cases h; trivial
  | _, .number l, v, h => by
    obtain ⟨n, -, rfl⟩ := Option.map_eq_some_iff.mp h
    trivial
  | _, .text content, v, h => by
    obtain ⟨s, -, rfl⟩ := Option.map_eq_some_iff.mp h
    trivial
  | 0, .list _, _, h => nomatch h
  | levels + 1, .list ts, v, h => by
    obtain ⟨vs, hvs, rfl⟩ := Option.map_eq_some_iff.mp h
    exact ordered_of_items? hvs
  | 0, .object _, _, h => nomatch h
  | levels + 1, .object ts, v, h => by
    obtain ⟨ms, hms, rfl⟩ := Option.map_eq_some_iff.mp h
    exact ordered_collect (ordered_of_members? hms)

theorem ordered_of_items? : ∀ {levels : Nat} {ts : List Tree} {vs : List Value},
    Tree.items? levels ts = some vs → OrderedItems vs
  | _, [], vs, h => by cases h; trivial
  | levels, t :: ts, vs, h => by
    unfold Tree.items? at h
    split at h
    · next hv hvs =>
      cases h
      exact ⟨ordered_of_value? hv, ordered_of_items? hvs⟩
    · cases h

theorem ordered_of_members? : ∀ {levels : Nat} {ts : List (Option String × Tree)} {ms : Members},
    Tree.members? levels ts = some ms → OrderedMembers ms
  | _, [], ms, h => by cases h; trivial
  | levels, (key, t) :: ts, ms, h => by
    unfold Tree.members? at h
    split at h
    · next hv hms =>
      cases h
      exact ⟨ordered_of_value? hv, ordered_of_members? hms⟩
    · cases h

end

end Json
end ImagePolicy
