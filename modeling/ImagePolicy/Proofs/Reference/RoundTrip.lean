/-
# References are read back as they are written

A reference that was read is well-formed (`ImageReference.WellFormed`): its registry looks like a
host, and nothing in a part of it is taken for the mark of another. So its written form is cut
where it was put together, and reads as the same reference (`parse_render`). Resolving a
well-formed reference leaves it well-formed, hence all this holds of whatever comes of a text by
resolving it again and again, where a text that is no digest leaves the last good reference in
place (`ImageReference.attempt`).

Key definitions: `ImageReference.WellFormed`, `ImageReference.attempt`, `ImageReference.Kept`.
Key theorems: `ImageReference.wellFormed_of_parse`, `ImageReference.parse_render`,
`ImageReference.wellFormed_attempt`, `ImageReference.parse_attempts`.
-/
import ImagePolicy.Reference.Parser
import ImagePolicy.Proofs.Reference.Digest
import ImagePolicy.Proofs.Text.Cuts
import ImagePolicy.Proofs.Text.Segments

namespace ImagePolicy

variable {c : Char}

/-! ### Characters that are no marks -/

theorem isTagChar_of_isComponentChar (h : isComponentChar c = true) : isTagChar c = true := by
  simp only [isComponentChar, isTagChar, Bool.or_eq_true] at h ⊢
  rcases h with (((h | h) | h) | h) | h <;> simp [h]

theorem isTagChar_of_hex (h : ('0' ≤ c ∧ c ≤ '9') ∨ ('a' ≤ c ∧ c ≤ 'f')) :
    isTagChar c = true := by
  simp only [isTagChar, Bool.or_eq_true, Bool.and_eq_true, decide_eq_true_eq]
  rcases h with h | ⟨hlow, hhigh⟩
  · exact .inl (.inl (.inl (.inr h)))
  · have hz : c ≤ 'z' := Char.le_trans hhigh (by decide)
    exact .inl (.inl (.inl (.inl (.inl ⟨hlow, hz⟩))))

/-- What may stand in a tag is visible ASCII. -/
theorem toNat_of_isTagChar (h : isTagChar c = true) : 0x2D ≤ c.toNat ∧ c.toNat ≤ 0x7A := by
  simp only [isTagChar, Bool.or_eq_true, Bool.and_eq_true, decide_eq_true_eq, beq_iff_eq,
    Char.le_def, UInt32.le_iff_toNat_le] at h
  rcases h with ((((h | h) | h) | rfl) | rfl) | rfl
  · exact ⟨Nat.le_trans (by decide) h.1, h.2⟩
  · exact ⟨Nat.le_trans (by decide) h.1, Nat.le_trans h.2 (by decide)⟩
  · exact ⟨Nat.le_trans (by decide) h.1, Nat.le_trans h.2 (by decide)⟩
  · decide
  · decide
  · decide

theorem not_isBlank_of_isTagChar (h : isTagChar c = true) : Text.isBlank c = false := by
  have hbounds := toNat_of_isTagChar h
  simp only [Text.isBlank, Bool.or_eq_false_iff, Bool.and_eq_false_iff, beq_eq_false_iff_ne,
    decide_eq_false_iff_not]
  omega

/-- A text of characters that a tag may have holds no mark of a part. -/
theorem not_mem_of_isTagChar {cs : List Char} (hall : ∀ x ∈ cs, isTagChar x = true)
    (hmark : isTagChar c = false) : c ∉ cs := by
  intro hmem
  rw [hall c hmem] at hmark
  cases hmark

/-! ### What is without fault -/

theorem isTagChar_of_tagFault? {tag : List Char} (h : tagFault? tag = none) :
    ∀ x ∈ tag, isTagChar x = true := by
  unfold tagFault? at h
  split at h
  · cases h
  · split at h
    · cases h
    · next hchars =>
      have hall : tag.all isTagChar = true := by
        rw [not_or, Bool.not_eq_true, Bool.not_eq_true, Bool.not_eq_false'] at hchars
        exact hchars.2
      exact List.all_eq_true.mp hall

/-- A repository without fault has characters, which are slashes or might stand in a tag too. -/
theorem isTagChar_of_repositoryFault? {repository : List Char}
    (h : repositoryFault? repository = none) :
    repository ≠ [] ∧ ∀ x ∈ repository, x = '/' ∨ isTagChar x = true := by
  unfold repositoryFault? at h
  split at h
  · cases h
  · next hne =>
    refine ⟨hne, fun x hx => ?_⟩
    rw [Option.map_eq_none_iff, List.find?_eq_none] at h
    obtain heq | ⟨part, hpart, hmem⟩ := Text.mem_split_of_mem '/' hx
    · exact .inl heq
    · have hcomponent : isComponent part = true := by simpa using h part hpart
      rw [isComponent, Bool.and_eq_true, List.all_eq_true] at hcomponent
      exact .inr (isTagChar_of_isComponentChar (hcomponent.2 x hmem))

/-- No character of a digest is blank. -/
theorem not_isBlank_of_isDigest {digest hex : String} (h : IsDigest digest hex) :
    ∀ x ∈ digest.toList, Text.isBlank x = false := by
  intro x hx
  rw [h.spelled, String.toList_append, List.mem_append] at hx
  rcases hx with hx | hx
  · have hscheme : "sha256:".toList.all (fun y => !Text.isBlank y) = true := by decide
    exact Bool.not_eq_true' _ ▸ List.all_eq_true.mp hscheme x hx
  · exact not_isBlank_of_isTagChar (isTagChar_of_hex (h.digits x hx))

namespace ImageReference

/-! ### Well-formed references -/

/-- A reference that can be written and read back: each part is one that the parser lets pass, and
the registry, of which it asks little, holds no mark that it would be cut at. -/
structure WellFormed (r : ImageReference) : Prop where
  host : looksLikeHost r.registry.toList = true
  noSlash : '/' ∉ r.registry.toList
  noAt : '@' ∉ r.registry.toList
  starts : ∀ x, r.registry.toList.head? = some x → Text.isBlank x = false
  repository : repositoryFault? r.repository.toList = none
  tag : ∀ t, r.tag = some t → tagFault? t.toList = none
  digest : ∀ d, r.digest = some d → ∃ hex, IsDigest d hex

/-- A part that may be missing, behind its mark. -/
def marked (mark : Char) : Option String → List Char
  | some part => mark :: part.toList
  | none => []

theorem toList_render (r : ImageReference) : r.render.toList =
    r.registry.toList ++ '/' :: r.repository.toList ++ marked ':' r.tag ++ marked '@' r.digest := by
  unfold render name
  cases r.tag <;> cases r.digest <;> simp [marked]

section Cuts

variable {front path : List Char} {part : Option String}

/-- The digest is cut off where it was put on. -/
theorem splitDigest_marked (h : '@' ∉ front) :
    splitDigest (front ++ marked '@' part) = (front, part.map String.toList) := by
  unfold splitDigest
  cases part with
  | none =>
    have hcut : Text.splitFirst '@' (front ++ marked '@' none) = none := by
      rw [Text.splitFirst_eq_none_iff]
      simpa [marked] using h
    rw [hcut]
    simp [marked]
  | some digest =>
    rw [marked, Text.splitFirst_append h]
    rfl

/-- A tag is cut off where it was put on. -/
theorem splitTag_append {tag : List Char} (hcolon : ':' ∉ tag) (hslash : '/' ∉ tag) :
    splitTag (path ++ ':' :: tag) = (path, some tag) := by
  unfold splitTag
  cases hcut : Text.splitLast '/' path with
  | none =>
    have hnone : Text.splitLast '/' (path ++ ':' :: tag) = none := by
      rw [Text.splitLast_eq_none_iff] at hcut ⊢
      simp [hcut, hslash]
    simp only [hnone, Text.splitLast_append hcolon, List.nil_append]
  | some cut =>
    obtain ⟨before, last⟩ := cut
    obtain ⟨rfl, hlast⟩ := Text.splitLast_eq_some_iff.mp hcut
    have hsome : Text.splitLast '/' (before ++ '/' :: last ++ ':' :: tag) =
        some (before, last ++ ':' :: tag) := by
      rw [Text.splitLast_eq_some_iff]
      simp [hlast, hslash]
    simp only [hsome, Text.splitLast_append hcolon]
    simp

/-- Without a colon in its last component a name has no tag. -/
theorem splitTag_of_not_mem {repository : List Char} (h : ':' ∉ repository) :
    splitTag (front ++ '/' :: repository) = (front ++ '/' :: repository, none) := by
  have hlast : ∃ before last,
      Text.splitLast '/' (front ++ '/' :: repository) = some (before, last) ∧ ':' ∉ last := by
    cases hcut : Text.splitLast '/' repository with
    | none =>
      have hslash : '/' ∉ repository := Text.splitLast_eq_none_iff.mp hcut
      exact ⟨front, repository, Text.splitLast_append hslash, h⟩
    | some cut =>
      obtain ⟨before, last⟩ := cut
      obtain ⟨rfl, hslash⟩ := Text.splitLast_eq_some_iff.mp hcut
      refine ⟨front ++ '/' :: before, last, ?_, fun hmem => h (by simp [hmem])⟩
      rw [Text.splitLast_eq_some_iff]
      simp [hslash]
  obtain ⟨before, last, hcut, hcolon⟩ := hlast
  simp only [splitTag, hcut, Text.splitLast_eq_none_iff.mpr hcolon]

theorem splitTag_marked (front : List Char) {repository : List Char} (h : ':' ∉ repository)
    (hpart : ∀ t, part = some t → ∀ x ∈ t.toList, isTagChar x = true) :
    splitTag (front ++ '/' :: repository ++ marked ':' part) =
      (front ++ '/' :: repository, part.map String.toList) := by
  cases part with
  | none =>
    rw [marked, List.append_nil]
    exact splitTag_of_not_mem h
  | some t =>
    have hall : ∀ x ∈ t.toList, isTagChar x = true := hpart t rfl
    rw [marked]
    exact splitTag_append (not_mem_of_isTagChar hall (by decide))
      (not_mem_of_isTagChar hall (by decide))

theorem placeOf_append {registry repository : List Char} (hslash : '/' ∉ registry)
    (hhost : looksLikeHost registry = true) :
    placeOf (registry ++ '/' :: repository) = (String.ofList registry, repository) := by
  unfold placeOf
  rw [Text.splitFirst_append hslash]
  exact if_pos hhost

end Cuts

/-! ### What is written is read back -/

namespace WellFormed

variable {r : ImageReference} (h : r.WellFormed)
include h

/-- Behind the registry there is no blank in the written form. -/
theorem not_isBlank : ∀ x ∈ '/' :: r.repository.toList ++ marked ':' r.tag ++ marked '@' r.digest,
    Text.isBlank x = false := by
  have hrepository := (isTagChar_of_repositoryFault? h.repository).2
  intro x hx
  rw [List.mem_append, List.mem_append, List.mem_cons] at hx
  rcases hx with ((rfl | hx) | hx) | hx
  · decide
  · rcases hrepository x hx with rfl | htag
    · decide
    · exact not_isBlank_of_isTagChar htag
  · cases htag : r.tag with
    | none =>
      rw [htag] at hx
      cases hx
    | some t =>
      rw [htag, marked, List.mem_cons] at hx
      rcases hx with rfl | hx
      · decide
      · exact not_isBlank_of_isTagChar (isTagChar_of_tagFault? (h.tag t htag) x hx)
  · cases hdigest : r.digest with
    | none =>
      rw [hdigest] at hx
      cases hx
    | some d =>
      obtain ⟨hex, hd⟩ := h.digest d hdigest
      rw [hdigest, marked, List.mem_cons] at hx
      rcases hx with rfl | hx
      · decide
      · exact not_isBlank_of_isDigest hd x hx

/-- The written form has no blanks at its ends. -/
theorem trim_render : Text.trim r.render.toList = r.render.toList := by
  have htail := h.not_isBlank
  rw [toList_render, List.append_assoc, List.append_assoc]
  rw [List.append_assoc] at htail
  apply Text.trim_eq_self
  · intro x hx
    rw [List.head?_append] at hx
    cases hregistry : r.registry.toList.head? with
    | none =>
      rw [hregistry, Option.none_or, List.cons_append] at hx
      cases hx
      decide
    | some y =>
      rw [hregistry, Option.some_or] at hx
      cases hx
      exact h.starts x hregistry
  · intro x hx
    have hne : '/' :: r.repository.toList ++ (marked ':' r.tag ++ marked '@' r.digest) ≠ [] := by
      simp
    rw [List.getLast?_append, List.getLast?_eq_some_getLast hne, Option.some_or] at hx
    cases hx
    exact htail _ (List.getLast_mem hne)

/-- **A well-formed reference reads as it is written.** -/
theorem parse_render : parse r.render = .ok r := by
  obtain ⟨hne, hrepository⟩ := isTagChar_of_repositoryFault? h.repository
  have hfree : ∀ mark, isTagChar mark = false → mark ≠ '/' → mark ∉ r.repository.toList := by
    intro mark hmark hslash hmem
    rcases hrepository mark hmem with heq | htag
    · exact hslash heq
    · rw [htag] at hmark
      cases hmark
  have htag : ∀ t, r.tag = some t → ∀ x ∈ t.toList, isTagChar x = true :=
    fun t ht => isTagChar_of_tagFault? (h.tag t ht)
  have hat : '@' ∉ r.registry.toList ++ '/' :: r.repository.toList ++ marked ':' r.tag := by
    have hmarked : '@' ∉ marked ':' r.tag := by
      cases ht : r.tag with
      | none => exact List.not_mem_nil
      | some t =>
        have hnot : '@' ∉ t.toList := not_mem_of_isTagChar (htag t ht) (by decide)
        simp [marked, hnot]
    have hplace : '@' ∉ r.repository.toList := hfree '@' (by decide) (by decide)
    simp [h.noAt, hplace, hmarked]
  have hdigest : (r.digest.map String.toList).bind digestFault? = none := by
    cases hd : r.digest with
    | none => rfl
    | some d => exact digestFault?_eq_none_iff.mpr (h.digest d hd)
  have htagFault : (r.tag.map String.toList).bind tagFault? = none := by
    cases ht : r.tag with
    | none => rfl
    | some t => exact h.tag t ht
  have hcut := splitTag_marked r.registry.toList (hfree ':' (by decide) (by decide)) htag
  have hnil : r.render.toList ≠ [] := by
    rw [toList_render]
    simp
  unfold parse parseTrimmed
  rw [h.trim_render, if_neg hnil, toList_render, splitDigest_marked hat]
  simp only [hdigest, hcut, htagFault, placeOf_append h.noSlash h.host, h.repository,
    Option.map_map, Function.comp_def, String.ofList_toList, Option.map_id']

end WellFormed

/-! ### What is read is well-formed -/

theorem splitTag_isPrefix {name path : List Char} {tag : Option (List Char)}
    (h : splitTag name = (path, tag)) : path <+: name := by
  unfold splitTag at h
  cases hslash : Text.splitLast '/' name with
  | none =>
    rw [hslash] at h
    cases hcolon : Text.splitLast ':' name with
    | none =>
      simp only [hcolon, Prod.mk.injEq] at h
      exact h.1 ▸ List.prefix_rfl
    | some cut =>
      obtain ⟨last, back⟩ := cut
      simp only [hcolon, Prod.mk.injEq, List.nil_append] at h
      rw [Text.splitLast_eq_some hcolon, h.1]
      exact List.prefix_append _ _
  | some cut =>
    obtain ⟨before, last⟩ := cut
    rw [hslash] at h
    cases hcolon : Text.splitLast ':' last with
    | none =>
      simp only [hcolon, Prod.mk.injEq] at h
      exact h.1 ▸ List.prefix_rfl
    | some cut =>
      obtain ⟨front, back⟩ := cut
      simp only [hcolon, Prod.mk.injEq] at h
      rw [Text.splitLast_eq_some hslash, Text.splitLast_eq_some hcolon, ← h.1]
      simp

/-- A registry that is read off a name looks like a host, and holds and starts with nothing that
the name does not. -/
theorem registry_of_placeOf {name repository : List Char} {registry : String}
    (h : placeOf name = (registry, repository)) (hat : '@' ∉ name)
    (hstarts : ∀ x, name.head? = some x → Text.isBlank x = false) :
    looksLikeHost registry.toList = true ∧ '/' ∉ registry.toList ∧ '@' ∉ registry.toList ∧
      ∀ x, registry.toList.head? = some x → Text.isBlank x = false := by
  have hdefault : looksLikeHost defaultRegistry.toList = true ∧ '/' ∉ defaultRegistry.toList ∧
      '@' ∉ defaultRegistry.toList ∧
      ∀ x, defaultRegistry.toList.head? = some x → Text.isBlank x = false := by
    refine ⟨by decide, by decide, by decide, fun x hx => ?_⟩
    cases hx
    decide
  unfold placeOf at h
  split at h
  · next first rest hcut =>
    obtain ⟨rfl, hslash⟩ := Text.splitFirst_eq_some_iff.mp hcut
    split at h
    · next hhost =>
      simp only [Prod.mk.injEq] at h
      obtain ⟨rfl, -⟩ := h
      rw [String.toList_ofList]
      refine ⟨hhost, hslash, fun hmem => hat (List.mem_append_left _ hmem), fun x hx => ?_⟩
      apply hstarts x
      rw [List.head?_append, hx, Option.some_or]
    · simp only [Prod.mk.injEq] at h
      exact h.1 ▸ hdefault
  · simp only [Prod.mk.injEq] at h
    exact h.1 ▸ hdefault

theorem not_mem_of_splitDigest {cs name : List Char} {digest : Option (List Char)}
    (h : splitDigest cs = (name, digest)) : '@' ∉ name ∧ name <+: cs := by
  unfold splitDigest at h
  cases hcut : Text.splitFirst '@' cs with
  | none =>
    rw [hcut] at h
    cases h
    exact ⟨Text.splitFirst_eq_none_iff.mp hcut, List.prefix_rfl⟩
  | some cut =>
    obtain ⟨before, after⟩ := cut
    rw [hcut] at h
    cases h
    obtain ⟨rfl, hat⟩ := Text.splitFirst_eq_some_iff.mp hcut
    exact ⟨hat, List.prefix_append _ _⟩

/-- **A reference that was read is well-formed.** -/
theorem wellFormed_of_parse {s : String} {r : ImageReference} (h : parse s = .ok r) :
    r.WellFormed := by
  have hblank : ∀ x, (Text.trim s.toList).head? = some x → Text.isBlank x = false :=
    fun x => Text.not_isBlank_of_head?_trim
  rw [parse] at h
  generalize Text.trim s.toList = cs at h hblank
  unfold parseTrimmed at h
  split at h
  · cases h
  · rcases hdigest : splitDigest cs with ⟨name, digest⟩
    simp only [hdigest] at h
    split at h
    · cases h
    · next hd =>
      rcases htag : splitTag name with ⟨path, tag⟩
      simp only [htag] at h
      split at h
      · cases h
      · next ht =>
        rcases hplace : placeOf path with ⟨registry, repository⟩
        simp only [hplace] at h
        split at h
        · cases h
        · next hrepository =>
          cases h
          obtain ⟨hat, hname⟩ := not_mem_of_splitDigest hdigest
          have hpath : path <+: name := splitTag_isPrefix htag
          have hstarts : ∀ x, path.head? = some x → Text.isBlank x = false := by
            intro x hx
            obtain ⟨back, hback⟩ := hpath.trans hname
            apply hblank x
            rw [← hback, List.head?_append, hx, Option.some_or]
          have hatPath : '@' ∉ path := fun hmem => hat (hpath.subset hmem)
          obtain ⟨hhost, hslash, hmark, hfirst⟩ := registry_of_placeOf hplace hatPath hstarts
          refine ⟨hhost, hslash, hmark, hfirst, ?_, ?_, ?_⟩
          · rw [String.toList_ofList]
            exact hrepository
          · intro t htext
            obtain ⟨cs, rfl, rfl⟩ := Option.map_eq_some_iff.mp htext
            rw [String.toList_ofList]
            exact ht
          · intro d hdtext
            obtain ⟨cs, rfl, rfl⟩ := Option.map_eq_some_iff.mp hdtext
            rw [← digestFault?_eq_none_iff, String.toList_ofList]
            exact hd

/-! ### Resolving again and again -/

variable {r next : ImageReference} {text : String}

/-- The reference after an attempt to resolve it by a text: the last good one stays if the text is
no digest. -/
def attempt (r : ImageReference) (text : String) : ImageReference :=
  match r.resolve text with
  | .ok next => next
  | .error _ => r

theorem attempt_of_digest (h : ∃ hex, IsDigest text hex) : r.attempt text = r.pinned text := by
  rw [attempt, resolve_eq_ok_iff.mpr ⟨h, rfl⟩]

/-- A reference is not resolved just by the texts that are no digests. -/
theorem resolve_eq_error_iff :
    (∃ fault, r.resolve text = .error fault) ↔ ¬∃ hex, IsDigest text hex := by
  rw [← digestFault?_eq_none_iff]
  unfold resolve
  cases digestFault? text.toList <;> simp

theorem attempt_of_not_digest (h : ¬∃ hex, IsDigest text hex) : r.attempt text = r := by
  obtain ⟨fault, hfault⟩ := resolve_eq_error_iff (r := r) |>.mpr h
  rw [attempt, hfault]

/-- **An attempt to resolve a well-formed reference leaves it well-formed.** -/
theorem wellFormed_attempt (h : r.WellFormed) (text : String) : (r.attempt text).WellFormed := by
  by_cases hd : ∃ hex, IsDigest text hex
  · rw [attempt_of_digest hd]
    refine ⟨h.host, h.noSlash, h.noAt, h.starts, h.repository, nofun, fun d hdigest => ?_⟩
    cases hdigest
    exact hd
  · rw [attempt_of_not_digest hd]
    exact h

theorem wellFormed_attempts (h : r.WellFormed) (texts : List String) :
    (texts.foldl attempt r).WellFormed := by
  induction texts generalizing r with
  | nil => exact h
  | cons text texts ih => exact ih (wellFormed_attempt h text)

/-- Attempts leave a reference in its place. -/
theorem place_attempts (r : ImageReference) (texts : List String) :
    (texts.foldl attempt r).registry = r.registry ∧
      (texts.foldl attempt r).repository = r.repository := by
  induction texts generalizing r with
  | nil => exact ⟨rfl, rfl⟩
  | cons text texts ih =>
    have hone : (r.attempt text).registry = r.registry ∧
        (r.attempt text).repository = r.repository := by
      by_cases hd : ∃ hex, IsDigest text hex
      · rw [attempt_of_digest hd]
        exact ⟨rfl, rfl⟩
      · rw [attempt_of_not_digest hd]
        exact ⟨rfl, rfl⟩
    obtain ⟨hregistry, hrepository⟩ := ih (r.attempt text)
    exact ⟨hregistry.trans hone.1, hrepository.trans hone.2⟩

/-- What is known of a reference that came of another by attempts to resolve it. -/
structure Kept (first r : ImageReference) : Prop where
  /-- It is read back as it is written. -/
  readBack : parse r.render = .ok r
  /-- It is in the place that the first one is in. -/
  registry : r.registry = first.registry
  repository : r.repository = first.repository
  /-- A text does not resolve it just if it is no digest, -/
  fails_iff : ∀ text, (∃ fault, r.resolve text = .error fault) ↔ ¬∃ hex, IsDigest text hex
  /-- and after such a text it is what it was. -/
  failed : ∀ text fault, r.resolve text = .error fault → r.attempt text = r
  /-- A text that resolves it becomes its digest, known in hexadecimal, and the tag goes. -/
  resolved : ∀ text next, r.resolve text = .ok next →
    r.attempt text = next ∧ next.tag = none ∧ next.digest = some text ∧
      ∃ hex, next.digestHex = some hex ∧ IsDigest text hex
  /-- Of its digest the hexadecimal part is known. -/
  digestHex : ∀ d, r.digest = some d → ∃ hex, r.digestHex = some hex ∧ IsDigest d hex

theorem kept_of_wellFormed {first : ImageReference} (h : r.WellFormed)
    (hregistry : r.registry = first.registry) (hrepository : r.repository = first.repository) :
    Kept first r where
  readBack := h.parse_render
  registry := hregistry
  repository := hrepository
  fails_iff _ := resolve_eq_error_iff
  failed text fault hfault := by rw [attempt, hfault]
  resolved text next hnext := by
    obtain ⟨⟨hex, hd⟩, rfl⟩ := resolve_eq_ok_iff.mp hnext
    exact ⟨attempt_of_digest ⟨hex, hd⟩, rfl, rfl, hex, digestHex_pinned hd, hd⟩
  digestHex d hdigest := by
    obtain ⟨hex, hd⟩ := h.digest d hdigest
    refine ⟨hex, ?_, hd⟩
    rw [digestHex, hdigest, Option.bind_some, dropFront?_of_isDigest hd, Option.map_some,
      String.ofList_toList]

/-- **References are read back as they are written**, whichever text they were read from and however
often they have been resolved since. So the written form tells any two of them apart. -/
theorem parse_attempts {s : String} {first : ImageReference} (h : parse s = .ok first)
    (texts : List String) :
    Kept first (texts.foldl attempt first) ∧
      ∀ s' first' texts', parse s' = .ok first' →
        (texts.foldl attempt first).render = (List.foldl attempt first' texts').render →
          texts.foldl attempt first = List.foldl attempt first' texts' := by
  have hwell : ∀ {s first}, parse s = .ok first → ∀ texts : List String,
      (texts.foldl attempt first).WellFormed :=
    fun h texts => wellFormed_attempts (wellFormed_of_parse h) texts
  obtain ⟨hregistry, hrepository⟩ := place_attempts first texts
  refine ⟨kept_of_wellFormed (hwell h texts) hregistry hrepository, ?_⟩
  intro s' first' texts' h' hrender
  have hread := (hwell h texts).parse_render
  have hread' := (hwell h' texts').parse_render
  rw [hrender, hread'] at hread
  exact (Except.ok.inj hread).symm

/-- A reference to a registry with a blank in its name is read off a text with blanks around it, is
not resolved by a digest that is cut short, and is by a whole one. -/
theorem parse_attempts_spaced :
    let digest := "sha256:" ++ String.ofList (List.replicate 64 'a')
    let first : ImageReference := ⟨"ré gistry:5000", "team/app", some "v1.0", none⟩
    let last : ImageReference := ⟨"ré gistry:5000", "team/app", none, some digest⟩
    parse " ré gistry:5000/team/app:v1.0 " = .ok first ∧
      ["sha256:aa", digest].foldl attempt first = last ∧ Kept first last ∧
      ∀ s' first' texts', parse s' = .ok first' →
        last.render = (List.foldl attempt first' texts').render →
          last = List.foldl attempt first' texts' := by
  intro digest first last
  have hparse : parse " ré gistry:5000/team/app:v1.0 " = .ok first := by rfl
  have hlast : ["sha256:aa", digest].foldl attempt first = last := by decide +kernel
  have hall := parse_attempts hparse ["sha256:aa", digest]
  rw [hlast] at hall
  exact ⟨hparse, hlast, hall⟩

end ImageReference
end ImagePolicy
