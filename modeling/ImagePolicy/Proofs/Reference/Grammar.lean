/-
# The grammar of references

A reference is spelled in parts (`ImageReference.Spelling`): the place of the image, then behind a
colon a tag, then behind an at sign a digest; tag and digest may be missing. The place is a path in
a registry, a path of the default registry, or a single name (`ImageReference.Place`). Each kind of
part has its own characters (`IsPathComponent`, `IsTag`, `IsDigest`), and a registry is any text
that looks like a host and holds no mark that comes behind it (`ImageReference.IsRegistry`).

What is read are these spellings and nothing else (`ImageReference.parseTrimmed_eq_ok_iff`), and a
text is spelled in one way at most (`ImageReference.Spelling.text_injOn`).

Key definitions: `IsPathComponent`, `IsTag`, `ImageReference.Place`, `ImageReference.Spelling`.
Key theorems: `ImageReference.Place.ofText_text`, `ImageReference.parseTrimmed_eq_ok_iff`,
`ImageReference.Spelling.text_injOn`, `ImageReference.parse_grammar`.
-/
import ImagePolicy.Proofs.Reference.RoundTrip
import ImagePolicy.Proofs.Reference.Cuts

namespace ImagePolicy

/-! ### The characters of the parts -/

/-- A text is a component of a path. -/
structure IsPathComponent (text : String) : Prop where
  filled : text ≠ ""
  chars : ∀ c ∈ text.toList,
    ('a' ≤ c ∧ c ≤ 'z') ∨ ('0' ≤ c ∧ c ≤ '9') ∨ c = '.' ∨ c = '_' ∨ c = '-'

/-- A text is a tag. -/
structure IsTag (text : String) : Prop where
  filled : 1 ≤ text.length
  short : text.length ≤ 128
  chars : ∀ c ∈ text.toList, ('a' ≤ c ∧ c ≤ 'z') ∨ ('A' ≤ c ∧ c ≤ 'Z') ∨ ('0' ≤ c ∧ c ≤ '9') ∨
    c = '_' ∨ c = '.' ∨ c = '-'
  start : text.toList.head? ≠ some '.' ∧ text.toList.head? ≠ some '-'

theorem isComponent_iff {text : String} :
    isComponent text.toList = true ↔ IsPathComponent text := by
  have hchars : text.toList.all isComponentChar = true ↔ ∀ c ∈ text.toList,
      ('a' ≤ c ∧ c ≤ 'z') ∨ ('0' ≤ c ∧ c ≤ '9') ∨ c = '.' ∨ c = '_' ∨ c = '-' := by
    simp [isComponentChar, or_assoc]
  have hfilled : (!text.toList.isEmpty) = true ↔ text ≠ "" := by
    simp
  rw [isComponent, Bool.and_eq_true, hchars, hfilled]
  exact ⟨fun h => ⟨h.1, h.2⟩, fun h => ⟨h.1, h.2⟩⟩

theorem IsPathComponent.isTagChar {part : String} (h : IsPathComponent part) :
    ∀ c ∈ part.toList, isTagChar c = true := by
  have hall := isComponent_iff.mpr h
  rw [isComponent, Bool.and_eq_true, List.all_eq_true] at hall
  exact fun c hc => isTagChar_of_isComponentChar (hall.2 c hc)

theorem isTagChar_iff {c : Char} : isTagChar c = true ↔ ('a' ≤ c ∧ c ≤ 'z') ∨ ('A' ≤ c ∧ c ≤ 'Z') ∨
    ('0' ≤ c ∧ c ≤ '9') ∨ c = '_' ∨ c = '.' ∨ c = '-' := by
  simp [isTagChar, or_assoc]

/-- The texts without fault are the tags. -/
theorem tagFault?_eq_none_iff {text : String} : tagFault? text.toList = none ↔ IsTag text := by
  have hall : text.toList.all isTagChar = true ↔ ∀ c ∈ text.toList, isTagChar c = true :=
    List.all_eq_true
  have hstart : startsLow text.toList = false ↔
      text.toList.head? ≠ some '.' ∧ text.toList.head? ≠ some '-' := by
    cases text.toList <;> simp [startsLow]
  have hlength : (∀ c ∈ text.toList, isTagChar c = true) →
      Utf8.length text.toList = text.length := fun h => by
    rw [Utf8.length_of_ascii fun c hc => ?_, String.length_toList]
    exact Nat.lt_of_le_of_lt (toNat_of_isTagChar (h c hc)).2 (by decide)
  have hfilled : text.toList = [] ↔ text.length = 0 := by
    rw [← String.length_toList, List.length_eq_zero_iff]
  unfold tagFault?
  constructor
  · intro h
    split at h
    · cases h
    · next hsize =>
      split at h
      · cases h
      · next hchars =>
        rw [not_or, hfilled] at hsize
        rw [not_or, Bool.not_eq_true, Bool.not_eq_true, Bool.not_eq_false', hall, hstart] at hchars
        rw [hlength hchars.2] at hsize
        exact ⟨Nat.pos_of_ne_zero hsize.1, Nat.not_lt.mp hsize.2,
          fun c hc => isTagChar_iff.mp (hchars.2 c hc), hchars.1⟩
  · rintro ⟨hpos, hshort, hchars, hlow⟩
    have hchars : ∀ c ∈ text.toList, isTagChar c = true :=
      fun c hc => isTagChar_iff.mpr (hchars c hc)
    have hsize : ¬(text.toList = [] ∨ maxTagLength < Utf8.length text.toList) := by
      rw [hlength hchars, hfilled, maxTagLength]
      omega
    rw [if_neg hsize, hstart.mpr hlow, hall.mpr hchars]
    rfl

namespace ImageReference

/-! ### Paths -/

/-- Components put together to a path. -/
def joined (path : List String) : List Char :=
  Text.join '/' (path.map String.toList)

/-- The components of a path. -/
def components (cs : List Char) : List String :=
  (Text.split '/' cs).map String.ofList

theorem joined_components (cs : List Char) : joined (components cs) = cs := by
  simp only [joined, components, List.map_map, Function.comp_def, String.toList_ofList,
    List.map_id']
  exact Text.join_split cs

theorem components_append {first : List Char} (h : '/' ∉ first) (rest : List Char) :
    components (first ++ '/' :: rest) = .ofList first :: components rest := by
  rw [components, Text.split_append rest h]
  rfl

/-- A repository is without fault if all its components are some. -/
theorem repositoryFault?_eq_none_iff {cs : List Char} :
    repositoryFault? cs = none ↔ ∀ part ∈ components cs, IsPathComponent part := by
  have hparts : (∀ part ∈ components cs, IsPathComponent part) ↔
      ∀ part ∈ Text.split '/' cs, isComponent part = true := by
    simp only [components, List.forall_mem_map, ← isComponent_iff, String.toList_ofList]
  rw [hparts, repositoryFault?]
  by_cases hnil : cs = []
  · subst hnil
    simp [Text.split, isComponent]
  · simp [hnil]

/-- A path of components has these components. -/
theorem components_joined {path : List String} (hne : path ≠ [])
    (h : ∀ part ∈ path, IsPathComponent part) : components (joined path) = path := by
  have hsplit : Text.split '/' (joined path) = path.map String.toList := by
    refine Text.split_eq_iff.mpr ⟨by simpa using hne, ?_, rfl⟩
    rw [List.forall_mem_map]
    exact fun part hpart => not_mem_of_isTagChar (h part hpart).isTagChar (by decide)
  rw [components, hsplit, List.map_map]
  simp [Function.comp_def]

/-- A path holds slashes and what may stand in a tag. -/
theorem not_mem_joined {path : List String} {mark : Char} (hne : path ≠ [])
    (h : ∀ part ∈ path, IsPathComponent part) (hmark : isTagChar mark = false)
    (hslash : mark ≠ '/') : mark ∉ joined path := by
  have hfault : repositoryFault? (joined path) = none := by
    rwa [repositoryFault?_eq_none_iff, components_joined hne h]
  intro hmem
  rcases (isTagChar_of_repositoryFault? hfault).2 mark hmem with heq | htag
  · exact hslash heq
  · rw [htag] at hmark
    cases hmark

theorem joined_cons (first : String) {rest : List String} (h : rest ≠ []) :
    joined (first :: rest) = first.toList ++ '/' :: joined rest :=
  Text.join_cons first.toList (by simpa using h)

/-! ### Places -/

/-- How the place of an image is spelled: as a path in a registry, as a path of the default
registry, which has two components at least, or as a single name. -/
inductive Place where
  | hosted (registry : String) (parts : List String)
  | path (first : String) (rest : List String)
  | single (name : String)

/-- A text is spelled as a registry. -/
structure IsRegistry (text : String) : Prop where
  noSlash : '/' ∉ text.toList
  noAt : '@' ∉ text.toList
  host : '.' ∈ text.toList ∨ ':' ∈ text.toList ∨ text = "localhost"

theorem looksLikeHost_iff {text : String} : looksLikeHost text.toList = true ↔
    '.' ∈ text.toList ∨ ':' ∈ text.toList ∨ text = "localhost" := by
  have hlocal : text.toList = "localhost".toList ↔ text = "localhost" := String.toList_inj
  simp only [looksLikeHost, Bool.or_eq_true, List.contains_iff_mem, decide_eq_true_eq, hlocal,
    or_assoc]

namespace Place

variable {p q : Place} {cs : List Char}

/-- The text of a place. -/
def text : Place → List Char
  | .hosted registry parts => registry.toList ++ '/' :: joined parts
  | .path first rest => joined (first :: rest)
  | .single name => name.toList

/-- The registry that a place is in. -/
def registry : Place → String
  | .hosted registry _ => registry
  | .path _ _ | .single _ => defaultRegistry

/-- The repository of a place in its registry. -/
def repository : Place → String
  | .hosted _ parts => .ofList (joined parts)
  | .path first rest => .ofList (joined (first :: rest))
  | .single name => "library/" ++ name

/-- A place is spelled as its kind has to be. -/
inductive Valid : Place → Prop
  | hosted {registry : String} {parts : List String} (host : IsRegistry registry)
      (filled : parts ≠ []) (components : ∀ part ∈ parts, IsPathComponent part) :
      (Place.hosted registry parts).Valid
  | path {first : String} {rest : List String} (noDot : '.' ∉ first.toList)
      (notLocal : first ≠ "localhost") (filled : rest ≠ [])
      (components : ∀ part ∈ first :: rest, IsPathComponent part) : (Place.path first rest).Valid
  | single {name : String} (component : IsPathComponent name) : (Place.single name).Valid

/-- The place that a text spells if it spells one. -/
def ofText (cs : List Char) : Place :=
  match Text.splitFirst '/' cs with
  | some (first, rest) =>
    if looksLikeHost first then .hosted (.ofList first) (components rest)
    else .path (.ofList first) (components rest)
  | none => .single (.ofList cs)

theorem components_ne_nil (cs : List Char) : components cs ≠ [] := by
  simp [components, Text.split_ne_nil]

/-- A text is that of the place it spells. -/
theorem text_ofText (cs : List Char) : (ofText cs).text = cs := by
  unfold ofText
  cases hcut : Text.splitFirst '/' cs with
  | none => exact String.toList_ofList
  | some cut =>
    obtain ⟨first, rest⟩ := cut
    obtain ⟨rfl, -⟩ := Text.splitFirst_eq_some_iff.mp hcut
    by_cases hhost : looksLikeHost first = true
    · simp only [if_pos hhost, text, String.toList_ofList, joined_components]
    · simp only [if_neg hhost, text, joined_cons _ (components_ne_nil rest), String.toList_ofList,
        joined_components]

/-- The reader takes a name for the place that it spells. -/
theorem placeOf_eq (cs : List Char) :
    placeOf cs = ((ofText cs).registry, (ofText cs).repository.toList) := by
  have htext := text_ofText cs
  unfold placeOf
  unfold ofText at htext ⊢
  cases hcut : Text.splitFirst '/' cs with
  | none => simp [registry, repository, defaultNamespace]
  | some cut =>
    obtain ⟨first, rest⟩ := cut
    rw [hcut] at htext
    by_cases hhost : looksLikeHost first = true
    · simp only [if_pos hhost, registry, repository, joined_components, String.toList_ofList]
    · simp only [if_neg hhost, text] at htext
      simp only [if_neg hhost, registry, repository, String.toList_ofList, htext]

/-- A text with a repository without fault spells a place. -/
theorem valid_ofText (hat : '@' ∉ cs)
    (h : repositoryFault? (ofText cs).repository.toList = none) : (ofText cs).Valid := by
  rw [repositoryFault?_eq_none_iff] at h
  unfold ofText at h ⊢
  cases hcut : Text.splitFirst '/' cs with
  | none =>
    have hslash : '/' ∉ cs := Text.splitFirst_eq_none_iff.mp hcut
    rw [hcut] at h
    refine .single (h _ ?_)
    have htext : ("library/" ++ String.ofList cs).toList = "library".toList ++ '/' :: cs := by
      simp
    show String.ofList cs ∈ components ("library/" ++ String.ofList cs).toList
    rw [htext, components_append (by decide), components, Text.split_of_not_mem hslash]
    simp
  | some cut =>
    obtain ⟨first, rest⟩ := cut
    obtain ⟨rfl, hslash⟩ := Text.splitFirst_eq_some_iff.mp hcut
    rw [hcut] at h
    have hhost : looksLikeHost (String.ofList first).toList = true ↔ _ := looksLikeHost_iff
    simp only [String.toList_ofList] at hhost
    by_cases hlooks : looksLikeHost first = true
    · simp only [if_pos hlooks, repository, String.toList_ofList, joined_components] at h ⊢
      refine .hosted ⟨?_, ?_, ?_⟩ (components_ne_nil rest) h
      · rwa [String.toList_ofList]
      · rw [String.toList_ofList]
        exact fun hmem => hat (List.mem_append_left _ hmem)
      · rw [String.toList_ofList]
        exact hhost.mp hlooks
    · simp only [if_neg hlooks, repository, String.toList_ofList] at h ⊢
      rw [joined_cons _ (components_ne_nil rest), joined_components, String.toList_ofList,
        components_append hslash] at h
      have hnot := mt hhost.mpr hlooks
      rw [not_or, not_or] at hnot
      refine .path ?_ hnot.2.2 (components_ne_nil rest) h
      rw [String.toList_ofList]
      exact hnot.1

/-- **A place is the one that its text spells.** -/
theorem ofText_text (h : p.Valid) : ofText p.text = p := by
  cases h with
  | hosted host filled hcomponents =>
    rw [ofText, text, Text.splitFirst_append host.noSlash]
    simp only [if_pos (looksLikeHost_iff.mpr host.host), String.ofList_toList,
      components_joined filled hcomponents]
  | path noDot notLocal filled hcomponents =>
    obtain ⟨hfirst, hrest⟩ := List.forall_mem_cons.mp hcomponents
    have hfree := fun mark => not_mem_of_isTagChar (c := mark) hfirst.isTagChar
    have hlooks : ¬looksLikeHost _ = true := fun hhost =>
      (looksLikeHost_iff.mp hhost).elim noDot fun h => h.elim (hfree ':' (by decide)) notLocal
    rw [ofText, text, joined_cons _ filled, Text.splitFirst_append (hfree '/' (by decide))]
    simp only [if_neg hlooks, String.ofList_toList, components_joined filled hrest]
  | single component =>
    have hslash := not_mem_of_isTagChar (c := '/') component.isTagChar (by decide)
    rw [ofText, text, Text.splitFirst_eq_none_iff.mpr hslash]
    simp only [String.ofList_toList]

/-- The repository of a place is without fault. -/
theorem Valid.repositoryFault? (h : p.Valid) :
    ImagePolicy.repositoryFault? p.repository.toList = none := by
  rw [repositoryFault?_eq_none_iff]
  cases h with
  | hosted host filled hcomponents =>
    rwa [repository, String.toList_ofList, components_joined filled hcomponents]
  | path noDot notLocal filled hcomponents =>
    rwa [repository, String.toList_ofList, components_joined (List.cons_ne_nil _ _) hcomponents]
  | @single name component =>
    have hslash := not_mem_of_isTagChar (c := '/') component.isTagChar (by decide)
    have htext : ("library/" ++ name).toList = "library".toList ++ '/' :: name.toList := by simp
    have hnamespace : IsPathComponent (.ofList "library".toList) :=
      isComponent_iff.mp (by decide)
    rw [repository, htext, components_append (by decide), components,
      Text.split_of_not_mem hslash]
    simpa using ⟨hnamespace, component⟩

theorem Valid.text_ne_nil (h : p.Valid) : p.text ≠ [] := by
  intro hnil
  have hplace := ofText_text h
  rw [hnil] at hplace
  rw [← hplace] at h
  cases h with
  | single component => exact component.filled rfl

/-- A place holds no at sign. -/
theorem Valid.noAt (h : p.Valid) : '@' ∉ p.text := by
  cases h with
  | hosted host filled hcomponents =>
    have hpath : '@' ∉ joined _ := not_mem_joined filled hcomponents (by decide) (by decide)
    simp [text, host.noAt, hpath]
  | path noDot notLocal filled hcomponents =>
    exact not_mem_joined (List.cons_ne_nil _ _) hcomponents (by decide) (by decide)
  | single component =>
    exact not_mem_of_isTagChar component.isTagChar (by decide)

/-- A tag is cut off from a place where it was put on, because no colon stands behind the last
slash of the place. -/
theorem Valid.splitTag {tag : Option String} (h : p.Valid)
    (htag : ∀ t, tag = some t → ∀ x ∈ t.toList, isTagChar x = true) :
    ImagePolicy.splitTag (p.text ++ marked ':' tag) = (p.text, tag.map String.toList) := by
  cases h with
  | hosted host filled hcomponents =>
    exact splitTag_marked _ (not_mem_joined filled hcomponents (by decide) (by decide)) htag
  | path noDot notLocal filled hcomponents =>
    obtain ⟨-, hrest⟩ := List.forall_mem_cons.mp hcomponents
    rw [text, joined_cons _ filled]
    exact splitTag_marked _ (not_mem_joined filled hrest (by decide) (by decide)) htag
  | @single name component =>
    have hslash := not_mem_of_isTagChar (c := '/') component.isTagChar (by decide)
    have hcolon := not_mem_of_isTagChar (c := ':') component.isTagChar (by decide)
    cases tag with
    | none =>
      simp only [text, marked, List.append_nil, ImagePolicy.splitTag, Option.map_none,
        Text.splitLast_eq_none_iff.mpr hslash, Text.splitLast_eq_none_iff.mpr hcolon]
    | some t =>
      have hall := htag t rfl
      exact splitTag_append (not_mem_of_isTagChar hall (by decide))
        (not_mem_of_isTagChar hall (by decide))

end Place

/-! ### Spellings -/

/-- The parts that a reference is spelled in: a place, a tag, and the hexadecimal part of a
digest. -/
structure Spelling where
  place : Place
  tag : Option String
  hex : Option String

namespace Spelling

variable {w v : Spelling}

/-- The digest of a spelling. -/
def digest (w : Spelling) : Option String :=
  w.hex.map ("sha256:" ++ ·)

/-- The text of a spelling. -/
def text (w : Spelling) : List Char :=
  w.place.text ++ marked ':' w.tag ++ marked '@' w.digest

/-- The reference that is spelled. -/
def reference (w : Spelling) : ImageReference :=
  ⟨w.place.registry, w.place.repository, w.tag, w.digest⟩

/-- Each part is spelled as its kind has to be. -/
structure Valid (w : Spelling) : Prop where
  place : w.place.Valid
  tag : ∀ t, w.tag = some t → IsTag t
  hex : ∀ h, w.hex = some h → IsDigest ("sha256:" ++ h) h

theorem Valid.tagChars (h : w.Valid) : ∀ t, w.tag = some t → ∀ x ∈ t.toList, isTagChar x = true :=
  fun t ht x hx => isTagChar_iff.mpr ((h.tag t ht).chars x hx)

/-- The digest of a spelling is cut off. -/
theorem Valid.splitDigest (h : w.Valid) : ImagePolicy.splitDigest w.text =
    (w.place.text ++ marked ':' w.tag, w.digest.map String.toList) := by
  refine splitDigest_marked fun hmem => ?_
  rcases List.mem_append.mp hmem with hmem | hmem
  · exact h.place.noAt hmem
  · cases htag : w.tag with
    | none =>
      rw [htag] at hmem
      cases hmem
    | some t =>
      have hnot := not_mem_of_isTagChar (c := '@') (h.tagChars t htag) (by decide)
      simp [htag, marked, hnot] at hmem

/-- **What is spelled is read.** -/
theorem parseTrimmed_text (h : w.Valid) : parseTrimmed w.text = .ok w.reference := by
  have hne : w.text ≠ [] := by
    simp [text, h.place.text_ne_nil]
  have hdigest : (w.digest.map String.toList).bind digestFault? = none := by
    cases hhex : w.hex with
    | none => simp [digest, hhex]
    | some hex =>
      rw [digest, hhex]
      exact digestFault?_eq_none_iff.mpr ⟨hex, h.hex hex hhex⟩
  have htag : (w.tag.map String.toList).bind tagFault? = none := by
    cases ht : w.tag with
    | none => rfl
    | some t => exact tagFault?_eq_none_iff.mpr (h.tag t ht)
  have hplace : placeOf w.place.text = (w.place.registry, w.place.repository.toList) := by
    rw [Place.placeOf_eq, Place.ofText_text h.place]
  rw [parseTrimmed, if_neg hne, h.splitDigest]
  simp only [hdigest, h.place.splitTag h.tagChars, htag, hplace, h.place.repositoryFault?,
    Option.map_map, Function.comp_def, String.ofList_toList, Option.map_id']
  rfl

/-- **A text is spelled in one way at most.** -/
theorem text_injOn (hw : w.Valid) (hv : v.Valid) (h : w.text = v.text) : w = v := by
  have hdigest := hw.splitDigest
  rw [h, hv.splitDigest, Prod.mk.injEq] at hdigest
  have htag := hw.place.splitTag hw.tagChars
  rw [← hdigest.1, hv.place.splitTag hv.tagChars, Prod.mk.injEq] at htag
  have hplace : w.place = v.place := by
    rw [← Place.ofText_text hw.place, ← htag.1, Place.ofText_text hv.place]
  have htags : w.tag = v.tag :=
    (Option.map_injective (fun _ _ => String.toList_inj.mp) htag.2).symm
  have hprefixed : Function.Injective fun hex : String => ("sha256:" ++ hex).toList := by
    intro a b hab
    simpa [String.toList_inj] using hab
  have hhex : w.hex = v.hex := by
    have := hdigest.2
    rw [digest, digest, Option.map_map, Option.map_map] at this
    exact (Option.map_injective hprefixed this).symm
  cases w
  cases v
  simp only at hplace htags hhex
  rw [hplace, htags, hhex]

end Spelling

/-! ### What is read is spelled -/

theorem eq_of_splitDigest {cs name : List Char} {digest : Option (List Char)}
    (h : splitDigest cs = (name, digest)) : cs = name ++ marked '@' (digest.map .ofList) := by
  unfold splitDigest at h
  split at h
  · next hcut =>
    cases h
    simpa [marked] using Text.splitFirst_eq_some hcut
  · cases h
    simp [marked]

theorem eq_of_splitTag {name path : List Char} {tag : Option (List Char)}
    (h : splitTag name = (path, tag)) : name = path ++ marked ':' (tag.map .ofList) := by
  obtain ⟨front, last, hname, -, htag⟩ := exists_lastComponent name
  rw [h] at htag
  cases hcut : Text.splitLast ':' last with
  | none =>
    rw [hcut] at htag
    cases htag
    simp [marked]
  | some cut =>
    rw [hcut] at htag
    cases htag
    rw [hname, Text.splitLast_eq_some hcut]
    simp [marked]

/-- A digest without fault is its scheme and a hexadecimal part. -/
theorem exists_hex {digest : Option (List Char)} (h : digest.bind digestFault? = none) :
    ∃ hex : Option String, hex.map ("sha256:" ++ ·) = digest.map String.ofList ∧
      ∀ h, hex = some h → IsDigest ("sha256:" ++ h) h := by
  cases digest with
  | none => exact ⟨none, rfl, nofun⟩
  | some d =>
    have hfault : digestFault? (String.ofList d).toList = none := by
      rw [String.toList_ofList]
      exact h
    obtain ⟨hex, hisDigest⟩ := digestFault?_eq_none_iff.mp hfault
    refine ⟨some hex, ?_, ?_⟩
    · simp [hisDigest.spelled]
    · intro other hother
      cases hother
      exact hisDigest.spelled ▸ hisDigest

/-- **What is read is spelled.** -/
theorem exists_spelling {cs : List Char} {r : ImageReference} (h : parseTrimmed cs = .ok r) :
    ∃ w : Spelling, w.Valid ∧ w.text = cs ∧ w.reference = r := by
  unfold parseTrimmed at h
  split at h
  · cases h
  · rcases hdigest : splitDigest cs with ⟨name, digest⟩
    simp only [hdigest] at h
    split at h
    · cases h
    · next hd =>
      rcases htag : splitTag name with ⟨path, tag⟩
      simp only [htag, Place.placeOf_eq] at h
      split at h
      · cases h
      · next ht =>
        split at h
        · cases h
        · next hrepository =>
          obtain ⟨hat, -⟩ := not_mem_of_splitDigest hdigest
          have hpath : '@' ∉ path := fun hmem => hat ((splitTag_isPrefix htag).subset hmem)
          have hplace := Place.valid_ofText hpath hrepository
          have htags : ∀ t, tag.map String.ofList = some t → IsTag t := by
            intro t htext
            obtain ⟨chars, rfl, rfl⟩ := Option.map_eq_some_iff.mp htext
            rw [← tagFault?_eq_none_iff, String.toList_ofList]
            exact ht
          obtain ⟨hex, hspelled, hhex⟩ := exists_hex hd
          refine ⟨⟨.ofText path, tag.map .ofList, hex⟩, ⟨hplace, htags, hhex⟩, ?_, ?_⟩
          · rw [eq_of_splitDigest hdigest, eq_of_splitTag htag]
            simp only [Spelling.text, Spelling.digest, Place.text_ofText, hspelled]
          · rw [Except.ok.injEq] at h
            rw [← h]
            simp only [Spelling.reference, Spelling.digest, hspelled, String.ofList_toList]

/-- **The reader accepts what is spelled, as it is spelled.** -/
theorem parseTrimmed_eq_ok_iff {cs : List Char} {r : ImageReference} :
    parseTrimmed cs = .ok r ↔ ∃ w : Spelling, w.Valid ∧ w.text = cs ∧ w.reference = r := by
  constructor
  · exact exists_spelling
  · rintro ⟨w, hw, rfl, rfl⟩
    exact Spelling.parseTrimmed_text hw

/-- **The grammar of references.** What a text without the blanks around it is read as, is what it
is spelled as: a place, a tag behind a colon if there is one, and a digest behind an at sign if
there is one. It is spelled in one way at most, and it is a fault if it is not spelled in any. No
cut that is made on the way is inside a character. -/
theorem parse_grammar (s : String) : ∃ u, Text.Trimmed s.toList u ∧
    (∀ r, parse s = .ok r ↔ ∃ w : Spelling, w.Valid ∧ w.text = u ∧ w.reference = r) ∧
    (∀ w v : Spelling, w.Valid → v.Valid → w.text = u → v.text = u → w = v) ∧
    ((∃ fault, parse s = .error fault) ↔ ∀ w : Spelling, w.Valid → w.text ≠ u) ∧
    CutWhole u := by
  refine ⟨Text.trim s.toList, Text.trimmed_trim _, fun r => parseTrimmed_eq_ok_iff, ?_, ?_,
    cutWhole _⟩
  · rintro w v hw hv hwu hvu
    exact Spelling.text_injOn hw hv (hwu.trans hvu.symm)
  · constructor
    · rintro ⟨fault, hfault⟩ w hw htext
      have hread : parse s = .ok w.reference := parseTrimmed_eq_ok_iff.mpr ⟨w, hw, htext, rfl⟩
      rw [hread] at hfault
      cases hfault
    · intro hnone
      cases hread : parse s with
      | error fault => exact ⟨fault, rfl⟩
      | ok r =>
        obtain ⟨w, hw, htext, -⟩ := parseTrimmed_eq_ok_iff.mp hread
        exact absurd htext (hnone w hw)

end ImageReference
end ImagePolicy
