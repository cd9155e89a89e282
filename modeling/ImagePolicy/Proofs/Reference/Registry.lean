/-
# The registries that are read

Of a registry the reader asks only that it looks like a host: that it holds a dot or a colon or is
`localhost`. So the registries of the references that are read are all such texts without the marks
that come behind a registry, but for those that start with a blank
(`ImageReference.exists_registry_iff`). These are more than the hosts: blanks and control characters
may stand in a registry, and it may start with the colon of a port
(`ImageReference.registry_malformed`).

No other part of a reference has such characters. So it can be seen at the text, whatever it is cut
into, whether the registry that is read off it is a host (`ImageReference.isHost_registry_iff`).

Key definitions: `IsPlain`, `IsHost`.
Key theorems: `ImageReference.exists_registry_iff`, `ImageReference.isHost_registry_iff`,
`ImageReference.registries_read`, `ImageReference.registry_malformed`.
-/
import ImagePolicy.Proofs.Reference.Grammar
import Mathlib.Data.List.Basic

namespace ImagePolicy

/-- A character is neither blank nor one of the control characters. -/
structure IsPlain (c : Char) : Prop where
  notBlank : Text.isBlank c = false
  notControl : 0x20 ≤ c.toNat ∧ ¬(0x7F ≤ c.toNat ∧ c.toNat ≤ 0x9F)

/-- A text is a host, with a port or without: plain characters, and some before the first colon. -/
structure IsHost (text : String) : Prop where
  plain : ∀ c ∈ text.toList, IsPlain c
  named : text.toList.takeWhile (· ≠ ':') ≠ []

theorem isPlain_of_isTagChar {c : Char} (h : isTagChar c = true) : IsPlain c := by
  have hbounds := toNat_of_isTagChar h
  exact ⟨not_isBlank_of_isTagChar h, by omega, by omega⟩

/-- The marks between the parts of a reference are plain. -/
theorem isPlain_mark {c : Char} (h : c = '/' ∨ c = ':' ∨ c = '@') : IsPlain c := by
  rcases h with rfl | rfl | rfl <;> exact ⟨by decide, by decide⟩

theorem isPlain_of_isDigest {digest hex : String} (h : IsDigest digest hex) :
    ∀ c ∈ digest.toList, IsPlain c := by
  intro c hc
  rw [h.spelled, String.toList_append, List.mem_append] at hc
  rcases hc with hc | hc
  · have hscheme : "sha256:".toList.all (fun x => x == ':' || isTagChar x) = true := by decide
    have hx := List.all_eq_true.mp hscheme c hc
    rw [Bool.or_eq_true, beq_iff_eq] at hx
    exact hx.elim (fun heq => isPlain_mark (.inr (.inl heq))) isPlain_of_isTagChar
  · exact isPlain_of_isTagChar (isTagChar_of_hex (h.digits c hc))

/-- A text has characters before its first colon if it starts with one that is no colon. -/
theorem takeWhile_ne_nil_iff {cs : List Char} :
    cs.takeWhile (· ≠ ':') ≠ [] ↔ cs ≠ [] ∧ cs.head? ≠ some ':' := by
  cases cs with
  | nil => simp
  | cons c cs => by_cases hc : c = ':' <;> simp [hc]

namespace ImageReference

/-- The registry of a place has characters. -/
theorem IsRegistry.ne_nil {text : String} (h : IsRegistry text) : text.toList ≠ [] := by
  intro hnil
  rcases h.host with hmem | hmem | rfl
  · rw [hnil] at hmem
    cases hmem
  · rw [hnil] at hmem
    cases hmem
  · cases hnil

/-- The default registry is a host. -/
theorem isHost_defaultRegistry : IsHost defaultRegistry := by
  refine ⟨fun c hc => isPlain_of_isTagChar ?_, by decide⟩
  have hall : defaultRegistry.toList.all isTagChar = true := by decide
  exact List.all_eq_true.mp hall c hc

/-- A path is plain. -/
theorem isPlain_joined {path : List String} (hne : path ≠ [])
    (h : ∀ part ∈ path, IsPathComponent part) : ∀ c ∈ joined path, IsPlain c := by
  intro c hc
  by_cases hslash : c = '/'
  · exact isPlain_mark (.inl hslash)
  · cases htag : isTagChar c with
    | true => exact isPlain_of_isTagChar htag
    | false => exact absurd hc (not_mem_joined hne h htag hslash)

/-- A registry before plain text is a host just if the whole is plain and does not start with a
colon. -/
theorem IsRegistry.isHost_iff {text : String} {rest : List Char} (h : IsRegistry text)
    (hrest : ∀ c ∈ rest, IsPlain c) : IsHost text ↔
    (∀ c ∈ text.toList ++ rest, IsPlain c) ∧ (text.toList ++ rest).head? ≠ some ':' := by
  rw [List.head?_append_of_ne_nil _ h.ne_nil]
  constructor
  · rintro ⟨hplain, hnamed⟩
    refine ⟨fun c hc => ?_, (takeWhile_ne_nil_iff.mp hnamed).2⟩
    exact (List.mem_append.mp hc).elim (hplain c) (hrest c)
  · rintro ⟨hplain, hhead⟩
    exact ⟨fun c hc => hplain c (List.mem_append_left _ hc),
      takeWhile_ne_nil_iff.mpr ⟨h.ne_nil, hhead⟩⟩

/-- A text that starts with a plain name is plain if the rest is, and starts with no colon. -/
theorem plain_of_component {name rest : List Char} (hne : name ≠ []) (hcolon : ':' ∉ name)
    (hplain : ∀ c ∈ name, IsPlain c) (hrest : ∀ c ∈ rest, IsPlain c) :
    (∀ c ∈ name ++ rest, IsPlain c) ∧ (name ++ rest).head? ≠ some ':' := by
  refine ⟨fun c hc => (List.mem_append.mp hc).elim (hplain c) (hrest c), ?_⟩
  rw [List.head?_append_of_ne_nil _ hne]
  exact fun hhead => hcolon (List.mem_of_mem_head? hhead)

/-- A part behind its mark is plain if the part is. -/
theorem isPlain_marked {mark : Char} {part : Option String} (hmark : mark = ':' ∨ mark = '@')
    (h : ∀ text, part = some text → ∀ c ∈ text.toList, IsPlain c) :
    ∀ c ∈ marked mark part, IsPlain c := by
  intro c hc
  cases part with
  | none => cases hc
  | some text =>
    rcases List.mem_cons.mp hc with rfl | hc
    · exact isPlain_mark (.inr hmark)
    · exact h text rfl c hc

namespace Spelling

variable {w : Spelling}

/-- What stands behind a place is plain. -/
theorem Valid.isPlain_behind (h : w.Valid) :
    ∀ c ∈ marked ':' w.tag ++ marked '@' w.digest, IsPlain c := by
  intro c hc
  rcases List.mem_append.mp hc with hc | hc
  · exact isPlain_marked (.inl rfl)
      (fun t ht x hx => isPlain_of_isTagChar (h.tagChars t ht x hx)) c hc
  · refine isPlain_marked (.inr rfl) (fun d hd => ?_) c hc
    obtain ⟨hex, hhex, rfl⟩ := Option.map_eq_some_iff.mp hd
    exact isPlain_of_isDigest (h.hex hex hhex)

/-- **The registry of a spelling is a host** just if the whole text is plain and does not start with
a colon. -/
theorem Valid.isHost_iff (h : w.Valid) : IsHost w.place.registry ↔
    (∀ c ∈ w.text, IsPlain c) ∧ w.text.head? ≠ some ':' := by
  have hbehind := h.isPlain_behind
  rw [text, List.append_assoc]
  generalize marked ':' w.tag ++ marked '@' w.digest = behind at hbehind
  cases hplace : w.place with
  | hosted registry parts =>
    cases hplace ▸ h.place with
    | hosted host filled hcomponents =>
      rw [Place.registry, Place.text, List.append_assoc]
      refine host.isHost_iff fun c hc => ?_
      rw [List.cons_append, List.mem_cons, List.mem_append] at hc
      rcases hc with rfl | hc | hc
      · exact isPlain_mark (.inl rfl)
      · exact isPlain_joined filled hcomponents c hc
      · exact hbehind c hc
  | path first rest =>
    cases hplace ▸ h.place with
    | path noDot notLocal filled hcomponents =>
      have hne := (hplace ▸ h.place).text_ne_nil
      refine iff_of_true isHost_defaultRegistry (plain_of_component hne ?_ ?_ hbehind)
      · exact not_mem_joined (List.cons_ne_nil _ _) hcomponents (by decide) (by decide)
      · exact isPlain_joined (List.cons_ne_nil _ _) hcomponents
  | single name =>
    cases hplace ▸ h.place with
    | single component =>
      have hne := (hplace ▸ h.place).text_ne_nil
      refine iff_of_true isHost_defaultRegistry (plain_of_component hne ?_ ?_ hbehind)
      · exact not_mem_of_isTagChar component.isTagChar (by decide)
      · exact fun c hc => isPlain_of_isTagChar (component.isTagChar c hc)

end Spelling

/-- It can be seen at a text whether the registry that is read off it is a host. -/
theorem isHost_registry_iff {s : String} {r : ImageReference} (h : parse s = .ok r) :
    IsHost r.registry ↔
      (∀ c ∈ Text.trim s.toList, IsPlain c) ∧ (Text.trim s.toList).head? ≠ some ':' := by
  obtain ⟨w, hw, htext, rfl⟩ := exists_spelling h
  rw [← htext]
  exact hw.isHost_iff

/-- **Any text that is spelled as a registry is read as one**, unless it starts with a blank. -/
theorem exists_registry_iff {registry : String} :
    (∃ s r, parse s = .ok r ∧ r.registry = registry) ↔
      IsRegistry registry ∧ ∀ c, registry.toList.head? = some c → Text.isBlank c = false := by
  constructor
  · rintro ⟨s, r, h, rfl⟩
    have hw := wellFormed_of_parse h
    exact ⟨⟨hw.noSlash, hw.noAt, looksLikeHost_iff.mp hw.host⟩, hw.starts⟩
  · rintro ⟨hregistry, hstarts⟩
    have hw : WellFormed ⟨registry, "app", none, none⟩ :=
      ⟨looksLikeHost_iff.mpr hregistry.host, hregistry.noSlash, hregistry.noAt, hstarts,
        (by decide : repositoryFault? "app".toList = none), nofun, nofun⟩
    exact ⟨_, _, hw.parse_render, rfl⟩

/-- **Which registries are read.** They are the texts without slash and at sign that hold a dot or a
colon or are `localhost`, unless they start with a blank. Whether such a registry is a host, that
is plain and with characters before its first colon, is a matter of the whole text: it is one just
if the text without the blanks around it is plain and does not start with a colon. -/
theorem registries_read (registry s : String) :
    ((∃ t r, parse t = .ok r ∧ r.registry = registry) ↔
      IsRegistry registry ∧ ∀ c, registry.toList.head? = some c → Text.isBlank c = false) ∧
    ∀ r, parse s = .ok r → (IsHost r.registry ↔
      (∀ c ∈ Text.trim s.toList, IsPlain c) ∧ (Text.trim s.toList).head? ≠ some ':') :=
  ⟨exists_registry_iff, fun _ => isHost_registry_iff⟩

/-- Two registries that are no hosts: one with a blank in it, and a port of no host. -/
theorem registry_malformed :
    (parse "my registry.example/spam" = .ok ⟨"my registry.example", "spam", none, none⟩ ∧
      ¬IsHost "my registry.example") ∧
    parse ":5000/spam" = .ok ⟨":5000", "spam", none, none⟩ ∧ ¬IsHost ":5000" := by
  refine ⟨⟨by rfl, fun h => ?_⟩, by rfl, fun h => ?_⟩
  · have hblank := (h.plain ' ' (by decide)).notBlank
    exact absurd hblank (by decide)
  · exact h.named (by decide)

end ImageReference
end ImagePolicy
