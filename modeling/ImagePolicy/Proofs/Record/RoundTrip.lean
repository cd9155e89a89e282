/-
# Records that are read back

The text of a policy, a rule result, a check group or a list of them, a signature or an attestation
is read back as the record it was written from. The JSON values that a record keeps are supposed to
have their members in key order, which they do if they were read, and their numbers to be integers
of those that stay integers; and the text may be nested as deep as a text may be.

Then the text of a record is the same for all the texts that this record was read from: in the form
of an object or of a list, in whatever order of members, with members that nobody knows, with
optional fields that are empty, null or missing. Fields that are left out are restored, each to the
value that it is left out for.

Key definitions: `Codec.text`, `Codec.decode`, `Codec.Fits`, `Codec.Lossless`.
Key theorems: `Codec.Lawful.lossless`, `records_lossless`.
-/
import ImagePolicy.Policy.Specification
import ImagePolicy.Attestation.Record
import ImagePolicy.Rule.Result
import ImagePolicy.Proofs.Record.Rows

namespace ImagePolicy

open Json (Tree Value)

/-! ### Texts -/

namespace Codec

variable {α : Type} (k : Codec α)

/-- The JSON text of a record. -/
def text (x : α) : List Char :=
  Json.render (k.encode x)

/-- The record that a JSON text spells. -/
def decode (s : Json.Source) : Option α :=
  (Json.read s).bind k.ofTree?

/-- A record whose text can be read: what it keeps is in key order and has whole numbers, and the
text is not nested deeper than a text may be. -/
structure Fits (x : α) : Prop where
  ordered : ∀ v ∈ k.kept x, Json.Ordered v
  whole : ∀ v ∈ k.kept x, Json.Whole v
  depth : Json.depth (k.encode x) ≤ Json.maxNesting

/-- Nothing is lost of a record between its text and its being read. -/
structure Lossless : Prop where
  /-- A record is read back from its text. -/
  decode_text : ∀ x, k.Fits x → k.decode ((k.text x).map some) = some x
  /-- A record that was read from any text is read back from its own, if its numbers are whole. -/
  decode_again : ∀ s x, k.decode s = some x → (∀ v ∈ k.kept x, Json.Whole v) →
    k.Fits x ∧ k.decode ((k.text x).map some) = some x
  /-- Records have the same text just if they are equal. -/
  text_eq_iff : ∀ x y, k.Fits x → k.Fits y → (k.text x = k.text y ↔ x = y)

variable {k}

/-- **A lawful codec loses nothing.** -/
theorem Lawful.lossless (hk : k.Lawful Json.maxNesting) : k.Lossless := by
  have hback : ∀ x, k.Fits x → k.decode ((k.text x).map some) = some x := by
    intro x hx
    have hkept : ∀ v ∈ k.kept x, Readable v := fun v hv => ⟨hx.ordered v hv, hx.whole v hv⟩
    rw [decode, text, Json.read_render, Option.bind_some]
    exact hk.reads x hkept hx.depth
  refine ⟨hback, fun s x hread hwhole => ?_, fun x y hx hy => ⟨fun heq => ?_, congrArg k.text⟩⟩
  · obtain ⟨t, -, ht⟩ := Option.bind_eq_some_iff.mp hread
    obtain ⟨hordered, hdepth⟩ := hk.sound t x ht
    have hfits : k.Fits x := ⟨hordered, hwhole, hdepth⟩
    exact ⟨hfits, hback x hfits⟩
  · have hxy := hback x hx
    rw [heq, hback y hy] at hxy
    exact (Option.some.inj hxy).symm

end Codec

/-! ### The codecs of the records -/

namespace RuleLists

/-- The three lists. -/
def codec : Codec RuleLists := ⟨encode, ofTree?, fun _ => []⟩

/-- A list of strings, which is written even when it is empty. -/
def strings : Slot (List String) :=
  .given (.list .string) []

/-- The declared fields as they are written and read. -/
def slots : List (RecordField RuleLists) :=
  [strings.on included, strings.on excluded, strings.on collections]

theorem codec_isRow : codec.IsRow fields slots where
  nodup := by decide
  length := rfl
  encode _ := rfl
  kept l := by
    simp [codec, slots, strings, Slot.on, Slot.given, Slot.defaulted, Codec.list, Codec.string]
  ofTree? t l := by
    constructor
    · intro h
      replace h : RuleLists.ofTree? t = some l := h
      unfold RuleLists.ofTree? at h
      split at h
      · next a b c hrow =>
        split at h
        · next ha hb hc =>
          cases h
          exact ⟨_, hrow, .cons ha (.cons hb (.cons hc .nil))⟩
        · cases h
      · cases h
    · intro ⟨_, hrow, .cons ha (.cons hb (.cons hc .nil))⟩
      have ha : stringsField? _ = some l.included := ha
      have hb : stringsField? _ = some l.excluded := hb
      have hc : stringsField? _ = some l.collections := hc
      simp only [codec, RuleLists.ofTree?, hrow, ha, hb, hc]

theorem codec_lawful {n : Nat} : codec.Lawful (n + 2) := by
  have hstrings : strings.Lawful (n + 1) := Slot.givenList_lawful Codec.string_lawful
  refine codec_isRow.lawful ?_
  simp only [slots, List.forall_mem_cons]
  exact ⟨hstrings.on _, hstrings.on _, hstrings.on _, nofun⟩

end RuleLists

namespace Exceptions

/-- The older list of exceptions. -/
def codec : Codec Exceptions := ⟨encode, ofTree?, fun _ => []⟩

/-- The declared field as it is written and read. -/
def slots : List (RecordField Exceptions) :=
  [RuleLists.strings.on nonBlocking]

theorem codec_isRow : codec.IsRow fields slots where
  nodup := by decide
  length := rfl
  encode _ := rfl
  kept e := by
    simp [codec, slots, RuleLists.strings, Slot.on, Slot.given, Slot.defaulted, Codec.list,
      Codec.string]
  ofTree? t e := by
    constructor
    · intro h
      replace h : Exceptions.ofTree? t = some e := h
      unfold Exceptions.ofTree? at h
      split at h
      · next a hrow =>
        obtain ⟨nonBlocking, ha, rfl⟩ := Option.map_eq_some_iff.mp h
        exact ⟨_, hrow, .cons ha .nil⟩
      · cases h
    · intro ⟨_, hrow, .cons ha .nil⟩
      have ha : stringsField? _ = some e.nonBlocking := ha
      simp only [codec, Exceptions.ofTree?, hrow, ha, Option.map_some]

theorem codec_lawful {n : Nat} : codec.Lawful (n + 2) := by
  refine codec_isRow.lawful ?_
  simp only [slots, List.forall_mem_singleton]
  exact (Slot.givenList_lawful Codec.string_lawful).on _

end Exceptions

namespace PolicySpec

/-- Policies, which keep their sources. -/
def codec : Codec PolicySpec := ⟨encode, ofTree?, sources⟩

/-- The declared fields as they are written and read. -/
def slots : List (RecordField PolicySpec) :=
  [(Slot.defaulted .string Field.writeString "").on publicKey,
    (Slot.defaulted .string Field.writeString "").on rekorUrl,
    (Slot.optional RuleLists.codec).on configuration,
    (Slot.optional Exceptions.codec).on exceptions,
    (Slot.defaulted (Codec.value 2).list (Field.writeList id) []).on sources]

theorem codec_isRow : codec.IsRow fields slots where
  nodup := by decide
  length := rfl
  encode _ := rfl
  kept p := by
    have hnone : ∀ {α : Type} (o : Option α), o.toList.flatMap (fun _ => ([] : List Value)) = [] :=
      fun o => by cases o <;> rfl
    simp [codec, slots, Slot.on, Slot.defaulted, Slot.optional, Codec.list, Codec.string,
      Codec.value, RuleLists.codec, Exceptions.codec, hnone]
  ofTree? t p := by
    constructor
    · intro h
      replace h : PolicySpec.ofTree? t = some p := h
      unfold PolicySpec.ofTree? at h
      split at h
      · next a b c d e hrow =>
        split at h
        · next ha hb hc hd he =>
          cases h
          exact ⟨_, hrow, .cons ha (.cons hb (.cons hc (.cons hd (.cons he .nil))))⟩
        · cases h
      · cases h
    · intro ⟨_, hrow, .cons ha (.cons hb (.cons hc (.cons hd (.cons he .nil))))⟩
      have ha : Field.defaulted? Field.string? "" _ = some p.publicKey := ha
      have hb : Field.defaulted? Field.string? "" _ = some p.rekorUrl := hb
      have hc : Field.optional? RuleLists.ofTree? _ = some p.configuration := hc
      have hd : Field.optional? Exceptions.ofTree? _ = some p.exceptions := hd
      have he : Field.defaulted? (Field.list? (Field.value? 2)) [] _ = some p.sources := he
      simp only [codec, PolicySpec.ofTree?, hrow, ha, hb, hc, hd, he]

theorem codec_lawful : codec.Lawful Json.maxNesting := by
  refine codec_isRow.lawful (n := Json.maxNesting - 1) ?_
  simp only [slots, List.forall_mem_cons]
  exact ⟨Slot.writeString_lawful.on _, Slot.writeString_lawful.on _,
    (Slot.optional_lawful RuleLists.codec_lawful nofun).on _,
    (Slot.optional_lawful Exceptions.codec_lawful nofun).on _,
    (Slot.writeList_lawful (Codec.value_lawful 2)).on _, nofun⟩

end PolicySpec

namespace RuleResult

variable {above : Nat}

/-- Results that so many lists and objects enclose. They keep their metadata. -/
def codec (above : Nat) : Codec RuleResult := ⟨encode, ofTree? above, fun r => [.object r.metadata]⟩

/-- Metadata, which are left out when there are none. -/
def metadataSlot (above : Nat) : Slot Json.Members :=
  .defaulted (.members (above + 1)) (fun ms => if ms.isEmpty then none else some (.object ms)) []

/-- The declared fields as they are written and read. -/
def slots (above : Nat) : List (RecordField RuleResult) :=
  [(Slot.required .string).on message, (metadataSlot above).on metadata]

theorem codec_isRow : (codec above).IsRow fields (slots above) where
  nodup := by decide
  length := rfl
  encode _ := rfl
  kept _ := rfl
  ofTree? t r := by
    constructor
    · intro h
      replace h : RuleResult.ofTree? above t = some r := h
      unfold RuleResult.ofTree? at h
      split at h
      · next a b hrow =>
        split at h
        · next ha hb =>
          cases h
          exact ⟨_, hrow, .cons ha (.cons hb .nil)⟩
        · cases h
      · cases h
    · intro ⟨_, hrow, .cons ha (.cons hb .nil)⟩
      have ha : Field.required? Field.string? _ = some r.message := ha
      have hb : Field.defaulted? (Field.members? (above + 1)) [] _ = some r.metadata := hb
      simp only [codec, RuleResult.ofTree?, hrow, ha, hb]

theorem metadataSlot_lawful (h : above + 1 < Json.maxNesting) :
    (metadataSlot above).Lawful (Json.maxNesting - (above + 1)) := by
  refine Slot.lawful_of_default (Codec.members_lawful h) (fun ms => ?_) ?_ nofun
  · cases ms with
    | nil => exact .inr ⟨rfl, rfl⟩
    | cons m ms => exact .inl rfl
  · exact List.forall_mem_singleton.mpr ⟨List.Pairwise.nil, trivial⟩

theorem codec_lawful (h : above + 1 < Json.maxNesting) :
    (codec above).Lawful (Json.maxNesting - (above + 1) + 1) := by
  refine codec_isRow.lawful ?_
  simp only [slots, List.forall_mem_cons]
  exact ⟨(Slot.required_lawful Codec.string_lawful).on _, (metadataSlot_lawful h).on _, nofun⟩

end RuleResult

namespace CheckGroup

variable {above : Nat}

/-- Groups that so many lists and objects enclose. They keep the metadata of their results. -/
def codec (above : Nat) : Codec CheckGroup where
  encode := encode
  ofTree? := ofTree? above
  kept g := (g.successes ++ g.warnings ++ g.failures).map fun r => .object r.metadata

/-- Lists of groups. -/
def listCodec : Codec (List CheckGroup) := (codec 1).list

/-- Results, which are left out when there are none. -/
def resultsSlot (above : Nat) : Slot (List RuleResult) :=
  .defaulted (RuleResult.codec (above + 2)).list (Field.writeList RuleResult.encode) []

/-- The declared fields as they are written and read. -/
def slots (above : Nat) : List (RecordField CheckGroup) :=
  [(Slot.given .string "").on filename, (Slot.given .string "").on ruleNamespace,
    (resultsSlot above).on successes, (resultsSlot above).on warnings,
    (resultsSlot above).on failures]

theorem codec_isRow : (codec above).IsRow fields (slots above) where
  nodup := by decide
  length := rfl
  encode _ := rfl
  kept g := by
    simp [codec, slots, resultsSlot, Slot.on, Slot.given, Slot.defaulted, Codec.list, Codec.string,
      RuleResult.codec, List.map_eq_flatMap]
  ofTree? t g := by
    constructor
    · intro h
      replace h : CheckGroup.ofTree? above t = some g := h
      unfold CheckGroup.ofTree? at h
      split at h
      · next a b c d e hrow =>
        dsimp only at h
        split at h
        · next ha hb hc hd he =>
          cases h
          exact ⟨_, hrow, .cons ha (.cons hb (.cons hc (.cons hd (.cons he .nil))))⟩
        · cases h
      · cases h
    · intro ⟨_, hrow, .cons ha (.cons hb (.cons hc (.cons hd (.cons he .nil))))⟩
      have ha : Field.defaulted? Field.string? "" _ = some g.filename := ha
      have hb : Field.defaulted? Field.string? "" _ = some g.ruleNamespace := hb
      have hc : (resultsSlot above).read? _ = some g.successes := hc
      have hd : (resultsSlot above).read? _ = some g.warnings := hd
      have he : (resultsSlot above).read? _ = some g.failures := he
      simp only [resultsSlot, Slot.defaulted, Codec.list, RuleResult.codec] at hc hd he
      simp only [codec, CheckGroup.ofTree?, hrow, ha, hb, hc, hd, he]

theorem codec_lawful (h : above + 3 < Json.maxNesting) :
    (codec above).Lawful (Json.maxNesting - (above + 3) + 3) := by
  have hresults : (resultsSlot above).Lawful (Json.maxNesting - (above + 3) + 2) :=
    Slot.writeList_lawful (RuleResult.codec_lawful h)
  refine codec_isRow.lawful ?_
  simp only [slots, List.forall_mem_cons]
  exact ⟨Slot.givenString_lawful.on _, Slot.givenString_lawful.on _, hresults.on _, hresults.on _,
    hresults.on _, nofun⟩

end CheckGroup

namespace Signature

/-- Signatures. -/
def codec : Codec Signature := ⟨encode, ofTree?, fun _ => []⟩

/-- The declared fields as they are written and read. -/
def slots : List (RecordField Signature) :=
  [(Slot.defaulted .string Field.writeString "").on keyId, (Slot.required .string).on signature,
    (Slot.optional .string).on certificate, (Slot.optional .string).on chain]

theorem codec_isRow : codec.IsRow fields slots where
  nodup := by decide
  length := rfl
  encode _ := rfl
  kept s := by
    have hnone : ∀ o : Option String, o.toList.flatMap (fun _ => ([] : List Value)) = [] :=
      fun o => by cases o <;> rfl
    simp [codec, slots, Slot.on, Slot.defaulted, Slot.required, Slot.optional, Codec.string, hnone]
  ofTree? t s := by
    constructor
    · intro h
      replace h : Signature.ofTree? t = some s := h
      unfold Signature.ofTree? at h
      split at h
      · next a b c d hrow =>
        split at h
        · next ha hb hc hd =>
          cases h
          exact ⟨_, hrow, .cons ha (.cons hb (.cons hc (.cons hd .nil)))⟩
        · cases h
      · cases h
    · intro ⟨_, hrow, .cons ha (.cons hb (.cons hc (.cons hd .nil)))⟩
      have ha : Field.defaulted? Field.string? "" _ = some s.keyId := ha
      have hb : Field.required? Field.string? _ = some s.signature := hb
      have hc : Field.optional? Field.string? _ = some s.certificate := hc
      have hd : Field.optional? Field.string? _ = some s.chain := hd
      simp only [codec, Signature.ofTree?, hrow, ha, hb, hc, hd]

theorem codec_lawful {n : Nat} : codec.Lawful (n + 1) := by
  refine codec_isRow.lawful ?_
  simp only [slots, List.forall_mem_cons]
  exact ⟨Slot.writeString_lawful.on _, (Slot.required_lawful Codec.string_lawful).on _,
    (Slot.optional_lawful Codec.string_lawful nofun).on _,
    (Slot.optional_lawful Codec.string_lawful nofun).on _, nofun⟩

end Signature

namespace Attestation

variable {above : Nat}

/-- Attestations that so many lists and objects enclose. They keep their statement. -/
def codec (above : Nat) : Codec Attestation := ⟨encode, ofTree? above, fun a => [a.statement]⟩

/-- The declared fields as they are written and read. -/
def slots (above : Nat) : List (RecordField Attestation) :=
  [(Slot.required (.value (above + 1))).on statement,
    (Slot.given Signature.codec.list []).on signatures]

theorem codec_isRow : (codec above).IsRow fields (slots above) where
  nodup := by decide
  length := rfl
  encode _ := rfl
  kept a := by
    simp [codec, slots, Slot.on, Slot.given, Slot.defaulted, Slot.required, Codec.list,
      Codec.value, Signature.codec]
  ofTree? t r := by
    constructor
    · intro h
      replace h : Attestation.ofTree? above t = some r := h
      unfold Attestation.ofTree? at h
      split at h
      · next a b hrow =>
        split at h
        · next ha hb =>
          cases h
          exact ⟨_, hrow, .cons ha (.cons hb .nil)⟩
        · cases h
      · cases h
    · intro ⟨_, hrow, .cons ha (.cons hb .nil)⟩
      have ha : Field.required? (Field.value? (above + 1)) _ = some r.statement := ha
      have hb : Field.defaulted? (Field.list? Signature.ofTree?) [] _ = some r.signatures := hb
      simp only [codec, Attestation.ofTree?, hrow, ha, hb]

theorem codec_lawful (h : above + 2 < Json.maxNesting) :
    (codec above).Lawful (Json.maxNesting - (above + 1) + 1) := by
  have hlevels : Json.maxNesting - (above + 1) = Json.maxNesting - (above + 3) + 2 := by omega
  have hsignatures : (Slot.given Signature.codec.list []).Lawful (Json.maxNesting - (above + 1)) :=
    hlevels ▸ Slot.givenList_lawful Signature.codec_lawful
  refine codec_isRow.lawful ?_
  simp only [slots, List.forall_mem_cons]
  exact ⟨(Slot.required_lawful (Codec.value_lawful (above + 1))).on _, hsignatures.on _, nofun⟩

end Attestation

/-- **No record is lost in JSON.** -/
theorem records_lossless : PolicySpec.codec.Lossless ∧ (RuleResult.codec 0).Lossless ∧
    (CheckGroup.codec 0).Lossless ∧ CheckGroup.listCodec.Lossless ∧ Signature.codec.Lossless ∧
    (Attestation.codec 0).Lossless := by
  have hresult : (RuleResult.codec 0).Lawful Json.maxNesting := RuleResult.codec_lawful (by decide)
  have hgroup : (CheckGroup.codec 0).Lawful Json.maxNesting := CheckGroup.codec_lawful (by decide)
  have hgroups : CheckGroup.listCodec.Lawful Json.maxNesting :=
    (CheckGroup.codec_lawful (by decide)).list
  have hsignature : Signature.codec.Lawful Json.maxNesting := Signature.codec_lawful
  have hattestation : (Attestation.codec 0).Lawful Json.maxNesting :=
    Attestation.codec_lawful (by decide)
  exact ⟨PolicySpec.codec_lawful.lossless, hresult.lossless, hgroup.lossless, hgroups.lossless,
    hsignature.lossless, hattestation.lossless⟩

/-- The fields of a list that are empty or null are left out of the object. -/
example : (Signature.codec.decode (.ofString "[\"\", \"MEUC\", null]")).map Signature.codec.text =
    some "\x7b\"sig\":\"MEUC\"\x7d".toList := by decide +kernel

end ImagePolicy
