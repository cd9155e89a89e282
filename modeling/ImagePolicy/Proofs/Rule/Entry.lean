/-
# What an entry of a policy picks

An entry of a policy's lists names a package (`p`), any rule of it (`p.*`) or one rule of it
(`p.r`), and each of the three either at large or for one term (`p:t`, `p.*:t`, `p.r:t`); one
entry, the wildcard, names everything (`Entry`, `Entry.text`). Which results it is meant for is
said on their code and term (`Entry.Picks`).

The matchers of a result are the texts of the entries that pick it, no more and no less
(`RuleResult.mem_matchers_iff_picked`). So an entry could match a result that it does not pick only
if its text were that of another entry too. It is not, if no name has a dot or a colon in it or is
the wildcard: the first colon ends what names the rules, and the first dot before it ends the
package, whatever the term looks like (`qualified_inj`). A policy with a single entry then keeps,
or drops, just what the entry picks (`Entry.precise`).

Key definitions: `RuleScope`, `Entry`, `Entry.text`, `Entry.WellFormed`, `Entry.Picks`,
`Entry.Precise`.
Key theorems: `qualified_inj`, `RuleResult.mem_matchers_iff_picked`, `Entry.picks_of_text_eq`,
`kept_iff_of_only_included`, `kept_iff_of_only_excluded`, `Entry.precise`.
-/
import ImagePolicy.Proofs.Rule.Selection
import ImagePolicy.Proofs.Text.Cuts

namespace ImagePolicy

/-! ### Qualified texts -/

/-- A text, and behind a separator what qualifies it, if anything does. -/
def qualified (sep : Char) (front : String) : Option String → String
  | none => front
  | some back => front ++ String.singleton sep ++ back

section Qualified

variable {sep c : Char} {front front' : String} {back back' : Option String}

theorem toList_qualified_some (sep : Char) (front back : String) :
    (qualified sep front (some back)).toList = front.toList ++ sep :: back.toList := by
  simp [qualified]

/-- A qualified text is cut at the first separator. -/
theorem splitFirst_qualified (h : sep ∉ front.toList) :
    Text.splitFirst sep (qualified sep front back).toList =
      back.map fun back => (front.toList, back.toList) := by
  cases back with
  | none => exact Text.splitFirst_eq_none_iff.mpr h
  | some back =>
    rw [toList_qualified_some, Text.splitFirst_append h]
    rfl

/-- **A qualified text has one reading**, if what stands in front has no separator in it. -/
theorem qualified_inj (h : sep ∉ front.toList) (h' : sep ∉ front'.toList)
    (heq : qualified sep front back = qualified sep front' back') :
    front = front' ∧ back = back' := by
  have hcut : Text.splitFirst sep (qualified sep front back).toList =
      back.map fun back => (front.toList, back.toList) := splitFirst_qualified h
  rw [heq, splitFirst_qualified h'] at hcut
  cases back with
  | none =>
    cases back' with
    | none => exact ⟨heq, rfl⟩
    | some back' => cases hcut
  | some back =>
    cases back' with
    | none => cases hcut
    | some back' =>
      simp only [Option.map_some, Option.some.injEq, Prod.mk.injEq, String.toList_inj] at hcut
      exact ⟨hcut.1.symm, by rw [hcut.2]⟩

theorem not_mem_qualified (hc : c ≠ sep) (hfront : c ∉ front.toList)
    (hback : ∀ b, back = some b → c ∉ b.toList) : c ∉ (qualified sep front back).toList := by
  cases back with
  | none => exact hfront
  | some b =>
    rw [toList_qualified_some, List.mem_append, List.mem_cons]
    have hb := hback b rfl
    tauto

end Qualified

/-! ### Entries -/

/-- The rules of a package that an entry names. -/
inductive RuleScope where
  | package
  | anyRule
  | rule (name : String)
  deriving DecidableEq, Repr

/-- An entry of the lists of a policy. -/
inductive Entry where
  | everything
  | rules (package : String) (scope : RuleScope) (term : Option String)
  deriving DecidableEq, Repr

/-- A name that stands for itself wherever it stands in an entry. -/
structure PlainName (name : String) : Prop where
  noDot : '.' ∉ name.toList
  noColon : ':' ∉ name.toList
  notWildcard : name ≠ wildcard

namespace RuleScope

/-- What stands behind the package. -/
def part : RuleScope → Option String
  | .package => none
  | .anyRule => some wildcard
  | .rule name => some name

/-- A rule is one of those that are named. -/
def Covers : RuleScope → String → Prop
  | .rule name, q => name = q
  | _, _ => True

/-- A rule that is named has a plain name. -/
def WellFormed : RuleScope → Prop
  | .rule name => PlainName name
  | _ => True

theorem noColon_part {scope : RuleScope} (h : scope.WellFormed) :
    ∀ b, scope.part = some b → ':' ∉ b.toList := by
  intro b hb
  cases scope with
  | package => cases hb
  | anyRule =>
    cases hb
    decide
  | rule name =>
    obtain rfl : name = b := Option.some.inj hb
    have hplain : PlainName name := h
    exact hplain.noColon

/-- Scopes with the same text cover the same rules, if the rule that is named is not called like
the wildcard. -/
theorem covers_of_part_eq {scope other : RuleScope} (h : scope.WellFormed)
    (hpart : scope.part = other.part) {q : String} (hcovers : other.Covers q) :
    scope.Covers q := by
  cases scope with
  | package => trivial
  | anyRule => trivial
  | rule name =>
    have hplain : PlainName name := h
    cases other with
    | package => cases hpart
    | anyRule => exact absurd (Option.some.inj hpart) hplain.notWildcard
    | rule name' => exact (Option.some.inj hpart).trans hcovers

end RuleScope

namespace Entry

/-- An entry as it is written. -/
def text : Entry → String
  | .everything => wildcard
  | .rules package scope term => qualified ':' (qualified '.' package scope.part) term

example : (Entry.rules "release" .anyRule (some "late")).text = "release.*:late" := by
  decide

/-- The names in an entry are plain; a term can be any text. -/
def WellFormed : Entry → Prop
  | .everything => True
  | .rules package scope _ => PlainName package ∧ scope.WellFormed

/-- The results that an entry is meant for. -/
def Picks (r : RuleResult) : Entry → Prop
  | .everything => True
  | .rules package scope term =>
    ∃ q, r.Coded package q ∧ scope.Covers q ∧ ∀ t, term = some t → r.Termed t

end Entry

namespace RuleResult

variable {r : RuleResult} {m : String}

/-- The matchers that a code makes name its package, with a scope that covers its rule. -/
theorem mem_codeMatchers_iff_covered : m ∈ r.codeMatchers ↔
    ∃ p q scope, r.Coded p q ∧ RuleScope.Covers scope q ∧ qualified '.' p scope.part = m := by
  have hany : ∀ p : String, qualified '.' p (some wildcard) = p ++ ".*" := by
    intro p
    show p ++ "." ++ "*" = p ++ ".*"
    rw [String.append_assoc]
    rfl
  rw [mem_codeMatchers_iff]
  constructor
  · rintro ⟨p, q, hc, rfl | rfl | rfl⟩
    · exact ⟨m, q, .package, hc, trivial, rfl⟩
    · exact ⟨p, q, .anyRule, hc, trivial, hany p⟩
    · exact ⟨p, q, .rule q, hc, rfl, rfl⟩
  · rintro ⟨p, q, scope, hc, hcovers, rfl⟩
    refine ⟨p, q, hc, ?_⟩
    cases scope with
    | package => exact .inl rfl
    | anyRule => exact .inr (.inl (hany p))
    | rule name =>
      obtain rfl : name = q := hcovers
      exact .inr (.inr rfl)

/-- **The matchers of a result are the texts of the entries that pick it.** -/
theorem mem_matchers_iff_picked : m ∈ r.matchers ↔ ∃ e : Entry, e.Picks r ∧ e.text = m := by
  simp only [matchers, List.mem_append, List.mem_singleton, mem_termMatchers_iff,
    mem_codeMatchers_iff_covered]
  constructor
  · rintro ((⟨p, q, scope, hc, hcovers, rfl⟩ | ⟨t, ht, _, ⟨p, q, scope, hc, hcovers, rfl⟩, rfl⟩) |
      rfl)
    · refine ⟨.rules p scope none, ⟨q, hc, hcovers, ?_⟩, rfl⟩
      intro _ ht
      cases ht
    · refine ⟨.rules p scope (some t), ⟨q, hc, hcovers, ?_⟩, rfl⟩
      rintro _ ⟨⟩
      exact ht
    · exact ⟨.everything, trivial, rfl⟩
  · rintro ⟨e, hpicks, rfl⟩
    cases e with
    | everything => exact .inr rfl
    | rules p scope term =>
      obtain ⟨q, hc, hcovers, hterm⟩ := hpicks
      left
      cases term with
      | none => exact .inl ⟨p, q, scope, hc, hcovers, rfl⟩
      | some t => exact .inr ⟨t, hterm t rfl, _, ⟨p, q, scope, hc, hcovers, rfl⟩, rfl⟩

/-- The only matcher of a result without a package is the wildcard. -/
theorem mem_matchers_iff_of_uncoded (h : ∀ p q, ¬r.Coded p q) : m ∈ r.matchers ↔ m = wildcard := by
  rw [mem_matchers_iff_picked]
  constructor
  · rintro ⟨e, hpicks, rfl⟩
    cases e with
    | everything => rfl
    | rules p scope term =>
      obtain ⟨q, hc, -⟩ := hpicks
      exact absurd hc (h p q)
  · rintro rfl
    exact ⟨.everything, trivial, rfl⟩

/-- Segments of a code without a colon have none. -/
theorem Coded.noColon {p q : String} (hc : r.Coded p q)
    (hr : ∀ code, r.Says "code" code → ':' ∉ code.toList) :
    ':' ∉ p.toList ∧ ':' ∉ q.toList := by
  obtain ⟨-, code, hsays, hends⟩ := hc
  have hcode := hr code hsays
  rcases hends.spelled with rfl | ⟨front, rfl⟩
  · simp only [String.toList_append, List.mem_append, not_or] at hcode
    exact ⟨hcode.1.1, hcode.2⟩
  · simp only [String.toList_append, List.mem_append, not_or] at hcode
    exact ⟨hcode.1.1.2, hcode.2⟩

end RuleResult

namespace Entry

variable {r : RuleResult}

/-- Entries with plain names that have the same text name the same package, scope and term. -/
theorem rules_inj {p p' : String} {scope scope' : RuleScope} {term term' : Option String}
    (hdot : '.' ∉ p.toList) (hdot' : '.' ∉ p'.toList)
    (hcolon : ':' ∉ (qualified '.' p scope.part).toList)
    (hcolon' : ':' ∉ (qualified '.' p' scope'.part).toList)
    (heq : (Entry.rules p scope term).text = (Entry.rules p' scope' term').text) :
    p = p' ∧ scope.part = scope'.part ∧ term = term' := by
  obtain ⟨hrules, hterm⟩ := qualified_inj hcolon hcolon' heq
  obtain ⟨hpackage, hpart⟩ := qualified_inj hdot hdot' hrules
  exact ⟨hpackage, hpart, hterm⟩

/-- An entry that picks a result has a package and a scope without a colon, if the code of the
result has none. -/
theorem noColon_of_picks {p : String} {scope : RuleScope} {term : Option String}
    (hpicks : (Entry.rules p scope term).Picks r)
    (hr : ∀ code, r.Says "code" code → ':' ∉ code.toList) :
    ':' ∉ (qualified '.' p scope.part).toList := by
  obtain ⟨q, hc, hcovers, -⟩ := hpicks
  obtain ⟨hp, hq⟩ := hc.noColon hr
  refine not_mem_qualified (by decide) hp fun b hb => ?_
  cases scope with
  | package => cases hb
  | anyRule =>
    cases hb
    decide
  | rule name =>
    obtain rfl : name = b := Option.some.inj hb
    obtain rfl : name = q := hcovers
    exact hq

/-- An entry with plain names picks what another entry with the same text picks. -/
theorem picks_of_text_eq {e other : Entry} (he : e.WellFormed)
    (hr : ∀ code, r.Says "code" code → ':' ∉ code.toList) (hother : other.Picks r)
    (heq : e.text = other.text) : e.Picks r := by
  cases e with
  | everything => trivial
  | rules p scope term =>
    obtain ⟨hp, hscope⟩ : PlainName p ∧ scope.WellFormed := he
    have hcolon : ':' ∉ (qualified '.' p scope.part).toList :=
      not_mem_qualified (by decide) hp.noColon (RuleScope.noColon_part hscope)
    cases other with
    | everything =>
      -- the wildcard is spelled like a package of that name
      have hspelled : (Entry.rules p scope term).text = (Entry.rules wildcard .package none).text :=
        heq
      obtain ⟨hpackage, -⟩ := rules_inj hp.noDot (by decide) hcolon (by decide) hspelled
      exact absurd hpackage hp.notWildcard
    | rules p' scope' term' =>
      have hcolon' := noColon_of_picks hother hr
      obtain ⟨q, hc, hcovers, hterm⟩ := hother
      obtain ⟨-, code, -, hends⟩ := id hc
      obtain ⟨rfl, hpart, rfl⟩ := rules_inj hp.noDot hends.packageWhole hcolon hcolon' heq
      exact ⟨q, hc, RuleScope.covers_of_part_eq hscope hpart hcovers, hterm⟩

/-- **An entry with plain names matches what it picks**, in codes without a colon. -/
theorem text_mem_matchers_iff {e : Entry} (he : e.WellFormed)
    (hr : ∀ code, r.Says "code" code → ':' ∉ code.toList) :
    e.text ∈ r.matchers ↔ e.Picks r := by
  rw [RuleResult.mem_matchers_iff_picked]
  constructor
  · rintro ⟨other, hother, heq⟩
    exact picks_of_text_eq he hr hother heq.symm
  · intro hpicks
    exact ⟨e, hpicks, rfl⟩

end Entry

/-! ### Policies with one entry -/

section Single

variable {c : PolicyContext} {r : RuleResult} {m : String} {excluded nonBlocking : List String}

/-- What only includes one text keeps what the text matches. -/
theorem kept_iff_of_only_included (h : c.Lists [m] [] [] []) : Kept c r ↔ m ∈ r.matchers := by
  have hselects : c.Selects r ↔ r.Matches m := by
    unfold PolicyContext.Selects PolicyContext.Open RuleResult.InCollection
    simp [h.included, h.collections]
  have hexcludes : ∀ n, ¬c.Excludes n := by
    intro n
    simp [PolicyContext.Excludes, h.excluded, h.nonBlocking]
  rw [kept_iff, hselects, RuleResult.mem_matchers_iff]
  exact ⟨fun hk => hk.1, fun hm => ⟨hm, fun n _ => hexcludes n⟩⟩

/-- What includes nothing, and so everything, and excludes one text or does not let it block keeps
what the text does not match. -/
theorem kept_iff_of_only_excluded (h : c.Lists [] excluded nonBlocking [])
    (hm : excluded ++ nonBlocking = [m]) : Kept c r ↔ m ∉ r.matchers := by
  have hexcludes : ∀ n, c.Excludes n ↔ n = m := by
    intro n
    rw [PolicyContext.Excludes, h.excluded, h.nonBlocking, ← List.mem_append, hm,
      List.mem_singleton]
  rw [kept_iff, RuleResult.mem_matchers_iff]
  constructor
  · rintro ⟨-, hfree⟩ hmatches
    exact hfree m hmatches ((hexcludes m).mpr rfl)
  · intro hnot
    refine ⟨.inr (.inr ⟨h.included, h.collections⟩), fun n hn hx => hnot ?_⟩
    rw [← (hexcludes n).mp hx]
    exact hn

end Single

namespace Entry

/-- An entry says of a result what it is meant to say: among the matchers of the result, and on
its own in a policy that includes it, excludes it, or does not let it block. -/
structure Precise (e : Entry) (r : RuleResult) : Prop where
  matched : e.text ∈ r.matchers ↔ e.Picks r
  uncoded : (∀ p q, ¬r.Coded p q) → ∀ m, m ∈ r.matchers ↔ m = wildcard
  included : ∀ c : PolicyContext, c.Lists [e.text] [] [] [] →
    ((RuleSelection.ofContext c).keeps r = true ↔ e.Picks r)
  excluded : ∀ c : PolicyContext, c.Lists [] [e.text] [] [] →
    ((RuleSelection.ofContext c).keeps r = true ↔ ¬e.Picks r)
  nonBlocking : ∀ c : PolicyContext, c.Lists [] [] [e.text] [] →
    ((RuleSelection.ofContext c).keeps r = true ↔ ¬e.Picks r)

/-- **An entry is precise.** If its names are plain, it matches just the results that it picks,
whatever their terms are and whatever stands in front of the last two segments of their codes, as
long as these have no colon; and a policy with no other entry keeps these results and no others,
or drops them and no others. -/
theorem precise (e : Entry) (he : e.WellFormed) (r : RuleResult)
    (hr : ∀ code, r.Says "code" code → ':' ∉ code.toList) : e.Precise r where
  matched := text_mem_matchers_iff he hr
  uncoded := fun huncoded _ => RuleResult.mem_matchers_iff_of_uncoded huncoded
  included := by
    intro c hc
    rw [RuleSelection.keeps_iff, kept_iff_of_only_included hc, text_mem_matchers_iff he hr]
  excluded := by
    intro c hc
    rw [RuleSelection.keeps_iff, kept_iff_of_only_excluded hc rfl, text_mem_matchers_iff he hr]
  nonBlocking := by
    intro c hc
    rw [RuleSelection.keeps_iff, kept_iff_of_only_excluded hc rfl, text_mem_matchers_iff he hr]

/-- A rule for one term, which looks like an entry itself. -/
theorem precise_term :
    let e : Entry := .rules "release" (.rule "tests") (some "a.*:*")
    let r : RuleResult := {
      message := "late"
      metadata := [("code", .text "policy.release.tests"), ("term", .text "a.*:*")] }
    e.WellFormed ∧ e.text = "release.tests:a.*:*" ∧ e.text ∈ r.matchers ∧ e.Precise r := by
  intro e r
  have hplain : PlainName "release" ∧ PlainName "tests" :=
    ⟨⟨by decide, by decide, by decide⟩, ⟨by decide, by decide, by decide⟩⟩
  have hcode : ∀ code, r.Says "code" code → ':' ∉ code.toList := by
    intro code hsays
    obtain rfl : "policy.release.tests" = code := Json.Value.text.inj (Option.some.inj hsays)
    decide
  exact ⟨hplain, by decide, by decide +kernel, precise e hplain r hcode⟩

end Entry
end ImagePolicy
