/-
# What a classification prints first

A classification that has an outcome prints the time that it was judged at before anything else: in
a line of its own, or as the first member of a JSON object, whose keys come in order. The time is
the same in both, since no character of it has to be escaped in JSON.

Key definitions: `Json.Plain`, `CommandLine.timeHeading`, `CommandLine.Begins`.
Key theorems: `Json.plain_renderSeconds`, `CommandLine.printed_begins`.
-/
import ImagePolicy.CommandLine.Answer
import ImagePolicy.Proofs.Text.Digits

namespace ImagePolicy

/-! ### A time in JSON -/

namespace Json

/-- The characters of a text stand for themselves inside a JSON string. -/
def Plain (cs : List Char) : Prop :=
  ∀ c ∈ cs, renderChar c = [c]

theorem Plain.append {cs ds : List Char} (hc : Plain cs) (hd : Plain ds) : Plain (cs ++ ds) :=
  List.forall_mem_append.mpr ⟨hc, hd⟩

theorem Plain.cons {c : Char} {cs : List Char} (hc : renderChar c = [c]) (h : Plain cs) :
    Plain (c :: cs) :=
  List.forall_mem_cons.mpr ⟨hc, h⟩

theorem Plain.flatMap {cs : List Char} (h : Plain cs) : cs.flatMap renderChar = cs := by
  induction cs with
  | nil => rfl
  | cons c cs ih =>
    obtain ⟨hc, hcs⟩ := List.forall_mem_cons.mp h
    rw [List.flatMap_cons, hc, ih hcs]
    rfl

theorem renderChar_digitChar {d : Nat} (h : d < 10) :
    renderChar (Text.digitChar d) = [Text.digitChar d] := by
  interval_cases d <;> rfl

theorem plain_padded (width n : Nat) : Plain (Text.padded width n) := by
  refine Plain.append (fun c hc => ?_) (fun c hc => ?_)
  · rw [List.eq_of_mem_replicate hc]
    rfl
  · obtain ⟨d, hd, rfl⟩ := List.mem_map.mp hc
    exact renderChar_digitChar (Text.lt_ten_of_mem_digits d hd)

theorem plain_renderYear (year : Int) : Plain (Instant.renderYear year) := by
  unfold Instant.renderYear
  split
  · exact plain_padded 4 _
  · refine .cons ?_ (plain_padded 4 _)
    split <;> rfl

/-- No character of a time has to be escaped. -/
theorem plain_renderSeconds (i : Instant) : Plain i.renderSeconds := by
  have hdate : Plain (Instant.renderDate i.date) :=
    .append (.append (plain_renderYear _) (.cons rfl (plain_padded 2 _)))
      (.cons rfl (plain_padded 2 _))
  have htime : Plain (Instant.renderTime i.timeOfDay) :=
    .append (.append (plain_padded 2 _) (.cons rfl (plain_padded 2 _)))
      (.cons rfl (plain_padded 2 _))
  exact .append (.append hdate (.cons rfl htime)) (.cons rfl nofun)

theorem renderText_secondsText (i : Instant) :
    renderText i.secondsText = '"' :: i.renderSeconds ++ ['"'] := by
  rw [renderText, Instant.secondsText, String.toList_ofList, (plain_renderSeconds i).flatMap]

end Json

/-! ### The heading -/

namespace CommandLine

/-- What stands in front of a classification that is printed. -/
def timeHeading (json : Bool) (time : String) : String :=
  if json then "\x7b\n  \"effectiveTime\": \"" ++ time ++ "\",\n"
  else "Effective time: " ++ time ++ "\n"

/-- A text begins with another. -/
def Begins (front text : String) : Prop :=
  front.toList <+: text.toList

theorem Begins.refl (text : String) : Begins text text :=
  List.prefix_rfl

theorem Begins.append {front text : String} (h : Begins front text) (rest : String) :
    Begins front (text ++ rest) := by
  unfold Begins
  rw [String.toList_append]
  exact h.trans (List.prefix_append _ _)

theorem plainText_begins (c : PolicyContext) (groups : List CheckGroup) (passed : Bool) :
    Begins (timeHeading false c.instant.secondsText) (plainText c groups passed) :=
  ((((Begins.refl _).append _).append _).append _).append _

/-- The keys of the document come in order, so the time comes first. -/
theorem ordered_document (passed : Bool) (time : String) (results : List Json.Value) :
    Json.Value.ordered (.object
      [("passed", .bool passed), ("effectiveTime", .text time), ("results", .list results)]) =
      .object [("effectiveTime", .text time), ("passed", .bool passed),
        ("results", .list (Json.Value.orderedItems results))] := by
  have htime : "effectiveTime" < "passed" := by decide
  have hresults : ¬"results" < "effectiveTime" ∧ "results" ≠ "effectiveTime" ∧
      ¬"results" < "passed" ∧ "results" ≠ "passed" := by decide
  obtain ⟨ht, hne, hp, hne'⟩ := hresults
  simp only [Json.Value.ordered, Json.Value.orderedMembers, Json.collect, List.foldl_cons,
    List.foldl_nil, Json.insert, if_pos htime, if_neg ht, if_neg hne, if_neg hp, if_neg hne']

theorem renderIndented_begins (i : Instant) (key : String) (v : Json.Value) (ms : Json.Members) :
    (timeHeading true i.secondsText).toList <+:
      Json.renderIndented (.object (("effectiveTime", .text i.secondsText) :: (key, v) :: ms)) := by
  have hfront : '\x7b' :: Json.newline 1 ++ Json.renderText "effectiveTime" ++ [':', ' ', '"'] =
      "\x7b\n  \"effectiveTime\": \"".toList := by rfl
  have hback : ['"', ',', '\n'] = "\",\n".toList := by rfl
  have htime : i.secondsText.toList = i.renderSeconds := String.toList_ofList
  have hheading : (timeHeading true i.secondsText).toList =
      '\x7b' :: Json.newline 1 ++ Json.renderText "effectiveTime" ++ [':', ' ', '"'] ++
        i.renderSeconds ++ ['"', ',', '\n'] := by
    rw [hfront, hback, timeHeading, if_pos rfl, String.toList_append, String.toList_append, htime]
  rw [hheading]
  refine ⟨' ' :: ' ' :: (Json.renderText key ++ ':' :: ' ' :: Json.renderAt 1 v ++
    Json.renderMembersAt 0 ms), ?_⟩
  simp [Json.renderIndented, Json.renderAt, Json.renderMembersAt, Json.render,
    Json.renderText_secondsText, Json.newline]

theorem jsonText_begins (c : PolicyContext) (groups : List CheckGroup) (passed : Bool) :
    Begins (timeHeading true c.instant.secondsText) (jsonText c groups passed) := by
  unfold jsonText
  simp only [ordered_document]
  refine Begins.append ?_ _
  rw [Begins, String.toList_ofList]
  exact renderIndented_begins _ _ _ _

/-- **What is printed begins with the time** that the context has, if anything is printed. -/
theorem printed_begins (json : Bool) (c : PolicyContext) (groups : List CheckGroup) (d : Disk) :
    (printed json c groups d).status ≠ 0 ∧ (printed json c groups d).output = "" ∨
      Begins (timeHeading json c.instant.secondsText) (printed json c groups d).output := by
  unfold printed
  cases (Classifier.ofContext c).classify? groups with
  | none => exact .inl ⟨Nat.one_ne_zero, rfl⟩
  | some classified =>
    right
    cases json
    · exact plainText_begins c classified _
    · exact jsonText_begins c classified _

end CommandLine
end ImagePolicy
