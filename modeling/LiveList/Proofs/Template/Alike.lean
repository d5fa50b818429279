import LiveList.Template.Render

/-!
# Alike results

Two templates may fail at the same place and quote another path there. Results are alike if they are the
same apart from that, and every part of rendering keeps what it is made of alike. Main statement:
templates that yield alike results do the same to a document.
-/

namespace LiveList

def TemplateError.unnamed : TemplateError → TemplateError
  | .resolution _ => .resolution ""
  | .missingLoopField _ => .missingLoopField ""
  | .notAnArray _ => .notAnArray ""
  | failure => failure

namespace Template

open Json (Value)

def SameUnnamed {α : Type} (first second : Except TemplateError α) : Prop :=
  first.mapError TemplateError.unnamed = second.mapError TemplateError.unnamed

theorem SameUnnamed.ok_or_error {α : Type} {first second : Except TemplateError α}
    (same : SameUnnamed first second) :
    (∃ value, first = .ok value ∧ second = .ok value) ∨
      ∃ failure failure', first = .error failure ∧ second = .error failure' ∧
        failure.unnamed = failure'.unnamed := by
  cases first with
  | error failure =>
    cases second with
    | error failure' => exact .inr ⟨failure, failure', rfl, rfl, Except.error.inj same⟩
    | ok value => cases same
  | ok value =>
    cases second with
    | error failure => cases same
    | ok value' => exact .inl ⟨value, rfl, congrArg Except.ok (Except.ok.inj same).symm⟩

theorem SameUnnamed.bind {α β : Type} {first second : Except TemplateError α}
    {next next' : α → Except TemplateError β} (same : SameUnnamed first second)
    (further : ∀ value, SameUnnamed (next value) (next' value)) :
    SameUnnamed (first >>= next) (second >>= next') := by
  rcases same.ok_or_error with ⟨value, rfl, rfl⟩ | ⟨failure, failure', rfl, rfl, alike⟩
  · exact further value
  · exact congrArg Except.error alike

/-- Two partial results with the same content, and failures that differ in what they quote only. -/
def Alike {α : Type} (first second : α × Option TemplateError) : Prop :=
  first.1 = second.1 ∧ first.2.map TemplateError.unnamed = second.2.map TemplateError.unnamed

theorem Alike.refl {α : Type} (outcome : α × Option TemplateError) : Alike outcome outcome :=
  ⟨rfl, rfl⟩

theorem Alike.trans {α : Type} {first second third : α × Option TemplateError}
    (left : Alike first second) (right : Alike second third) : Alike first third :=
  ⟨left.1.trans right.1, left.2.trans right.2⟩

theorem Alike.done_or_failed {α : Type} {first second : α × Option TemplateError}
    (alike : Alike first second) :
    (∃ made, first = (made, none) ∧ second = (made, none)) ∨
      ∃ made failure failure', first = (made, some failure) ∧ second = (made, some failure') ∧
        failure.unnamed = failure'.unnamed := by
  obtain ⟨made, failure⟩ := first
  obtain ⟨made', failure'⟩ := second
  obtain ⟨rfl, same⟩ := alike
  cases failure with
  | none =>
    cases failure' with
    | none => exact .inl ⟨made, rfl, rfl⟩
    | some failure' => cases same
  | some failure =>
    cases failure' with
    | none => cases same
    | some failure' => exact .inr ⟨made, failure, failure', rfl, rfl, Option.some.inj same⟩

def followedBy (first second : Yield) : Yield :=
  match first with
  | (made, some failure) => (made, some failure)
  | (made, none) => (made ++ second.1, second.2)

theorem followedBy_assoc (first second third : Yield) :
    followedBy (followedBy first second) third = followedBy first (followedBy second third) := by
  obtain ⟨made, failure⟩ := first
  cases failure with
  | some failure => rfl
  | none =>
    obtain ⟨more, failure⟩ := second
    cases failure with
    | some failure => rfl
    | none => simp [followedBy]

theorem Alike.followedBy {first first' second second' : Yield} (here : Alike first first')
    (further : Alike second second') :
    Alike (followedBy first second) (followedBy first' second') := by
  rcases here.done_or_failed with ⟨made, rfl, rfl⟩ | ⟨made, failure, failure', rfl, rfl, same⟩
  · exact ⟨congrArg (made ++ ·) further.1, further.2⟩
  · exact ⟨rfl, congrArg some same⟩

theorem elementSprout_alike {setting : Setting} {scope scope' : Scope} (tag : String)
    {attributes attributes' : List (String × List Segment)} {children children' : Yield}
    (outer : Alike (evalAttributes setting.filters scope attributes [])
      (evalAttributes setting.filters scope' attributes' []))
    (inner : Alike children children') :
    Alike (elementSprout setting scope tag attributes children)
      (elementSprout setting scope' tag attributes' children') := by
  unfold elementSprout
  rcases outer.done_or_failed with ⟨made, here, there⟩ | ⟨made, failure, failure', here, there, same⟩
  · rw [here, there]
    exact ⟨by rw [inner.1], inner.2⟩
  · rw [here, there]
    exact ⟨rfl, congrArg some same⟩

theorem forestSprouts_cons (setting : Setting) (scope : Scope) (node : Node) (rest : List Node) :
    forestSprouts setting scope (node :: rest) =
      followedBy (nodeSprouts setting scope node) (forestSprouts setting scope rest) := by
  rw [forestSprouts]
  rfl

theorem forestSprouts_append (setting : Setting) (scope : Scope) (nodes rest : List Node) :
    forestSprouts setting scope (nodes ++ rest) =
      followedBy (forestSprouts setting scope nodes) (forestSprouts setting scope rest) := by
  induction nodes with
  | nil => simp [forestSprouts, followedBy]
  | cons node nodes ih =>
    rw [List.cons_append, forestSprouts_cons, ih, forestSprouts_cons, followedBy_assoc]

theorem inTurn_cons {α : Type} (make : α → Yield) (first : α) (rest : List α) :
    inTurn make (first :: rest) = followedBy (make first) (inTurn make rest) := by
  rw [inTurn]
  rfl

theorem followedBy_done {first second : Yield} (done : (followedBy first second).2 = none) :
    first.2 = none ∧ second.2 = none := by
  obtain ⟨made, failure⟩ := first
  cases failure with
  | some failure => cases done
  | none => exact ⟨rfl, done⟩

theorem elementSprout_done {setting : Setting} {scope : Scope} {tag : String}
    {attributes : List (String × List Segment)} {children : Yield}
    (done : (elementSprout setting scope tag attributes children).2 = none) : children.2 = none := by
  unfold elementSprout at done
  split at done
  · cases done
  · exact done

/-- Two templates do the same to a document for a record, and fail alike. -/
structure RendersAlike (setting : Setting) (record : Value) (d : Document)
    (first second : Template) : Prop where
  document : (first.renderInto setting record d).1 = (second.renderInto setting record d).1
  result : SameUnnamed (first.renderInto setting record d).2 (second.renderInto setting record d).2

theorem rendersAlike_of_alike {setting : Setting} {record : Value} {first second : Template}
    (alike : Alike (first.sprouts setting record) (second.sprouts setting record)) (d : Document) :
    RendersAlike setting record d first second := by
  rcases alike.done_or_failed with ⟨made, here, there⟩ | ⟨made, failure, failure', here, there, same⟩
  · have equal : first.renderInto setting record d = second.renderInto setting record d := by
      rw [renderInto, renderInto, here, there]
    exact ⟨congrArg Prod.fst equal, congrArg (Except.mapError _ ∘ Prod.snd) equal⟩
  · constructor
    · rw [renderInto, renderInto, here, there]
    · rw [renderInto, renderInto, here, there]
      exact congrArg Except.error same

theorem sprouts_done {template : Template} {setting : Setting} {record : Value} {d : Document}
    {ids : List NodeId} (rendered : (template.renderInto setting record d).2 = .ok ids) :
    (template.sprouts setting record).2 = none := by
  cases failed : (template.sprouts setting record).2 with
  | none => rfl
  | some failure =>
    rw [renderInto] at rendered
    dsimp only at rendered
    rw [failed] at rendered
    cases rendered

end Template

end LiveList
