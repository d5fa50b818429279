import LiveList.Proofs.Template.Classes
import LiveList.Proofs.Template.Declarations

namespace LiveList.Template.Directive

open Json (Value)
open Markup (Attributes)

variable {record : Value} {attributes before after : Attributes} {name : String}

/-! ## Declarations -/

def unlessEmpty (value : String) : List String := if value = "" then [] else [value]

section

variable {declared : List (String × String)} {property value : String}

theorem valuesOf_of_nodup (once : (OrderedMap.keys declared).Nodup) (property : String) :
    (valuesOf property declared).tail = [] := by
  induction declared with
  | nil => rfl
  | cons first more ih =>
    obtain ⟨key, value⟩ := first
    obtain ⟨absent, once⟩ := List.nodup_cons.1 once
    by_cases same : key = property
    · subst same
      have none : valuesOf key more = [] := by
        rw [valuesOf, List.map_eq_nil_iff, List.filter_eq_nil_iff]
        rintro ⟨other, old⟩ inside
        simpa using fun same : other = key => absent (same ▸ OrderedMap.mem_keys_of_mem inside)
      rw [valuesOf_cons_self, none, List.tail_cons]
    · rw [valuesOf_cons_of_ne same, ih once]

theorem nodup_declare (once : (OrderedMap.keys declared).Nodup) (property value : String) :
    (OrderedMap.keys (declare declared property value)).Nodup := by
  unfold declare
  split
  · exact List.Nodup.sublist (List.Sublist.map _ List.eraseP_sublist) once
  · exact OrderedMap.nodup_keys_put _ _ _ once

theorem valuesOf_declare_self (once : (OrderedMap.keys declared).Nodup) (property value : String) :
    valuesOf property (declare declared property value) = unlessEmpty value := by
  rw [valuesOf_declare, valuesOf_of_nodup once, List.append_nil, unlessEmpty]

theorem filter_declare (keep : String → Bool) (gone : keep property = false) (value : String) :
    (declare declared property value).filter (fun pair => keep pair.1) =
      declared.filter fun pair => keep pair.1 :=
  Only.filter (remove_declare declared property value) gone

end

theorem Only.styleOf (only : Only name before after) (differ : name ≠ "style") :
    styleOf after = styleOf before := by
  rw [Directive.styleOf, Directive.styleOf, only.get? differ.symm]

theorem only_setStyle (property value : String) (attributes : Attributes) :
    Only "style" attributes (setStyle property value attributes) := by
  unfold setStyle writeStyle
  split
  · exact .remove _ _
  · exact .put _ _ _

theorem propertyValue_choose {conditional : Conditional} {text : String}
    (spells : conditional.Spells text) (onTrue : ';' ∉ conditional.onTrue.toList)
    (onFalse : ';' ∉ conditional.onFalse.toList) (record : Value) :
    PropertyValue (conditional.choose record) := by
  obtain ⟨field, left, right, -, -, -, -, rfl⟩ := spells
  unfold Conditional.choose
  split
  · exact ⟨by simp [Text.trim_trim], onTrue⟩
  · exact ⟨by simp [Text.trim_trim], onFalse⟩

theorem styleOf_onEntries {fields : Json.Fields} {directive : ObjectDirective}
    {act : String → String → Attributes → Except TemplateError Attributes}
    (acts : ∀ key text before after, act key text before = .ok after → ∃ conditional,
      Conditional.parse? text = some conditional ∧
        after = setStyle key (conditional.choose record) before)
    (done : (onEntries directive act fields before).2 = none)
    (distinct : (OrderedMap.keys fields).Nodup)
    (clean : ∀ pair ∈ conditionals fields,
      PropertyName pair.1 ∧ PropertyValue (pair.2.choose record))
    (once : (OrderedMap.keys (styleOf before)).Nodup) :
    (OrderedMap.keys (styleOf (onEntries directive act fields before).1)).Nodup ∧
    (∀ pair ∈ conditionals fields,
      valuesOf pair.1 (styleOf (onEntries directive act fields before).1) =
        unlessEmpty (pair.2.choose record)) ∧
    ∀ keep : String → Bool, (∀ pair ∈ conditionals fields, keep pair.1 = false) →
      (styleOf (onEntries directive act fields before).1).filter (fun pair => keep pair.1) =
        (styleOf before).filter fun pair => keep pair.1 := by
  rw [conditionals_eq] at clean ⊢
  refine onEntries_each
    (fun property (conditional : Conditional) =>
      PropertyName property ∧ PropertyValue (conditional.choose record))
    (fun attributes => (OrderedMap.keys (styleOf attributes)).Nodup)
    (fun property conditional attributes =>
      valuesOf property (styleOf attributes) = unlessEmpty (conditional.choose record))
    (fun keep attributes => (styleOf attributes).filter fun pair => keep pair.1)
    ?_ ?_ done distinct clean once
  · intro property text before after ran
    obtain ⟨conditional, read, rfl⟩ := acts property text before after ran
    refine ⟨conditional, read, fun ⟨named, valued⟩ once => ?_⟩
    rw [styleOf_setStyle named valued]
    exact ⟨nodup_declare once _ _, valuesOf_declare_self once _ _,
      fun keep gone => filter_declare keep gone _⟩
  · intro property conditional before after same met
    rw [valuesOf, same]
    exact met

/-! ## The five directives -/

def rules : List Rule :=
  [⟨"data-checked", "checked", checkedStep⟩, ⟨"data-hide", "style", hideStep⟩,
    ⟨"data-show", "style", showStep⟩, ⟨"data-style", "style", styleStep⟩,
    ⟨"data-class", "class", classStep⟩]

theorem steps_eq : steps = rules.map Rule.step := rfl

theorem styleStep_accepts (record : Value) (property text : String) (attributes : Attributes) :
    (∃ changed, (match Conditional.parse? text with
      | none => .error (.malformedConditional text)
      | some conditional => .ok (setStyle property (conditional.choose record) attributes) :
        Except TemplateError Attributes) = .ok changed) ↔ Accepted .style text := by
  rw [Accepted]
  simp only [← Conditional.parse?_eq_some]
  cases Conditional.parse? text <;> simp

theorem classStep_accepts (record : Value) (name field : String) (attributes : Attributes) :
    (∃ changed, (.ok (toggleClass name (classIsOn record field) attributes) :
      Except TemplateError Attributes) = .ok changed) ↔ Accepted .className field := by
  simp [Accepted]

theorem checkedStep_obeys : Obeys "data-checked" "checked" checkedStep :=
  obeys_onAttribute fun record field attributes => by
    split
    · exact .put _ _ _
    · exact .remove _ _

theorem hideStep_obeys : Obeys "data-hide" "style" hideStep :=
  obeys_onAttribute fun _ _ _ => only_setStyle _ _ _

theorem showStep_obeys : Obeys "data-show" "style" showStep :=
  obeys_onAttribute fun _ _ _ => only_setStyle _ _ _

theorem styleStep_obeys : Obeys "data-style" "style" styleStep := by
  refine obeys_objectStep (fun record property text before after ran => ?_) styleStep_accepts
  split at ran <;> cases ran
  exact only_setStyle _ _ _

theorem classStep_obeys : Obeys "data-class" "class" classStep := by
  refine obeys_objectStep (fun record name field before after ran => ?_) classStep_accepts
  cases ran
  exact only_toggleClass _ _ _

theorem sound_rules : Rule.Sound rules where
  obeys := by
    simp only [rules, List.forall_mem_cons, List.not_mem_nil, false_implies, implies_true, and_true]
    exact ⟨checkedStep_obeys, hideStep_obeys, showStep_obeys, styleStep_obeys, classStep_obeys⟩
  apart := by decide

/-- Whether a directive of an element fails does not depend on the record. -/
theorem overElement_steps_done (record : Value) (attributes : Attributes) :
    (overElement record steps attributes).2 = none ↔ ¬ Faulty attributes := by
  have style : (styleStep record attributes).2 = none ↔
      ∀ spec, attributes.get? "data-style" = some spec → Spelled .style spec :=
    objectStep_done (styleStep_accepts record)
  have className : (classStep record attributes).2 = none ↔
      ∀ spec, attributes.get? "data-class" = some spec → Spelled .className spec :=
    objectStep_done (classStep_accepts record)
  rw [steps_eq, Rule.overElement_done sound_rules]
  simp only [rules, List.forall_mem_cons, List.not_mem_nil, false_implies, implies_true, and_true]
  constructor
  · rintro ⟨-, -, -, styled, classed⟩ ⟨directive, spec, found, spoilt⟩
    cases directive with
    | style => exact spoilt (style.1 styled spec found)
    | className => exact spoilt (className.1 classed spec found)
  · intro sound
    refine ⟨onAttribute_done _ _, onAttribute_done _ _, onAttribute_done _ _, style.2 ?_,
      className.2 ?_⟩
    · exact fun spec found => not_not.1 fun spoilt => sound ⟨.style, spec, found, spoilt⟩
    · exact fun spec found => not_not.1 fun spoilt => sound ⟨.className, spec, found, spoilt⟩

/-! ## The effect on an element -/

/-- What `display` is declared as where `data-style` does not say it: `data-show` comes last, and what
`data-hide` says holds without it. -/
def displayOf (record : Value) (attributes : Attributes) : List String :=
  match attributes.get? "data-show", attributes.get? "data-hide" with
  | some field, _ => unlessEmpty (if record.fieldIsTruthy field then "" else "none")
  | none, some field => unlessEmpty (if record.fieldIsTruthy field then "none" else "")
  | none, none => valuesOf "display" (styleOf attributes)

def styledBy (attributes : Attributes) : List String :=
  (conditionals (entries .style attributes)).map Prod.fst

def classedBy (attributes : Attributes) : List String :=
  (classRules (entries .className attributes)).map Prod.fst

structure Orderly (attributes : Attributes) : Prop where
  once : (OrderedMap.keys (styleOf attributes)).Nodup
  properties : ∀ pair ∈ conditionals (entries .style attributes), PropertyName pair.1 ∧
    ';' ∉ pair.2.onTrue.toList ∧ ';' ∉ pair.2.onFalse.toList
  classes : ∀ pair ∈ classRules (entries .className attributes), ClassName pair.1

-- goes over the characters of the name, where instance search would go over all characters
instance (name : String) : Decidable (ClassName name) :=
  @instDecidableAnd _ _ inferInstance (List.decidableBAll _ _)

instance (attributes : Attributes) : Decidable (Orderly attributes) :=
  decidable_of_iff (_ ∧ _ ∧ _) ⟨fun ⟨once, properties, classes⟩ => ⟨once, properties, classes⟩,
    fun ⟨once, properties, classes⟩ => ⟨once, properties, classes⟩⟩

/-- What is declared: for each entry of `data-style` what its field chooses, `display` as the other
directives say, and everything else as before. -/
structure Styled (record : Value) (before after : Attributes) : Prop where
  once : (OrderedMap.keys (styleOf after)).Nodup
  chosen : ∀ pair ∈ conditionals (entries .style before),
    valuesOf pair.1 (styleOf after) = unlessEmpty (pair.2.choose record)
  display : "display" ∉ styledBy before →
    valuesOf "display" (styleOf after) = displayOf record before
  others : (styleOf after).filter (fun pair => pair.1 ∉ "display" :: styledBy before) =
    (styleOf before).filter fun pair => pair.1 ∉ "display" :: styledBy before

/-- Which classes an element is of: for each entry of `data-class` its name exactly if its field, negated
or not, is truthy, and otherwise those that it was of. -/
structure Classed (record : Value) (before after : Attributes) : Prop where
  toggled : ∀ pair ∈ classRules (entries .className before),
    pair.1 ∈ classesOf after ↔ classIsOn record pair.2 = true
  others : (classesOf after).filter (· ∉ classedBy before) =
    (classesOf before).filter (· ∉ classedBy before)

structure Directed (record : Value) (before after : Attributes) : Prop where
  checked : after.get? "checked" =
    match before.get? "data-checked" with
    | none => before.get? "checked"
    | some field => if record.fieldIsTruthy field then some "" else none
  styled : Orderly before → Styled record before after
  classed : Orderly before → Classed record before after
  others : after.filter (fun pair => pair.1 ∉ Rule.written rules before) =
    before.filter fun pair => pair.1 ∉ Rule.written rules before

theorem overElement_of_done {step : Step} (done : (step record attributes).2 = none)
    (rest : List Step) : overElement record (step :: rest) attributes =
      overElement record rest (step record attributes).1 := by
  rw [overElement]
  generalize step record attributes = outcome at done
  obtain ⟨changed, failure⟩ := outcome
  cases done
  rfl

theorem overElement_cons {step : Step} {rest : List Step}
    (done : (overElement record (step :: rest) attributes).2 = none) :
    (step record attributes).2 = none ∧
      overElement record (step :: rest) attributes =
        overElement record rest (step record attributes).1 := by
  have here : (step record attributes).2 = none := by
    rw [overElement] at done
    generalize step record attributes = outcome at done
    obtain ⟨changed, failure⟩ := outcome
    cases failure with
    | some failure => cases done
    | none => rfl
  exact ⟨here, overElement_of_done here rest⟩

section

variable (record attributes)

theorem get?_checkedStep : (checkedStep record attributes).1.get? "checked" =
    match attributes.get? "data-checked" with
    | none => attributes.get? "checked"
    | some field => if record.fieldIsTruthy field then some "" else none := by
  unfold checkedStep onAttribute
  cases attributes.get? "data-checked" with
  | none => rfl
  | some field =>
    dsimp only
    split
    · rw [OrderedMap.get?_put, if_pos rfl]
    · rw [OrderedMap.get?_remove, if_pos rfl]

theorem propertyName_display : PropertyName "display" := by decide +kernel

theorem styleOf_setHidden (hidden : Bool) : styleOf (setHidden hidden attributes) =
    declare (styleOf attributes) "display" (if hidden then "none" else "") :=
  styleOf_setStyle propertyName_display (by cases hidden <;> decide +kernel) attributes

theorem styleOf_hideStep : styleOf (hideStep record attributes).1 =
    match attributes.get? "data-hide" with
    | none => styleOf attributes
    | some field => declare (styleOf attributes) "display"
        (if record.fieldIsTruthy field then "none" else "") := by
  unfold hideStep onAttribute
  cases attributes.get? "data-hide" with
  | none => rfl
  | some field => exact styleOf_setHidden _ _

theorem styleOf_showStep : styleOf (showStep record attributes).1 =
    match attributes.get? "data-show" with
    | none => styleOf attributes
    | some field => declare (styleOf attributes) "display"
        (if record.fieldIsTruthy field then "" else "none") := by
  unfold showStep onAttribute
  cases attributes.get? "data-show" with
  | none => rfl
  | some field =>
    refine (styleOf_setHidden attributes _).trans ?_
    cases truthy : record.fieldIsTruthy field <;> simp [truthy]

def displayed : Attributes :=
  (showStep record (hideStep record (checkedStep record attributes).1).1).1

theorem only_displayed :
    Only "style" (checkedStep record attributes).1 (displayed record attributes) :=
  (hideStep_obeys.only record _).trans (showStep_obeys.only record _)

theorem get?_displayed {name : String} (notChecked : name ≠ "checked") (notStyle : name ≠ "style") :
    (displayed record attributes).get? name = attributes.get? name := by
  rw [(only_displayed record attributes).get? notStyle,
    (checkedStep_obeys.only record attributes).get? notChecked]

theorem styleOf_displayed (once : (OrderedMap.keys (styleOf attributes)).Nodup) :
    (OrderedMap.keys (styleOf (displayed record attributes))).Nodup ∧
    valuesOf "display" (styleOf (displayed record attributes)) = displayOf record attributes ∧
    ∀ keep : String → Bool, keep "display" = false →
      (styleOf (displayed record attributes)).filter (fun pair => keep pair.1) =
        (styleOf attributes).filter fun pair => keep pair.1 := by
  have checked := checkedStep_obeys.only record attributes
  have hidden := styleOf_hideStep record (checkedStep record attributes).1
  have shown := styleOf_showStep record (hideStep record (checkedStep record attributes).1).1
  rw [checked.styleOf (by decide), checked.get? (by decide)] at hidden
  rw [(hideStep_obeys.only record _).get? (by decide), checked.get? (by decide)] at shown
  unfold displayed displayOf
  rw [shown, hidden]
  -- What `data-show` declares does not depend on what `data-hide` left behind.
  have hideOnce : (OrderedMap.keys (match attributes.get? "data-hide" with
      | none => styleOf attributes
      | some field => declare (styleOf attributes) "display"
          (if record.fieldIsTruthy field then "none" else ""))).Nodup := by
    split
    · exact once
    · exact nodup_declare once _ _
  cases attributes.get? "data-show" with
  | some field =>
    refine ⟨nodup_declare hideOnce _ _, valuesOf_declare_self hideOnce _ _, fun keep gone => ?_⟩
    refine (filter_declare keep gone _).trans ?_
    split
    · rfl
    · exact filter_declare keep gone _
  | none =>
    cases attributes.get? "data-hide" with
    | some field => exact ⟨nodup_declare once _ _, valuesOf_declare_self once _ _,
        fun keep gone => filter_declare keep gone _⟩
    | none => exact ⟨once, rfl, fun _ _ => rfl⟩

end

theorem entries_displayed (record : Value) (attributes : Attributes) (directive : ObjectDirective) :
    entries directive (displayed record attributes) = entries directive attributes := by
  unfold entries
  rw [get?_displayed record attributes (by cases directive <;> decide)
    (by cases directive <;> decide)]

theorem Orderly.clean (orderly : Orderly attributes) (record : Value) :
    ∀ pair ∈ conditionals (entries .style attributes),
      PropertyName pair.1 ∧ PropertyValue (pair.2.choose record) := by
  intro pair inside
  obtain ⟨named, onTrue, onFalse⟩ := orderly.properties pair inside
  obtain ⟨⟨property, value⟩, -, read⟩ := List.mem_filterMap.1 inside
  obtain ⟨conditional, chosen, rfl⟩ := Option.map_eq_some_iff.1 read
  obtain ⟨text, -, parsed⟩ := Option.bind_eq_some_iff.1 chosen
  exact ⟨named, propertyValue_choose (Conditional.parse?_eq_some.1 parsed) onTrue onFalse record⟩

theorem styled_styleStep (orderly : Orderly attributes)
    (done : (styleStep record (displayed record attributes)).2 = none) :
    Styled record attributes (styleStep record (displayed record attributes)).1 := by
  obtain ⟨once, display, others⟩ := styleOf_displayed record attributes orderly.once
  have run := objectStep_entries done
  rw [entries_displayed] at run
  rw [styleStep, run] at done ⊢
  obtain ⟨onceAfter, chosen, kept⟩ := styleOf_onEntries
    (fun property text before after ran => by
      split at ran <;> cases ran
      exact ⟨_, ‹_›, rfl⟩) done (nodup_keys_entries _ _) (orderly.clean record) once
  have keeps (keep : String → Bool) (gone : ∀ name ∈ styledBy attributes, keep name = false) :=
    kept keep fun pair inside => gone _ (List.mem_map_of_mem inside)
  refine ⟨onceAfter, chosen, fun absent => ?_, ?_⟩
  · have same := keeps (fun name => name = "display") fun name inside =>
      decide_eq_false fun equal => absent (equal ▸ inside)
    rw [valuesOf, same, ← valuesOf, display]
  · refine (keeps (fun name => name ∉ "display" :: styledBy attributes) ?_).trans
      (others (fun name => name ∉ "display" :: styledBy attributes) (by simp))
    intro name inside
    simp [inside]

theorem classed_classStep (orderly : Orderly attributes)
    (same : entries .className before = entries .className attributes)
    (classes : classesOf before = classesOf attributes)
    (done : (classStep record before).2 = none) :
    Classed record attributes (classStep record before).1 := by
  have run := objectStep_entries done
  rw [same] at run
  rw [classStep, run] at done ⊢
  obtain ⟨toggled, kept⟩ := classesOf_onEntries
    (fun name field before after ran => by cases ran; rfl) done (nodup_keys_entries _ _)
    orderly.classes
  refine ⟨toggled, ?_⟩
  rw [kept (· ∉ classedBy attributes), classes]
  exact fun pair inside => decide_eq_false (not_not.2 (List.mem_map_of_mem inside))

theorem directed_overElement (done : (overElement record steps attributes).2 = none) :
    Directed record attributes (overElement record steps attributes).1 := by
  have others := Rule.filter_overElement sound_rules record attributes
    (fun name => name ∉ Rule.written rules attributes) (by simp) done
  rw [← steps_eq] at others
  -- The steps one by one; `displayed` is what the first three leave.
  unfold steps at done others ⊢
  obtain ⟨-, checked⟩ := overElement_cons done
  rw [checked] at done others ⊢
  obtain ⟨-, hidden⟩ := overElement_cons done
  rw [hidden] at done others ⊢
  obtain ⟨-, shown⟩ := overElement_cons done
  rw [shown] at done others ⊢
  rw [← displayed] at done others ⊢
  obtain ⟨styleDone, styled⟩ := overElement_cons done
  rw [styled] at done others ⊢
  obtain ⟨classDone, classed⟩ := overElement_cons done
  rw [classed, overElement] at others ⊢
  have onlyStyle := (only_displayed record attributes).trans
    (styleStep_obeys.only record (displayed record attributes))
  have onlyClass := classStep_obeys.only record (styleStep record (displayed record attributes)).1
  refine ⟨?_, fun orderly => ?_, fun orderly => ?_, others⟩
  · rw [onlyClass.get? (by decide), onlyStyle.get? (by decide), get?_checkedStep]
  · have styledAll := styled_styleStep orderly styleDone
    have same := onlyClass.styleOf (by decide)
    exact ⟨by rw [same]; exact styledAll.once, by rw [same]; exact styledAll.chosen,
      by rw [same]; exact styledAll.display, by rw [same]; exact styledAll.others⟩
  · have kept {name : String} (notChecked : name ≠ "checked") (notStyle : name ≠ "style") :
        (styleStep record (displayed record attributes)).1.get? name = attributes.get? name := by
      rw [(styleStep_obeys.only record _).get? notStyle, get?_displayed _ _ notChecked notStyle]
    refine classed_classStep orderly ?_ ?_ classDone
    · unfold entries
      rw [kept (by decide) (by decide)]
    · unfold classesOf
      rw [kept (by decide) (by decide)]

end LiveList.Template.Directive
