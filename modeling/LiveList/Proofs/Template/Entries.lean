import LiveList.Proofs.OrderedMap
import LiveList.Proofs.Text.Pieces
import LiveList.Template.Directive

namespace LiveList

namespace Json

variable {fuel depth : Nat} {text behind : List Char} {found fields : Fields}

theorem nodup_keys_readFields (distinct : (OrderedMap.keys found).Nodup)
    (read : readFields fuel depth found text = some (fields, behind)) :
    (OrderedMap.keys fields).Nodup := by
  induction fuel generalizing found text with
  | zero => simp [readFields] at read
  | succ fuel ih =>
    rw [readFields] at read
    repeat' split at read
    all_goals try cases read
    · exact ih (OrderedMap.nodup_keys_put _ _ _ distinct) read
    · exact OrderedMap.nodup_keys_put _ _ _ distinct

theorem nodup_keys_readValue (read : readValue fuel depth text = some (.object fields, behind)) :
    (OrderedMap.keys fields).Nodup := by
  cases fuel with
  | zero => simp [readValue] at read
  | succ fuel =>
    rw [readValue] at read
    repeat' split at read
    all_goals simp only [reduceCtorEq, Option.some.injEq, Option.map_eq_some_iff, Prod.mk.injEq,
      Value.object.injEq, false_and, and_false, exists_false] at read
    · obtain ⟨rfl, -⟩ := read
      exact List.nodup_nil
    · obtain ⟨⟨inner, last⟩, read, rfl, -⟩ := read
      exact nodup_keys_readFields (by simp [OrderedMap.keys]) read

theorem nodup_keys_parseObject {spec : String} (read : parseObject spec = some fields) :
    (OrderedMap.keys fields).Nodup := by
  unfold parseObject parse at read
  split at read
  case h_1 whole =>
    cases read
    dsimp only at whole
    split at whole
    · split at whole <;> cases whole
      exact nodup_keys_readValue ‹_›
    · cases whole
  case h_2 => cases read

end Json

namespace Template.Directive

open Json (Value)
open Markup (Attributes)

variable {record : Value} {attributes before after : Attributes} {name : String}

def Conditional.Spells (conditional : Conditional) (text : String) : Prop :=
  ∃ field onTrue onFalse : List Char, text.toList = field ++ '?' :: (onTrue ++ ':' :: onFalse) ∧
    '?' ∉ field ∧ ':' ∉ onTrue ∧ Text.trim field ≠ [] ∧
    conditional = ⟨String.ofList (Text.trim field), String.ofList (Text.trim onTrue),
      String.ofList (Text.trim onFalse)⟩

theorem Conditional.parse?_eq_some {conditional : Conditional} {text : String} :
    Conditional.parse? text = some conditional ↔ conditional.Spells text := by
  constructor
  · intro read
    obtain ⟨⟨field, branches⟩, atMark, read⟩ := Option.bind_eq_some_iff.1 read
    obtain ⟨⟨onTrue, onFalse⟩, atColon, read⟩ := Option.bind_eq_some_iff.1 read
    dsimp only at read atColon
    split at read
    case isTrue => cases read
    case isFalse notEmpty =>
      cases read
      refine ⟨field, onTrue, onFalse, ?_, Text.not_mem_of_cut atMark, Text.not_mem_of_cut atColon,
        notEmpty, rfl⟩
      rw [Text.eq_of_cut atMark, Text.eq_of_cut atColon]
  · rintro ⟨field, onTrue, onFalse, whole, noMark, noColon, notEmpty, rfl⟩
    unfold Conditional.parse?
    rw [whole, Text.cut_append noMark, Option.bind_eq_bind, Option.bind_some]
    dsimp only
    rw [Text.cut_append noColon, Option.bind_some]
    dsimp only
    rw [if_neg notEmpty]

def Accepted : ObjectDirective → String → Prop
  | .style, text => ∃ conditional : Conditional, conditional.Spells text
  | .className, _ => True

def Spelled (directive : ObjectDirective) (spec : String) : Prop :=
  ∃ fields, Json.parseObject spec = some fields ∧
    ∀ pair ∈ fields, ∃ text, pair.2 = .string text ∧ Accepted directive text

/-- A directive whose text is not spelled as it asks for. -/
def Faulty (attributes : Attributes) : Prop :=
  ∃ (directive : ObjectDirective) (spec : String),
    attributes.get? directive.attribute = some spec ∧ ¬ Spelled directive spec

def entries (directive : ObjectDirective) (attributes : Attributes) : Json.Fields :=
  ((attributes.get? directive.attribute).bind Json.parseObject).getD []

def conditionals (fields : Json.Fields) : List (String × Conditional) :=
  fields.filterMap fun (property, value) =>
    (value.string?.bind Conditional.parse?).map fun conditional => (property, conditional)

def classRules (fields : Json.Fields) : List (String × String) :=
  fields.filterMap fun (name, value) => value.string?.map fun field => (name, field)

def readEntries {α : Type} (read : String → Option α) (fields : Json.Fields) : List (String × α) :=
  fields.filterMap fun (key, value) => (value.string?.bind read).map fun rule => (key, rule)

theorem conditionals_eq (fields : Json.Fields) :
    conditionals fields = readEntries Conditional.parse? fields := rfl

theorem classRules_eq (fields : Json.Fields) : classRules fields = readEntries some fields := by
  unfold classRules readEntries
  congr 1
  funext ⟨key, value⟩
  dsimp only
  cases value.string? <;> rfl

theorem mem_keys_of_mem_readEntries {α : Type} {read : String → Option α} {fields : Json.Fields}
    {pair : String × α} (inside : pair ∈ readEntries read fields) :
    pair.1 ∈ OrderedMap.keys fields := by
  obtain ⟨⟨key, value⟩, among, made⟩ := List.mem_filterMap.1 inside
  obtain ⟨_, -, rfl⟩ := Option.map_eq_some_iff.1 made
  exact OrderedMap.mem_keys_of_mem among

theorem string?_eq_some {value : Value} {text : String} :
    value.string? = some text ↔ value = .string text := by
  cases value <;> simp [Value.string?]

section

variable {directive : ObjectDirective} {fields : Json.Fields}
  {act : String → String → Attributes → Except TemplateError Attributes}

theorem onEntries_induction {motive : Json.Fields → Attributes → Attributes → Prop}
    (nil : ∀ attributes, motive [] attributes attributes)
    (cons : ∀ key text rest before middle after, act key text before = .ok middle →
      motive rest middle after → motive ((key, .string text) :: rest) before after)
    (done : (onEntries directive act fields before).2 = none) :
    motive fields before (onEntries directive act fields before).1 := by
  induction fields generalizing before with
  | nil => exact nil before
  | cons pair rest ih =>
    obtain ⟨key, value⟩ := pair
    rw [onEntries] at done ⊢
    cases read : value.string? with
    | none => simp [read] at done
    | some text =>
      obtain rfl := string?_eq_some.1 read
      simp only [read] at done ⊢
      cases ran : act key text before with
      | error failure => simp [ran] at done
      | ok middle =>
        simp only [ran] at done ⊢
        exact cons key text rest before middle _ ran (ih done)

/-- If an entry brings about what it says of its own key, and changes the part of this key only, then
all entries hold in the end, and the part of the keys that no entry names is as before. -/
theorem onEntries_each {α β : Type} {read : String → Option α} (fit : String → α → Prop)
    (kept : Attributes → Prop) (met : String → α → Attributes → Prop)
    (part : (String → Bool) → Attributes → β)
    (acts : ∀ key text before after, act key text before = .ok after → ∃ rule,
      read text = some rule ∧ (fit key rule → kept before → kept after ∧ met key rule after ∧
        ∀ keep : String → Bool, keep key = false → part keep after = part keep before))
    (stays : ∀ key rule before after, part (· = key) after = part (· = key) before →
      met key rule before → met key rule after)
    (done : (onEntries directive act fields before).2 = none)
    (distinct : (OrderedMap.keys fields).Nodup)
    (fits : ∀ pair ∈ readEntries read fields, fit pair.1 pair.2) (holds : kept before) :
    kept (onEntries directive act fields before).1 ∧
    (∀ pair ∈ readEntries read fields,
      met pair.1 pair.2 (onEntries directive act fields before).1) ∧
    ∀ keep : String → Bool, (∀ pair ∈ readEntries read fields, keep pair.1 = false) →
      part keep (onEntries directive act fields before).1 = part keep before := by
  revert distinct fits holds
  refine onEntries_induction (motive := fun fields before after =>
    (OrderedMap.keys fields).Nodup → (∀ pair ∈ readEntries read fields, fit pair.1 pair.2) →
    kept before → kept after ∧ (∀ pair ∈ readEntries read fields, met pair.1 pair.2 after) ∧
    ∀ keep : String → Bool, (∀ pair ∈ readEntries read fields, keep pair.1 = false) →
      part keep after = part keep before) ?_ ?_ done
  · exact fun attributes _ _ holds => ⟨holds, by simp [readEntries], fun _ _ => rfl⟩
  · intro key text rest before middle after ran ih distinct fits holds
    obtain ⟨rule, isRule, does⟩ := acts key text before middle ran
    have listed : readEntries read ((key, .string text) :: rest) =
        (key, rule) :: readEntries read rest := by
      simp [readEntries, Value.string?, isRule]
    rw [listed] at fits ⊢
    obtain ⟨fitsHere, fitsRest⟩ := List.forall_mem_cons.1 fits
    obtain ⟨absent, distinct⟩ := List.nodup_cons.1 distinct
    obtain ⟨holds, metHere, others⟩ := does fitsHere holds
    obtain ⟨holds, metRest, othersRest⟩ := ih distinct fitsRest holds
    refine ⟨holds, List.forall_mem_cons.2 ⟨?_, metRest⟩, fun keep gone => ?_⟩
    · refine stays key rule middle after (othersRest _ fun pair inside => ?_) metHere
      have named := mem_keys_of_mem_readEntries inside
      exact decide_eq_false fun same => absent (same ▸ named)
    · obtain ⟨goneHere, goneRest⟩ := List.forall_mem_cons.1 gone
      exact (othersRest keep goneRest).trans (others keep goneHere)

theorem onEntries_done (accepts : ∀ key text attributes,
      (∃ changed, act key text attributes = .ok changed) ↔ Accepted directive text) :
    (onEntries directive act fields before).2 = none ↔
      ∀ pair ∈ fields, ∃ text, pair.2 = .string text ∧ Accepted directive text := by
  constructor
  · refine onEntries_induction (motive := fun fields _ _ => ∀ pair ∈ fields, ∃ text,
      pair.2 = .string text ∧ Accepted directive text) (by simp) ?_
    intro key text rest before middle after ran ih pair inside
    rcases List.mem_cons.1 inside with rfl | later
    · exact ⟨text, rfl, (accepts key text before).1 ⟨middle, ran⟩⟩
    · exact ih pair later
  · intro spelled
    induction fields generalizing before with
    | nil => rfl
    | cons pair rest ih =>
      obtain ⟨⟨text, same, accepted⟩, spelledMore⟩ := List.forall_mem_cons.1 spelled
      obtain ⟨changed, ran⟩ := (accepts pair.1 text before).2 accepted
      obtain ⟨key, value⟩ := pair
      obtain rfl : value = .string text := same
      simp only [onEntries, Value.string?, ran]
      exact ih spelledMore

theorem objectStep_done {act : Value → String → String → Attributes → Except TemplateError Attributes}
    (accepts : ∀ key text attributes,
      (∃ changed, act record key text attributes = .ok changed) ↔ Accepted directive text) :
    (objectStep directive act record attributes).2 = none ↔
      ∀ spec, attributes.get? directive.attribute = some spec → Spelled directive spec := by
  unfold objectStep onAttribute
  cases found : attributes.get? directive.attribute with
  | none => simp
  | some spec =>
    simp only [Option.some.injEq, forall_eq']
    cases read : Json.parseObject spec with
    | none => simp [Spelled, read]
    | some fields =>
      simp only [onEntries_done accepts, Spelled, read, Option.some.injEq, exists_eq_left']

theorem objectStep_entries
    {act : Value → String → String → Attributes → Except TemplateError Attributes}
    (done : (objectStep directive act record attributes).2 = none) :
    objectStep directive act record attributes =
      onEntries directive (act record) (entries directive attributes) attributes := by
  unfold objectStep onAttribute at done ⊢
  cases found : attributes.get? directive.attribute with
  | none => simp [entries, found, onEntries]
  | some spec =>
    simp only [found] at done ⊢
    cases read : Json.parseObject spec with
    | none => simp [read] at done
    | some fields => simp [entries, found, read]

theorem nodup_keys_entries (directive : ObjectDirective) (attributes : Attributes) :
    (OrderedMap.keys (entries directive attributes)).Nodup := by
  unfold entries
  cases read : (attributes.get? directive.attribute).bind Json.parseObject with
  | none => simp [OrderedMap.keys]
  | some fields =>
    obtain ⟨spec, -, parsed⟩ := Option.bind_eq_some_iff.1 read
    exact Json.nodup_keys_parseObject parsed

end

end Template.Directive

end LiveList
