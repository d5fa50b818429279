import LiveList.Proofs.Template.Items
import LiveList.Proofs.Template.Markers

namespace LiveList.Template

open Json (Value)

def Path.find (context : Value) : Path → Option Value
  | .this => some context
  | .fields names => context.descend names

section

variable {path : String} {expr : Expr}

theorem source_of_unfiltered (parsed : Expr.parse path = .ok expr) (unfiltered : expr.filters = []) :
    expr.source.toList = Text.trim path.toList ∧ Path.Spelled expr.source expr.path := by
  have spelled := Expr.parse_eq_ok_iff.1 parsed
  have parts := spelled.parts
  rw [unfiltered, List.map_singleton, List.map_eq_singleton_iff] at parts
  obtain ⟨piece, single, trimmed⟩ := parts
  have whole := Text.intercalate_pieces '|' path.toList
  rw [single, List.intercalate_singleton] at whole
  exact ⟨by rw [← trimmed, whole], spelled.path⟩

theorem lookup_eq_find (parsed : Expr.parse path = .ok expr) (unfiltered : expr.filters = [])
    (context : Value) : context.lookup path = expr.path.find context := by
  obtain ⟨same, spelled⟩ := source_of_unfiltered parsed unfiltered
  rw [Value.lookup, ← same]
  generalize expr.source = source, expr.path = denoted at spelled
  cases spelled with
  | this => rfl
  | fields notThis pieces named =>
    rw [if_neg (mt String.toList_inj.1 notThis), segmentsOf_eq_iff.2 pieces]
    rfl

end

theorem Path.find_eq_some_iff (path : Path) (source : String) {context value : Value} :
    path.find context = some value ↔ path.read source context = .ok (some value) := by
  cases path with
  | this => simp [Path.read, Path.find]
  | fields names =>
    rw [Path.find, Value.descend_eq_some_iff, Path.read]
    cases Value.resolve (some context) names <;> simp

theorem Path.find_of_read {path : Path} {source : String} {context : Value} {found : Option Value}
    (read : path.read source context = .ok found) : path.find context = found := by
  cases found with
  | some value => exact (path.find_eq_some_iff source).2 read
  | none =>
    refine Option.eq_none_iff_forall_ne_some.2 fun value finds => ?_
    have again := (path.find_eq_some_iff source).1 finds
    rw [read] at again
    cases again

theorem eval_unfiltered {expr : Expr} (unfiltered : expr.filters = []) (filters : Filters)
    (context : Value) : expr.eval filters context =
      (expr.path.read expr.source context).map fun found =>
        ((found.filter Value.isTruthy).map Value.display).getD "" := by
  rw [Expr.eval, unfiltered]
  cases expr.path.read expr.source context with
  | error failure => rfl
  | ok found =>
    cases isTruthy : found.filter Value.isTruthy with
    | none => simp [isTruthy, bind, Except.bind, Except.map, pure, Except.pure]
    | some value => simp [isTruthy, bind, Except.bind, Except.map, pure, Except.pure]

/-- A path without filters leads a directive, a loop and an interpolation to the same value: looking
it up finds exactly what strict resolution finds, which fails only where a part of the path leads to
nothing or to `null`. -/
theorem lookup_agrees_with_read {path : String} {expr : Expr} (parsed : Expr.parse path = .ok expr)
    (unfiltered : expr.filters = []) (context : Value) :
    (expr.path = .this → context.lookup path = some context) ∧
    (∀ names, expr.path = .fields names →
      (∀ value, context.lookup path = some value ↔
        Value.resolve (some context) names = some (some value)) ∧
      (Value.resolve (some context) names = none ↔ ∃ before, before <+: names ∧ before ≠ names ∧
        (Value.resolve (some context) before = some none ∨
          Value.resolve (some context) before = some (some .null)))) ∧
    (∀ found, expr.path.read expr.source context = .ok found →
      context.lookup path = found ∧ context.fieldIsTruthy path = found.any Value.isTruthy ∧
      (∀ scope, Scope.loopContext scope = context →
        loopItems (Text.trimmed path) scope = itemsOf (Text.trimmed path) found) ∧
      ∀ filters, expr.eval filters context =
        .ok (((found.filter Value.isTruthy).map Value.display).getD "")) ∧
    ∀ failure, expr.path.read expr.source context = .error failure → context.lookup path = none := by
  have looksUp := lookup_eq_find parsed unfiltered context
  refine ⟨fun isThis => ?_, fun names areNames => ⟨fun value => ?_, Value.resolve_eq_none_iff⟩,
    fun found read => ?_, fun failure fails => ?_⟩
  · rw [looksUp, isThis, Path.find]
  · rw [looksUp, areNames, Path.find, Value.descend_eq_some_iff]
  · have finds : context.lookup path = found := looksUp.trans (Path.find_of_read read)
    refine ⟨finds, ?_, ?_, fun filters => ?_⟩
    · rw [Value.fieldIsTruthy, finds]
      cases found <;> rfl
    · rintro scope rfl
      have trimmed : Text.trim (Text.trimmed path).toList = (Text.trimmed path).toList := by
        rw [Text.trimmed, String.toList_ofList, Text.trim_trim]
      have same : scope.loopContext.lookup (Text.trimmed path) = scope.loopContext.lookup path := by
        rw [Value.lookup, trimmed, Text.trimmed, String.toList_ofList]
        rfl
      rw [loopItems_of_trimmed trimmed, same, finds]
    · rw [eval_unfiltered unfiltered, read]
      rfl
  · rw [looksUp, Option.eq_none_iff_forall_ne_some]
    intro value finds
    rw [(expr.path.find_eq_some_iff expr.source).1 finds] at fails
    cases fails

def shelf : Value :=
  .object [("items", .array [.object [("name", .string "milk")], .null])]

def nameAt (place : String) : Expr :=
  ⟨"items. " ++ place ++ " .name", .fields ["items", place, "name"], []⟩

theorem shelf_agrees_with_read :
    (Expr.parse " items. 0 .name " = .ok (nameAt "0") ∧ (nameAt "0").filters = [] ∧
      shelf.lookup " items. 0 .name " = some (.string "milk") ∧
      ∀ filters, (nameAt "0").eval filters shelf = .ok "milk") ∧
    (Expr.parse "items. 1 .name" = .ok (nameAt "1") ∧
      Value.resolve (some shelf) ["items", "1", "name"] = none ∧
      shelf.lookup "items. 1 .name" = none) := by
  have parsed {path place : String} (spelled : Expr.Spelled path.toList (nameAt place)) :
      Expr.parse path = .ok (nameAt place) := Expr.parse_eq_ok_iff.2 spelled
  have first : Expr.parse " items. 0 .name " = .ok (nameAt "0") :=
    parsed ⟨by decide, by decide, .fields (by decide) (by decide) (by decide)⟩
  have second : Expr.parse "items. 1 .name" = .ok (nameAt "1") :=
    parsed ⟨by decide, by decide, .fields (by decide) (by decide) (by decide)⟩
  obtain ⟨finds, -, -, shows⟩ := (lookup_agrees_with_read first rfl shelf).2.2.1
    (some (.string "milk")) rfl
  obtain ⟨-, fields, -, fails⟩ := lookup_agrees_with_read second rfl shelf
  exact ⟨⟨first, rfl, finds, shows⟩, second,
    (fields _ rfl).2.2 ⟨["items", "1"], by decide, by decide, .inr rfl⟩, fails _ rfl⟩

end LiveList.Template
