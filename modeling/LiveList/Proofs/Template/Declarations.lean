import LiveList.Proofs.OrderedMap
import LiveList.Proofs.Text.Pieces
import LiveList.Template.Directive

namespace LiveList.Template.Directive

open Markup (Attributes)

variable {attributes : Attributes} {declared : List (String × String)} {property value : String}

structure PropertyName (property : String) : Prop where
  ne_empty : property ≠ ""
  trimmed : Text.trim property.toList = property.toList
  noColon : ':' ∉ property.toList
  noSemicolon : ';' ∉ property.toList

structure PropertyValue (value : String) : Prop where
  trimmed : Text.trim value.toList = value.toList
  noSemicolon : ';' ∉ value.toList

structure Clean (declaration : String × String) : Prop where
  property : PropertyName declaration.1
  value : PropertyValue declaration.2

instance (property : String) : Decidable (PropertyName property) :=
  decidable_of_iff (_ ∧ _ ∧ _ ∧ _) ⟨fun ⟨notEmpty, trimmed, noColon, noSemicolon⟩ =>
    ⟨notEmpty, trimmed, noColon, noSemicolon⟩, fun ⟨notEmpty, trimmed, noColon, noSemicolon⟩ =>
    ⟨notEmpty, trimmed, noColon, noSemicolon⟩⟩

instance (value : String) : Decidable (PropertyValue value) :=
  decidable_of_iff (_ ∧ _) ⟨fun ⟨trimmed, noSemicolon⟩ => ⟨trimmed, noSemicolon⟩,
    fun ⟨trimmed, noSemicolon⟩ => ⟨trimmed, noSemicolon⟩⟩

def readDeclaration (piece : List Char) : Option (String × String) :=
  match Text.cut ':' piece with
  | none => none
  | some (property, value) =>
    let property := Text.trim property
    if property = [] then none
    else some (String.ofList property, String.ofList (Text.trim value))

theorem declarations_eq (style : String) :
    declarations style = (Text.pieces ';' style.toList).filterMap readDeclaration := rfl

theorem clean_of_readDeclaration {piece : List Char} (whole : ';' ∉ piece)
    {declaration : String × String} (read : readDeclaration piece = some declaration) :
    Clean declaration := by
  unfold readDeclaration at read
  split at read
  case h_1 => cases read
  case h_2 before behind found =>
    have parts := Text.eq_of_cut found
    dsimp only at read
    split at read
    case isTrue => cases read
    case isFalse notEmpty =>
      cases read
      refine ⟨⟨?_, ?_, ?_, ?_⟩, ?_, ?_⟩ <;> simp only [String.toList_ofList]
      · exact fun empty => notEmpty (by simpa using String.toList_eq_nil_iff.2 empty)
      · exact Text.trim_trim _
      · exact fun inside => Text.not_mem_of_cut found (Text.mem_of_mem_trim inside)
      · exact fun inside => whole (by simp [parts, Text.mem_of_mem_trim inside])
      · exact Text.trim_trim _
      · exact fun inside => whole (by simp [parts, Text.mem_of_mem_trim inside])

theorem clean_declarations {style : String} : ∀ declaration ∈ declarations style,
    Clean declaration := by
  intro declaration inside
  rw [declarations_eq] at inside
  obtain ⟨piece, among, read⟩ := List.mem_filterMap.1 inside
  exact clean_of_readDeclaration (Text.not_mem_of_mem_pieces among) read

def declarationMarkup (declaration : String × String) : List Char :=
  declaration.1.toList ++ ':' :: ' ' :: declaration.2.toList

theorem toList_styleText_cons (first : String × String) (more : List (String × String)) :
    (styleText (first :: more)).toList = declarationMarkup first ++
      ';' :: (if more = [] then [] else ' ' :: (styleText more).toList) := by
  cases more with
  | nil => simp [styleText, declarationMarkup]
  | cons next rest => simp [styleText, declarationMarkup, String.intercalate_cons_cons]

theorem readDeclaration_printed {declaration : String × String} (clean : Clean declaration)
    {blanks : List Char} (blank : ∀ c ∈ blanks, Text.isBlank c = true) :
    readDeclaration (blanks ++ declarationMarkup declaration) = some declaration := by
  have noColon : ':' ∉ blanks ++ declaration.1.toList := by
    rw [List.mem_append, not_or]
    exact ⟨fun inside => absurd (blank _ inside) (by decide), clean.property.noColon⟩
  have value : Text.trim (' ' :: declaration.2.toList) = declaration.2.toList := by
    rw [← List.singleton_append,
      Text.trim_append_of_blank (List.forall_mem_singleton.2 (by decide)), clean.value.trimmed]
  rw [readDeclaration, declarationMarkup, ← List.append_assoc, Text.cut_append noColon]
  dsimp only
  rw [Text.trim_append_of_blank blank, clean.property.trimmed, value,
    if_neg fun empty => clean.property.ne_empty (String.toList_eq_nil_iff.1 empty)]
  simp

theorem readDeclaration_blank {blanks : List Char} (blank : ∀ c ∈ blanks, Text.isBlank c = true) :
    readDeclaration blanks = none := by
  rw [readDeclaration, Text.cut_eq_none.2 fun inside => absurd (blank _ inside) (by decide)]

theorem not_mem_declarationMarkup {declaration : String × String} (clean : Clean declaration) :
    ';' ∉ declarationMarkup declaration := by
  simp [declarationMarkup, clean.property.noSemicolon, clean.value.noSemicolon]

theorem read_styleText (clean : ∀ declaration ∈ declared, Clean declaration) (blanks : List Char)
    (blank : ∀ c ∈ blanks, Text.isBlank c = true) :
    (Text.pieces ';' (blanks ++ (styleText declared).toList)).filterMap readDeclaration =
      declared := by
  have whole : ∀ blanks : List Char, (∀ c ∈ blanks, Text.isBlank c = true) → ';' ∉ blanks :=
    fun _ blank inside => absurd (blank _ inside) (by decide)
  induction declared generalizing blanks with
  | nil =>
    have empty : (styleText []).toList = [] := rfl
    rw [empty, List.append_nil, Text.pieces_of_not_mem (whole _ blank)]
    simp [readDeclaration_blank blank]
  | cons first more ih =>
    obtain ⟨cleanFirst, cleanMore⟩ := List.forall_mem_cons.1 clean
    have apart : ';' ∉ blanks ++ declarationMarkup first := by
      rw [List.mem_append, not_or]
      exact ⟨whole _ blank, not_mem_declarationMarkup cleanFirst⟩
    rw [toList_styleText_cons, ← List.append_assoc, Text.pieces_append,
      Text.pieces_of_not_mem apart, List.singleton_append,
      List.filterMap_cons_some (readDeclaration_printed cleanFirst blank)]
    congr 1
    split
    case isTrue none =>
      subst none
      exact ih cleanMore [] (by simp)
    case isFalse => exact ih cleanMore [' '] (List.forall_mem_singleton.2 (by decide))

theorem declarations_styleText (clean : ∀ declaration ∈ declared, Clean declaration) :
    declarations (styleText declared) = declared :=
  read_styleText clean [] (by simp)

def styleOf (attributes : Attributes) : List (String × String) :=
  declarations ((attributes.get? "style").getD "")

theorem styleOf_writeStyle (attributes : Attributes)
    (clean : ∀ declaration ∈ declared, Clean declaration) :
    styleOf (writeStyle attributes declared) = declared := by
  unfold writeStyle styleOf
  split
  case isTrue none =>
    rw [OrderedMap.get?_remove, if_pos rfl, none]
    rfl
  case isFalse =>
    rw [OrderedMap.get?_put, if_pos rfl]
    exact declarations_styleText clean

theorem mem_declare {declaration : String × String}
    (inside : declaration ∈ declare declared property value) :
    declaration ∈ declared ∨ declaration = (property, value) := by
  unfold declare at inside
  split at inside
  · exact .inl (List.mem_of_mem_eraseP inside)
  · exact OrderedMap.mem_put inside

theorem styleOf_setStyle (named : PropertyName property) (valued : PropertyValue value)
    (attributes : Attributes) :
    styleOf (setStyle property value attributes) = declare (styleOf attributes) property value := by
  refine styleOf_writeStyle _ fun declaration inside => ?_
  rcases mem_declare inside with old | rfl
  · exact clean_declarations declaration old
  · exact ⟨named, valued⟩

/-- What the declarations of a property say, in the order in which they stand. The last one applies. -/
def valuesOf (property : String) (declared : List (String × String)) : List String :=
  (declared.filter (·.1 = property)).map Prod.snd

theorem valuesOf_cons_self (value : String) (declared : List (String × String)) :
    valuesOf property ((property, value) :: declared) = value :: valuesOf property declared := by
  simp [valuesOf]

theorem valuesOf_cons_of_ne {other : String} (differ : other ≠ property) (value : String)
    (declared : List (String × String)) :
    valuesOf property ((other, value) :: declared) = valuesOf property declared := by
  simp [valuesOf, differ]

theorem valuesOf_eraseP (declared : List (String × String)) (property : String) :
    valuesOf property (declared.eraseP (·.1 = property)) = (valuesOf property declared).tail := by
  induction declared with
  | nil => rfl
  | cons first more ih =>
    obtain ⟨name, value⟩ := first
    by_cases same : name = property
    · subst same
      rw [List.eraseP_cons_of_pos (by simp), valuesOf_cons_self, List.tail_cons]
    · rw [List.eraseP_cons_of_neg (by simpa using same), valuesOf_cons_of_ne same,
        valuesOf_cons_of_ne same, ih]

theorem valuesOf_put (declared : List (String × String)) (property value : String) :
    valuesOf property (OrderedMap.put declared property value) =
      value :: (valuesOf property declared).tail := by
  induction declared with
  | nil => simp [OrderedMap.put, valuesOf]
  | cons first more ih =>
    obtain ⟨name, old⟩ := first
    rw [OrderedMap.put]
    by_cases same : name = property
    · subst same
      rw [if_pos rfl, valuesOf_cons_self, valuesOf_cons_self, List.tail_cons]
    · rw [if_neg same, valuesOf_cons_of_ne same, valuesOf_cons_of_ne same, ih]

/-- Only the first declaration of a property is written, or dropped if the new value is empty. -/
theorem valuesOf_declare (declared : List (String × String)) (property value : String) :
    valuesOf property (declare declared property value) =
      (if value = "" then [] else [value]) ++ (valuesOf property declared).tail := by
  unfold declare
  split
  · exact valuesOf_eraseP declared property
  · exact valuesOf_put declared property value

theorem remove_eraseP (declared : List (String × String)) (property : String) :
    OrderedMap.remove (declared.eraseP (·.1 = property)) property =
      OrderedMap.remove declared property := by
  induction declared with
  | nil => rfl
  | cons first more ih =>
    unfold OrderedMap.remove at ih ⊢
    by_cases same : first.1 = property
    · rw [List.eraseP_cons_of_pos (by simpa using same), List.filter_cons_of_neg (by simpa using same)]
    · rw [List.eraseP_cons_of_neg (by simpa using same), List.filter_cons_of_pos (by simpa using same),
        List.filter_cons_of_pos (by simpa using same), ih]

theorem remove_declare (declared : List (String × String)) (property value : String) :
    OrderedMap.remove (declare declared property value) property =
      OrderedMap.remove declared property := by
  unfold declare
  split
  · exact remove_eraseP declared property
  · exact OrderedMap.remove_put declared property value

/-- A property was set: it is declared exactly if its value is not empty, the declaration that applies
says this value, and all others stand as they stood before. -/
structure TakesEffect (property value : String) (before after : List (String × String)) : Prop where
  declared : valuesOf property after ≠ [] ↔ value ≠ ""
  applied : value ≠ "" → (valuesOf property after).getLast? = some value
  others : OrderedMap.remove after property = OrderedMap.remove before property

theorem takesEffect_declare_iff : TakesEffect property value declared
      (declare declared property value) ↔
    ∀ old ∈ (valuesOf property declared).tail.getLast?, value ≠ "" ∧ old = value := by
  have values := valuesOf_declare declared property value
  generalize (valuesOf property declared).tail = later at values ⊢
  by_cases empty : value = ""
  · rw [if_pos empty, List.nil_append] at values
    constructor
    · intro effect old last
      have nothing : later = [] :=
        not_not.1 fun some => effect.declared.1 (by rwa [values]) empty
      simp [nothing] at last
    · intro same
      have nothing : later = [] := List.getLast?_eq_none_iff.1
        (Option.eq_none_iff_forall_not_mem.2 fun old last => (same old last).1 empty)
      exact ⟨by rw [values, nothing]; simp [empty], fun notEmpty => absurd empty notEmpty,
        remove_declare _ _ _⟩
  · rw [if_neg empty, List.singleton_append] at values
    have last : (valuesOf property (declare declared property value)).getLast? =
        some (later.getLast?.getD value) := by rw [values, List.getLast?_cons]
    constructor
    · intro effect old inside
      have applied := effect.applied empty
      rw [last, Option.mem_def.1 inside, Option.getD_some, Option.some.injEq] at applied
      exact ⟨empty, applied⟩
    · intro same
      refine ⟨by simp [values, empty], fun _ => ?_, remove_declare _ _ _⟩
      rw [last]
      cases found : later.getLast? with
      | none => rfl
      | some old => rw [Option.getD_some, (same old found).2]

/-- Setting a property takes effect unless a later declaration of it stays in effect: one that is left
when the property is to go, or that says something else than the new value. -/
theorem setStyle_takesEffect (named : PropertyName property) (valued : PropertyValue value) :
    valuesOf property (styleOf (setStyle property value attributes)) =
      (if value = "" then [] else [value]) ++ (valuesOf property (styleOf attributes)).tail ∧
    OrderedMap.remove (styleOf (setStyle property value attributes)) property =
      OrderedMap.remove (styleOf attributes) property ∧
    (TakesEffect property value (styleOf attributes)
        (styleOf (setStyle property value attributes)) ↔
      ∀ old ∈ (valuesOf property (styleOf attributes)).tail.getLast?, value ≠ "" ∧ old = value) := by
  rw [styleOf_setStyle named valued]
  exact ⟨valuesOf_declare _ _ _, remove_declare _ _ _, takesEffect_declare_iff⟩

theorem setStyle_takesEffect_once :
    PropertyName "display" ∧ PropertyValue "none" ∧
    TakesEffect "display" "none" (styleOf [("style", "color:red;; display : a:b ;x")])
      (styleOf (setStyle "display" "none" [("style", "color:red;; display : a:b ;x")])) := by
  have named : PropertyName "display" := by decide +kernel
  have valued : PropertyValue "none" := by decide +kernel
  exact ⟨named, valued, (setStyle_takesEffect named valued).2.2.2 (by decide +kernel)⟩

def flexStyle : String := "color: red; display: -webkit-box; display: flex"

/-- Neither is an element hidden nor its display cleared if the style declares it twice. -/
theorem not_takesEffect_flex :
    ¬ TakesEffect "display" "none" (styleOf [("style", flexStyle)])
      (styleOf (setStyle "display" "none" [("style", flexStyle)])) ∧
    (valuesOf "display" (styleOf (hideStep (.bool true)
      [("style", flexStyle), ("data-hide", "this")]).1)).getLast? ≠ some "none" ∧
    valuesOf "display" (styleOf (showStep (.bool true)
      [("style", flexStyle), ("data-show", "this")]).1) ≠ [] :=
  ⟨fun effect => absurd (effect.applied (by decide)) (by decide +kernel), by decide +kernel,
    by decide +kernel⟩

end LiveList.Template.Directive
