import LiveList.Json.Path
import LiveList.Proofs.OrderedMap
import LiveList.Proofs.Text.Pieces

namespace LiveList.Json

theorem isDigit_eq (c : Char) : Text.isDigit c = c.isDigit := by
  rw [Text.isDigit, Char.isDigit]
  rfl

theorem toList_toString (n : Nat) : (toString n).toList = Nat.toDigits 10 n := by
  rw [show toString n = n.repr from rfl, Nat.repr_eq_ofList_toDigits, String.toList_ofList]

theorem isDigit_of_mem_toString {n : Nat} {c : Char} (inside : c ∈ (toString n).toList) :
    Text.isDigit c = true := by
  rw [toList_toString] at inside
  rw [isDigit_eq, Nat.isDigit_of_mem_toDigits (by decide) (by decide) inside]

theorem position?_toString (n : Nat) : position? (toString n) = some n := by
  have digits : ∀ c ∈ (toString n).toList, Text.isDigit c = true := fun _ => isDigit_of_mem_toString
  have notEmpty : (toString n).toList ≠ [] := by simp
  have unsigned : ∀ rest, (toString n).toList ≠ '+' :: rest := fun rest signed =>
    absurd (digits '+' (signed ▸ List.mem_cons_self)) (by decide)
  have value : (toString n).toList.foldl (fun n c => 10 * n + (c.toNat - '0'.toNat)) 0 = n := by
    rw [toList_toString, ← Nat.ofDigitChars_eq_foldl, Nat.ofDigitChars_ten_toDigits]
  unfold position?
  dsimp only
  split
  case h_1 rest signed => exact absurd signed (unsigned rest)
  case h_2 =>
    rw [if_neg, value]
    simpa [notEmpty] using digits

namespace Value

theorem segmentsOf_append (before behind : List Char) :
    segmentsOf (before ++ '.' :: behind) = segmentsOf before ++ segmentsOf behind := by
  rw [segmentsOf, Text.pieces_append, List.map_append, ← segmentsOf, ← segmentsOf]

theorem trim_toString (n : Nat) : Text.trim (toString n).toList = (toString n).toList := by
  have solid : ∀ c ∈ (toString n).toList, Text.isBlank c = false := fun c inside =>
    Text.isBlank_of_isDigit (isDigit_of_mem_toString inside)
  exact Text.trim_eq_self.2 ⟨fun c first => solid c (List.mem_of_mem_head? first),
    fun c last => solid c (List.mem_of_mem_getLast? last)⟩

theorem segmentsOf_toString (n : Nat) : segmentsOf (toString n).toList = [toString n] := by
  have noDot : '.' ∉ (toString n).toList := fun inside =>
    absurd (isDigit_of_mem_toString inside) (by decide)
  rw [segmentsOf, Text.pieces_of_not_mem noDot, List.map_singleton, trim_toString,
    String.ofList_toList]

theorem descend_append (value : Value) (first second : List String) :
    value.descend (first ++ second) = (value.descend first).bind (descend · second) := by
  induction first generalizing value with
  | nil => rfl
  | cons segment rest ih =>
    simp only [List.cons_append, descend]
    cases value.child? segment with
    | none => rfl
    | some child => exact ih child

theorem not_null_of_child {value child : Value} {segment : String}
    (found : value.child? segment = some child) : value.isNull = false := by
  cases value <;> first | rfl | cases found

theorem resolve_append {value inner : Value} {first : List String}
    (found : value.descend first = some inner) (second : List String) :
    resolve (some value) (first ++ second) = resolve (some inner) second := by
  induction first generalizing value with
  | nil =>
    cases found
    rfl
  | cons segment rest ih =>
    obtain ⟨child, isChild, found⟩ := Option.bind_eq_some_iff.1 found
    rw [List.cons_append, resolve, not_null_of_child isChild, isChild]
    exact ih found

theorem lookup_of_trimmed {path : String} (trimmed : Text.trim path.toList = path.toList)
    (context : Value) : context.lookup path =
      if path = thisPath then some context else context.descend (segmentsOf path.toList) := by
  rw [lookup, trimmed]
  simp only [String.toList_inj]

theorem descend_eq_some_iff {value found : Value} {names : List String} :
    value.descend names = some found ↔ resolve (some value) names = some (some found) := by
  constructor
  · intro descends
    simpa [resolve] using resolve_append descends []
  · intro resolves
    induction names generalizing value with
    | nil =>
      cases resolves
      rfl
    | cons segment rest ih =>
      rw [resolve] at resolves
      split at resolves
      · cases resolves
      cases isChild : value.child? segment with
      | none =>
        rw [isChild] at resolves
        cases rest <;> cases resolves
      | some child =>
        rw [isChild] at resolves
        exact Option.bind_eq_some_iff.2 ⟨child, isChild, ih resolves⟩

/-- Strict resolution fails where a part of the path that goes on leads to nothing or to `null`. -/
theorem resolve_eq_none_iff {current : Option Value} {names : List String} :
    resolve current names = none ↔ ∃ before, before <+: names ∧ before ≠ names ∧
      (resolve current before = some none ∨ resolve current before = some (some .null)) := by
  induction names generalizing current with
  | nil =>
    constructor
    · intro fails
      cases fails
    · rintro ⟨before, isPart, proper, -⟩
      exact absurd (List.prefix_nil.1 isPart) proper
  | cons segment rest ih =>
    match current with
    | none => exact iff_of_true rfl ⟨[], List.nil_prefix, by simp, .inl rfl⟩
    | some value =>
      by_cases null : value.isNull = true
      · have isNull : value = .null := by
          cases value <;> first | rfl | cases null
        refine iff_of_true (by rw [resolve, if_pos null]) ⟨[], List.nil_prefix, by simp, .inr ?_⟩
        rw [isNull, resolve]
      rw [resolve, if_neg null, ih]
      constructor
      · rintro ⟨before, isPart, proper, leads⟩
        refine ⟨segment :: before, by simpa using isPart, by simpa using proper, ?_⟩
        rwa [resolve, if_neg null]
      · rintro ⟨before, isPart, proper, leads⟩
        cases before with
        | nil =>
          rcases leads with leads | leads
          · cases leads
          · cases leads
            exact absurd rfl null
        | cons first before =>
          obtain ⟨rfl, later⟩ := List.cons_prefix_cons.1 isPart
          refine ⟨before, later, by simpa using proper, ?_⟩
          rwa [resolve, if_neg null] at leads

theorem sizeOf_lt_of_child {value child : Value} {segment : String}
    (found : value.child? segment = some child) : sizeOf child < sizeOf value := by
  cases value with
  | object fields =>
    have inside := OrderedMap.mem_of_get? found
    have := List.sizeOf_lt_of_mem inside
    simp only [Value.object.sizeOf_spec, Prod.mk.sizeOf_spec] at this ⊢
    omega
  | array items =>
    obtain ⟨n, -, item⟩ := Option.bind_eq_some_iff.1 found
    have := List.sizeOf_lt_of_mem (List.mem_of_getElem? item)
    simp only [Value.array.sizeOf_spec]
    omega
  | null | bool | number | string => cases found

theorem sizeOf_le_of_descend {value inner : Value} {names : List String}
    (found : value.descend names = some inner) : sizeOf inner ≤ sizeOf value := by
  induction names generalizing value with
  | nil =>
    cases found
    exact Nat.le_refl _
  | cons segment rest ih =>
    obtain ⟨child, isChild, found⟩ := Option.bind_eq_some_iff.1 found
    exact (ih found).trans (sizeOf_lt_of_child isChild).le

theorem length_lt_sizeOf (items : List Value) : items.length < sizeOf (Value.array items) := by
  have bound : items.length < sizeOf items := by
    induction items with
    | nil => simp
    | cons first rest ih =>
      simp only [List.length_cons, List.cons.sizeOf_spec]
      omega
  simp only [Value.array.sizeOf_spec]
  omega

end Value

end LiveList.Json
