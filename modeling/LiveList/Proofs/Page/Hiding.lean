import LiveList.Proofs.Page.Auditing
import LiveList.Proofs.Page.Views

namespace LiveList

open Event (Hub Notification)
open Json (Value)

namespace Deed

variable {model : Model} {c c' : Collection} {stroke : Stroke} {entry : Entry}
  {said : Option Notification} {index : Nat}

theorem next_le_of_assigns (deed : Deed model c stroke entry said c') (assigns : entry.Assigns index) :
    c.next ≤ index := by
  cases deed with
  | insert => exact Nat.le_of_eq (List.mem_singleton.1 assigns).symm
  | insertAll => exact (List.mem_range'_1.1 assigns).1
  | _ => exact assigns.elim

theorem exists_showOnly {since : Nat} (deed : Deed model c stroke (.filtered since) said c') :
    ∃ matched, stroke = .showOnly since matched := by
  cases deed with
  | showOnly _ matched _ => exact ⟨matched, rfl⟩

theorem isSome_get?_iff (deed : Deed model c stroke entry said c') (sound : c.Sound) :
    (c'.get? index).isSome ↔ entry.Assigns index ∨ (c.get? index).isSome ∧ ¬ entry.Frees index := by
  cases deed with
  | insert record place =>
    rw [sound.get?_added]
    by_cases same : c.next = index
    · simp [same, Entry.Assigns]
    · simp [same, Ne.symm same, Entry.Assigns, Entry.Frees]
  | @insertAll items records created =>
    have length : (Patch.numbered c records).length = records.length := List.length_mapIdx
    rw [(sound.gains_addedAll _).get?, Option.isSome_or, Option.isSome_map]
    simp only [Bool.or_eq_true, Entry.Assigns, Entry.Frees, not_false_eq_true, and_true,
      List.mem_range'_1]
    refine or_congr_left ?_
    split
    case isTrue above =>
      rw [Option.isSome_iff_ne_none, ne_eq, List.getElem?_eq_none_iff, length]
      omega
    case isFalse below => simp [below]
  | @remove removed record held =>
    rw [Collection.get?_remove]
    by_cases same : removed = index <;> simp [same, Entry.Assigns, Entry.Frees]
  | removeAll => simp [Collection.clear, Collection.get?, OrderedMap.get?, Entry.Assigns, Entry.Frees]
  | @edit edited fields record updated held run =>
    have inside := Collection.mem_indices.2 ⟨record, held⟩
    rw [Collection.get?_replace inside]
    by_cases same : edited = index
    · subst same
      simp [held, Entry.Assigns, Entry.Frees]
    · simp [same, Entry.Assigns, Entry.Frees]
  | showOnly | updateView | addFilter => simp [Entry.Assigns, Entry.Frees]
  | arrange order brought | sort brought =>
    rw [Collection.get?_reorder sound]
    simp [Entry.Assigns, Entry.Frees]

end Deed

def Entry.Redraws : Entry → Prop
  | .filtered _ | .sorted | .updated => True
  | _ => False

namespace Page

variable {ℓ π κ σ α : Type} {index : Nat} {history : List (Effect ℓ π κ)}

/-- The index was that of a record when the last filter took effect, which did not match the record,
and the records have not been drawn anew since. -/
def Hidden (index : Nat) (history : List (Effect ℓ π κ)) : Prop :=
  ∃ before filter behind since, history = before ++ filter :: behind ∧
    filter.entry = .filtered since ∧ Remains index (before.map Effect.deed) ∧
    index ∉ listed filter.said ∧ ∀ later ∈ behind, ¬ later.entry.Redraws

theorem hidden_append (last : Effect ℓ π κ) : Hidden index (history ++ [last]) ↔
    (∃ since, last.entry = .filtered since) ∧ Remains index (history.map Effect.deed) ∧
        index ∉ listed last.said ∨
      Hidden index history ∧ ¬ last.entry.Redraws := by
  constructor
  · rintro ⟨before, filter, behind, since, same, filters, remains, unmatched, stays⟩
    rcases List.eq_nil_or_concat behind with rfl | ⟨behind, other, rfl⟩
    · obtain ⟨rfl, lastSame⟩ := List.append_inj' same rfl
      cases lastSame
      exact .inl ⟨⟨since, filters⟩, remains, unmatched⟩
    · rw [List.concat_eq_append, ← List.cons_append, ← List.append_assoc] at same
      obtain ⟨rfl, lastSame⟩ := List.append_inj' same rfl
      cases lastSame
      refine .inr ⟨⟨before, filter, behind, since, rfl, filters, remains, unmatched, ?_⟩, ?_⟩
      · exact fun later inside => stays later (by simp [inside])
      · exact stays last (by simp)
  · rintro (⟨⟨since, filters⟩, remains, unmatched⟩ |
      ⟨⟨before, filter, behind, since, rfl, filters, remains, unmatched, stays⟩, keeps⟩)
    · exact ⟨history, last, [], since, rfl, filters, remains, unmatched, by simp⟩
    · refine ⟨before, filter, behind ++ [last], since, by simp, filters, remains, unmatched, ?_⟩
      intro later inside
      rcases List.mem_append.1 inside with earlier | atEnd
      · exact stays later earlier
      · exact List.mem_singleton.1 atEnd ▸ keeps

structure Accounts (history : List (Effect ℓ π κ)) (view : ListView) : Prop where
  sane : view.Sane
  filled : view.Filled
  remains : ∀ index, (view.collection.get? index).isSome ↔ Remains index (history.map Effect.deed)
  shown : ∀ index, view.Remembers index ↔
    (view.collection.get? index).isSome ∧ ¬ Hidden index history
  below : ∀ index, Hidden index history → index < view.collection.next
  filters : ∀ effect ∈ history, ∀ since, effect.entry = .filtered since →
    ∃ test, effect.call = .filter test

variable {view : ListView}

namespace Accounts

theorem nil (sane : view.Sane) (bare : view.collection.records = []) (nodes : view.nodes = []) :
    Accounts (ℓ := ℓ) (π := π) (κ := κ) [] view where
  sane := sane
  filled index roots found := by
    rw [nodes] at found
    cases found
  remains index := by simp [Collection.get?, bare, OrderedMap.get?, Remains]
  shown index := by simp [ListView.Remembers, nodes, Collection.get?, bare, OrderedMap.get?]
  below index hidden := by
    obtain ⟨before, filter, behind, since, same, -⟩ := hidden
    simp at same
  filters _ inside := absurd inside List.not_mem_nil

theorem append (accounts : Accounts history view) {call : Call ℓ π κ} {stroke : Stroke} {entry : Entry}
    {d : Document} {result : stroke.Result} {left : Scene} (leads : call.Leads (fun _ => True) stroke)
    (run : stroke.change.on ⟨view, d⟩ = (result, left)) (line : stroke.line result = some entry)
    (deed : Deed view.model view.collection stroke entry (stroke.said result) left.view.collection) :
    Accounts (history ++ [⟨call, entry, stroke.said result⟩]) left.view := by
  have sound := accounts.sane.sound
  have shows := stroke.shows sound run
  have displays (index : Nat) : left.view.Remembers index ↔
      entry.Displays view.collection (stroke.said result) view.Remembers index := by
    have shown := shows.shown index
    rwa [line] at shown
  have held (index : Nat) : (left.view.collection.get? index).isSome ↔ entry.Assigns index ∨
      (view.collection.get? index).isSome ∧ ¬ entry.Frees index := deed.isSome_get?_iff sound
  have below (index : Nat) (isHeld : (view.collection.get? index).isSome) :
      index < view.collection.next :=
    sound.below index (Collection.mem_indices.2 (Option.isSome_iff_exists.1 isHeld))
  refine ⟨Stroke.sane run accounts.sane, shows.filled accounts.sane.rooted accounts.filled,
    fun index => ?_, fun index => ?_, fun index hidden => ?_, fun effect inside since filters => ?_⟩
  · rw [List.map_append, List.map_singleton, remains_append, ← accounts.remains]
    exact held index
  · -- The index of a new record was never hidden: the counter has passed all that were.
    have newer : entry.Assigns index → ¬ Hidden index history := fun assigns hidden =>
      Nat.not_le.2 (accounts.below index hidden) (deed.next_le_of_assigns assigns)
    rw [displays, held, hidden_append]
    have shown := accounts.shown index
    have remains := accounts.remains index
    have listed : index ∈ view.collection.indices ↔ (view.collection.get? index).isSome :=
      Collection.mem_indices.trans Option.isSome_iff_exists.symm
    cases entry <;> simp only [Entry.Displays, Entry.Assigns, Entry.Frees, Entry.Redraws] at * <;>
      grind
  · refine Nat.lt_of_lt_of_le ?_ (deed.succeeds sound).next
    rcases hidden_append _ |>.1 hidden with ⟨-, remains, -⟩ | ⟨earlier, -⟩
    · exact below index ((accounts.remains index).2 remains)
    · exact accounts.below index earlier
  · rcases List.mem_append.1 inside with earlier | atEnd
    · exact accounts.filters effect earlier since filters
    · cases List.mem_singleton.1 atEnd
      obtain rfl : entry = .filtered since := filters
      obtain ⟨matched, rfl⟩ := deed.exists_showOnly
      cases leads with
      | filter test => exact ⟨test, rfl⟩

theorem kept : KeptByStrokes (Accounts (ℓ := ℓ) (π := π) (κ := κ)) := by
  intro history call stroke view d result left leads run accounts
  rw [Stroke.effect]
  obtain ⟨-, ⟨line, -, unchanged⟩ | ⟨entry, line, deed⟩⟩ := stroke.does run
  · have shows := stroke.shows accounts.sane.sound run
    have shown (index : Nat) : left.view.Remembers index ↔ view.Remembers index := by
      have shown := shows.shown index
      rwa [line] at shown
    rw [line, Option.map_none, Option.toList_none, List.append_nil]
    refine ⟨Stroke.sane run accounts.sane, shows.filled accounts.sane.rooted accounts.filled, ?_, ?_, ?_,
      accounts.filters⟩
    · rw [unchanged]
      exact accounts.remains
    · rw [unchanged]
      exact fun index => (shown index).trans (accounts.shown index)
    · rw [unchanged]
      exact accounts.below
  · rw [line]
    exact accounts.append leads run line deed

theorem head?_eq_none_iff (accounts : Accounts history view) (there : (view.collection.get? index).isSome) :
    (OrderedMap.get? view.nodes index).bind List.head? = none ↔ Hidden index history := by
  have shown := accounts.shown index
  rw [ListView.Remembers] at shown
  cases known : OrderedMap.get? view.nodes index with
  | none => simpa [known, there] using shown
  | some roots =>
    have filled := accounts.filled index roots known
    simpa [known, there, filled] using shown

theorem exists_filter (accounts : Accounts history view) (hidden : Hidden index history) :
    ∃ effect ∈ history, ∃ test, effect.call = .filter test := by
  obtain ⟨before, filter, behind, since, same, filters, -⟩ := hidden
  have inside : filter ∈ history := by simp [same]
  exact ⟨filter, inside, accounts.filters filter inside since filters⟩

end Accounts

/-! ## Edits -/

theorem update_ne_missing {record : Record} {fields : Value} {cause : Error}
    (run : record.update fields = .error cause) (index : Nat) : cause ≠ .missingDataId index := by
  cases fields with
  | object fields => cases run
  | _ =>
    cases run
    nofun

theorem renderRecord_ne_missing {record : Record} {d d' : Document} {cause : Error}
    (run : view.renderRecord record d = (d', .error cause)) (index : Nat) :
    cause ≠ .missingDataId index := by
  rw [ListView.renderRecord] at run
  split at run
  · cases run
    intro same
    cases same
  · split at run <;> cases run

theorem edit_result (accounts : Accounts history view) {d : Document} {fields : Value}
    (truthy : fields.isTruthy) (index : Nat) {result : Except Error (Option Value)} {scene : Scene}
    (run : (Patch.edit index fields).on ⟨view, d⟩ = (result, scene)) :
    (result = .ok none ↔ view.collection.get? index = none) ∧
      ∀ other, result = .error (.missingDataId other) ↔
        other = index ∧ (view.collection.get? index).isSome ∧ Hidden index history := by
  rw [Patch.on_edit, if_neg (by simp [truthy])] at run
  split at run
  case h_1 absent =>
    cases run
    simp [absent]
  case h_2 record held =>
    have hidden := accounts.head?_eq_none_iff (Option.isSome_iff_exists.2 ⟨record, held⟩)
    split at run
    case h_1 first =>
      cases run
      simp [held, hidden.1 first, eq_comm]
    case h_2 anchor first =>
      have isShown : ¬ Hidden index history := fun isHidden => by
        cases first.symm.trans (hidden.2 isHidden)
      suffices other : result ≠ .ok none ∧ ∀ other, result ≠ .error (.missingDataId other) by
        simp [held, isShown, other]
      split at run
      case h_1 cause updating =>
        cases run
        exact ⟨nofun, fun other same => update_ne_missing updating other (Except.error.inj same)⟩
      case h_2 updated updating =>
        split at run
        case h_1 d' cause rendered =>
          cases run
          exact ⟨nofun, fun other same => renderRecord_ne_missing rendered other (Except.error.inj same)⟩
        case h_2 =>
          cases run
          exact ⟨nofun, nofun⟩

section

variable {page told left : Page ℓ σ} {list depth : Nat} {mounted : Mounted ℓ} {fields : Value}
  {callbacks : Callbacks (Run ℓ σ) ℓ π κ} {behaviour : Behaviour ℓ π κ σ}
  {result : Except Error (Option Value)} {scene : Scene}

theorem answer_edit_eq_some
    (ends : (answer callbacks list (.edit index fields)).run page = some (result, told)) :
    ∃ mounted scene, page.list? list = some mounted ∧
      (Patch.edit index fields).on ⟨mounted.view, page.document⟩ = (result, scene) := by
  obtain ⟨⟨edited, mid⟩, patched, ends⟩ := Option.bind_eq_some_iff.1 ends
  obtain ⟨mounted, scene, there, run, -⟩ := change_eq_some patched
  refine ⟨mounted, scene, there, ?_⟩
  rcases edited with cause | _ | updated
  · cases ends
    exact run
  · cases ends
    exact run
  · obtain ⟨⟨count, _⟩, -, ends⟩ := Option.bind_eq_some_iff.1 ends
    cases ends
    exact run

theorem answer_edit_run (there : page.list? list = some mounted)
    (run : (Patch.edit index fields).on ⟨mounted.view, page.document⟩ = (result, scene))
    (untold : ∀ updated, result ≠ .ok (some updated)) :
    ∃ told, (answer callbacks list (.edit index fields)).run page = some (result, told) := by
  rw [answer, StateT.run_bind, patch_run there run, Option.bind_eq_bind, Option.bind_some]
  rcases result with cause | _ | updated
  · exact ⟨_, rfl⟩
  · exact ⟨_, rfl⟩
  · exact absurd rfl (untold updated)

theorem perform_edit_eq_some (held : page.held? list = some mounted)
    {a : Option (Except Error (Option Value))}
    (run : (perform behaviour (depth + 1) (.call list (.edit index fields))).run page = some (a, left)) :
    a = some ((Patch.edit index fields).on ⟨mounted.view, page.document⟩).1 := by
  obtain ⟨_, told, rfl, answered, -⟩ := perform_call_eq_some held run
  obtain ⟨_, scene, there, run⟩ := answer_edit_eq_some answered
  cases (list?_begun (list?_of_held? held)).symm.trans there
  exact congrArg some (congrArg Prod.fst run).symm

theorem perform_edit_iff (held : page.held? list = some mounted)
    (untold : ∀ updated, result ≠ .ok (some updated)) :
    (∃ after, (perform behaviour (depth + 1) (.call list (.edit index fields))).run page =
        some (some result, after)) ↔
      ((Patch.edit index fields).on ⟨mounted.view, page.document⟩).1 = result := by
  refine ⟨fun ⟨after, run⟩ => (Option.some.inj (perform_edit_eq_some held run)).symm, fun same => ?_⟩
  obtain ⟨told, answered⟩ : ∃ told, (answer (behaviour.callbacks (perform behaviour depth)) list
      (.edit index fields)).run (page.begun list) = some (result, told) :=
    answer_edit_run (list?_begun (list?_of_held? held)) (Prod.ext same rfl) untold
  exact ⟨_, serve_call_some held answered⟩

end

/-- An edit that is to do something answers that there is no such record just if there is none, and
fails for want of nodes just if the record is hidden. -/
def EditAnswered (list : Nat) : Check ℓ π κ σ
  | .call other (.edit index fields), s, answer => other = list → fields.isTruthy →
    ∀ now, s.page.held? list = some now →
      (answer = some (.ok none) ↔ now.view.collection.get? index = none) ∧
      (answer = some (.error (.missingDataId index)) ↔
        (now.view.collection.get? index).isSome ∧ Hidden index (effects list s.log))
  | _, _, _ => True

theorem edit_answered {behaviour : Behaviour ℓ π κ σ} {depth list : Nat} {r : Request ℓ π κ}
    {s t : Traced ℓ π κ σ} {answer : r.Answer} (holds : Holds list Accounts s)
    (run : (trace behaviour depth r).run s = some (answer, t)) : EditAnswered list r s answer := by
  cases r with
  | call other call =>
    cases call with
    | edit index fields =>
      rintro rfl truthy now held
      obtain ⟨own, there, accounts⟩ := holds
      cases (list?_of_held? held).symm.trans there
      obtain ⟨_, performed, -, rfl⟩ := (trace_inStep behaviour depth _).exists_other rfl run
      cases depth with
      | zero => cases performed
      | succ depth =>
        obtain ⟨none, missing⟩ := edit_result accounts truthy index
          (rfl : (Patch.edit index fields).on ⟨now.view, s.page.document⟩ = _)
        rw [perform_edit_eq_some held performed, Option.some_inj, Option.some_inj]
        exact ⟨none, (missing index).trans (and_iff_right rfl)⟩
    | _ => trivial
  | _ => trivial

/-- After every run of a list that has just been built, an edit answers that there is no such record
just if there is none, and fails for want of nodes just if the record is hidden. So do all edits that
are made in the course of the run, by callbacks too. If there was no filter, no edit fails so. -/
theorem edit_hidden {behaviour : Behaviour ℓ π κ σ} {depth list : Nat} {action : Action ℓ π κ σ α}
    {page left : Page ℓ σ} {a : α} {builder : ListBuilder} {document : Document}
    (built : builder.build document = .ok view)
    (there : page.list? list = some ⟨view, Hub.empty, [], true, 0⟩)
    (run : (runAction (perform behaviour depth) action).run page = some (a, left)) :
    ∃ log now, (actTraced (trace behaviour depth) action).run ⟨page, []⟩ = some (a, ⟨left, log⟩) ∧
      (actTraced (traceAudited (EditAnswered list) behaviour depth) action).run ⟨page, []⟩ =
        some (a, ⟨left, log⟩) ∧
      left.list? list = some now ∧ (left.held? list = some now → ∀ depth index fields,
        (fields.isTruthy →
          ((∃ after, (perform behaviour (depth + 1) (.call list (.edit index fields))).run left =
              some (some (.ok none), after)) ↔
            now.view.collection.get? index = none) ∧
          ((∃ after, (perform behaviour (depth + 1) (.call list (.edit index fields))).run left =
              some (some (.error (.missingDataId index)), after)) ↔
            (now.view.collection.get? index).isSome ∧ Hidden index (effects list log))) ∧
        ((∀ effect ∈ effects list log, ∀ test, effect.call ≠ .filter test) → ∀ other after,
          (perform behaviour (depth + 1) (.call list (.edit index fields))).run left ≠
            some (some (.error (.missingDataId other)), after))) := by
  obtain ⟨log, traced⟩ := exists_trace run
  obtain ⟨collection, nodes, -, -⟩ := ListBuilder.build_ok built
  have start : Holds list Accounts (⟨page, []⟩ : Traced ℓ π κ σ) :=
    ⟨_, there, .nil (ListBuilder.build_sane built) (congrArg Collection.records collection) nodes⟩
  obtain ⟨audits, now, there', accounts⟩ :=
    act_audited Accounts.kept (fun _ _ _ _ _ holds run => edit_answered holds run) start traced
  refine ⟨log, now, traced, audits, there', fun held depth index fields => ⟨fun truthy => ?_, ?_⟩⟩
  · obtain ⟨none, missing⟩ := edit_result accounts truthy index
      (rfl : (Patch.edit index fields).on ⟨now.view, left.document⟩ = _)
    refine ⟨(perform_edit_iff held (by simp)).trans none, (perform_edit_iff held (by simp)).trans ?_⟩
    exact (missing index).trans (and_iff_right rfl)
  · intro unfiltered other after run
    have failed := (perform_edit_iff held (by simp)).1 ⟨after, run⟩
    cases truthy : fields.isTruthy with
    | false =>
      rw [Patch.on_edit, if_pos truthy] at failed
      cases failed
    | true =>
      obtain ⟨-, missing⟩ := edit_result accounts truthy index
        (rfl : (Patch.edit index fields).on ⟨now.view, left.document⟩ = _)
      obtain ⟨-, -, hidden⟩ := (missing other).1 failed
      obtain ⟨filter, inside, test, isFilter⟩ := accounts.exists_filter hidden
      exact unfiltered filter inside test isFilter

def editedText : Value := .object [("text", .string "c")]

def picking : Behaviour Unit Unit Unit Unit where
  listen _ _ := .ask (.call 0 (.edit 1 editedText)) fun _ => .done ()
  test _ value := .done ((value.field? "text").any (·.same (.string "a")))
  compare _ _ _ := .done .eq

def pickTexts : Action Unit Unit Unit Unit Unit :=
  .ask (pushText "a") fun _ => .ask (pushText "b") fun _ =>
    .ask (.call 0 (.subscribe [.filter] ())) fun _ => .ask (.call 0 (.filter ())) fun _ => .done ()

theorem texts_picked : ((runAction (perform picking 2) pickTexts).run textsPage).any fun (_, left) =>
    (left.held? 0).any fun now => (now.view.collection.get? 2).isNone &&
      ((perform picking 1 (.call 0 (.edit 1 editedText))).run left).any fun (answer, _) =>
        match answer with
        | some (.error (.missingDataId 1)) => true
        | _ => false := by
  decide +kernel

theorem edit_hidden_texts : ∃ (view : ListView) (left : Page Unit Unit) (now : Mounted Unit)
    (log : List (Mark Unit Unit Unit Unit)), textsBuilder.build textsDocument = .ok view ∧
    textsPage.list? 0 = some ⟨view, Hub.empty, [], true, 0⟩ ∧
    (runAction (perform picking 2) pickTexts).run textsPage = some ((), left) ∧
    (actTraced (traceAudited (EditAnswered 0) picking 2) pickTexts).run ⟨textsPage, []⟩ =
      some ((), ⟨left, log⟩) ∧
    left.held? 0 = some now ∧ editedText.isTruthy ∧
    (now.view.collection.get? 1).isSome ∧ Hidden 1 (effects 0 log) ∧
    ∃ after, (perform picking 1 (.call 0 (.edit 2 editedText))).run left = some (some (.ok none), after) := by
  obtain ⟨view, built⟩ := exists_texts_view
  have there : textsPage.list? 0 = some ⟨view, Hub.empty, [], true, 0⟩ := by
    rw [textsPage, built]
    rfl
  obtain ⟨⟨⟨⟩, left⟩, run, rest⟩ := (Option.any_eq_true _ _).1 texts_picked
  obtain ⟨now, held, rest⟩ := (Option.any_eq_true _ _).1 rest
  obtain ⟨absent, rest⟩ := Bool.and_eq_true_iff.1 rest
  obtain ⟨⟨answer, after⟩, edited, failed⟩ := (Option.any_eq_true _ _).1 rest
  obtain ⟨log, found, -, audits, there', answers⟩ := edit_hidden built there run
  cases (list?_of_held? held).symm.trans there'
  have missing : answer = some (.error (.missingDataId 1)) := by
    dsimp only at failed
    split at failed
    · rfl
    · cases failed
  obtain ⟨held', hidden⟩ := ((answers held 0 1 editedText).1 rfl).2.1 ⟨after, missing ▸ edited⟩
  exact ⟨view, left, now, log, built, there, run, audits, held, rfl, held', hidden,
    ((answers held 0 2 editedText).1 rfl).1.2 (Option.isNone_iff_eq_none.1 absent)⟩

end Page

end LiveList
