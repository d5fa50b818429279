import LiveList.Proofs.Page.Effects
import LiveList.Proofs.Page.Views

namespace LiveList

open Event (Notification)
open Json (Value Fields)

namespace Collection

def Matches (c : Collection) (fields : Fields) (index : Nat) : Prop :=
  ∃ record, c.get? index = some record ∧
    ∀ field ∈ fields, ∃ found, record.raw field.1 = some found ∧ found.same field.2

def withoutAll (c : Collection) (indices : List Nat) : Collection :=
  { c with records := c.records.filter fun entry => entry.1 ∉ indices }

variable {c : Collection} {fields : Fields} {index : Nat}

theorem agrees_iff {record : Record} : agrees record fields ↔
    ∀ field ∈ fields, ∃ found, record.raw field.1 = some found ∧ found.same field.2 := by
  rw [agrees, List.all_eq_true]
  refine forall₂_congr fun field _ => ?_
  cases held : record.raw field.1 <;> simp [held]

theorem matching_sublist (c : Collection) (fields : Fields) : (c.matching fields).Sublist c.indices :=
  List.filter_sublist.map Prod.fst

theorem mem_matching :
    index ∈ c.matching fields ↔ ∃ record, (index, record) ∈ c.records ∧ agrees record fields := by
  simp [matching]

theorem Sound.mem_matching_iff (sound : c.Sound) : index ∈ c.matching fields ↔ c.Matches fields index := by
  simp only [mem_matching, Matches, agrees_iff, sound.get?_iff]

@[simp] theorem withoutAll_nil (c : Collection) : c.withoutAll [] = c := by
  simp [withoutAll]

theorem withoutAll_append (c : Collection) (first second : List Nat) :
    c.withoutAll (first ++ second) = (c.withoutAll first).withoutAll second := by
  simp only [withoutAll, List.filter_filter, mk.injEq, and_true]
  exact List.filter_congr fun entry _ => by simp [Bool.and_comm]

theorem withoutAll_singleton (c : Collection) (index : Nat) :
    c.withoutAll [index] = (c.remove index).1 := by
  simp [withoutAll, remove, OrderedMap.remove]

theorem Sound.records_withoutAll_matching (sound : c.Sound) :
    (c.withoutAll (c.matching fields)).records = c.records.filter fun entry => !agrees entry.2 fields := by
  refine List.filter_congr fun entry inside => ?_
  have matched : entry.1 ∈ c.matching fields ↔ agrees entry.2 fields := by
    rw [mem_matching]
    refine ⟨fun ⟨record, there, agree⟩ => ?_, fun agree => ⟨entry.2, inside, agree⟩⟩
    cases (sound.get?_iff.2 there).symm.trans (sound.get?_iff.2 inside)
    exact agree
  simp [matched]

end Collection

namespace Page

variable {ℓ π κ σ : Type}

/-! ## Marks outside and inside listeners -/

def Mark.isCall : Mark ℓ π κ σ → Bool
  | .called .. => true
  | _ => false

def Mark.returnsTo (start : Nat) : Mark ℓ π κ σ → Bool
  | .returned from_ => from_ == start
  | _ => false

/-- The marks of a log from a position on that stand outside of the calls of listeners, or, if `deep`,
inside. `within` is where the outermost listener that has not returned was called. -/
def level (deep : Bool) : (position : Nat) → (within : Option Nat) → List (Mark ℓ π κ σ) →
    List (Mark ℓ π κ σ)
  | _, _, [] => []
  | position, none, mark :: rest =>
    if mark.isCall then level deep (position + 1) (some position) rest
    else (if deep then [] else [mark]) ++ level deep (position + 1) none rest
  | position, some start, mark :: rest =>
    if mark.returnsTo start then level deep (position + 1) none rest
    else (if deep then [mark] else []) ++ level deep (position + 1) (some start) rest

def outer (log : List (Mark ℓ π κ σ)) : List (Mark ℓ π κ σ) := level false 0 none log

def inner (log : List (Mark ℓ π κ σ)) : List (Mark ℓ π κ σ) := level true 0 none log

/-- In a part of a log that begins at a position all listeners that are called return. These marks
are its own, and those are the listeners'. -/
def Balanced (position : Nat) (part own theirs : List (Mark ℓ π κ σ)) : Prop :=
  ∀ deep rest, level deep position none (part ++ rest) =
    (if deep then theirs else own) ++ level deep (position + part.length) none rest

variable {position : Nat} {part more own own' theirs theirs' log : List (Mark ℓ π κ σ)}

theorem Balanced.nil : Balanced position ([] : List (Mark ℓ π κ σ)) [] [] := by
  intro deep rest
  simp

theorem Balanced.append (first : Balanced position part own theirs)
    (second : Balanced (position + part.length) more own' theirs') :
    Balanced position (part ++ more) (own ++ own') (theirs ++ theirs') := by
  intro deep rest
  rw [List.append_assoc, first, second, List.length_append, Nat.add_assoc]
  cases deep <;> simp

theorem Balanced.single {mark : Mark ℓ π κ σ} (noCall : mark.isCall = false) :
    Balanced position [mark] [mark] [] := by
  intro deep rest
  simp only [List.singleton_append, level, noCall]
  cases deep <;> rfl

theorem level_within {start : Nat} (still : .returned start ∉ part) (deep : Bool)
    (position : Nat) (rest : List (Mark ℓ π κ σ)) :
    level deep position (some start) (part ++ rest) =
      (if deep then part else []) ++ level deep (position + part.length) (some start) rest := by
  induction part generalizing position with
  | nil => simp
  | cons mark part ih =>
    obtain ⟨differ, still⟩ := not_or.1 (List.mem_cons.not.1 still)
    have stays : mark.returnsTo start = false := by
      cases mark with
      | returned from_ =>
        rw [Mark.returnsTo, beq_eq_false_iff_ne]
        exact fun same => differ (same ▸ rfl)
      | _ => rfl
    rw [List.cons_append, level, stays, ih still, List.length_cons, Nat.add_assoc, Nat.add_comm 1]
    cases deep <;> rfl

theorem Balanced.call {list : Nat} {id : Event.ListenerId} {notification : Notification}
    {found : Page ℓ σ} (still : .returned position ∉ part) :
    Balanced position ([.called list id notification found] ++ part ++ [.returned position])
      [] part := by
  intro deep rest
  have begins : level deep position none
      ([Mark.called list id notification found] ++ part ++ [.returned position] ++ rest) =
        level deep (position + 1) (some position) (part ++ .returned position :: rest) := by
    simp [level, Mark.isCall]
  have returns : level deep (position + 1 + part.length) (some position)
      (.returned position :: rest) = level deep (position + 1 + part.length + 1) none rest := by
    simp [level, Mark.returnsTo]
  rw [begins, level_within still, returns]
  have length : position + ([Mark.called list id notification found] ++ part ++
      [Mark.returned position]).length = position + 1 + part.length + 1 := by
    simp only [List.length_append, List.length_singleton]
    omega
  rw [length]

theorem Balanced.outer (balanced : Balanced 0 log own theirs) : outer log = own := by
  rw [Page.outer]
  simpa [level] using balanced false []

theorem Balanced.inner (balanced : Balanced 0 log own theirs) : inner log = theirs := by
  rw [Page.inner]
  simpa [level] using balanced true []

/-! ## Sweeps -/

section

variable {list : Nat} {call : Call ℓ π κ} {s mid t : Traced ℓ π κ σ} {mounted between now : Mounted ℓ}
  {indices indices' : List Nat} {removed removed' : List (Nat × Value)}

def removal (list : Nat) (call : Call ℓ π κ) (entry : Nat × Value) : Mark ℓ π κ σ :=
  .took list call (.removed entry.1) (some ⟨.remove, entry.2⟩)

/-- The records at the indices are removed one after the other, but for those that listeners have
removed before. What these listeners do is marked as theirs. -/
structure Sweep (list : Nat) (call : Call ℓ π κ) (indices : List Nat) (removed : List (Nat × Value))
    (s : Traced ℓ π κ σ) (mounted : Mounted ℓ) (t : Traced ℓ π κ σ) (now : Mounted ℓ)
    (theirs : List (Mark ℓ π κ σ)) : Prop where
  there : t.page.list? list = some now
  succeeds : mounted.view.collection.Succeeds now.view.collection
  logged : ∃ part, t.log = s.log ++ part ∧
    Balanced s.log.length part (removed.map (removal list call)) theirs
  sublist : (removed.map Prod.fst).Sublist indices
  carried : ∀ entry ∈ removed, Patch.indexOf entry.2 = some entry.1
  gone : ∀ index ∈ indices, index < mounted.view.collection.next →
    now.view.collection.get? index = none
  undisturbed : (∀ effect ∈ effects list theirs, effect.entry.Idle) →
    now.view.collection = mounted.view.collection.withoutAll indices

theorem Sweep.refl (there : s.page.list? list = some mounted) (sound : mounted.view.collection.Sound) :
    Sweep list call [] [] s mounted s mounted [] where
  there := there
  succeeds := .refl sound
  logged := ⟨[], (List.append_nil _).symm, .nil⟩
  sublist := .slnil
  carried := nofun
  gone := nofun
  undisturbed _ := (Collection.withoutAll_nil _).symm

theorem Sweep.trans (first : Sweep list call indices removed s mounted mid between theirs)
    (second : Sweep list call indices' removed' mid between t now theirs') :
    Sweep list call (indices ++ indices') (removed ++ removed') s mounted t now (theirs ++ theirs') where
  there := second.there
  succeeds := first.succeeds.trans second.succeeds
  logged := by
    obtain ⟨part, logged, balanced⟩ := first.logged
    obtain ⟨part', logged', balanced'⟩ := second.logged
    rw [logged, List.length_append] at balanced'
    exact ⟨part ++ part', by rw [logged', logged, List.append_assoc],
      List.map_append ▸ balanced.append balanced'⟩
  sublist := by
    rw [List.map_append]
    exact first.sublist.append second.sublist
  carried entry listed := (List.mem_append.1 listed).elim (first.carried entry) (second.carried entry)
  gone index listed below := by
    have below' := Nat.lt_of_lt_of_le below first.succeeds.next
    rcases List.mem_append.1 listed with earlier | later
    · exact second.succeeds.gone index below' (first.gone index earlier below)
    · exact second.gone index later below'
  undisturbed idle := by
    rw [effects_append] at idle
    rw [Collection.withoutAll_append, ← first.undisturbed fun effect listed =>
      idle effect (List.mem_append_left _ listed)]
    exact second.undisturbed fun effect listed => idle effect (List.mem_append_right _ listed)

theorem Sweep.struck {index : Nat} {record : Record} (there : s.page.list? list = some mounted)
    (sound : mounted.view.collection.Sound) (held : mounted.view.collection.get? index = some record)
    (scene : Scene) (removes : scene.view.collection = (mounted.view.collection.remove index).1) :
    Sweep list call [index] [(index, record.json)] s mounted
      ⟨struck s.page list (.remove index) (some record.json) scene,
        s.log ++ marksOf list call (.remove index) (some record.json)⟩
      (mounted.after scene.view (some (.removed index))) [] where
  there := list?_struck there (.remove index) (some record.json) scene
  succeeds := by
    have deed : Deed mounted.view.model mounted.view.collection _ _ _ _ := .remove held
    exact removes ▸ deed.succeeds sound
  logged := ⟨_, rfl, .single rfl⟩
  sublist := .refl _
  carried entry listed := by
    cases List.mem_singleton.1 listed
    exact (sound.carries held).indexOf
  gone other listed _ := by
    cases List.mem_singleton.1 listed
    exact (congrArg (Collection.get? · index) removes).trans
      ((Collection.get?_remove ..).trans (if_pos rfl))
  undisturbed _ := removes.trans (Collection.withoutAll_singleton ..).symm

def Stays (before : List (Effect ℓ π κ)) (c : Collection) (history : List (Effect ℓ π κ))
    (view : ListView) : Prop :=
  ∃ since, history = before ++ since ∧ c.Succeeds view.collection ∧
    ((∀ effect ∈ since, effect.entry.Idle) → view.collection = c)

theorem stays_kept (before : List (Effect ℓ π κ)) (c : Collection) :
    KeptByStrokes (Stays before c) := by
  rintro history call stroke view d result left - run ⟨since, rfl, succeeds, same⟩
  refine ⟨since ++ (stroke.effect call result).toList, List.append_assoc .., ?_⟩
  rw [Stroke.effect]
  obtain ⟨-, ⟨line, -, unchanged⟩ | ⟨entry, line, deed⟩⟩ := stroke.does run
  · rw [line, unchanged]
    exact ⟨succeeds, fun idle => same fun effect listed => idle effect (List.mem_append_left _ listed)⟩
  · rw [line]
    refine ⟨succeeds.trans (deed.succeeds succeeds.sound), fun idle => ?_⟩
    have isIdle := idle _ (List.mem_append_right _ (List.mem_singleton_self _))
    exact (deed.eq_of_idle isIdle).trans
      (same fun effect listed => idle effect (List.mem_append_left _ listed))

variable {callbacks : Callbacks (TracedRun ℓ π κ σ) ℓ π κ}
  (grows : ∀ past listener notification,
    Preserves (fun s => Grows past s.log) (callbacks.listen listener notification))
  (keeps : ∀ P, KeptByStrokes P → ∀ listener notification,
    Preserves (Holds list P) (callbacks.listen listener notification))
include grows

theorem notifyTraced_balanced {notification : Notification} {count : Nat}
    (ends : (notifyTraced callbacks list notification).run s = some (count, t)) :
    ∃ part theirs, t.log = s.log ++ part ∧ Balanced s.log.length part [] theirs ∧
      effects list part = effects list theirs := by
  refine notifyTraced_turns (fun _ (t : Traced ℓ π κ σ) => ∃ part theirs, t.log = s.log ++ part ∧
    Balanced s.log.length part [] theirs ∧ effects list part = effects list theirs)
    (fun _ _ _ _ _ _ => id) ?_ (fun _ _ => ⟨[], [], (List.append_nil _).symm, .nil, rfl⟩) ends
  rintro entry rest u asked _ _ ⟨part, theirs, logged, balanced, same⟩ mid listened
  obtain ⟨more, logged', returns⟩ :=
    grows (u.log ++ [.called list entry.1 notification u.page]) entry.2 notification _ (.refl _) _ _
      listened
  -- A listener that returns meanwhile was called later than this one.
  have still : .returned (s.log.length + part.length) ∉ more := fun returned => by
    have late := returns _ returned
    rw [List.length_append, logged, List.length_append, List.length_singleton] at late
    omega
  refine ⟨part ++ ([.called list entry.1 notification u.page] ++ more ++
    [.returned (s.log.length + part.length)]), theirs ++ more, ?_,
    balanced.append (.call still), ?_⟩
  · simp [logged', logged]
  · rw [effects_append, effects_append, effects_append, effects_append, same]
    exact congrArg _ (List.append_nil _)

include keeps

theorem notifyTraced_sweep {notification : Notification} {count : Nat}
    (there : s.page.list? list = some mounted) (sound : mounted.view.collection.Sound)
    (ends : (notifyTraced callbacks list notification).run s = some (count, t)) :
    ∃ now theirs, Sweep list call [] [] s mounted t now theirs := by
  obtain ⟨part, theirs, logged, balanced, same⟩ := notifyTraced_balanced grows ends
  have kept := stays_kept (effects list s.log) mounted.view.collection
  obtain ⟨now, there', since, split, succeeds, unchanged⟩ :=
    notifyTraced_preserves (fun _ _ holds => holds.marked rfl) (fun _ _ _ holds => holds.marked rfl)
      (fun listener => keeps _ kept listener notification) s
      ⟨mounted, there, [], (List.append_nil _).symm, .refl sound, fun _ => rfl⟩ count t ends
  rw [logged, effects_append, List.append_cancel_left_eq, same] at split
  subst split
  refine ⟨now, theirs, there', succeeds, ⟨part, logged, balanced⟩, .slnil, nofun, nofun, ?_⟩
  rw [Collection.withoutAll_nil]
  exact unchanged

theorem strikeTraced_sweep {index : Nat} {result : Option Value}
    (there : s.page.list? list = some mounted) (sound : mounted.view.collection.Sound)
    (ends : (strikeTraced callbacks list call (.remove index)).run s = some (result, t)) :
    ∃ now theirs removed, result.toList = removed.map Prod.snd ∧
      Sweep list call [index] removed s mounted t now theirs := by
  obtain ⟨found, scene, found', run, ends⟩ := strikeTraced_eq_some ends
  cases there.symm.trans found'
  cases held : mounted.view.collection.get? index with
  | none =>
    cases (Change.on_remove held).symm.trans run
    have unchanged : mounted.view.collection.withoutAll [index] = mounted.view.collection := by
      rw [Collection.withoutAll_singleton, Collection.remove,
        OrderedMap.remove_of_not_mem (OrderedMap.get?_eq_none_iff.1 held)]
    cases ends
    refine ⟨_, [], [], rfl, list?_struck there _ _ _, .refl sound, ⟨[], rfl, .nil⟩, List.nil_sublist _,
      List.forall_mem_nil _, fun other listed _ => ?_, fun _ => unchanged.symm⟩
    cases List.mem_singleton.1 listed
    exact held
  | some record =>
    cases (Change.on_remove_held held).symm.trans run
    obtain ⟨count, notified⟩ := ends
    have removes : Sweep list call _ _ s mounted _ _ [] := .struck there sound held
      ⟨mounted.view.without index, s.page.document.removeNodes ((mounted.view.nodes.get? index).getD [])⟩
      rfl
    obtain ⟨now, theirs, tells⟩ : ∃ now theirs, Sweep list call [] [] _ _ t now theirs :=
      notifyTraced_sweep grows keeps removes.there removes.succeeds.sound notified
    exact ⟨now, theirs, [(index, record.json)], rfl, removes.trans tells⟩

theorem removeEach_sweep {values : List Value} (there : s.page.list? list = some mounted)
    (sound : mounted.view.collection.Sound)
    (ends : ((partsTraced callbacks list call).removeEach indices).run s = some (values, t)) :
    ∃ now theirs removed, values = removed.map Prod.snd ∧
      Sweep list call indices removed s mounted t now theirs := by
  induction indices generalizing s mounted values with
  | nil =>
    cases ends
    exact ⟨mounted, [], [], rfl, .refl there sound⟩
  | cons index rest ih =>
    obtain ⟨⟨result, mid⟩, struck, ends⟩ := Option.bind_eq_some_iff.1 ends
    obtain ⟨⟨others, _⟩, rested, same⟩ := Option.bind_eq_some_iff.1 ends
    cases same
    obtain ⟨between, theirs, removed, isResult, first⟩ :=
      strikeTraced_sweep grows keeps there sound struck
    obtain ⟨now, theirs', removed', rfl, second⟩ := ih first.there first.succeeds.sound rested
    exact ⟨now, _, _, by rw [isResult, List.map_append], first.trans second⟩

end

/-- What a call that removes records by their fields has made of a collection, by its answer and by
the log. -/
structure Clears (list : Nat) (fields : Fields) (c : Collection) (removed : List (Nat × Value))
    (log : List (Mark ℓ π κ σ)) (c' : Collection) : Prop where
  distinct : (removed.map Prod.fst).Nodup
  carried : ∀ entry ∈ removed, Patch.indexOf entry.2 = some entry.1
  displayed : (removed.map Prod.fst).Sublist c.indices
  matched : ∀ entry ∈ removed, c.Matches fields entry.1
  told : outer log = removed.map (removal list (.removeByFields (.object fields)))
  gone : ∀ index, c.Matches fields index → c'.get? index = none
  undisturbed : (∀ effect ∈ effects list (inner log), effect.entry.Idle) →
    c'.records = c.records.filter fun entry => !Collection.agrees entry.2 fields

variable {behaviour : Behaviour ℓ π κ σ} {page left : Page ℓ σ} {list depth : Nat}
  {mounted : Mounted ℓ} {fields : Fields}

theorem perform_removeByFields_none (held : page.held? list = some mounted)
    (none : mounted.view.collection.matching fields = []) :
    (perform behaviour (depth + 1) (.call list (.removeByFields (.object fields)))).run page =
      some (some (.ok []), page) := by
  have answered : (answer (behaviour.callbacks (perform behaviour depth)) list
      (.removeByFields (.object fields))).run (page.begun list) = some (.ok [], page.begun list) := by
    simp only [answer, StateT.run_bind, running_run (list?_begun (list?_of_held? held)),
      Option.bind_eq_bind, Option.bind_some, none]
    rfl
  rw [perform, serve_call_some held answered, ended_begun]

/-- A call that removes records by their fields, whatever the listeners do meanwhile. If what they do
leaves the records as they are, then those that do not match are left, and there is nothing to do for
a second call. -/
theorem removed_by_fields (held : page.held? list = some mounted)
    (sound : mounted.view.collection.Sound) {a : Option (Except Error (List Value))}
    (run : (perform behaviour (depth + 1) (.call list (.removeByFields (.object fields)))).run page =
      some (a, left)) :
    ∃ removed log now,
      (trace behaviour (depth + 1) (.call list (.removeByFields (.object fields)))).run ⟨page, []⟩ =
        some (a, ⟨left, log⟩) ∧
      a = some (.ok (removed.map Prod.snd)) ∧ left.list? list = some now ∧
      Clears list fields mounted.view.collection removed log now.view.collection ∧
      ((∀ effect ∈ effects list (inner log), effect.entry.Idle) → left.held? list = some now →
        ∀ depth, (perform behaviour (depth + 1)
          (.call list (.removeByFields (.object fields)))).run left = some (some (.ok []), left)) := by
  obtain ⟨⟨_, log⟩, traced, -, rfl⟩ :=
    (trace_inStep behaviour (depth + 1) _).exists_run (s := ⟨page, []⟩) rfl run
  obtain ⟨answer, mid, rfl, answered, same⟩ := serveTraced_call_eq_some held traced
  obtain ⟨⟨c, _⟩, looked, removing⟩ := Option.bind_eq_some_iff.1 answered
  obtain ⟨_, there, rfl, rfl⟩ := unmarked_running_eq_some looked
  cases there.symm.trans (list?_begun (list?_of_held? held))
  obtain ⟨⟨values, _⟩, removing, done⟩ := Option.bind_eq_some_iff.1 removing
  cases done
  obtain ⟨now, theirs, removed, rfl, sweep⟩ := removeEach_sweep
    (fun past _ _ => grows_guards.act past (grows_guards.trace behaviour past depth) _)
    (fun P kept _ _ => (holds_guards list kept).act () ((holds_guards list kept).trace behaviour ()
      depth) _)
    there sound removing
  cases same
  obtain ⟨part, logged, balanced⟩ := sweep.logged
  rw [List.nil_append] at logged
  have displayed := sweep.sublist.trans (Collection.matching_sublist ..)
  have matched (index : Nat) : index ∈ mounted.view.collection.matching fields ↔
      mounted.view.collection.Matches fields index := sound.mem_matching_iff
  have clears : Clears list fields mounted.view.collection removed part now.view.collection := by
    refine ⟨sound.nodup.sublist displayed, sweep.carried, displayed, fun entry listed => ?_,
      balanced.outer, fun index isMatch => ?_, fun idle => ?_⟩
    · exact (matched entry.1).1 (sweep.sublist.mem (List.mem_map_of_mem listed))
    · have isListed := (matched index).2 isMatch
      exact sweep.gone index isListed
        (sound.below index ((Collection.matching_sublist ..).mem isListed))
    · rw [balanced.inner] at idle
      exact (congrArg Collection.records (sweep.undisturbed idle)).trans sound.records_withoutAll_matching
  subst logged
  have there' := list?_modifyList_self sweep.there fun m => { m with running := m.running - 1 }
  refine ⟨removed, _, _, traced, rfl, there', clears, fun idle held' depth => ?_⟩
  refine perform_removeByFields_none held' ?_
  rw [Collection.matching, clears.undisturbed idle, List.filter_filter]
  simp

def crossing : Behaviour Unit Unit Unit Unit where
  listen _ notification := match Patch.indexOf notification.payload with
    | some 0 => .ask (.call 0 (.remove 2)) fun _ => .ask (pushText "a") fun _ => .done ()
    | _ => .done ()
  test _ _ := .done true
  compare _ _ _ := .done .eq

def crossedTexts : List (Request Unit Unit Unit) :=
  [.call 0 (.subscribe [.remove] ()), pushText "a", pushText "b", pushText "a", pushText "a"]

theorem texts_crossed :
    ((performEach crossing 1 crossedTexts).run textsPage).any fun (_, page) =>
      (page.held? 0).isSome &&
      ((perform crossing 2 (.call 0 (.removeByFields (.object [("text", .string "a")])))).run page).any
        fun (answer, left) =>
          (answer.bind Except.toOption).any (·.filterMap Patch.indexOf == [0, 3]) &&
          (left.list? 0).any (·.view.collection.indices == [1, 4]) := by
  decide +kernel

theorem removed_by_fields_texts : ∃ (page left : Page Unit Unit) (mounted now : Mounted Unit)
    (removed : List (Nat × Value)) (log : List (Mark Unit Unit Unit Unit)),
    page.held? 0 = some mounted ∧ mounted.view.collection.Sound ∧
    (perform crossing 2 (.call 0 (.removeByFields (.object [("text", .string "a")])))).run page =
      some (some (.ok (removed.map Prod.snd)), left) ∧
    (removed.map Prod.snd).filterMap Patch.indexOf = [0, 3] ∧ left.list? 0 = some now ∧
    now.view.collection.indices = [1, 4] ∧
    Clears 0 [("text", .string "a")] mounted.view.collection removed log now.view.collection := by
  obtain ⟨⟨_, page⟩, pushed, rest⟩ := (Option.any_eq_true _ _).1 texts_crossed
  obtain ⟨isHeld, rest⟩ := Bool.and_eq_true_iff.1 rest
  obtain ⟨mounted, held⟩ := Option.isSome_iff_exists.1 isHeld
  obtain ⟨⟨answer, left⟩, run, rest⟩ := (Option.any_eq_true _ _).1 rest
  obtain ⟨answered, remain⟩ := Bool.and_eq_true_iff.1 rest
  have onList : ∀ r ∈ crossedTexts, r.OnList := by
    simp [crossedTexts, pushText, Request.OnList]
  have sane := ((attained_textsPage crossing).each onList pushed).sane 0 mounted (list?_of_held? held)
  obtain ⟨removed, log, now, -, rfl, there, clears, -⟩ := removed_by_fields held sane.sound run
  rw [there] at remain
  exact ⟨page, left, mounted, now, removed, log, held, sane.sound, run, eq_of_beq answered, there,
    eq_of_beq remain, clears⟩

end Page

end LiveList
