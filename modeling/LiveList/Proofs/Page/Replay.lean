import LiveList.Proofs.Page.Observer
import LiveList.Proofs.Page.Reached
import LiveList.Proofs.Page.Silence

/-!
# Notifications replayed

Later listeners, predicates and comparisons may change a list while they are called, and still an
observer hears of each change before the next one. Main statement: what an observer puts together
from its notifications is what the list holds, whenever it is called and whenever a request has been
answered.
-/

namespace LiveList.Page

open Event (Hub Kind ListenerId Notification)
open Json (Value)

variable {ℓ π κ σ α : Type}

section

variable {list : Nat} {observer : ListenerId}

/-! ## Deliveries -/

/-- What holds in a delivery when some listeners still have their turns to come: as long as the
observer is among them, it does not know what they are told. -/
def Turn (list : Nat) (observer : ListenerId) (news : Notification)
    (pending : List (ListenerId × ℓ)) (s : Traced ℓ π κ σ) : Prop :=
  (pending.map Prod.fst).Pairwise (· < ·) ∧ ∃ mounted, Observed list observer s mounted ∧
    (Watches list observer s.log → Tells list observer s.log ∧
      (observer ∈ pending.map Prod.fst →
        s.page.Known list (hear (replay (heard list observer s.log)) news)) ∧
      (observer ∉ pending.map Prod.fst → mounted.hub.isRegistered observer = true →
        s.page.Known list (replay (heard list observer s.log))))

section

variable {callbacks : Callbacks (TracedRun ℓ π κ σ) ℓ π κ} {news : Notification}
  {entry : ListenerId × ℓ} {pending : List (ListenerId × ℓ)} {s mid : Traced ℓ π κ σ}
  {mounted : Mounted ℓ}

theorem Turn.skip (turn : Turn list observer news (entry :: pending) s)
    (there : s.page.list? list = some mounted)
    (absent : mounted.hub.isRegistered entry.1 = false) : Turn list observer news pending s := by
  obtain ⟨ascending, own, observed, turn⟩ := turn
  cases there.symm.trans observed.there
  refine ⟨ascending.of_cons, mounted, observed, fun watches => ?_⟩
  obtain ⟨tells, behind, inTouch⟩ := turn watches
  refine ⟨tells, fun isPending => behind (List.mem_cons_of_mem _ isPending), fun had present => ?_⟩
  refine inTouch (fun inside => ?_) present
  rcases List.mem_cons.1 inside with rfl | isPending
  · cases absent.symm.trans present
  · exact had isPending

theorem aside_marksOf (list : Nat) (observer : ListenerId) (other : Nat) (call : Call ℓ π κ)
    (stroke : Stroke) (result : stroke.Result) :
    ∀ mark ∈ (marksOf other call stroke result : List (Mark ℓ π κ σ)), Aside list observer mark := by
  intro mark inside
  obtain ⟨entry, -, rfl⟩ := Option.map_eq_some_iff.1 (Option.mem_toList.1 inside)
  trivial

theorem Turn.start (inTouch : InTouch list observer s) (there : s.page.list? list = some mounted)
    {call : Call ℓ π κ} {stroke : Stroke} {result : stroke.Result} {scene : Scene} {line : Entry}
    (run : stroke.change.on ⟨mounted.view, s.page.document⟩ = (result, scene))
    (deed : Deed mounted.view.model mounted.view.collection stroke line (some news)
      scene.view.collection) :
    Turn list observer news (mounted.hub.listenersFor news.kind)
      ⟨struck s.page list stroke result scene, s.log ++ marksOf list call stroke result⟩ := by
  obtain ⟨own, observed, inTouch⟩ := inTouch
  cases there.symm.trans observed.there
  have observed' := observed.struck call run
  have aside := aside_marksOf (σ := σ) list observer list call stroke result
  refine ⟨observed.ordered.listenersFor news.kind, _, observed', fun watches => ?_⟩
  obtain ⟨tells, inTouch⟩ := inTouch watches.before
  -- It listens to every kind, so it is among those to be told if it is registered at all.
  have everything : mounted.hub.isRegistered observer = true →
      observer ∈ (mounted.hub.listenersFor news.kind).map Prod.fst := by
    intro present
    obtain ⟨registration, inside, isObserver⟩ := List.mem_map.1 (Hub.isRegistered_iff.1 present)
    have listens := observed.kinds watches.before registration inside isObserver news.kind
    refine List.mem_map.2 ⟨(registration.id, registration.listener), List.mem_map.2
      ⟨registration, List.mem_filter.2 ⟨inside, by simpa using listens⟩, rfl⟩, isObserver⟩
  refine ⟨tells.aside aside, fun isPending => ?_, fun missing present =>
    absurd (everything present) missing⟩
  have present : mounted.hub.isRegistered observer = true := by
    obtain ⟨entry, inside, isObserver⟩ := List.mem_map.1 isPending
    obtain ⟨registration, listens, rfl⟩ := List.mem_map.1 inside
    exact Hub.isRegistered_iff.2 (List.mem_map.2
      ⟨registration, (List.mem_filter.1 listens).1, isObserver⟩)
  rw [heard_append, heard_aside aside, List.append_nil]
  exact observed'.known_iff.2 (deed.known observed.sound (observed.known_iff.1 (inTouch present)))

variable (listen : ∀ i listener notification,
  Preserves (Attends list observer i) (callbacks.listen listener notification))
include listen

/-- The observer has its turn, and knows the change before it does anything. -/
theorem Turn.tell (turn : Turn list observer news (entry :: pending) s)
    (there : s.page.list? list = some mounted) (present : mounted.hub.isRegistered entry.1 = true)
    (isObserver : entry.1 = observer)
    (listened : (callbacks.listen entry.2 news).run
      ⟨s.page, s.log ++ [.called list entry.1 news s.page]⟩ = some ((), mid)) :
    Turn list observer news pending ⟨mid.page, mid.log ++ [.returned s.log.length]⟩ := by
  subst isObserver
  obtain ⟨ascending, own, observed, turn⟩ := turn
  cases there.symm.trans observed.there
  have told : heard list entry.1 (s.log ++ [.called list entry.1 news s.page]) =
      heard list entry.1 s.log ++ [news] := by
    rw [heard_append]
    simp [heard]
  have attends : Attends list entry.1 none
      (⟨s.page, s.log ++ [.called list entry.1 news s.page]⟩ : Traced ℓ π κ σ) := by
    refine ⟨mounted, observed.append fun early => absurd (observed.lt_of_isRegistered present)
      (Nat.not_lt.2 early), fun watches => ?_⟩
    obtain ⟨tells, behind, -⟩ := turn watches.before
    have known := behind List.mem_cons_self
    rw [told, replay_append]
    exact ⟨tells.snoc fun _ _ => by rwa [replay_append], fun _ => known⟩
  obtain ⟨mounted', observed', inTouch⟩ :=
    (listen none entry.2 news _ attends _ mid listened).marked (.returned s.log.length) trivial nofun
  refine ⟨ascending.of_cons, mounted', observed', fun watches => ⟨(inTouch watches).1, ?_, ?_⟩⟩
  · rw [List.map_cons, List.pairwise_cons] at ascending
    exact fun inside => absurd (ascending.1 _ inside) (Nat.lt_irrefl _)
  · exact fun _ => (inTouch watches).2

theorem Turn.tellLater (turn : Turn list observer news (entry :: pending) s)
    (there : s.page.list? list = some mounted)
    (other : entry.1 ≠ observer) (had : observer ∉ pending.map Prod.fst)
    (listened : (callbacks.listen entry.2 news).run
      ⟨s.page, s.log ++ [.called list entry.1 news s.page]⟩ = some ((), mid)) :
    Turn list observer news pending ⟨mid.page, mid.log ++ [.returned s.log.length]⟩ := by
  obtain ⟨ascending, own, observed, turn⟩ := turn
  cases there.symm.trans observed.there
  have attends : Attends list observer none s := by
    refine ⟨mounted, observed, fun watches => ?_⟩
    obtain ⟨tells, -, inTouch⟩ := turn watches
    refine ⟨tells, inTouch fun inside => ?_⟩
    rcases List.mem_cons.1 inside with isObserver | isPending
    · exact other isObserver.symm
    · exact had isPending
  have began : Attends list observer none
      ⟨s.page, s.log ++ [.called list entry.1 news s.page]⟩ :=
    attends.marked _ (fun here => other here.2) nofun
  obtain ⟨mounted', observed', inTouch⟩ :=
    (listen none entry.2 news _ began _ mid listened).marked (.returned s.log.length) trivial nofun
  exact ⟨ascending.of_cons, mounted', observed', fun watches => ⟨(inTouch watches).1,
    fun isPending => absurd isPending had, fun _ => (inTouch watches).2⟩⟩

/-- An earlier listener has its turn: it lets the list be. -/
theorem Turn.tellEarlier (turn : Turn list observer news (entry :: pending) s)
    (isPending : observer ∈ pending.map Prod.fst)
    (listened : (callbacks.listen entry.2 news).run
      ⟨s.page, s.log ++ [.called list entry.1 news s.page]⟩ = some ((), mid)) :
    Turn list observer news pending ⟨mid.page, mid.log ++ [.returned s.log.length]⟩ := by
  obtain ⟨ascending, mounted, observed, turn⟩ := turn
  have earlier : entry.1 < observer := by
    rw [List.map_cons, List.pairwise_cons] at ascending
    exact ascending.1 _ isPending
  have aside : ∀ mark ∈ [(.called list entry.1 news s.page : Mark ℓ π κ σ)],
      Aside list observer mark := by simp [Aside, Nat.ne_of_lt earlier]
  have began : Attends list observer
      (some (⟨s.page, s.log ++ [.called list entry.1 news s.page]⟩ : Traced ℓ π κ σ))
      ⟨s.page, s.log ++ [.called list entry.1 news s.page]⟩ :=
    ⟨⟨mounted, observed.append fun _ => heard_aside aside⟩, .refl _⟩
  obtain ⟨⟨mounted', observed'⟩, part, log, returns, calm⟩ := listen _ entry.2 news _ began _ mid listened
  have notBack : (.returned s.log.length : Mark ℓ π κ σ) ∉ part := fun inside => by
    have late := returns _ inside
    simp at late
  refine ⟨ascending.of_cons, mounted', observed'.append fun _ => rfl, fun watches => ?_⟩
  have watches := watches.before
  rw [log] at watches
  obtain ⟨tells, behind, -⟩ := turn watches.before.before
  -- No earlier listener changes a list that is watched, so nothing was said meanwhile.
  obtain ⟨aside', known⟩ := calm (watches.undisturbed s.log entry.1 news s.page part []
    (by simp) earlier notBack)
  have silent : heard list observer mid.log = heard list observer s.log := by
    rw [log, heard_append, heard_append, heard_aside aside, heard_aside aside']
    simp
  refine ⟨?_, fun _ => ?_, fun had => absurd isPending had⟩
  · rw [log]
    exact ((tells.aside aside).aside aside').snoc trivial
  · have returned : heard list observer [(.returned s.log.length : Mark ℓ π κ σ)] = [] := rfl
    rw [heard_append, silent, returned, List.append_nil]
    exact known _ (behind (List.mem_cons_of_mem _ isPending))

theorem Turn.call (turn : Turn list observer news (entry :: pending) s)
    (there : s.page.list? list = some mounted) (present : mounted.hub.isRegistered entry.1 = true)
    (listened : (callbacks.listen entry.2 news).run
      ⟨s.page, s.log ++ [.called list entry.1 news s.page]⟩ = some ((), mid)) :
    Turn list observer news pending ⟨mid.page, mid.log ++ [.returned s.log.length]⟩ := by
  by_cases isObserver : entry.1 = observer
  · exact turn.tell listen there present isObserver listened
  · by_cases isPending : observer ∈ pending.map Prod.fst
    · exact turn.tellEarlier listen isPending listened
    · exact turn.tellLater listen there isObserver isPending listened

def Loud (list : Nat) (observer : ListenerId) (start s : Traced ℓ π κ σ) : Prop :=
  (∃ mounted, Observed list observer s mounted) ∧ ∃ part, s.log = start.log ++ part ∧
    (∀ from_, .returned from_ ∈ part → start.log.length ≤ from_) ∧ ¬ Untold list part

omit listen in
theorem Loud.attends {start : Traced ℓ π κ σ} (loud : Loud list observer start s) :
    Attends list observer (some start) s := by
  obtain ⟨observed, part, log, returns, told⟩ := loud
  exact ⟨observed, part, log, returns, fun untold => absurd untold told⟩

theorem Loud.call {start : Traced ℓ π κ σ} (loud : Loud list observer start s)
    (there : s.page.list? list = some mounted) (present : mounted.hub.isRegistered entry.1 = true)
    (listened : (callbacks.listen entry.2 news).run
      ⟨s.page, s.log ++ [.called list entry.1 news s.page]⟩ = some ((), mid)) :
    Loud list observer start ⟨mid.page, mid.log ++ [.returned s.log.length]⟩ := by
  obtain ⟨⟨own, observed⟩, part, log, returns, told⟩ := loud
  cases there.symm.trans observed.there
  -- Whoever is called has its name already, so an observer that comes later is somebody else.
  have early : mounted.hub.nextId ≤ observer →
      heard list observer [(.called list entry.1 news s.page : Mark ℓ π κ σ)] = [] := by
    intro early
    refine heard_aside ?_
    have differ : entry.1 ≠ observer := fun isObserver =>
      absurd (observed.lt_of_isRegistered (isObserver ▸ present)) (Nat.not_lt.2 early)
    simp [Aside, differ]
  have began : Attends list observer
      (some (⟨s.page, s.log ++ [.called list entry.1 news s.page]⟩ : Traced ℓ π κ σ))
      ⟨s.page, s.log ++ [.called list entry.1 news s.page]⟩ :=
    ⟨⟨mounted, observed.append early⟩, .refl _⟩
  obtain ⟨⟨mounted', observed'⟩, more, log', returns', -⟩ := listen _ entry.2 news _ began _ mid listened
  have longer : start.log.length ≤ s.log.length := by
    rw [log, List.length_append]
    exact Nat.le_add_right _ _
  refine ⟨⟨mounted', observed'.append fun _ => rfl⟩,
    part ++ [.called list entry.1 news s.page] ++ more ++ [.returned s.log.length], ?_, ?_, ?_⟩
  · rw [log', log]
    simp only [List.append_assoc]
  · intro from_ inside
    simp only [List.mem_append, List.mem_singleton, reduceCtorEq, or_false, Mark.returned.injEq] at inside
    rcases inside with (inside | inside) | rfl
    · exact returns from_ inside
    · have late := returns' from_ inside
      simp only [List.length_append] at late
      omega
    · exact longer
  · exact fun untold => told fun call entry said inside => untold call entry said (by simp [inside])

omit listen in
theorem Loud.start {start : Traced ℓ π κ σ} {call : Call ℓ π κ} {stroke : Stroke}
    {result : stroke.Result} {scene : Scene} {line : Entry} {own : Mounted ℓ}
    (attends : Attends list observer (some start) s)
    (isLine : stroke.line result = some line) (said : stroke.said result = some news)
    (observed : Observed list observer
      ⟨struck s.page list stroke result scene, s.log ++ marksOf list call stroke result⟩ own) :
    Loud list observer start
      ⟨struck s.page list stroke result scene, s.log ++ marksOf list call stroke result⟩ := by
  obtain ⟨part, log, returns, -⟩ := attends.2
  have marks : marksOf list call stroke result =
      [(.took list call line (some news) : Mark ℓ π κ σ)] := by
    rw [marksOf, isLine, said]
    rfl
  refine ⟨⟨own, observed⟩, part ++ marksOf list call stroke result,
    by rw [log, List.append_assoc], fun from_ inside => ?_, fun untold => ?_⟩
  · rcases List.mem_append.1 inside with inside | inside
    · exact returns from_ inside
    · exact absurd inside (returned_notMem_marksOf (σ := σ) list call stroke result from_)
  · cases untold call line (some news) (by simp [marks])

/-! ## Strokes -/

section

variable {i : Option (Traced ℓ π κ σ)} {other : Nat} {call : Call ℓ π κ} {stroke : Stroke}
  {result : stroke.Result} {scene : Scene} {t : Traced ℓ π κ σ} {count : Nat}

theorem Attends.strike_other (call : Call ℓ π κ) (stroke : Stroke) (differ : other ≠ list) :
    Preserves (Attends list observer i) (strikeTraced callbacks other call stroke) := by
  refine strikeTraced_preserves (fun s own result scene attends _ _ => ?_) ?_ ?_ (listen i)
  · exact attends.aside
      (fun mounted there => ⟨mounted, (list?_modifyList_of_ne differ _).trans there, rfl, rfl⟩)
      (aside_marksOf list observer other call stroke result)
      fun from_ inside => absurd inside (returned_notMem_marksOf (σ := σ) other call stroke result from_)
  · intro notification s id attends
    exact attends.aside (fun mounted there => ⟨mounted, there, rfl, rfl⟩) (by simp [Aside, differ])
      fun _ inside => absurd inside (by simp)
  · intro s mid attends attends'
    refine attends'.aside (fun mounted there => ⟨mounted, there, rfl, rfl⟩) (by simp [Aside]) ?_
    rintro from_ inside start rfl
    cases List.mem_singleton.1 inside
    exact attends.2.length_le

omit listen in
theorem Attends.strike_silent (attends : Attends list observer i s)
    (there : s.page.list? list = some mounted)
    (run : stroke.change.on ⟨mounted.view, s.page.document⟩ = (result, scene))
    (silent : stroke.said result = none) :
    Attends list observer i
      ⟨struck s.page list stroke result scene, s.log ++ marksOf list call stroke result⟩ := by
  have collection : scene.view.collection = mounted.view.collection := by
    rcases (stroke.does run).2 with ⟨-, -, same⟩ | ⟨entry, -, deed⟩
    · exact same
    · exact (silent ▸ deed).silent
  obtain ⟨own, observed⟩ := attends.observed
  cases there.symm.trans observed.there
  refine attends.aside (fun other there' => ?_) (aside_marksOf list observer list call stroke result)
    fun from_ inside => absurd inside (returned_notMem_marksOf (σ := σ) list call stroke result from_)
  cases there.symm.trans there'
  exact ⟨_, (observed.struck call run).there, collection, rfl⟩

theorem Attends.strike_told (attends : Attends list observer i s)
    (there : s.page.list? list = some mounted)
    (run : stroke.change.on ⟨mounted.view, s.page.document⟩ = (result, scene))
    (said : stroke.said result = some news)
    (notified : (notifyTraced callbacks list news).run
      ⟨struck s.page list stroke result scene, s.log ++ marksOf list call stroke result⟩ =
        some (count, t)) : Attends list observer i t := by
  obtain ⟨line, isLine, deed⟩ : ∃ line, stroke.line result = some line ∧
      Deed mounted.view.model mounted.view.collection stroke line (some news)
        scene.view.collection := by
    rcases (stroke.does run).2 with ⟨-, silent, -⟩ | ⟨line, isLine, deed⟩
    · cases silent.symm.trans said
    · exact ⟨line, isLine, said ▸ deed⟩
  obtain ⟨own, observed⟩ := attends.observed
  cases there.symm.trans observed.there
  have observed' := observed.struck call run
  cases i with
  | none =>
    obtain ⟨-, mounted', last, told⟩ := notifyTraced_turns (Turn list observer news)
      (fun _ _ _ _ there absent turn => turn.skip there absent)
      (fun _ _ _ _ there present turn _ listened => turn.call listen there present listened)
      (fun mounted' there' => by
        cases observed'.there.symm.trans there'
        exact Turn.start attends there run deed) notified
    -- No turns are left to come, so the observer has had its own if it is there at all.
    exact ⟨mounted', last, fun watches => ⟨(told watches).1, (told watches).2.2 List.not_mem_nil⟩⟩
  | some start =>
    exact (notifyTraced_turns (fun _ => Loud list observer start) (fun _ _ _ _ _ _ => id)
      (fun _ _ _ _ there present loud _ listened => loud.call listen there present listened)
      (fun _ _ => Loud.start attends isLine said observed') notified).attends

end

theorem Attends.strike (i : Option (Traced ℓ π κ σ)) (other : Nat) (call : Call ℓ π κ) (stroke : Stroke) :
    Preserves (Attends list observer i) (strikeTraced callbacks other call stroke) := by
  by_cases same : other = list
  case neg => exact Attends.strike_other listen call stroke same
  subst same
  intro s attends result t ends
  obtain ⟨mounted, scene, there, run, ends⟩ := strikeTraced_eq_some ends
  cases said : stroke.said result with
  | none =>
    rw [said] at ends
    exact ends ▸ attends.strike_silent there run said
  | some news =>
    rw [said] at ends
    obtain ⟨count, notified⟩ := ends
    exact attends.strike_told listen there run said notified

end

/-- Nothing that happens on a page gets an observer out of touch with its list. -/
theorem attends_guards (list : Nat) (observer : ListenerId) :
    Guards (ℓ := ℓ) (π := π) (κ := κ) (σ := σ) (fun _ _ => True) (Attends list observer) where
  model _ _ _ _ _ _ := trivial
  user i s user attends := by
    exact attends.elsewhere rfl
  document i s document attends := by
    exact attends.elsewhere rfl
  state i s other f view hub attends := by
    have turned : Attends list observer i ⟨s.page.modifyList other f, s.log ++ []⟩ :=
      attends.modifyList view (fun _ => hub) (by simp) (by simp)
    rwa [List.append_nil] at turned
  subscribe i s other mounted kinds listener there attends := attends.subscribe kinds listener there
  unsubscribe i s other mounted id there attends := attends.unsubscribe id there
  strike callbacks listen i other call stroke _ := Attends.strike listen i other call stroke

end

/-! ## Runs -/

theorem traceOuter_inStep (behaviour : Behaviour ℓ π κ σ) (depth : Nat) (r : Request ℓ π κ) :
    InStep Shows Any (traceOuter behaviour depth r) (perform behaviour depth r) := by
  rw [← bind_pure (perform behaviour depth r)]
  refine (trace_inStep behaviour depth r).bind fun answer _ => ?_
  intro s page related
  exact (mark_marks (.rested s.page)).bind_inStep (.pure trivial) s page related

/-- An observer that listens to everything from before the first record on, and that no earlier
listener gets ahead of, knows the records from its notifications alone, each time that it is called
and after each request from outside. A call that fails or has nothing to do sends none: its answer
does not depend on what listeners do. -/
theorem replay_heard {behaviour : Behaviour ℓ π κ σ} {depth list : Nat} {action : Action ℓ π κ σ α}
    {page left : Page ℓ σ} {a : α} {mounted : Mounted ℓ} (there : page.list? list = some mounted)
    (bare : mounted.view.collection.records = []) (unheard : mounted.hub = Hub.empty)
    (run : (runAction (perform behaviour depth) action).run page = some (a, left)) :
    (∃ log, (actTraced (traceOuter behaviour depth) action).run ⟨page, []⟩ = some (a, ⟨left, log⟩) ∧
      ∀ observer, Watches list observer log →
        (∀ past notification found rest,
          log = past ++ .called list observer notification found :: rest →
            found.Known list (replay (heard list observer past ++ [notification]))) ∧
        ∀ past found rest, log = past ++ .rested found :: rest →
          ∀ now, found.list? list = some now → now.hub.isRegistered observer = true →
            found.Known list (replay (heard list observer past))) ∧
    ∀ deep other call (early late : Page ℓ σ) answer, call.Idle answer →
      (perform behaviour (deep + 1) (.call other call)).run early = some (some answer, late) →
      ∀ listen, (serve { behaviour.callbacks (perform behaviour deep) with listen }
        (.call other call)).run early = some (some answer, late) := by
  refine ⟨?_, fun deep other call early late answer idle ends listen =>
    serve_agrees _ listen other call early _ late ends ⟨answer, rfl, idle⟩⟩
  obtain ⟨⟨_, log⟩, traced, -, rfl⟩ :=
    (actTraced_inStep (traceOuter_inStep behaviour depth) action).exists_run (s := ⟨page, []⟩) rfl run
  refine ⟨log, traced, fun observer watches => ?_⟩
  have guards := attends_guards (ℓ := ℓ) (π := π) (κ := κ) (σ := σ) list observer
  have outer (r : Request ℓ π κ) : Preserves (Attends list observer none)
      (traceOuter behaviour depth r) := by
    intro s attends answer t ends
    obtain ⟨⟨_, mid⟩, asked, ends⟩ := Option.bind_eq_some_iff.1 ends
    cases ends
    obtain ⟨now, observed, inTouch⟩ := guards.trace behaviour none depth r s attends _ mid asked
    refine ⟨now, observed.append fun _ => rfl, fun watches => ?_⟩
    obtain ⟨tells, inTouch⟩ := inTouch watches.before
    refine ⟨tells.snoc fun other there present => ?_, fun present => ?_⟩
    · cases observed.there.symm.trans there
      exact inTouch present
    · have silent : heard list observer [(.rested mid.page : Mark ℓ π κ σ)] = [] := rfl
      simpa [silent] using inTouch present
  have start : Attends list observer none (⟨page, []⟩ : Traced ℓ π κ σ) := by
    have sound : mounted.view.collection.Sound := by
      refine ⟨?_, ?_, ?_⟩ <;> simp [Collection.indices, bare, OrderedMap.keys]
    refine ⟨mounted, ⟨there, sound, unheard ▸ Hub.ordered_empty, fun _ => rfl, fun _ index => ?_, ?_⟩,
      fun _ => ⟨?_, ?_⟩⟩
    · rw [Collection.get?, bare]
      rfl
    · simp [unheard, Hub.empty]
    · intro past mark rest split
      simp at split
    · simp [unheard, Hub.empty, Hub.isRegistered]
  obtain ⟨_, _, inTouch⟩ := guards.act none outer action _ start a _ traced
  obtain ⟨tells, -⟩ := inTouch watches
  exact ⟨fun past notification found rest split => tells past _ rest split rfl rfl,
    fun past found rest split => tells past _ rest split⟩

def restless : Behaviour Bool Unit Unit Unit where
  listen meddles notification :=
    if meddles && notification.kind == .push then
      .ask (.call 0 (.edit 0 (.object [("text", .string "c")]))) fun _ => .done ()
    else .done ()
  test _ _ := .ask (.call 0 (.push (.object [("text", .string "b")]))) fun _ => .done true
  compare _ _ _ := .done .eq

def watchTexts : Action Bool Unit Unit Unit Unit :=
  .ask (.call 0 (.subscribe Kind.all false)) fun _ =>
    .ask (.call 0 (.subscribe [.push] true)) fun _ =>
      .ask (.call 0 (.push (.object [("text", .string "a")]))) fun _ =>
        .ask (.call 0 (.filter ())) fun _ => .ask (.call 0 (.edit 5 .null)) fun _ =>
          .ask (.call 0 (.remove 0)) fun _ => .done ()

def watchedPage : Page Bool Unit :=
  (⟨textsDocument, [], ()⟩ : Page Bool Unit).mount (textsBuilder.build textsDocument).toOption

theorem watches_of_first {list : Nat} {kinds : List Kind} {rest : List (Mark ℓ π κ σ)}
    (every : ∀ kind, kind ∈ kinds) (once : ∀ kinds, .subscribed list 0 kinds ∉ rest) :
    Watches list 0 (.subscribed list 0 kinds :: rest) where
  subscribed past kinds' behind split := by
    rcases List.cons_eq_append_iff.1 split with ⟨rfl, same⟩ | ⟨between, rfl, rfl⟩
    · cases same
      exact ⟨every, nofun⟩
    · exact absurd (List.mem_append_right _ List.mem_cons_self) (once kinds')
  undisturbed _ _ _ _ _ _ _ earlier := absurd earlier (Nat.not_lt_zero _)

theorem watchedPage_fresh : (watchedPage.list? 0).any fun mounted =>
    mounted.view.collection.records.isEmpty && mounted.hub.registrations.isEmpty &&
      mounted.hub.nextId == 0 := by
  decide +kernel

theorem watched_texts :
    ((actTraced (traceOuter restless 3) watchTexts).run ⟨watchedPage, []⟩).any fun (_, traced) =>
      (heard 0 0 traced.log).map Notification.kind ==
          [.push, .edit, .push, .edit, .filter, .remove] &&
        match traced.log with
        | .subscribed 0 0 kinds :: rest => Kind.all.all kinds.contains && rest.all fun mark =>
          match mark with
          | .subscribed 0 0 _ => false
          | _ => true
        | _ => false := by
  decide +kernel

theorem replay_heard_restless : ∃ (mounted : Mounted Bool) (left : Page Bool Unit)
    (log : List (Mark Bool Unit Unit Unit)), watchedPage.list? 0 = some mounted ∧
    mounted.view.collection.records = [] ∧ mounted.hub = Hub.empty ∧
    (runAction (perform restless 3) watchTexts).run watchedPage = some ((), left) ∧
    (heard 0 0 log).map Notification.kind = [.push, .edit, .push, .edit, .filter, .remove] ∧
    Watches 0 0 log ∧
    (∀ past notification found rest, log = past ++ .called 0 0 notification found :: rest →
      found.Known 0 (replay (heard 0 0 past ++ [notification]))) ∧
    ∀ past found rest, log = past ++ .rested found :: rest →
      ∀ now, found.list? 0 = some now → now.hub.isRegistered 0 = true →
        found.Known 0 (replay (heard 0 0 past)) := by
  obtain ⟨mounted, there, fresh⟩ := (Option.any_eq_true _ _).1 watchedPage_fresh
  simp only [Bool.and_eq_true, List.isEmpty_iff, beq_iff_eq] at fresh
  obtain ⟨⟨bare, none⟩, first⟩ := fresh
  have unheard : mounted.hub = Hub.empty := congr (congrArg Hub.mk none) first
  obtain ⟨⟨⟨⟩, left, log⟩, traced, course⟩ := (Option.any_eq_true _ _).1 watched_texts
  obtain ⟨_, run, -, rfl⟩ :=
    (actTraced_inStep (traceOuter_inStep restless 3) watchTexts).exists_other rfl traced
  obtain ⟨⟨log', traced', knows⟩, -⟩ := replay_heard there bare unheard run
  cases traced.symm.trans traced'
  rw [Bool.and_eq_true, beq_iff_eq] at course
  obtain ⟨kinds, course⟩ := course
  have watches : Watches 0 0 log := by
    split at course
    case h_1 kinds rest same =>
      have same : log = .subscribed 0 0 kinds :: rest := same
      rw [Bool.and_eq_true, List.all_eq_true, List.all_eq_true] at course
      rw [same]
      refine watches_of_first (fun kind => ?_) fun kinds inside => ?_
      · have given := course.1 kind (by cases kind <;> decide)
        simpa using given
      · cases course.2 _ inside
    · cases course
  exact ⟨mounted, left, log, there, bare, unheard, run, kinds, watches, knows 0 watches⟩

end LiveList.Page
