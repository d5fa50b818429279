import LiveList.Proofs.Page.Sparing

/-!
# Lists without their pages

What a list comes to while it is asked one thing after another, as a function of its sketch. As long as
its listeners leave it as it is and its predicates and comparisons are pure, neither the document nor
anyone else on the page has a part in it. Main statement: every request that ends gives what this
function gives, and ends if the listeners return.
-/

namespace LiveList

open Document (Plant)
open Event (Hub Kind ListenerId Notification Script)
open Json (Value)

namespace Event.Script

variable {World State Request : Type} {Answer : Request → Type} {α : Type}

/-- The script does nothing but look, and gives one result whatever it sees. -/
def Gives (a : α) : Script World State Request Answer α → Prop
  | .done result => result = a
  | .look next => ∀ world, (next world).Gives a
  | .note .. | .ask .. => False

end Event.Script

/-- What is left of a list without the page: its sketch, its listeners, how many lines its journal has,
the notifications it has sent, and to whom. -/
structure Told (ℓ : Type) where
  sketch : Sketch
  hub : Hub ℓ
  lines : Nat
  sent : List Notification
  heard : List (ListenerId × Notification)

namespace Told

variable {ℓ π κ : Type}

def hearing (told : Told ℓ) (notification : Notification) : List (ListenerId × Notification) :=
  (told.hub.listenersFor notification.kind).map fun entry => (entry.1, notification)

def struck (stroke : Stroke) (told : Told ℓ) : stroke.Result × Told ℓ :=
  let (result, sketch) := stroke.sketch told.sketch
  (result, { told with
    sketch
    lines := told.lines + (stroke.line result).toList.length
    sent := told.sent ++ (stroke.said result).toList
    heard := told.heard ++ (stroke.said result).toList.flatMap told.hearing })

variable (test : π → Value → Bool) (compare : κ → Value → Value → Ordering)

def parts : Page.Parts (StateM (Told ℓ)) ℓ π κ where
  model := return (← get).sketch.view.model
  collection := return (← get).sketch.view.collection
  lines := return (← get).lines
  test t value := return test t value
  compare order x y := return compare order x y
  strike stroke := modifyGet (struck stroke)
  subscribe kinds listener := modifyGet fun told =>
    let (hub, id) := told.hub.subscribe kinds listener
    (id, { told with hub })

def serve : (r : Request ℓ π κ) → StateM (Told ℓ) r.Answer
  | .call _ call => return some (← (parts test compare).answer call)
  | .unsubscribe _ id => modifyGet fun told =>
    let (hub, removed) := told.hub.unsubscribe id
    (removed, { told with hub })
  | .drop _ => return ()
  | .setInnerHtml .. | .setAttribute .. | .removeElement _ => return false

end Told

def Request.Of {ℓ π κ : Type} (list : Nat) : Request ℓ π κ → Prop
  | .call other _ | .unsubscribe other _ => other = list
  | .drop _ | .setInnerHtml .. | .setAttribute .. | .removeElement _ => False

def Request.Pure {ℓ π κ σ : Type} (behaviour : Page.Behaviour ℓ π κ σ) (test : π → Value → Bool)
    (compare : κ → Value → Value → Ordering) : Request ℓ π κ → Prop
  | .call _ (.filter t) => ∀ value, (behaviour.test t value).Gives (test t value)
  | .call _ (.sortBy order) => ∀ x y, (behaviour.compare order x y).Gives (compare order x y)
  | _ => True

def Request.Settled {ℓ π κ : Type} (still : Prop) : Request ℓ π κ → Prop
  | .call _ (.subscribe ..) | .unsubscribe .. => still
  | _ => True

namespace Page

variable {ℓ π κ σ α β S T : Type}

/-! ## Runs that end as expected -/

def Ends (returns : Prop) (run : StateT S Option α) (s : S) (expected : α → S → Prop) : Prop :=
  (∀ a t, run.run s = some (a, t) → expected a t) ∧ (returns → (run.run s).isSome)

namespace Ends

variable {returns : Prop} {run : StateT S Option α} {s : S} {expected : α → S → Prop}

theorem of_run {a : α} {t : S} (ends : run.run s = some (a, t)) (holds : expected a t) :
    Ends returns run s expected :=
  ⟨fun _ _ ends' => by cases ends.symm.trans ends'; exact holds, fun _ => by rw [ends]; rfl⟩

theorem bind {next : α → StateT S Option β} {final : β → S → Prop}
    (first : Ends returns run s expected)
    (rest : ∀ a t, expected a t → Ends returns (next a) t final) :
    Ends returns (run >>= next) s final := by
  constructor
  · intro b t ends
    rw [StateT.run_bind] at ends
    obtain ⟨⟨a, mid⟩, began, ends⟩ := Option.bind_eq_some_iff.1 ends
    exact (rest a mid (first.1 a mid began)).1 b t ends
  · intro returned
    obtain ⟨⟨a, mid⟩, began⟩ := Option.isSome_iff_exists.1 (first.2 returned)
    rw [StateT.run_bind, began]
    exact (rest a mid (first.1 a mid began)).2 returned

theorem mono {expected' : α → S → Prop} (ends : Ends returns run s expected)
    (weaker : ∀ a t, expected a t → expected' a t) : Ends returns run s expected' :=
  ⟨fun a t ended => weaker a t (ends.1 a t ended), ends.2⟩

theorem weaken {returns' : Prop} (ends : Ends returns run s expected) (implies : returns' → returns) :
    Ends returns' run s expected :=
  ⟨ends.1, fun returned => ends.2 (implies returned)⟩

theorem of_map {other : StateT S Option β} {s' : S} {f : β → α} {expected' : β → S → Prop}
    (same : run.run s = (other.run s').map fun (b, t) => (f b, t))
    (ends : Ends returns other s' expected') (gives : ∀ b t, expected' b t → expected (f b) t) :
    Ends returns run s expected := by
  constructor
  · intro a t ended
    rw [same] at ended
    obtain ⟨⟨b, t⟩, began, ⟨⟩⟩ := Option.map_eq_some_iff.1 ended
    exact gives b t (ends.1 b t began)
  · intro returned
    rw [same, Option.isSome_map]
    exact ends.2 returned

end Ends

def depicting (returns : Prop) (R : S → T → Prop) : Coupling (StateT S Option) (StateM T) where
  couples expected run other := ∀ s t, R s t → Ends returns run s fun a s' =>
    a = (other.run t).1 ∧ expected a ∧ R s' (other.run t).2
  pure holds _ _ related := .of_run rfl ⟨rfl, holds, related⟩
  bind := by
    intro _ _ expected final run other next next' first rest s t related
    refine (first s t related).bind ?_
    rintro a s' ⟨rfl, holds, related'⟩
    exact rest _ holds s' _ related'

/-! ## Portraits -/

variable {still : Prop} {list : Nat} {raw : Bool} {s t : Traced ℓ π κ σ} {told : Told ℓ}
  {mounted : Mounted ℓ} {items : Items Plant}

@[simp] theorem sent_append (log more : List (Mark ℓ π κ σ)) :
    sent list (log ++ more) = sent list log ++ sent list more := List.filterMap_append

theorem said_eq_none {stroke : Stroke} {result : stroke.Result} (silent : stroke.line result = none) :
    stroke.said result = none := by
  cases stroke with
  | insert | insertAll | showOnly | arrange | sort =>
    cases result with
    | error cause => rfl
    | ok value => cases silent
  | remove =>
    cases result with
    | none => rfl
    | some removed => cases silent
  | removeAll | addFilter => cases silent
  | edit =>
    rcases result with cause | _ | edited
    · rfl
    · rfl
    · cases silent
  | updateView => rfl

theorem sent_marksOf (call : Call ℓ π κ) (stroke : Stroke) (result : stroke.Result) :
    sent list (marksOf list call stroke result : List (Mark ℓ π κ σ)) =
      (stroke.said result).toList := by
  rw [marksOf]
  cases line : stroke.line result with
  | none => rw [said_eq_none line]; rfl
  | some entry =>
    cases said : stroke.said result <;> simp [sent]

theorem news_marksOf (other : Nat) (call : Call ℓ π κ) (stroke : Stroke) (result : stroke.Result) :
    news list (marksOf other call stroke result : List (Mark ℓ π κ σ)) = [] := by
  rw [marksOf]
  cases stroke.line result <;> rfl

structure PortraysIn (still : Prop) (list : Nat) (raw : Bool) (s : Traced ℓ π κ σ) (told : Told ℓ)
    (mounted : Mounted ℓ) (items : Items Plant) : Prop where
  there : s.page.list? list = some mounted
  owned : mounted.owned = true
  arranged : mounted.view.Arranges s.page.document items
  sketch : mounted.view.sketch items = told.sketch
  raw : s.page.document.holdsRawText mounted.view.container = raw
  lines : mounted.journal.length = told.lines
  sent : sent list s.log = told.sent
  hub : still → mounted.hub = told.hub
  heard : still → news list s.log = told.heard

/-- The page shows what is told of the list, down to who listens if that is to be `still`. -/
def Portrays (still : Prop) (list : Nat) (raw : Bool) (s : Traced ℓ π κ σ) (told : Told ℓ) : Prop :=
  ∃ mounted items, PortraysIn still list raw s told mounted items

namespace PortraysIn

theorem held? (portrays : PortraysIn still list raw s told mounted items) :
    s.page.held? list = some mounted := by
  rw [Page.held?, portrays.there, Option.filter_some, if_pos portrays.owned]

theorem spared (portrays : PortraysIn still list raw s told mounted items)
    (spares : LetsBe still list s t) : Portrays still list raw t told := by
  obtain ⟨mounted', there, view, journal, owned⟩ := spares.there mounted portrays.there
  have same := spares.content mounted portrays.there
  have grounded := spares.grounded portrays.arranged.layout.grounded
  refine ⟨mounted', items, there, owned.trans portrays.owned, ?_, ?_, ?_, ?_, ?_, ?_, ?_⟩
  · rw [view]
    exact portrays.arranged.congr grounded same
  · rw [view, portrays.sketch]
  · rw [view, portrays.arranged.holdsRawText_congr same, portrays.raw]
  · rw [journal, portrays.lines]
  · rw [spares.sent, portrays.sent]
  · intro isStill
    rw [spares.hub isStill mounted mounted' portrays.there there, portrays.hub isStill]
  · intro isStill
    rw [spares.heard, portrays.heard isStill]

theorem modifyList (portrays : PortraysIn still list raw s told mounted items)
    (f : Mounted ℓ → Mounted ℓ) (hub : Hub ℓ) (marks : List (Mark ℓ π κ σ))
    (view : (f mounted).view = mounted.view) (journal : (f mounted).journal = mounted.journal)
    (owned : (f mounted).owned = mounted.owned) (turned : still → (f mounted).hub = hub)
    (unsent : Page.sent list marks = []) (unheard : news list marks = []) :
    PortraysIn still list raw ⟨s.page.modifyList list f, s.log ++ marks⟩ { told with hub }
      (f mounted) items where
  there := list?_modifyList_self portrays.there f
  owned := owned.trans portrays.owned
  arranged := by
    rw [view]
    exact portrays.arranged
  sketch := by rw [view, portrays.sketch]
  raw := by
    rw [view]
    exact portrays.raw
  lines := by rw [journal, portrays.lines]
  sent := by rw [sent_append, unsent, List.append_nil, portrays.sent]
  hub := turned
  heard isStill := by rw [news_append, unheard, List.append_nil, portrays.heard isStill]

theorem struck (portrays : PortraysIn still list raw s told mounted items) (call : Call ℓ π κ)
    (stroke : Stroke) : ∃ left, stroke.change.on ⟨mounted.view, s.page.document⟩ =
        ((told.struck stroke).1, left) ∧
      Portrays still list raw ⟨Page.struck s.page list stroke (told.struck stroke).1 left,
          s.log ++ marksOf list call stroke (told.struck stroke).1⟩
        { (told.struck stroke).2 with heard := told.heard } := by
  obtain ⟨left, later, run, arranged, same⟩ := stroke.sketched portrays.arranged
  rw [portrays.sketch] at run same
  refine ⟨left, run, mounted.after left.view (stroke.line (told.struck stroke).1), later,
    list?_modifyList_self portrays.there _, portrays.owned, .of_arranged arranged, same.symm, ?_, ?_,
    ?_, portrays.hub, ?_⟩
  · have container : (mounted.after left.view (stroke.line (told.struck stroke).1)).view.container =
        mounted.view.container := arranged.container
    rw [container, ← portrays.raw]
    exact arranged.layout.holdsRawText_top
  · simp [Mounted.after, Told.struck, portrays.lines, Nat.add_comm]
  · rw [sent_append, sent_marksOf, portrays.sent]
    rfl
  · intro isStill
    rw [news_append, news_marksOf, List.append_nil, portrays.heard isStill]

end PortraysIn

theorem looked_run {look : Mounted ℓ → α} (there : s.page.list? list = some mounted) :
    (unmarked (do return look (← running list)) : TracedRun ℓ π κ σ α).run s =
      some (look mounted, s) := by
  change Option.map _ _ = _
  rw [StateT.run_bind, running_run there]
  rfl

/-! ## Notifications -/

theorem isRegistered_of_listenersFor {hub : Hub ℓ} {kind : Kind} {entry : ListenerId × ℓ}
    (listens : entry ∈ hub.listenersFor kind) : hub.isRegistered entry.1 = true := by
  obtain ⟨registration, inside, rfl⟩ := List.mem_map.1 listens
  exact List.any_eq_true.2 ⟨registration, (List.mem_filter.1 inside).1, beq_self_eq_true _⟩

def Spare (returns still : Prop) (list : Nat) (callbacks : Callbacks (TracedRun ℓ π κ σ) ℓ π κ) : Prop :=
  ∀ listener notification s, Ends returns (callbacks.listen listener notification) s
    fun _ t => LetsBe still list s t

variable {returns : Prop} {callbacks : Callbacks (TracedRun ℓ π κ σ) ℓ π κ}

theorem Portrays.heed (spare : Spare returns still list callbacks)
    (portrays : Portrays still list raw s told) (notification : Notification)
    (entry : ListenerId × ℓ) :
    Ends returns (heed callbacks list notification entry) s fun _ t => Portrays still list raw t
      { told with heard := told.heard ++ [(entry.1, notification)] } := by
  obtain ⟨mounted, items, portrays⟩ := portrays
  have called : PortraysIn still list raw
      ⟨s.page, s.log ++ [.called list entry.1 notification s.page]⟩
      { told with heard := told.heard ++ [(entry.1, notification)] } mounted items :=
    { portrays with
      sent := by
        rw [sent_append, portrays.sent]
        exact List.append_nil _
      heard := fun isStill => by
        rw [news_append, portrays.heard isStill, news_called, if_pos rfl] }
  refine Ends.bind (.of_run rfl rfl : Ends returns get s fun a t => (a, t) = (s, s)) ?_
  rintro _ _ ⟨⟩
  refine Ends.bind (.of_run rfl rfl : Ends returns _ s fun _ t =>
    t = ⟨s.page, s.log ++ [.called list entry.1 notification s.page]⟩) ?_
  rintro _ _ rfl
  refine (spare entry.2 notification _).bind fun _ mid spares => .of_run rfl ?_
  obtain ⟨mounted', items', portrays'⟩ := called.spared spares
  exact ⟨mounted', items', { portrays' with
    sent := by
      rw [sent_append, portrays'.sent]
      exact List.append_nil _
    heard := fun isStill => by
      rw [news_append, portrays'.heard isStill]
      exact List.append_nil _ }⟩

theorem Portrays.deliver (spare : Spare returns still list callbacks) (notification : Notification)
    {snapshot : List (ListenerId × ℓ)}
    (present : still → ∀ entry ∈ snapshot, told.hub.isRegistered entry.1 = true)
    (portrays : Portrays still list raw s told) :
    Ends returns
      (Event.deliver (fun id => unmarked (return (← running list).hub.isRegistered id))
        (Page.heed callbacks list notification) (snapshot.map fun entry => (entry.1, entry))) s
      fun _ t => Portrays still list raw t { told with
        heard := told.heard ++ snapshot.map fun entry => (entry.1, notification) } := by
  induction snapshot generalizing s told with
  | nil => exact .of_run rfl (by simpa using portrays)
  | cons entry rest ih =>
    obtain ⟨mounted, items, held⟩ := portrays
    have looked : Ends returns
        (unmarked (do return (← running list).hub.isRegistered entry.1) : TracedRun ℓ π κ σ Bool) s
        fun registered t => registered = mounted.hub.isRegistered entry.1 ∧ t = s :=
      .of_run (looked_run held.there) ⟨rfl, rfl⟩
    refine looked.bind ?_
    rintro _ _ ⟨rfl, rfl⟩
    have others (isStill : still) : ∀ entry ∈ rest, told.hub.isRegistered entry.1 = true :=
      fun other inside => present isStill other (List.mem_cons_of_mem _ inside)
    cases registered : mounted.hub.isRegistered entry.1 with
    | true =>
      refine ((Portrays.heed spare ⟨mounted, items, held⟩ notification entry).bind ?_)
      intro _ mid portrays
      refine ((ih ?_ portrays).bind fun _ t portrays => .of_run rfl ?_)
      · exact others
      · rw [List.map_cons, List.append_cons]
        exact portrays
    | false =>
      have stirred : ¬ still := fun isStill => by
        rw [held.hub isStill, present isStill entry List.mem_cons_self] at registered
        cases registered
      refine (ih others ⟨mounted, items, held⟩).mono fun _ t ⟨mounted', items', portrays⟩ => ?_
      exact ⟨mounted', items', { portrays with heard := fun isStill => absurd isStill stirred }⟩

theorem Portrays.notify (spare : Spare returns still list callbacks) (notification : Notification)
    (portrays : Portrays still list raw s told) :
    Ends returns (notifyTraced callbacks list notification) s fun _ t => Portrays still list raw t
      { told with heard := told.heard ++ told.hearing notification } := by
  obtain ⟨mounted, items, held⟩ := portrays
  have looked : Ends returns (unmarked (running list) : TracedRun ℓ π κ σ (Mounted ℓ)) s
      fun found t => found = mounted ∧ t = s := by
    refine .of_run (a := mounted) ?_ ⟨rfl, rfl⟩
    change Option.map _ _ = _
    rw [running_run held.there]
    rfl
  refine looked.bind ?_
  rintro _ _ ⟨rfl, rfl⟩
  refine (Portrays.deliver spare notification (fun isStill entry inside => ?_) ⟨_, _, held⟩).mono
    fun _ t portrays => ?_
  · rw [← held.hub isStill]
    exact isRegistered_of_listenersFor inside
  · obtain ⟨mounted', items', portrays⟩ := portrays
    refine ⟨mounted', items', { portrays with heard := fun isStill => ?_ }⟩
    rw [portrays.heard isStill, held.hub isStill]
    rfl

/-! ## Requests -/

theorem strikeTraced_depicts (spare : Spare returns still list callbacks) (call : Call ℓ π κ)
    (stroke : Stroke) : (depicting returns (Portrays still list raw)).couples Any
      (strikeTraced callbacks list call stroke) (modifyGet (Told.struck stroke)) := by
  rintro s told ⟨mounted, items, portrays⟩
  obtain ⟨left, run, portrays'⟩ := portrays.struck call stroke
  have begun : (strikeTraced callbacks list call stroke).run s = _ :=
    strikeTraced_run portrays.there run
  have whole : (told.struck stroke).2 = { (told.struck stroke).2 with
      heard := told.heard ++ (stroke.said (told.struck stroke).1).toList.flatMap told.hearing } := rfl
  cases said : stroke.said (told.struck stroke).1 with
  | none =>
    simp only [said] at begun whole
    refine .of_run begun ⟨rfl, trivial, ?_⟩
    change Portrays still list raw _ (told.struck stroke).2
    rw [whole]
    simpa using portrays'
  | some notification =>
    simp only [said] at begun whole
    refine .of_map begun (portrays'.notify spare notification) fun _ t portrays => ⟨rfl, trivial, ?_⟩
    change Portrays still list raw _ (told.struck stroke).2
    rw [whole, Option.toList_some, List.flatMap_singleton]
    exact portrays

theorem subscribeTraced_portrays (portrays : Portrays still list raw s told) (kinds : List Kind)
    (listener : ℓ) : Ends returns (subscribeTraced list kinds listener) s fun id t =>
      (still → id = (told.hub.subscribe kinds listener).2) ∧
        Portrays still list raw t { told with hub := (told.hub.subscribe kinds listener).1 } := by
  obtain ⟨mounted, items, portrays⟩ := portrays
  have run : (subscribeTraced list kinds listener).run s = some ((mounted.hub.subscribe kinds listener).2,
      ⟨s.page.modifyList list fun m => { m with hub := (mounted.hub.subscribe kinds listener).1 },
        s.log ++ [.subscribed list (mounted.hub.subscribe kinds listener).2 kinds]⟩) := by
    have answered : (answer (mute (π := π) (κ := κ)) list (.subscribe kinds listener)).run s.page =
        some ((mounted.hub.subscribe kinds listener).2, s.page.modifyList list fun m =>
          { m with hub := (mounted.hub.subscribe kinds listener).1 }) := by
      rw [answer, StateT.run_bind, running_run portrays.there]
      rfl
    change Option.bind (Option.map _ _) _ = _
    rw [answered]
    rfl
  refine .of_run run ⟨fun isStill => by rw [portrays.hub isStill], _, _,
    portrays.modifyList _ _ _ rfl rfl rfl (fun isStill => ?_) rfl rfl⟩
  rw [portrays.hub isStill]

theorem actTraced_gives {ask : (r : Request ℓ π κ) → TracedRun ℓ π κ σ r.Answer}
    {action : Action ℓ π κ σ α} {a : α} (gives : action.Gives a) (s : Traced ℓ π κ σ) :
    (actTraced ask action).run s = some (a, s) := by
  induction action with
  | done result =>
    cases gives
    rfl
  | look next ih => exact ih s.page (gives s.page)
  | note | ask => exact gives.elim

section

variable {test : π → Value → Bool} {compare : κ → Value → Value → Ordering} {call : Call ℓ π κ}
  (spare : Spare returns still list callbacks)
  (tests : ∀ t, call = .filter t → ∀ value s, (callbacks.test t value).run s = some (test t value, s))
  (compares : ∀ order, call = .sortBy order → ∀ x y s,
    (callbacks.compare order x y).run s = some (compare order x y, s))

include spare tests compares

theorem answer_depicts (known : ∀ kinds listener, call ≠ .subscribe kinds listener) :
    (depicting returns (Portrays still list raw)).couples Any
      ((partsTraced callbacks list call).answer call) ((Told.parts test compare).answer call) := by
  have coupled : Parts.Coupled (depicting returns (Portrays still list raw)) Any
      (partsTraced callbacks list call) (Told.parts test compare) call := {
    model := fun s told portrays => by
      obtain ⟨mounted, items, held⟩ := portrays
      exact .of_run (looked_run held.there)
        ⟨congrArg (·.view.model) held.sketch, trivial, mounted, items, held⟩
    collection := fun s told portrays => by
      obtain ⟨mounted, items, held⟩ := portrays
      exact .of_run (looked_run held.there)
        ⟨congrArg (·.view.collection) held.sketch, trivial, mounted, items, held⟩
    lines := fun _ _ s told portrays => by
      obtain ⟨mounted, items, held⟩ := portrays
      exact .of_run (looked_run held.there) ⟨held.lines, trivial, mounted, items, held⟩
    test := fun t same value s told portrays =>
      .of_run (tests t same value s) ⟨rfl, trivial, portrays⟩
    compare := fun order same x y s told portrays =>
      .of_run (compares order same x y s) ⟨rfl, trivial, portrays⟩
    strike := fun stroke _ => strikeTraced_depicts spare call stroke
    subscribe := fun kinds listener same => absurd same (known kinds listener) }
  exact Parts.answer_coupled coupled

theorem call_portrays (portrays : Portrays still list raw s told) :
    Ends returns ((partsTraced callbacks list call).answer call) s fun a t =>
      ((Request.call list call).Settled still →
        a = (((Told.parts test compare).answer call).run told).1) ∧
      Portrays still list raw t (((Told.parts test compare).answer call).run told).2 := by
  by_cases known : ∀ kinds listener, call ≠ .subscribe kinds listener
  · exact (answer_depicts spare tests compares known s told portrays).mono
      fun a t ⟨same, _, portrays⟩ => ⟨fun _ => same, portrays⟩
  · push Not at known
    obtain ⟨kinds, listener, rfl⟩ := known
    exact subscribeTraced_portrays portrays kinds listener

theorem duringTraced_portrays (portrays : Portrays still list raw s told) :
    Ends returns (duringTraced list ((partsTraced callbacks list call).answer call)) s fun a t =>
      ((Request.call list call).Settled still →
        a = (((Told.parts test compare).answer call).run told).1) ∧
      Portrays still list raw t (((Told.parts test compare).answer call).run told).2 := by
  have counted (f : Nat → Nat) {s : Traced ℓ π κ σ} {told : Told ℓ}
      (portrays : Portrays still list raw s told) : Ends returns
        (unmarked (modify fun page =>
          page.modifyList list fun m => { m with running := f m.running }) :
            TracedRun ℓ π κ σ Unit) s fun _ t => Portrays still list raw t told := by
    obtain ⟨mounted, items, held⟩ := portrays
    have turned := held.modifyList (fun m => { m with running := f m.running }) told.hub []
      rfl rfl rfl held.hub rfl rfl
    rw [List.append_nil] at turned
    exact .of_run rfl ⟨_, _, turned⟩
  refine (counted (· + 1) portrays).bind fun _ mid portrays => ?_
  refine (call_portrays spare tests compares portrays).bind fun a left ⟨same, portrays⟩ => ?_
  exact (counted (· - 1) portrays).bind fun _ _ portrays => .of_run rfl ⟨same, portrays⟩

end

theorem unsubscribe_portrays (portrays : Portrays still list raw s told) (id : ListenerId) :
    Ends returns (unmarked (serve (mute (π := π) (κ := κ)) (.unsubscribe list id)) :
      TracedRun ℓ π κ σ Bool) s fun removed t => (still → removed = (told.hub.unsubscribe id).2) ∧
        Portrays still list raw t { told with hub := (told.hub.unsubscribe id).1 } := by
  obtain ⟨mounted, items, held⟩ := portrays
  have alive : s.page.alive list = true := by
    rw [Page.alive, held.there]
    simp [Mounted.alive, held.owned]
  have turned := held.modifyList (fun m => { m with hub := (mounted.hub.unsubscribe id).1 })
    (told.hub.unsubscribe id).1 [] rfl rfl rfl (fun isStill => by rw [held.hub isStill]) rfl rfl
  rw [List.append_nil] at turned
  have run : (serve (mute (π := π) (κ := κ)) (.unsubscribe list id)).run s.page =
      some ((mounted.hub.unsubscribe id).2, s.page.modifyList list fun m =>
        { m with hub := (mounted.hub.unsubscribe id).1 }) := by
    simp only [serve, StateT.run_bind, StateT.run_get, Option.pure_def, Option.bind_eq_bind,
      Option.bind_some, alive, if_true, running_run held.there]
    rfl
  refine .of_run (congrArg (Option.map _) run) ⟨fun isStill => by rw [held.hub isStill], _, _, turned⟩

/-- Whatever is asked of a list that is held, the page shows afterwards what is told of the list, and
the answer is the one that is told. -/
theorem traceSparing_portrays {behaviour : Behaviour ℓ π κ σ} {test : π → Value → Bool}
    {compare : κ → Value → Value → Ordering} (depth : Nat) {r : Request ℓ π κ} (its : r.Of list)
    (pure : r.Pure behaviour test compare) (portrays : Portrays still list raw s told) :
    Ends (behaviour.ReturnsSparing still list depth) (traceSparing still list behaviour (depth + 1) r) s
      fun a t => (r.Settled still → a = ((Told.serve test compare r).run told).1) ∧
        Portrays still list raw t ((Told.serve test compare r).run told).2 := by
  have spare : Spare (behaviour.ReturnsSparing still list depth) still list
      ((behaviour.traced (trace behaviour depth)).sparing still list) := by
    refine fun listener notification s => ⟨fun _ t ends => (sparing_eq_some ends).2, fun returns => ?_⟩
    obtain ⟨t, listened, spares⟩ := returns listener notification s
    exact Option.isSome_iff_exists.2 ⟨_, sparing_run listened spares⟩
  cases r with
  | call other call =>
    obtain rfl : other = list := its
    have during : Ends _ (duringTraced other ((partsTraced _ other call).answer call)) s _ :=
      duringTraced_portrays spare
      (fun t same value s => actTraced_gives (by subst same; exact pure value) s)
      (fun order same x y s => actTraced_gives (by subst same; exact pure x y) s) portrays
    obtain ⟨mounted, items, held⟩ := portrays
    have served : (traceSparing still other behaviour (depth + 1) (.call other call)).run s =
        ((duringTraced other ((partsTraced ((behaviour.traced (trace behaviour depth)).sparing still
          other) other call).answer call)).run s).map fun (a, t) => (some a, t) := by
      simp only [traceSparing, serveTraced, StateT.run_bind, StateT.run_get, Option.pure_def,
        Option.bind_eq_bind, Option.bind_some, held.held?]
      cases (duringTraced other _).run s <;> rfl
    refine .of_map served during ?_
    rintro a t ⟨same, portrays⟩
    exact ⟨fun settled => congrArg some (same settled), portrays⟩
  | unsubscribe other id =>
    obtain rfl : other = list := its
    exact unsubscribe_portrays portrays id
  | drop | setInnerHtml | setAttribute | removeElement => exact its.elim

theorem askEach_told {behaviour : Behaviour ℓ π κ σ} (test : π → Value → Bool)
    (compare : κ → Value → Value → Ordering) {depth : Nat} {page : Page ℓ σ}
    {requests : List (Request ℓ π κ)} (its : ∀ r ∈ requests, r.Of list)
    (pure : ∀ r ∈ requests, r.Pure behaviour test compare) (settled : ∀ r ∈ requests, r.Settled still)
    (portrays : Portrays (π := π) (κ := κ) still list raw ⟨page, []⟩ told)
    (undisturbed : Undisturbed still list behaviour (depth + 1) requests page) :
    ∃ traced : Traced ℓ π κ σ, (askEach (perform behaviour (depth + 1)) requests).run page =
        some (((askEach (Told.serve test compare) requests).run told).1, traced.page) ∧
      Portrays still list raw traced ((askEach (Told.serve test compare) requests).run told).2 := by
  obtain ⟨⟨answers, traced⟩, sparing⟩ := Option.isSome_iff_exists.1 undisturbed
  have asks : ∀ r ∈ requests, (depicting False (Portrays still list raw)).couples Any
      (traceSparing still list behaviour (depth + 1) r) (Told.serve test compare r) :=
    fun r inside s told portrays =>
      ((traceSparing_portrays depth (its r inside) (pure r inside) portrays).mono
        fun a t ⟨same, portrays⟩ => ⟨same (settled r inside), trivial, portrays⟩).weaken nofun
  obtain ⟨depicted, -⟩ := askEach_coupled _ requests asks _ told portrays
  obtain ⟨same, -, portrays⟩ := depicted _ _ sparing
  obtain ⟨whole, -⟩ := askEach_coupled (implied (Traced ℓ π κ σ)) requests
    (fun r _ => traceSparing_implied behaviour (depth + 1) r) _ _ _ sparing
  obtain ⟨_, performed, -, rfl⟩ :=
    (askEach_inStep requests fun r _ => trace_inStep behaviour (depth + 1) r).exists_other rfl whole
  exact ⟨traced, same ▸ performed, portrays⟩

/-- If the listeners return and spare the list, requests of the list are undisturbed. -/
theorem undisturbed_of_returns {behaviour : Behaviour ℓ π κ σ} {test : π → Value → Bool}
    {compare : κ → Value → Value → Ordering} {depth : Nat} {page : Page ℓ σ}
    (returns : behaviour.ReturnsSparing still list depth)
    (portrays : Portrays (π := π) (κ := κ) still list raw ⟨page, []⟩ told)
    (requests : List (Request ℓ π κ)) (its : ∀ r ∈ requests, r.Of list)
    (pure : ∀ r ∈ requests, r.Pure behaviour test compare) :
    Undisturbed still list behaviour (depth + 1) requests page := by
  rw [Undisturbed]
  generalize (⟨page, []⟩ : Traced ℓ π κ σ) = s at portrays
  induction requests generalizing s told with
  | nil => rfl
  | cons r rest ih =>
    obtain ⟨each, ends⟩ :=
      traceSparing_portrays depth (its r List.mem_cons_self) (pure r List.mem_cons_self) portrays
    obtain ⟨⟨answer, mid⟩, answered⟩ := Option.isSome_iff_exists.1 (ends returns)
    rw [askEach_run_cons, answered, Option.bind_some, Option.isSome_map]
    exact ih (fun r inside => its r (List.mem_cons_of_mem _ inside))
      (fun r inside => pure r (List.mem_cons_of_mem _ inside)) mid (each _ _ answered).2

end Page

end LiveList
