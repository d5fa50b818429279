import LiveList.Proofs.Page.Guard
import LiveList.Proofs.Page.Report

namespace LiveList

open Event (Hub Kind ListenerId Notification Registration)
open Json (Value)

/-! ## Hubs -/

namespace Event.Hub

variable {ℓ : Type} {hub : Hub ℓ}

structure Ordered (hub : Hub ℓ) : Prop where
  ascending : (hub.registrations.map Registration.id).Pairwise (· < ·)
  below : ∀ id ∈ hub.registrations.map Registration.id, id < hub.nextId

theorem ordered_empty : (empty : Hub ℓ).Ordered := ⟨List.Pairwise.nil, by simp [empty]⟩

theorem isRegistered_iff {id : ListenerId} :
    hub.isRegistered id = true ↔ id ∈ hub.registrations.map Registration.id := by
  simp [isRegistered]

namespace Ordered

variable (ordered : hub.Ordered)
include ordered

theorem subscribe (kinds : List Kind) (listener : ℓ) : (hub.subscribe kinds listener).1.Ordered := by
  have ids : (hub.subscribe kinds listener).1.registrations.map Registration.id =
      hub.registrations.map Registration.id ++ [hub.nextId] := List.map_append
  refine ⟨?_, ?_⟩ <;> rw [ids]
  · refine List.pairwise_append.2 ⟨ordered.ascending, List.pairwise_singleton _ _, ?_⟩
    intro id old _ new
    exact List.mem_singleton.1 new ▸ ordered.below id old
  · intro id inside
    rcases List.mem_append.1 inside with old | new
    · exact Nat.lt_succ_of_lt (ordered.below id old)
    · exact List.mem_singleton.1 new ▸ Nat.lt_succ_self _

theorem unsubscribe (id : ListenerId) : (hub.unsubscribe id).1.Ordered := by
  have fewer : ((hub.unsubscribe id).1.registrations.map Registration.id).Sublist
      (hub.registrations.map Registration.id) := List.filter_sublist.map _
  exact ⟨ordered.ascending.sublist fewer, fun other inside => ordered.below other (fewer.mem inside)⟩

theorem listenersFor (kind : Kind) : ((hub.listenersFor kind).map Prod.fst).Pairwise (· < ·) := by
  have ids : (hub.listenersFor kind).map Prod.fst =
      (hub.registrations.filter (·.kinds.contains kind)).map Registration.id := by
    rw [Hub.listenersFor, List.map_map]
    rfl
  rw [ids]
  exact ordered.ascending.sublist (List.filter_sublist.map _)

end Ordered

end Event.Hub

/-! ## What the observer is told -/

namespace Page

variable {ℓ π κ σ α : Type}

def Known (page : Page ℓ σ) (list : Nat) (known : OrderedMap Nat Value) : Prop :=
  ∃ mounted, page.list? list = some mounted ∧ mounted.view.collection.Known known

def heard (list : Nat) (observer : ListenerId) (log : List (Mark ℓ π κ σ)) : List Notification :=
  log.filterMap fun
    | .called other id notification _ =>
      if other = list ∧ id = observer then some notification else none
    | _ => none

def Unfilled (list : Nat) (log : List (Mark ℓ π κ σ)) : Prop :=
  ∀ call indices said, .took list call (.inserted indices) said ∈ log → indices = []

def Untold (list : Nat) (log : List (Mark ℓ π κ σ)) : Prop :=
  ∀ call entry said, .took list call entry said ∈ log → said = none

/-- The observer listens to all kinds, from before the first record on, and nothing happens to the
list while an earlier listener is called and has not returned. -/
structure Watches (list : Nat) (observer : ListenerId) (log : List (Mark ℓ π κ σ)) : Prop where
  subscribed : ∀ past kinds rest, log = past ++ .subscribed list observer kinds :: rest →
    (∀ kind, kind ∈ kinds) ∧ Unfilled list past
  undisturbed : ∀ past id notification found inner rest,
    log = past ++ .called list id notification found :: (inner ++ rest) → id < observer →
    .returned past.length ∉ inner → Untold list inner

/-- What the observer has heard is what the list holds, whenever it is called and whenever a request
from outside has been answered. -/
def Mark.Tells (list : Nat) (observer : ListenerId) (past : List (Mark ℓ π κ σ)) :
    Mark ℓ π κ σ → Prop
  | .called other id notification found => other = list → id = observer →
    found.Known list (replay (heard list observer past ++ [notification]))
  | .rested found => ∀ mounted, found.list? list = some mounted →
    mounted.hub.isRegistered observer = true → found.Known list (replay (heard list observer past))
  | _ => True

def Tells (list : Nat) (observer : ListenerId) (log : List (Mark ℓ π κ σ)) : Prop :=
  ∀ past mark rest, log = past ++ mark :: rest → mark.Tells list observer past

section

variable {list : Nat} {observer : ListenerId} {log part : List (Mark ℓ π κ σ)} {mark : Mark ℓ π κ σ}

@[simp] theorem heard_append :
    heard list observer (log ++ part) = heard list observer log ++ heard list observer part :=
  List.filterMap_append

theorem Watches.before (watches : Watches list observer (log ++ part)) :
    Watches list observer log where
  subscribed past kinds rest split :=
    watches.subscribed past kinds (rest ++ part) (by rw [split, List.append_assoc]; rfl)
  undisturbed past id notification found inner rest split :=
    watches.undisturbed past id notification found inner (rest ++ part)
      (by rw [split, List.append_assoc, List.cons_append, List.append_assoc])

theorem Tells.append (tells : Tells list observer log)
    (more : ∀ past mark rest, part = past ++ mark :: rest → mark.Tells list observer (log ++ past)) :
    Tells list observer (log ++ part) := by
  intro past mark rest split
  rcases List.append_eq_append_iff.1 split with ⟨between, rfl, rfl⟩ | ⟨between, rfl, behind⟩
  · exact more between mark rest rfl
  · rcases List.cons_eq_append_iff.1 behind with ⟨rfl, rfl⟩ | ⟨between, rfl, rfl⟩
    · simpa using more [] mark rest rfl
    · exact tells past mark between rfl

theorem Tells.snoc (tells : Tells list observer log) (last : mark.Tells list observer log) :
    Tells list observer (log ++ [mark]) := by
  refine tells.append fun past other rest split => ?_
  rcases List.cons_eq_append_iff.1 split with ⟨rfl, same⟩ | ⟨between, -, impossible⟩
  · cases same
    simpa using last
  · simp at impossible

def Aside (list : Nat) (observer : ListenerId) : Mark ℓ π κ σ → Prop
  | .called other id _ _ => ¬ (other = list ∧ id = observer)
  | .rested _ => False
  | _ => True

theorem heard_aside (aside : ∀ mark ∈ part, Aside list observer mark) :
    heard list observer part = [] := by
  refine List.filterMap_eq_nil_iff.2 fun mark inside => ?_
  have aside := aside mark inside
  cases mark with
  | called other id notification found => exact if_neg aside
  | _ => rfl

theorem Tells.aside (tells : Tells list observer log)
    (aside : ∀ mark ∈ part, Aside list observer mark) : Tells list observer (log ++ part) := by
  refine tells.append fun past mark rest split => ?_
  have aside := aside mark (split ▸ List.mem_append_right _ List.mem_cons_self)
  cases mark with
  | called other id notification found => exact fun isList isObserver => absurd ⟨isList, isObserver⟩ aside
  | rested found => exact aside.elim
  | _ => trivial

/-! ## The observer and the list -/

variable (list observer) in
structure Observed (s : Traced ℓ π κ σ) (mounted : Mounted ℓ) : Prop where
  there : s.page.list? list = some mounted
  sound : mounted.view.collection.Sound
  ordered : mounted.hub.Ordered
  unheard : mounted.hub.nextId ≤ observer → heard list observer s.log = []
  bare : Unfilled list s.log → ∀ index, mounted.view.collection.get? index = none
  kinds : Watches list observer s.log → ∀ registration ∈ mounted.hub.registrations,
    registration.id = observer → ∀ kind, kind ∈ registration.kinds

namespace Observed

variable {s : Traced ℓ π κ σ} {mounted : Mounted ℓ} (observed : Observed list observer s mounted)
include observed

theorem append {part : List (Mark ℓ π κ σ)}
    (silent : mounted.hub.nextId ≤ observer → heard list observer part = []) :
    Observed list observer ⟨s.page, s.log ++ part⟩ mounted where
  there := observed.there
  sound := observed.sound
  ordered := observed.ordered
  unheard early := by rw [heard_append, observed.unheard early, silent early]; rfl
  bare unfilled := observed.bare fun call indices said inside =>
    unfilled call indices said (List.mem_append_left _ inside)
  kinds watches := observed.kinds watches.before

theorem of_same {page : Page ℓ σ} {mounted' : Mounted ℓ} (there : page.list? list = some mounted')
    (collection : mounted'.view.collection = mounted.view.collection)
    (hub : mounted'.hub = mounted.hub) : Observed list observer ⟨page, s.log⟩ mounted' where
  there := there
  sound := collection ▸ observed.sound
  ordered := hub ▸ observed.ordered
  unheard early := observed.unheard (hub ▸ early)
  bare unfilled := collection ▸ observed.bare unfilled
  kinds watches := hub ▸ observed.kinds watches

theorem lt_of_isRegistered (present : mounted.hub.isRegistered observer = true) :
    observer < mounted.hub.nextId :=
  observed.ordered.below observer (Hub.isRegistered_iff.1 present)

theorem known_iff {known : OrderedMap Nat Value} :
    s.page.Known list known ↔ mounted.view.collection.Known known := by
  constructor
  · rintro ⟨other, there, known⟩
    rwa [Option.some.inj (observed.there.symm.trans there)]
  · exact fun known => ⟨mounted, observed.there, known⟩

theorem subscribe (kinds : List Kind) (listener : ℓ) :
    Observed list observer
      ⟨s.page.modifyList list fun m => { m with hub := (mounted.hub.subscribe kinds listener).1 },
        s.log ++ [.subscribed list mounted.hub.nextId kinds]⟩
      { mounted with hub := (mounted.hub.subscribe kinds listener).1 } where
  there := list?_modifyList_self observed.there _
  sound := observed.sound
  ordered := observed.ordered.subscribe kinds listener
  unheard early := by
    rw [heard_append, observed.unheard (Nat.le_of_succ_le early)]
    rfl
  bare unfilled := observed.bare fun call indices said inside =>
    unfilled call indices said (List.mem_append_left _ inside)
  kinds watches registration inside isObserver kind := by
    rcases List.mem_append.1 inside with old | new
    · exact observed.kinds watches.before registration old isObserver kind
    · cases List.mem_singleton.1 new
      obtain rfl : mounted.hub.nextId = observer := isObserver
      exact List.mem_eraseDups.2 ((watches.subscribed s.log kinds [] rfl).1 kind)

theorem unsubscribe (id : ListenerId) :
    Observed list observer
      ⟨s.page.modifyList list fun m => { m with hub := (mounted.hub.unsubscribe id).1 }, s.log⟩
      { mounted with hub := (mounted.hub.unsubscribe id).1 } where
  there := list?_modifyList_self observed.there _
  sound := observed.sound
  ordered := observed.ordered.unsubscribe id
  unheard := observed.unheard
  bare := observed.bare
  kinds watches registration inside :=
    observed.kinds watches registration (List.mem_filter.1 inside).1

theorem struck (call : Call ℓ π κ) {stroke : Stroke} {result : stroke.Result} {scene : Scene}
    (run : stroke.change.on ⟨mounted.view, s.page.document⟩ = (result, scene)) :
    Observed list observer
      ⟨Page.struck s.page list stroke result scene, s.log ++ marksOf list call stroke result⟩
      (mounted.after scene.view (stroke.line result)) := by
  have there : (Page.struck s.page list stroke result scene).list? list =
      some (mounted.after scene.view (stroke.line result)) := list?_modifyList_self observed.there _
  have silent : heard list observer (marksOf list call stroke result : List (Mark ℓ π κ σ)) = [] := by
    rw [marksOf]
    cases stroke.line result <;> rfl
  have held : Observed list observer
      ⟨s.page, s.log ++ marksOf list call stroke result⟩ mounted := observed.append fun _ => silent
  rcases (stroke.does run).2 with ⟨-, -, same⟩ | ⟨entry, line, deed⟩
  · exact held.of_same there same rfl
  · refine ⟨there, deed.sound observed.sound, observed.ordered, held.unheard, fun unfilled => ?_,
      held.kinds⟩
    refine deed.bare observed.sound (held.bare unfilled) ?_
    rintro indices rfl
    refine unfilled call indices (stroke.said result) (List.mem_append_right _ ?_)
    rw [marksOf, line]
    exact List.mem_singleton_self _

end Observed

def Calm (list : Nat) (observer : ListenerId) (start s : Traced ℓ π κ σ) : Prop :=
  ∃ part, s.log = start.log ++ part ∧
    (∀ from_, .returned from_ ∈ part → start.log.length ≤ from_) ∧
    (Untold list part → (∀ mark ∈ part, Aside list observer mark) ∧
      ∀ known, start.page.Known list known → s.page.Known list known)

def InTouch (list : Nat) (observer : ListenerId) (s : Traced ℓ π κ σ) : Prop :=
  ∃ mounted, Observed list observer s mounted ∧ (Watches list observer s.log →
    Tells list observer s.log ∧ (mounted.hub.isRegistered observer = true →
      s.page.Known list (replay (heard list observer s.log))))

/-- What holds at any time, and what holds of everything that goes on from a given state. -/
def Attends (list : Nat) (observer : ListenerId) :
    Option (Traced ℓ π κ σ) → Traced ℓ π κ σ → Prop
  | none, s => InTouch list observer s
  | some start, s => (∃ mounted, Observed list observer s mounted) ∧ Calm list observer start s

namespace Calm

variable {start mid s : Traced ℓ π κ σ}

theorem refl (start : Traced ℓ π κ σ) : Calm list observer start start :=
  ⟨[], (List.append_nil _).symm, by simp, fun _ => ⟨by simp, fun _ => id⟩⟩

theorem length_le (calm : Calm list observer start s) : start.log.length ≤ s.log.length := by
  obtain ⟨part, log, -⟩ := calm
  rw [log, List.length_append]
  exact Nat.le_add_right _ _

theorem trans (first : Calm list observer start mid) (second : Calm list observer mid s) :
    Calm list observer start s := by
  have longer := first.length_le
  obtain ⟨part, log, returns, calm⟩ := first
  obtain ⟨more, log', returns', calm'⟩ := second
  refine ⟨part ++ more, by rw [log', log, List.append_assoc], ?_, fun untold => ?_⟩
  · intro from_ inside
    rcases List.mem_append.1 inside with inside | inside
    · exact returns from_ inside
    · exact longer.trans (returns' from_ inside)
  · obtain ⟨aside, known⟩ := calm fun call entry said inside =>
      untold call entry said (List.mem_append_left _ inside)
    obtain ⟨aside', known'⟩ := calm' fun call entry said inside =>
      untold call entry said (List.mem_append_right _ inside)
    refine ⟨fun mark inside => ?_, fun _ isKnown => known' _ (known _ isKnown)⟩
    rcases List.mem_append.1 inside with inside | inside
    · exact aside mark inside
    · exact aside' mark inside

theorem step {page : Page ℓ σ} (aside : ∀ mark ∈ part, Aside list observer mark)
    (returns : ∀ from_, .returned from_ ∈ part → s.log.length ≤ from_)
    (known : ∀ known, s.page.Known list known → page.Known list known) :
    Calm list observer s ⟨page, s.log ++ part⟩ :=
  ⟨part, rfl, returns, fun _ => ⟨aside, known⟩⟩

end Calm

theorem Known.of_same {page page' : Page ℓ σ} {known : OrderedMap Nat Value}
    (same : ∀ mounted, page.list? list = some mounted → ∃ mounted', page'.list? list = some mounted' ∧
      mounted'.view.collection = mounted.view.collection) (isKnown : page.Known list known) :
    page'.Known list known := by
  obtain ⟨mounted, there, known⟩ := isKnown
  obtain ⟨mounted', there', collection⟩ := same mounted there
  exact ⟨mounted', there', collection ▸ known⟩

namespace Attends

variable {i : Option (Traced ℓ π κ σ)} {s : Traced ℓ π κ σ}

theorem observed (attends : Attends list observer i s) : ∃ mounted, Observed list observer s mounted := by
  cases i with
  | none => exact attends.imp fun _ => And.left
  | some start => exact attends.1

theorem aside (attends : Attends list observer i s) {page : Page ℓ σ}
    (same : ∀ mounted, s.page.list? list = some mounted → ∃ mounted', page.list? list = some mounted' ∧
      mounted'.view.collection = mounted.view.collection ∧ mounted'.hub = mounted.hub)
    (aside : ∀ mark ∈ part, Aside list observer mark)
    (returns : ∀ from_, .returned from_ ∈ part → ∀ start, i = some start →
      start.log.length ≤ from_) : Attends list observer i ⟨page, s.log ++ part⟩ := by
  have known {known : OrderedMap Nat Value} : s.page.Known list known → page.Known list known :=
    Known.of_same fun mounted there => (same mounted there).imp fun _ same => ⟨same.1, same.2.1⟩
  have silent := heard_aside aside
  obtain ⟨mounted, observed⟩ := attends.observed
  obtain ⟨mounted', there', collection, hub⟩ := same mounted observed.there
  have observed' := (observed.of_same there' collection hub).append fun _ => silent
  cases i with
  | none =>
    obtain ⟨other, held, inTouch⟩ := attends
    cases observed.there.symm.trans held.there
    refine ⟨mounted', observed', fun watches => ?_⟩
    obtain ⟨tells, inTouch⟩ := inTouch watches.before
    refine ⟨tells.aside aside, fun present => ?_⟩
    simp only [heard_append, silent, List.append_nil]
    exact known (inTouch (hub ▸ present))
  | some start =>
    refine ⟨⟨mounted', observed'⟩, ?_⟩
    obtain ⟨more, log, returns', calm⟩ := attends.2
    refine ⟨more ++ part, by rw [log, List.append_assoc], ?_, fun untold => ?_⟩
    · intro from_ inside
      rcases List.mem_append.1 inside with inside | inside
      · exact returns' from_ inside
      · exact returns from_ inside start rfl
    · obtain ⟨aside', known'⟩ := calm fun call entry said inside =>
        untold call entry said (List.mem_append_left _ inside)
      refine ⟨fun mark inside => ?_, fun _ isKnown => known (known' _ isKnown)⟩
      rcases List.mem_append.1 inside with inside | inside
      · exact aside' mark inside
      · exact aside mark inside

theorem marked (attends : Attends list observer i s) (last : Mark ℓ π κ σ)
    (aside : Aside list observer last)
    (returns : ∀ from_, last = .returned from_ → ∀ start, i = some start →
      start.log.length ≤ from_) : Attends list observer i ⟨s.page, s.log ++ [last]⟩ :=
  attends.aside (fun mounted there => ⟨mounted, there, rfl, rfl⟩)
    (fun _ inside => List.mem_singleton.1 inside ▸ aside)
    fun from_ inside => returns from_ (List.mem_singleton.1 inside).symm

theorem elsewhere (attends : Attends list observer i s) {page : Page ℓ σ}
    (lists : page.list? list = s.page.list? list) : Attends list observer i ⟨page, s.log⟩ := by
  have moved : Attends list observer i ⟨page, s.log ++ []⟩ :=
    attends.aside (fun mounted there => ⟨mounted, lists.trans there, rfl, rfl⟩) (by simp) (by simp)
  rwa [List.append_nil] at moved

theorem modifyList (attends : Attends list observer i s) {other : Nat} {f : Mounted ℓ → Mounted ℓ}
    (view : ∀ mounted, (f mounted).view = mounted.view)
    (hub : other = list → ∀ mounted, (f mounted).hub = mounted.hub)
    (aside : ∀ mark ∈ part, Aside list observer mark)
    (returns : ∀ from_, .returned from_ ∉ part) :
    Attends list observer i ⟨s.page.modifyList other f, s.log ++ part⟩ := by
  refine attends.aside (fun mounted there => ?_) aside fun from_ inside => absurd inside (returns from_)
  by_cases same : other = list
  · subst same
    exact ⟨f mounted, list?_modifyList_self there f, by rw [view], hub rfl mounted⟩
  · exact ⟨mounted, (list?_modifyList_of_ne same f).trans there, rfl, rfl⟩

theorem subscribe (attends : Attends list observer i s) {other : Nat} {mounted : Mounted ℓ}
    (kinds : List Kind) (listener : ℓ) (there : s.page.list? other = some mounted) :
    Attends list observer i
      ⟨s.page.modifyList other fun m => { m with hub := (mounted.hub.subscribe kinds listener).1 },
        s.log ++ [.subscribed other mounted.hub.nextId kinds]⟩ := by
  have aside : ∀ mark ∈ [(.subscribed other mounted.hub.nextId kinds : Mark ℓ π κ σ)],
      Aside list observer mark := by simp [Aside]
  by_cases same : other = list
  case neg => exact attends.modifyList (fun _ => rfl) (fun isList => absurd isList same) aside (by simp)
  subst same
  obtain ⟨own, observed⟩ := attends.observed
  cases there.symm.trans observed.there
  have observed' := observed.subscribe kinds listener
  have known {known : OrderedMap Nat Value} (isKnown : s.page.Known other known) :
      (s.page.modifyList other fun m =>
        { m with hub := (mounted.hub.subscribe kinds listener).1 }).Known other known :=
    observed'.known_iff.2 (observed.known_iff.1 isKnown)
  cases i with
  | none =>
    obtain ⟨own, held, inTouch⟩ := attends
    cases there.symm.trans held.there
    refine ⟨_, observed', fun watches => ?_⟩
    obtain ⟨tells, inTouch⟩ := inTouch watches.before
    refine ⟨tells.aside aside, fun present => ?_⟩
    simp only [heard_append, heard_aside aside, List.append_nil]
    rw [Hub.isRegistered_iff, Hub.subscribe, List.map_append, List.mem_append] at present
    rcases present with old | new
    · exact known (inTouch (Hub.isRegistered_iff.2 old))
    · -- The observer is new: it has heard nothing, and there is nothing to know.
      obtain rfl : observer = mounted.hub.nextId := List.mem_singleton.1 new
      have none := observed.bare (watches.subscribed s.log kinds [] rfl).2
      rw [observed.unheard (Nat.le_refl _)]
      refine observed'.known_iff.2 fun index => ?_
      exact (congrArg (Option.map fun r : Record => r.json) (none index)).symm
  | some start =>
    exact ⟨⟨_, observed'⟩, attends.2.trans (.step aside (by simp) fun _ => known)⟩

theorem unsubscribe (attends : Attends list observer i s) {other : Nat} {mounted : Mounted ℓ}
    (id : ListenerId) (there : s.page.list? other = some mounted) :
    Attends list observer i { s with page := s.page.modifyList other fun m =>
      { m with hub := (mounted.hub.unsubscribe id).1 } } := by
  by_cases same : other = list
  case neg =>
    have turned : Attends list observer i ⟨s.page.modifyList other fun m =>
        { m with hub := (mounted.hub.unsubscribe id).1 }, s.log ++ []⟩ :=
      attends.modifyList (fun _ => rfl) (fun isList => absurd isList same) (by simp) (by simp)
    rwa [List.append_nil] at turned
  subst same
  obtain ⟨own, observed⟩ := attends.observed
  cases there.symm.trans observed.there
  have observed' := observed.unsubscribe id
  have known {known : OrderedMap Nat Value} (isKnown : s.page.Known other known) :
      (s.page.modifyList other fun m => { m with hub := (mounted.hub.unsubscribe id).1 }).Known
        other known :=
    observed'.known_iff.2 (observed.known_iff.1 isKnown)
  cases i with
  | none =>
    obtain ⟨own, held, inTouch⟩ := attends
    cases there.symm.trans held.there
    refine ⟨_, observed', fun watches => ?_⟩
    obtain ⟨tells, inTouch⟩ := inTouch watches
    refine ⟨tells, fun present => known (inTouch ?_)⟩
    have fewer : ((mounted.hub.unsubscribe id).1.registrations.map Registration.id).Sublist
      (mounted.hub.registrations.map Registration.id) := List.filter_sublist.map _
    exact Hub.isRegistered_iff.2 (fewer.mem (Hub.isRegistered_iff.1 present))
  | some start =>
    exact ⟨⟨_, observed'⟩, attends.2.trans
      ⟨[], (List.append_nil _).symm, by simp, fun _ => ⟨by simp, fun _ => known⟩⟩⟩

end Attends

end

end Page

end LiveList
