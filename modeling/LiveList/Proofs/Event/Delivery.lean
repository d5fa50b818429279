import LiveList.Proofs.Event.Trace

/-!
# Delivery

What the log of a bus says about every dispatch in it, however listeners subscribe, unsubscribe and
dispatch while they are called. Main statements: a dispatch calls the listeners that were registered
when it started and still are when their turn comes, and a registration that was withdrawn is
neither called nor withdrawn again.
-/

namespace LiveList.Event.Bus

variable {ℓ σ α β : Type}

namespace Mark

def apply (registrations : List (Registration ℓ)) : Mark ℓ → List (Registration ℓ)
  | .subscribed registration => registrations ++ [registration]
  | .unsubscribed id _ => registrations.filter (·.id != id)
  | _ => registrations

def dispatch? : Mark ℓ → Option Nat
  | .called dispatch _ | .returned dispatch _ | .finished dispatch _ => some dispatch
  | _ => none

end Mark

def registered (log : List (Mark ℓ)) : List (Registration ℓ) := log.foldl Mark.apply []

def registeredFor (log : List (Mark ℓ)) (kind : Kind) : List (Registration ℓ) :=
  (registered log).filter (·.kinds.contains kind)

/-- What happens between a call of a dispatch and the return from it: nothing of that dispatch, and
every dispatch that starts there also finishes there. -/
structure Nested (dispatch : Nat) (past inner : List (Mark ℓ)) : Prop where
  apart : ∀ mark ∈ inner, mark.dispatch? ≠ some dispatch
  closed : ∀ left kind right, inner = left ++ .started kind :: right →
    ∃ count, .finished (past.length + left.length) count ∈ right

/-- The registrations `pending` have their turns in a dispatch, one after the other: who is still
registered then is called, and nobody else is. -/
inductive Turns (dispatch : Nat) :
    (past : List (Mark ℓ)) → (pending : List (Registration ℓ)) → (body : List (Mark ℓ)) →
      (count : Nat) → Prop
  | done {past : List (Mark ℓ)} : Turns dispatch past [] [] 0
  | skipped {past body : List (Mark ℓ)} {registration : Registration ℓ}
      {rest : List (Registration ℓ)} {count : Nat} : registration ∉ registered past →
      Turns dispatch past rest body count → Turns dispatch past (registration :: rest) body count
  | called {past inner body : List (Mark ℓ)} {registration : Registration ℓ}
      {rest : List (Registration ℓ)} {count : Nat} : registration ∈ registered past →
      Nested dispatch (past ++ [.called dispatch registration]) inner →
      Turns dispatch
        (past ++ [.called dispatch registration] ++ inner ++ [.returned dispatch registration])
        rest body count →
      Turns dispatch past (registration :: rest)
        ([.called dispatch registration] ++ inner ++ [.returned dispatch registration] ++ body)
        (count + 1)

/-- What a log says about deliveries. A dispatch is named by the length of the log at its start. -/
structure Delivered (log : List (Mark ℓ)) : Prop where
  turns : ∀ past kind rest, log = past ++ .started kind :: rest → ∃ body count after,
    rest = body ++ .finished past.length count :: after ∧
    Turns past.length (past ++ [.started kind]) (registeredFor past kind) body count ∧
    (∀ mark ∈ past ++ after, mark.dispatch? ≠ some past.length) ∧
    ((registeredFor past kind).map Registration.id).Pairwise (· < ·)
  late : ∀ past kind rest, log = past ++ .started kind :: rest →
    ∀ registration, .subscribed registration ∈ rest →
      ∀ other, .called past.length other ∈ log → other.id ≠ registration.id
  withdrawn : ∀ past id rest, log = past ++ .unsubscribed id true :: rest →
    (∀ dispatch registration, .called dispatch registration ∈ rest → registration.id ≠ id) ∧
    ∀ removed, .unsubscribed id removed ∈ rest → removed = false

/-! ## Registrations -/

variable {log past part left right : List (Mark ℓ)} {registration other : Registration ℓ}
  {hub : Hub ℓ} {dispatch count : Nat} {pending : List (Registration ℓ)}

@[simp] theorem registered_append (past part : List (Mark ℓ)) :
    registered (past ++ part) = part.foldl Mark.apply (registered past) :=
  List.foldl_append

theorem Mark.mem_apply {mark : Mark ℓ} {registrations : List (Registration ℓ)}
    (inside : registration ∈ mark.apply registrations) :
    registration ∈ registrations ∨ mark = .subscribed registration := by
  cases mark with
  | subscribed made => simpa [Mark.apply, eq_comm] using inside
  | unsubscribed id removed => exact .inl (List.mem_filter.1 inside).1
  | _ => exact .inl inside

theorem mem_registered_append (inside : registration ∈ registered (past ++ part)) :
    registration ∈ registered past ∨ .subscribed registration ∈ part := by
  induction part generalizing past with
  | nil => exact .inl (by simpa using inside)
  | cons mark rest ih =>
    rw [List.append_cons] at inside
    rcases ih inside with before | later
    · rw [registered_append, List.foldl_cons, List.foldl_nil] at before
      rcases Mark.mem_apply before with old | rfl
      · exact .inl old
      · exact .inr List.mem_cons_self
    · exact .inr (List.mem_cons_of_mem _ later)

theorem subscribed_of_registered (inside : registration ∈ registered log) :
    .subscribed registration ∈ log := by
  rcases mem_registered_append (List.nil_append log ▸ inside) with before | later
  · cases before
  · exact later

/-! ## Marks that fit -/

/-- What a mark says agrees with what happened before it and with what comes after it. -/
def Mark.Fits (past : List (Mark ℓ)) (rest : List (Mark ℓ)) : Mark ℓ → Prop
  | .subscribed registration => ∀ other, .subscribed other ∈ past → other.id < registration.id
  | .unsubscribed id removed => removed = (registered past).any (·.id == id)
  | .started kind => ∃ body count after, rest = body ++ .finished past.length count :: after ∧
      Turns past.length (past ++ [.started kind]) (registeredFor past kind) body count ∧
      ∀ mark ∈ after, mark.dispatch? ≠ some past.length
  | .called dispatch registration => dispatch < past.length ∧ registration ∈ registered past
  | .returned dispatch _ | .finished dispatch _ => dispatch < past.length

def Sound : (past : List (Mark ℓ)) → (part : List (Mark ℓ)) → Prop
  | _, [] => True
  | past, mark :: rest => mark.Fits past rest ∧ Sound (past ++ [mark]) rest

theorem Mark.Fits.append {mark : Mark ℓ} {rest more : List (Mark ℓ)} (fits : mark.Fits past rest)
    (apart : ∀ later ∈ more, later.dispatch? ≠ some past.length) : mark.Fits past (rest ++ more) := by
  cases mark with
  | started kind =>
    obtain ⟨body, count, after, rfl, turns, last⟩ := fits
    refine ⟨body, count, after ++ more, by simp, turns, ?_⟩
    intro later inside
    rcases List.mem_append.1 inside with inside | inside
    · exact last later inside
    · exact apart later inside
  | _ => exact fits

namespace Sound

theorem append {part more : List (Mark ℓ)} (first : Sound past part)
    (second : Sound (past ++ part) more)
    (apart : ∀ mark ∈ more, ∀ dispatch, mark.dispatch? = some dispatch →
      dispatch < past.length ∨ past.length + part.length ≤ dispatch) :
    Sound past (part ++ more) := by
  induction part generalizing past with
  | nil => simpa using second
  | cons mark rest ih =>
    refine ⟨first.1.append fun later inside same => ?_, ih first.2 (by simpa using second) ?_⟩
    · have := apart later inside _ same
      rw [List.length_cons] at this
      omega
    · intro later inside dispatch same
      have := apart later inside dispatch same
      simp only [List.length_append, List.length_cons, List.length_nil] at this ⊢
      omega

theorem fits {mark : Mark ℓ} (sound : Sound past (left ++ mark :: right)) :
    mark.Fits (past ++ left) right := by
  induction left generalizing past with
  | nil => simpa using sound.1
  | cons first rest ih => simpa using ih sound.2

end Sound

/-! ## What a run adds to the log -/

structure Agrees (hub : Hub ℓ) (log : List (Mark ℓ)) : Prop where
  registrations : hub.registrations = registered log
  fresh : ∀ registration, .subscribed registration ∈ log → registration.id < hub.nextId
  distinct : ∀ registration other, .subscribed registration ∈ log → .subscribed other ∈ log →
    registration.id = other.id → registration = other

namespace Agrees

variable (agrees : Agrees hub log)
include agrees

theorem isRegistered_iff (known : .subscribed registration ∈ log) :
    hub.isRegistered registration.id ↔ registration ∈ registered log := by
  rw [Hub.isRegistered, agrees.registrations, List.any_eq_true]
  constructor
  · rintro ⟨other, inside, same⟩
    have same := agrees.distinct other registration (subscribed_of_registered inside) known
      (by simpa using same)
    exact same ▸ inside
  · exact fun inside => ⟨registration, inside, by simp⟩

theorem unchanged (mark : Mark ℓ) (still : ∀ registrations, mark.apply registrations = registrations) :
    Agrees hub (log ++ [mark]) := by
  have none : ∀ registration, mark ≠ .subscribed registration := fun registration same => by
    have grown := congrArg List.length (still [])
    simp [same, Mark.apply] at grown
  have old : ∀ registration, .subscribed registration ∈ log ++ [mark] →
      .subscribed registration ∈ log := fun registration inside => by
    rcases List.mem_append.1 inside with inside | last
    · exact inside
    · exact absurd (List.mem_singleton.1 last).symm (none registration)
  exact ⟨by simp [agrees.registrations, still], fun r inside => agrees.fresh r (old r inside),
    fun r r' inside inside' => agrees.distinct r r' (old r inside) (old r' inside')⟩

end Agrees

structure Extends (log part : List (Mark ℓ)) (hub : Hub ℓ) : Prop where
  agrees : Agrees hub (log ++ part)
  sound : Sound log part
  own : ∀ mark ∈ part, ∀ dispatch, mark.dispatch? = some dispatch → log.length ≤ dispatch

theorem Extends.refl (agrees : Agrees hub log) : Extends log [] hub :=
  ⟨by simpa using agrees, trivial, by simp⟩

theorem Extends.trans {hub' : Hub ℓ} {more : List (Mark ℓ)} (first : Extends log part hub)
    (second : Extends (log ++ part) more hub') : Extends log (part ++ more) hub' := by
  refine ⟨by simpa using second.agrees, first.sound.append second.sound ?_, ?_⟩
  · intro mark inside dispatch same
    exact .inr (by simpa using second.own mark inside dispatch same)
  · intro mark inside dispatch same
    rcases List.mem_append.1 inside with inside | inside
    · exact first.own mark inside dispatch same
    · have := second.own mark inside dispatch same
      rw [List.length_append] at this
      omega

theorem Extends.subscribed (agrees : Agrees hub log) (kinds : List Kind) (listener : ℓ) :
    Extends log [.subscribed ⟨hub.nextId, kinds.eraseDups, listener⟩]
      (hub.subscribe kinds listener).1 := by
  refine ⟨⟨?_, ?_, ?_⟩, ⟨agrees.fresh, trivial⟩, by simp [Mark.dispatch?]⟩
  · simp [Hub.subscribe, agrees.registrations, Mark.apply]
  · intro registration inside
    rcases List.mem_append.1 inside with old | new
    · exact Nat.lt_succ_of_lt (agrees.fresh registration old)
    · cases List.mem_singleton.1 new
      exact Nat.lt_succ_self _
  · intro registration other inside inside' same
    simp only [List.mem_append, List.mem_singleton, Mark.subscribed.injEq] at inside inside'
    rcases inside with old | rfl <;> rcases inside' with old' | rfl
    · exact agrees.distinct registration other old old' same
    · exact absurd same (Nat.ne_of_lt (agrees.fresh registration old))
    · exact absurd same.symm (Nat.ne_of_lt (agrees.fresh other old'))
    · rfl

theorem Extends.unsubscribed (agrees : Agrees hub log) (id : ListenerId) :
    Extends log [.unsubscribed id (hub.isRegistered id)] (hub.unsubscribe id).1 := by
  refine ⟨⟨?_, ?_, ?_⟩, ⟨?_, trivial⟩, by simp [Mark.dispatch?]⟩
  · simp [Hub.unsubscribe, agrees.registrations, Mark.apply]
  · intro registration inside
    exact agrees.fresh registration (by simpa using inside)
  · intro registration other inside inside'
    exact agrees.distinct registration other (by simpa using inside) (by simpa using inside')
  · rw [Mark.Fits, Hub.isRegistered, agrees.registrations]

theorem Extends.nested (extends_ : Extends log part hub) (earlier : dispatch < log.length) :
    Nested dispatch log part where
  apart := fun mark inside same => by
    have := extends_.own mark inside dispatch same
    omega
  closed := by
    rintro left kind right rfl
    obtain ⟨body, count, after, rfl, -, -⟩ := extends_.sound.fits
    exact ⟨count, by simp⟩

/-- A run only adds to the log, and what it adds is sound if the bus agreed with the log before. -/
def Settles (run : TracedRun ℓ σ α) : Prop :=
  ∀ state a left, run.run state = some (a, left) → ∃ part, left.log = state.log ++ part ∧
    (Agrees state.bus.hub state.log → Extends state.log part left.bus.hub)

namespace Settles

theorem pure (a : α) : Settles (Pure.pure a : TracedRun ℓ σ α) := by
  rintro state _ _ ⟨⟩
  exact ⟨[], by simp, .refl⟩

theorem bind {run : TracedRun ℓ σ α} {next : α → TracedRun ℓ σ β} (first : Settles run)
    (rest : ∀ a, Settles (next a)) : Settles (run >>= next) := by
  intro state b left ends
  obtain ⟨⟨a, mid⟩, began, ends⟩ := Option.bind_eq_some_iff.1 ends
  obtain ⟨part, log, first⟩ := first state a mid began
  obtain ⟨more, log', second⟩ := rest a mid b left ends
  rw [log] at log' second
  exact ⟨part ++ more, by simpa using log',
    fun agrees => (first agrees).trans (second (first agrees).agrees)⟩

theorem unmarked {run : Run ℓ σ α}
    (keeps : ∀ bus a left, run.run bus = some (a, left) → left.hub = bus.hub) :
    Settles (Bus.unmarked run) := by
  intro state a left ends
  obtain ⟨⟨a', bus⟩, ran, same⟩ := Option.map_eq_some_iff.1 ends
  cases same
  have hub : bus.hub = state.bus.hub := keeps _ _ _ ran
  exact ⟨[], by simp, fun agrees => .refl (hub ▸ agrees)⟩

theorem script {ask : (r : Request ℓ) → TracedRun ℓ σ (Answer r)} (asks : ∀ r, Settles (ask r))
    (script : Script ℓ σ α) : Settles (traceScript ask script) := by
  induction script with
  | done result => exact pure result
  | look next ih => exact (unmarked (by rintro bus a left ⟨⟩; rfl)).bind ih
  | note change next ih => exact (unmarked (by rintro bus a left ⟨⟩; rfl)).bind fun _ => ih
  | ask request next ih => exact (asks request).bind ih

end Settles

/-! ## Turns -/

structure Continues (dispatch : Nat) (log : List (Mark ℓ)) (pending : List (Registration ℓ))
    (body : List (Mark ℓ)) (count : Nat) (hub : Hub ℓ) : Prop where
  agrees : Agrees hub (log ++ body)
  sound : Sound log body
  turns : Turns dispatch log pending body count
  own : ∀ mark ∈ body, ∀ other, mark.dispatch? = some other →
    other = dispatch ∨ log.length ≤ other

theorem Continues.called {inner body : List (Mark ℓ)} {hub' : Hub ℓ}
    (earlier : dispatch < log.length) (present : registration ∈ registered log)
    (inside : Extends (log ++ [.called dispatch registration]) inner hub)
    (behind : Continues dispatch
      (log ++ [.called dispatch registration] ++ inner ++ [.returned dispatch registration])
      pending body count hub') :
    Continues dispatch log (registration :: pending)
      ([.called dispatch registration] ++ inner ++ [.returned dispatch registration] ++ body)
      (count + 1) hub' := by
  have length : (log ++ [Mark.called dispatch registration]).length = log.length + 1 := by simp
  -- The call and the return enclose what the listener does, and the other turns come later.
  have call : Sound log [.called dispatch registration] := ⟨⟨earlier, present⟩, trivial⟩
  have back : Sound (log ++ [.called dispatch registration] ++ inner)
      [.returned dispatch registration] := by
    refine ⟨?_, trivial⟩
    simp only [Mark.Fits, List.length_append]
    omega
  have first := call.append inside.sound fun mark isInner other same =>
    .inr (length ▸ inside.own mark isInner other same)
  have second := first.append (by simpa using back) fun mark isBack other same => by
    cases List.mem_singleton.1 isBack
    cases same
    exact .inl earlier
  refine ⟨by simpa using behind.agrees, second.append (by simpa using behind.sound) ?_,
    .called present (inside.nested (by omega)) behind.turns, ?_⟩
  · intro mark isBehind other same
    rcases behind.own mark isBehind other same with rfl | later
    · exact .inl earlier
    · simp only [List.length_append] at later ⊢
      exact .inr (by omega)
  · intro mark isBody other same
    simp only [List.mem_append, List.mem_singleton] at isBody
    rcases isBody with ((rfl | isInner) | rfl) | isBehind
    · cases same
      exact .inl rfl
    · have := inside.own mark isInner other same
      exact .inr (by omega)
    · cases same
      exact .inl rfl
    · rcases behind.own mark isBehind other same with rfl | later
      · exact .inl rfl
      · simp only [List.length_append] at later
        exact .inr (by omega)

theorem Continues.dispatched {kind : Kind} {body : List (Mark ℓ)}
    (turns : Continues log.length (log ++ [.started kind]) (registeredFor log kind) body count hub) :
    Extends log ([.started kind] ++ body ++ [.finished log.length count]) hub := by
  have last : Sound (log ++ [.started kind] ++ body) [.finished log.length count] := by
    refine ⟨?_, trivial⟩
    simp only [Mark.Fits, List.length_append, List.length_singleton]
    omega
  refine ⟨?_, ⟨⟨body, count, [], rfl, turns.turns, by simp⟩, turns.sound.append last ?_⟩, ?_⟩
  · simpa using turns.agrees.unchanged (.finished log.length count) fun _ => rfl
  · intro mark isLast other same
    cases List.mem_singleton.1 isLast
    cases same
    exact .inl (by simp)
  · intro mark inside other same
    simp only [List.mem_append, List.mem_singleton] at inside
    rcases inside with (rfl | isBody) | rfl
    · cases same
    · rcases turns.own mark isBody other same with rfl | later
      · exact Nat.le_refl _
      · rw [List.length_append] at later
        omega
    · cases same
      exact Nat.le_refl _

/-! ## Deliveries -/

theorem call_extends {ask : (r : Request ℓ) → TracedRun ℓ σ (Answer r)}
    (asks : ∀ r, Settles (ask r)) {script : Script ℓ σ Unit} {state left : Traced ℓ σ}
    (ends : (callTraced ask dispatch registration script).run state = some ((), left)) :
    ∃ inner, left.log = state.log ++ [.called dispatch registration] ++ inner ++
        [.returned dispatch registration] ∧
      (Agrees state.bus.hub state.log →
        Extends (state.log ++ [.called dispatch registration]) inner left.bus.hub) := by
  obtain ⟨⟨_, mid⟩, ran, ends⟩ := Option.bind_eq_some_iff.1
    (ends : ((traceScript ask script >>= fun _ => mark (.returned dispatch registration)).run
      ⟨state.bus, state.log ++ [.called dispatch registration]⟩) = some ((), left))
  cases ends
  obtain ⟨inner, log, inside⟩ := Settles.script asks script _ _ _ ran
  exact ⟨inner, by simp [log], fun agrees =>
    inside (agrees.unchanged (.called dispatch registration) fun _ => rfl)⟩

theorem deliver_continues {ask : (r : Request ℓ) → TracedRun ℓ σ (Answer r)}
    (asks : ∀ r, Settles (ask r)) (script : Registration ℓ → Script ℓ σ Unit)
    {state left : Traced ℓ σ} (earlier : dispatch < state.log.length)
    (ends : (deliverTraced ask dispatch script pending).run state = some (count, left)) :
    ∃ body, left.log = state.log ++ body ∧ (Agrees state.bus.hub state.log →
      (∀ registration ∈ pending, .subscribed registration ∈ state.log) →
        Continues dispatch state.log pending body count left.bus.hub) := by
  induction pending generalizing state count with
  | nil =>
    cases ends
    exact ⟨[], by simp, fun agrees _ => ⟨by simpa using agrees, trivial, .done, by simp⟩⟩
  | cons registration rest ih =>
    have step : (deliverTraced ask dispatch script (registration :: rest)).run state =
        (if state.bus.hub.isRegistered registration.id = true then
          callTraced ask dispatch registration (script registration) >>= fun _ =>
            deliverTraced ask dispatch script rest >>= fun count => pure (count + 1)
        else deliverTraced ask dispatch script rest).run state := rfl
    rw [step] at ends
    split at ends
    case isTrue present =>
      obtain ⟨⟨_, mid⟩, ran, ends⟩ := Option.bind_eq_some_iff.1 ends
      obtain ⟨⟨counted, last⟩, delivered, ends⟩ := Option.bind_eq_some_iff.1 ends
      cases ends
      obtain ⟨inner, log, inside⟩ := call_extends asks ran
      obtain ⟨body, log', behind⟩ := ih (by rw [log]; simp; omega) delivered
      rw [log] at log' behind
      refine ⟨[.called dispatch registration] ++ inner ++ [.returned dispatch registration] ++ body,
        by simpa using log', fun agrees known => ?_⟩
      have isKnown := known registration List.mem_cons_self
      rw [agrees.isRegistered_iff isKnown] at present
      have back := (inside agrees).agrees.unchanged (.returned dispatch registration) fun _ => rfl
      refine .called earlier present (inside agrees) (behind back fun other isOther => ?_)
      simp [known other (List.mem_cons_of_mem _ isOther)]
    case isFalse absent =>
      obtain ⟨body, log, behind⟩ := ih earlier ends
      refine ⟨body, log, fun agrees known => ?_⟩
      rw [agrees.isRegistered_iff (known registration List.mem_cons_self)] at absent
      have behind := behind agrees fun other isOther => known other (List.mem_cons_of_mem _ isOther)
      exact ⟨behind.agrees, behind.sound, .skipped absent behind.turns, behind.own⟩

/-! ## Requests -/

def Answered (start : Nat) : (r : Request ℓ) → Answer r → List (Mark ℓ) → Prop
  | .subscribe kinds listener, id, part => part = [.subscribed ⟨id, kinds.eraseDups, listener⟩]
  | .unsubscribe id, removed, part => part = [.unsubscribed id removed]
  | .dispatch notification, count, part =>
    ∃ body, part = [.started notification.kind] ++ body ++ [.finished start count]

def Settled (r : Request ℓ) (run : TracedRun ℓ σ (Answer r)) : Prop :=
  ∀ state answer left, run.run state = some (answer, left) → ∃ part,
    left.log = state.log ++ part ∧ Answered state.log.length r answer part ∧
    (Agrees state.bus.hub state.log → Extends state.log part left.bus.hub)

theorem Settled.settles {r : Request ℓ} {run : TracedRun ℓ σ (Answer r)} (settled : Settled r run) :
    Settles run := by
  intro state answer left ends
  obtain ⟨part, log, -, inside⟩ := settled state answer left ends
  exact ⟨part, log, inside⟩

variable (listen : ℓ → Notification → Script ℓ σ Unit) (depth : Nat)

theorem settled_subscribe (kinds : List Kind) (listener : ℓ) :
    Settled (.subscribe kinds listener) (trace listen depth (.subscribe kinds listener)) := by
  intro state answer left ends
  have run : (trace listen depth (.subscribe kinds listener)).run state =
      some (state.bus.hub.nextId, ⟨⟨(state.bus.hub.subscribe kinds listener).1, state.bus.user⟩,
        state.log ++ [.subscribed ⟨state.bus.hub.nextId, kinds.eraseDups, listener⟩]⟩) := by
    cases depth <;> rfl
  cases run.symm.trans ends
  exact ⟨_, rfl, rfl, fun agrees => .subscribed agrees kinds listener⟩

theorem settled_unsubscribe (id : ListenerId) :
    Settled (.unsubscribe id) (trace listen depth (.unsubscribe id)) := by
  intro state answer left ends
  have run : (trace listen depth (.unsubscribe id)).run state =
      some (state.bus.hub.isRegistered id, ⟨⟨(state.bus.hub.unsubscribe id).1, state.bus.user⟩,
        state.log ++ [.unsubscribed id (state.bus.hub.isRegistered id)]⟩) := by
    cases depth <;> rfl
  cases run.symm.trans ends
  exact ⟨_, rfl, rfl, fun agrees => .unsubscribed agrees id⟩

theorem settled_dispatch (asks : ∀ r, Settles (trace listen depth r))
    (notification : Notification) :
    Settled (.dispatch notification) (trace listen (depth + 1) (.dispatch notification)) := by
  intro state count left ends
  obtain ⟨⟨counted, mid⟩, delivered, ends⟩ := Option.bind_eq_some_iff.1
    (ends : ((deliverTraced (trace listen depth) state.log.length
      (fun registration => listen registration.listener notification)
      (state.bus.hub.registrations.filter (·.kinds.contains notification.kind)) >>= fun count =>
        mark (.finished state.log.length count) >>= fun _ => Pure.pure count).run
      ⟨state.bus, state.log ++ [.started notification.kind]⟩) = some (count, left))
  cases ends
  obtain ⟨body, log, behind⟩ := deliver_continues asks
    (fun registration => listen registration.listener notification) (by simp) delivered
  refine ⟨_, by simp [log], ⟨body, rfl⟩, fun agrees => ?_⟩
  rw [agrees.registrations] at behind
  exact (behind (agrees.unchanged (.started notification.kind) fun _ => rfl)
    fun registration inside => List.mem_append_left _
      (subscribed_of_registered (List.mem_filter.1 inside).1)).dispatched

theorem settled_trace (r : Request ℓ) : Settled r (trace listen depth r) := by
  induction depth generalizing r with
  | zero =>
    cases r with
    | subscribe kinds listener => exact settled_subscribe listen 0 kinds listener
    | unsubscribe id => exact settled_unsubscribe listen 0 id
    | dispatch notification =>
      intro state a left ends
      cases ends
  | succ depth ih =>
    cases r with
    | subscribe kinds listener => exact settled_subscribe listen _ kinds listener
    | unsubscribe id => exact settled_unsubscribe listen _ id
    | dispatch notification =>
      exact settled_dispatch listen depth (fun r => (ih r).settles) notification

variable {listen depth}

/-! ## What a sound log says -/

theorem Turns.mem_pending {body : List (Mark ℓ)}
    (turns : Turns dispatch past pending body count)
    (inside : .called dispatch registration ∈ body) : registration ∈ pending := by
  induction turns with
  | done => cases inside
  | skipped _ _ ih => exact List.mem_cons_of_mem _ (ih inside)
  | called _ nested _ ih =>
    simp only [List.mem_append, List.mem_singleton, Mark.called.injEq, true_and, reduceCtorEq,
      or_false] at inside
    rcases inside with (rfl | isInner) | isBehind
    · exact List.mem_cons_self
    · exact absurd rfl (nested.apart _ isInner)
    · exact List.mem_cons_of_mem _ (ih isBehind)

namespace Sound

theorem dispatch_lt {mark : Mark ℓ} (sound : Sound past (left ++ right)) (inside : mark ∈ left)
    (same : mark.dispatch? = some dispatch) : dispatch < past.length + left.length := by
  obtain ⟨before, behind, rfl⟩ := List.append_of_mem inside
  rw [List.append_assoc] at sound
  have fits := sound.fits
  have lower : dispatch < (past ++ before).length := by
    cases mark with
    | called other registration =>
      cases same
      exact fits.1
    | returned other registration =>
      cases same
      exact fits
    | finished other count =>
      cases same
      exact fits
    | _ => cases same
  simp only [List.length_append, List.length_cons] at lower ⊢
  omega

theorem ascending (sound : Sound past (left ++ right))
    (sorted : (registered past).Pairwise fun first second => first.id < second.id) :
    (registered (past ++ left)).Pairwise fun first second => first.id < second.id := by
  induction left generalizing past with
  | nil => simpa using sorted
  | cons mark rest ih =>
    rw [List.append_cons]
    -- A name that is given is above all earlier ones, and withdrawing keeps the order.
    refine ih sound.2 ?_
    rw [registered_append, List.foldl_cons, List.foldl_nil]
    have fits := sound.1
    cases mark with
    | subscribed registration =>
      refine List.pairwise_append.2 ⟨sorted, List.pairwise_singleton _ _, ?_⟩
      intro other old _ new
      cases List.mem_singleton.1 new
      exact fits other (subscribed_of_registered old)
    | unsubscribed id removed => exact sorted.filter _
    | _ => exact sorted

theorem lt_of_subscribed (sound : Sound [] (past ++ right)) (old : .subscribed other ∈ past)
    (new : .subscribed registration ∈ right) : other.id < registration.id := by
  obtain ⟨before, behind, rfl⟩ := List.append_of_mem new
  rw [← List.append_assoc] at sound
  exact sound.fits other (by simpa using Or.inl old)

theorem turns {kind : Kind} (sound : Sound [] (past ++ .started kind :: right)) :
    ∃ body count after, right = body ++ .finished past.length count :: after ∧
      Turns past.length (past ++ [.started kind]) (registeredFor past kind) body count ∧
      (∀ mark ∈ past ++ after, mark.dispatch? ≠ some past.length) ∧
      ((registeredFor past kind).map Registration.id).Pairwise (· < ·) := by
  obtain ⟨body, count, after, split, turns, last⟩ := sound.fits
  refine ⟨body, count, after, split, turns, ?_, ?_⟩
  · intro mark inside same
    rcases List.mem_append.1 inside with earlier | later
    · have := sound.dispatch_lt earlier same
      simp at this
    · exact last mark later same
  · exact List.pairwise_map.2 ((sound.ascending List.Pairwise.nil).filter _)

theorem late {kind : Kind} (sound : Sound [] (past ++ .started kind :: right))
    (new : .subscribed registration ∈ right)
    (called : .called past.length other ∈ past ++ .started kind :: right) :
    other.id < registration.id := by
  obtain ⟨body, count, after, rfl, turns, apart, -⟩ := sound.turns
  have inBody : .called past.length other ∈ body := by
    simp only [List.mem_append, List.mem_cons, reduceCtorEq, false_or] at called
    rcases called with earlier | inBody | later
    · exact absurd rfl (apart _ (List.mem_append_left _ earlier))
    · exact inBody
    · exact absurd rfl (apart _ (List.mem_append_right _ later))
  have known := subscribed_of_registered (List.mem_filter.1 (turns.mem_pending inBody)).1
  exact sound.lt_of_subscribed known (List.mem_cons_of_mem _ new)

theorem gone {id : ListenerId} (sound : Sound [] (past ++ .unsubscribed id true :: right))
    (inside : right = left ++ part) :
    ∀ registration ∈ registered (past ++ .unsubscribed id true :: left), registration.id ≠ id := by
  subst inside
  intro registration still same
  -- Someone had the name when it was withdrawn, so whoever subscribes later has another one.
  have told := sound.fits
  obtain ⟨holder, held, named⟩ := List.any_eq_true.1 told.symm
  have known := subscribed_of_registered held
  rw [List.append_cons] at still
  rcases mem_registered_append still with kept | new
  · rw [registered_append, List.foldl_cons, List.foldl_nil, Mark.apply] at kept
    simp [same] at kept
  · have lower := sound.lt_of_subscribed known
      (List.mem_cons_of_mem _ (List.mem_append_left _ new))
    have named : holder.id = id := by simpa using named
    exact absurd (named.trans same.symm) (Nat.ne_of_lt lower)

theorem delivered (sound : Sound [] log) : Delivered log where
  turns := by
    rintro past kind rest rfl
    exact sound.turns
  late := by
    rintro past kind rest rfl registration new other called
    exact Nat.ne_of_lt (sound.late new called)
  withdrawn := by
    rintro past id rest rfl
    refine ⟨fun dispatch registration called => ?_, fun removed told => ?_⟩
    · obtain ⟨left, right, rfl⟩ := List.append_of_mem called
      have whole := sound
      rw [← List.cons_append, ← List.append_assoc] at whole
      exact sound.gone rfl registration whole.fits.2
    · obtain ⟨left, right, rfl⟩ := List.append_of_mem told
      have whole := sound
      rw [← List.cons_append, ← List.append_assoc] at whole
      have answer : removed = _ := whole.fits
      rw [answer, List.any_eq_false]
      intro registration inside
      simpa using sound.gone rfl registration inside

end Sound

/-- However the listeners of a bus use it while they are called, all that happens on it is delivered
as it should be, in every history that comes to its end; and what a request answers is what its
marks say. -/
theorem runScript_delivered {script : Script ℓ σ α} {user : σ} {a : α} {left : Bus ℓ σ}
    (ends : (runScript (perform listen depth) script).run ⟨.empty, user⟩ = some (a, left)) :
    (∃ log, (traceScript (trace listen depth) script).run ⟨⟨.empty, user⟩, []⟩ =
        some (a, ⟨left, log⟩) ∧
      left.hub.registrations = registered log ∧ Delivered log) ∧
    ∀ deep r state answer ended, (trace listen deep r).run state = some (answer, ended) →
      ∃ part, ended.log = state.log ++ part ∧ Answered state.log.length r answer part := by
  refine ⟨?_, ?_⟩
  · have erased := Erases.script (trace_erases listen depth) script ⟨⟨.empty, user⟩, []⟩
    rw [ends, Option.map_eq_some_iff] at erased
    obtain ⟨⟨a', bus, log⟩, ran, same⟩ := erased
    cases same
    have start : Agrees (Hub.empty : Hub ℓ) [] := ⟨rfl, by simp, by simp⟩
    obtain ⟨part, rfl, settled⟩ :=
      Settles.script (fun r => (settled_trace listen depth r).settles) script _ _ _ ran
    exact ⟨_, ran, (settled start).agrees.registrations, (settled start).sound.delivered⟩
  · intro deep r state answer ended ran
    obtain ⟨part, log, answered, -⟩ := settled_trace listen deep r state answer ended ran
    exact ⟨part, log, answered⟩

/-- Listener 0 withdraws the registration behind its own, makes a new one and dispatches; the others
do nothing. -/
def meddling (listener : Nat) (notification : Notification) : Script Nat Unit Unit :=
  if listener = 0 ∧ notification.kind = .push then
    .ask (.unsubscribe 1) fun _ => .ask (.subscribe [.push] 3) fun _ =>
      .ask (.dispatch ⟨.sort, .null⟩) fun _ => .done ()
  else .done ()

def meddled : Script Nat Unit (Nat × Bool) :=
  .ask (.subscribe [.push] 0) fun _ => .ask (.subscribe [.push] 1) fun _ =>
    .ask (.subscribe [.sort, .push] 2) fun _ => .ask (.dispatch ⟨.push, .null⟩) fun count =>
      .ask (.unsubscribe 1) fun removed => .done (count, removed)

theorem runScript_delivered_meddled : ∃ left : Bus Nat Unit,
    (runScript (perform meddling 2) meddled).run ⟨.empty, ()⟩ = some ((2, false), left) ∧
    ∃ log, left.hub.registrations = registered log ∧ Delivered log := by
  have ends : (runScript (perform meddling 2) meddled).run ⟨.empty, ()⟩ =
      some ((2, false), ⟨⟨[⟨0, [.push], 0⟩, ⟨2, [.sort, .push], 2⟩, ⟨3, [.push], 3⟩], 4⟩, ()⟩) := rfl
  obtain ⟨⟨log, -, registrations, delivered⟩, -⟩ := runScript_delivered ends
  exact ⟨_, ends, log, registrations, delivered⟩

end LiveList.Event.Bus
