import LiveList.Event.Kind

namespace LiveList.Event

abbrev ListenerId := Nat

structure Registration (ℓ : Type) where
  id : ListenerId
  kinds : List Kind
  listener : ℓ
deriving Repr

structure Hub (ℓ : Type) where
  registrations : List (Registration ℓ)
  nextId : ListenerId
deriving Repr

namespace Hub

variable {ℓ : Type}

def empty : Hub ℓ := ⟨[], 0⟩

instance : Inhabited (Hub ℓ) := ⟨empty⟩

def subscribe (hub : Hub ℓ) (kinds : List Kind) (listener : ℓ) : Hub ℓ × ListenerId :=
  -- A kind that is given twice counts once.
  (⟨hub.registrations ++ [⟨hub.nextId, kinds.eraseDups, listener⟩], hub.nextId + 1⟩, hub.nextId)

def isRegistered (hub : Hub ℓ) (id : ListenerId) : Bool := hub.registrations.any (·.id == id)

def unsubscribe (hub : Hub ℓ) (id : ListenerId) : Hub ℓ × Bool :=
  ({ hub with registrations := hub.registrations.filter (·.id != id) }, hub.isRegistered id)

def listenersFor (hub : Hub ℓ) (kind : Kind) : List (ListenerId × ℓ) :=
  (hub.registrations.filter (·.kinds.contains kind)).map fun r => (r.id, r.listener)

def listenerCount (hub : Hub ℓ) (kind : Kind) : Nat := (hub.listenersFor kind).length

def hasListeners (hub : Hub ℓ) : Bool := !hub.registrations.isEmpty

def inspect (hub : Hub ℓ) : String :=
  "EventHub \x7b listeners: " ++ toString hub.registrations.length ++ ", next_id: " ++
    toString hub.nextId ++ " \x7d"

end Hub

/-- Calls the listeners of a snapshot one after the other, except for those that are no longer
registered when their turn comes, and counts the calls. -/
def deliver {m : Type → Type} [Monad m] {ℓ : Type} (isRegistered : ListenerId → m Bool)
    (call : ℓ → m Unit) : List (ListenerId × ℓ) → m Nat
  | [] => pure 0
  | (id, listener) :: rest => do
    if ← isRegistered id then
      call listener
      return (← deliver isRegistered call rest) + 1
    else deliver isRegistered call rest

end LiveList.Event
