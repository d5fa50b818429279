/-!
# Scripts

What a callback does, as data: it may look at the world, write to a state of its own that is kept
in the world, make requests and go on with their answers, and give a result. What looking, noting
and asking mean is left to the one who runs the script, so statements about all callbacks are
statements about all scripts.
-/

namespace LiveList.Event

inductive Script (World State Request : Type) (Answer : Request → Type) (α : Type) : Type where
  | done (result : α)
  | look (next : World → Script World State Request Answer α)
  | note (change : State → State) (next : Script World State Request Answer α)
  | ask (request : Request) (next : Answer request → Script World State Request Answer α)

namespace Script

variable {World State Request : Type} {Answer : Request → Type} {α β : Type}

def andThen : Script World State Request Answer α → (α → Script World State Request Answer β) →
    Script World State Request Answer β
  | .done result, next => next result
  | .look more, next => .look fun world => (more world).andThen next
  | .note change more, next => .note change (more.andThen next)
  | .ask request more, next => .ask request fun answer => (more answer).andThen next

instance : Monad (Script World State Request Answer) where
  pure := .done
  bind := andThen

def world : Script World State Request Answer World := .look .done

def request (r : Request) : Script World State Request Answer (Answer r) := .ask r .done

def change (f : State → State) : Script World State Request Answer Unit := .note f (.done ())

def run {m : Type → Type} [Monad m] (look : m World) (note : (State → State) → m Unit)
    (ask : (r : Request) → m (Answer r)) : Script World State Request Answer α → m α
  | .done result => pure result
  | .look next => do (next (← look)).run look note ask
  | .note change next => do
    note change
    next.run look note ask
  | .ask request next => do (next (← ask request)).run look note ask

end Script

end LiveList.Event
