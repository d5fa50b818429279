import LiveList.Event.Hub
import LiveList.Event.Script

namespace LiveList.Event

structure Bus (ℓ σ : Type) where
  hub : Hub ℓ
  user : σ

namespace Bus

variable {ℓ σ : Type}

inductive Request (ℓ : Type) where
  | subscribe (kinds : List Kind) (listener : ℓ)
  | unsubscribe (id : ListenerId)
  | dispatch (notification : Notification)

@[reducible]
def Answer : Request ℓ → Type
  | .subscribe .. => ListenerId
  | .unsubscribe _ => Bool
  | .dispatch _ => Nat

abbrev Script (ℓ σ : Type) := Event.Script (Bus ℓ σ) σ (Request ℓ) Answer

abbrev Run (ℓ σ : Type) := StateT (Bus ℓ σ) Option

def runScript {α : Type} (ask : (r : Request ℓ) → Run ℓ σ (Answer r)) (script : Script ℓ σ α) :
    Run ℓ σ α :=
  script.run get (fun change => modify fun bus => { bus with user := change bus.user }) ask

/-- Answers a request, with listeners calling each other at most `depth` deep. There is no answer
if they go deeper. -/
def perform (listen : ℓ → Notification → Script ℓ σ Unit) :
    (depth : Nat) → (r : Request ℓ) → Run ℓ σ (Answer r)
  | _, .subscribe kinds listener =>
    modifyGet fun bus =>
      let (hub, id) := bus.hub.subscribe kinds listener
      (id, { bus with hub })
  | _, .unsubscribe id =>
    modifyGet fun bus =>
      let (hub, removed) := bus.hub.unsubscribe id
      (removed, { bus with hub })
  | 0, .dispatch _ => failure
  | depth + 1, .dispatch notification => do
    let bus ← get
    deliver (fun id => return (← get).hub.isRegistered id)
      (fun listener => runScript (perform listen depth) (listen listener notification))
      (bus.hub.listenersFor notification.kind)

end Bus

end LiveList.Event
