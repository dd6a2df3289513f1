import MusicComparer.Js.Value

/-!
# Promise chains

Library `Js`. An asynchronous call is known by how it settles: a fulfilled value or a rejection,
`Except ε α`. A handler runs on a record of effects that is kept when it throws, which is
`EStateM`. The combinators are those of the Q library: `then` and `spread` route a rejection or
a thrown exception to the next rejection handler, and a promise that nobody waits for settles
without telling anyone.
-/

namespace MusicComparer.Js

variable {ε σ α β : Type}

namespace Chain

/-- Wait for a settled call: its value is returned, its rejection is thrown. -/
def settled (p : Except ε α) : EStateM ε σ α := fun s ↦
  match p with
  | .ok a => .ok a s
  | .error e => .error e s

/-- `p.then(f, r)`. An exception thrown by `f` or `r` rejects the resulting promise. -/
def andThen (p : EStateM ε σ α) (f : α → EStateM ε σ β) (r : ε → EStateM ε σ β) :
    EStateM ε σ β := fun s ↦
  match p s with
  | .ok a s' => f a s'
  | .error e s' => r e s'

/-- A promise left alone: what it does is done, how it settles is not seen. -/
def detach (p : EStateM ε σ α) : EStateM ε σ Unit := fun s ↦
  match p s with
  | .ok _ s' => .ok () s'
  | .error _ s' => .ok () s'

/-- The effects after a computation, whether it returned or threw. -/
def effects (p : EStateM ε σ α) (s : σ) : σ :=
  match p s with
  | .ok _ s' => s'
  | .error _ s' => s'

/-- A fulfilled promise goes to the fulfilment handler. -/
@[simp] theorem andThen_pure (a : α) (f : α → EStateM ε σ β) (r : ε → EStateM ε σ β) :
    andThen (pure a) f r = f a := rfl

/-- Waiting for a fulfilled call returns its value. -/
@[simp] theorem settled_ok (a : α) : (settled (.ok a) : EStateM ε σ α) = pure a := rfl

/-- A promise that is left alone has its effects. -/
@[simp] theorem effects_detach (p : EStateM ε σ α) (s : σ) :
    effects (detach p) s = effects p s := by
  unfold effects detach
  cases p s with
  | ok a t => rfl
  | error e t => rfl

/-- What follows a change of the state starts from the changed one. -/
@[simp] theorem effects_modify_bind (f : σ → σ) (g : PUnit → EStateM ε σ β) (s : σ) :
    effects (modify f >>= g) s = effects (g ⟨⟩) (f s) := rfl

@[simp] theorem effects_get_bind (g : σ → EStateM ε σ β) (s : σ) :
    effects (get >>= g) s = effects (g s) s := rfl

/-- After a computation that returned, the next one goes on with its effects. -/
theorem effects_bind_ok {p : EStateM ε σ α} {f : α → EStateM ε σ β} {a : α} {s t : σ}
    (h : p s = .ok a t) : effects (p >>= f) s = effects (f a) t := by
  change effects (EStateM.bind p f) s = _
  rw [effects, EStateM.bind, h]
  rfl

/-- After one that threw, nothing more is done. -/
theorem effects_bind_error {p : EStateM ε σ α} {f : α → EStateM ε σ β} {e : ε} {s t : σ}
    (h : p s = .error e t) : effects (p >>= f) s = t := by
  change effects (EStateM.bind p f) s = _
  rw [effects, EStateM.bind, h]

end Chain
end MusicComparer.Js
