import Scaffold.Failure

/-!
Actions that change a state until they succeed or fail. A failure undoes nothing.
-/

namespace Scaffold

abbrev Attempt (σ : Type) := ExceptT Failure (StateM σ)

namespace Attempt

variable {σ α β : Type}

def fail (e : Failure) : Attempt σ α :=
  fun s => (.error e, s)

def settle (r : Except Failure α) : Attempt σ α :=
  fun s => (r, s)

def look (question : σ → Except Failure α) : Attempt σ α :=
  fun s => (question s, s)

def mapFailure (f : Failure → Failure) (a : Attempt σ α) : Attempt σ α :=
  fun s => match a s with
    | (.ok x, t) => (.ok x, t)
    | (.error e, t) => (.error (f e), t)

theorem pure_apply (a : α) (s : σ) : (pure a : Attempt σ α) s = (.ok a, s) := rfl

theorem bind_apply (a : Attempt σ α) (f : α → Attempt σ β) (s : σ) :
    (a >>= f) s = match a s with
      | (.ok x, t) => f x t
      | (.error e, t) => (.error e, t) := by
  change (match a s with | (r, t) => ExceptT.bindCont f r t) = _
  rcases a s with ⟨e | x, t⟩ <;> rfl

theorem settle_ok (a : α) : (settle (.ok a) : Attempt σ α) = pure a := rfl

theorem settle_error (e : Failure) : (settle (.error e) : Attempt σ α) = fail e := rfl

end Attempt

end Scaffold
