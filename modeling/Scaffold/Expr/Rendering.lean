import Scaffold.Failure

/-!
Results that come with the text written on the way to them, also if they end in a failure.
-/

namespace Scaffold.Expr

structure Rendering (α : Type) where
  text : List Char
  result : Except Failure α

namespace Rendering

variable {α β γ : Type}

protected def pure (a : α) : Rendering α := ⟨[], .ok a⟩

protected def bind (r : Rendering α) (f : α → Rendering β) : Rendering β :=
  match r.result with
  | .error e => ⟨r.text, .error e⟩
  | .ok a =>
    let s := f a
    ⟨r.text ++ s.text, s.result⟩

instance : Monad Rendering where
  pure := Rendering.pure
  bind := Rendering.bind

def write (cs : List Char) : Rendering Unit := ⟨cs, .ok ()⟩

def fail (e : Failure) : Rendering α := ⟨[], .error e⟩

def capture (r : Rendering α) : Rendering (List Char × α) :=
  match r.result with
  | .error e => ⟨[], .error e⟩
  | .ok a => ⟨[], .ok (r.text, a)⟩

def mapFailure (f : Failure → Failure) (r : Rendering α) : Rendering α :=
  ⟨r.text, r.result.mapError f⟩

theorem pure_bind (a : α) (f : α → Rendering β) : Rendering.bind (Rendering.pure a) f = f a := by
  simp [Rendering.bind, Rendering.pure]

theorem bind_pure (r : Rendering α) : Rendering.bind r Rendering.pure = r := by
  obtain ⟨t, e | a⟩ := r <;> simp [Rendering.bind, Rendering.pure]

theorem bind_assoc (r : Rendering α) (f : α → Rendering β) (g : β → Rendering γ) :
    Rendering.bind (Rendering.bind r f) g =
      Rendering.bind r fun a => Rendering.bind (f a) g := by
  obtain ⟨t, e | a⟩ := r
  · simp [Rendering.bind]
  · cases h : (f a).result <;> simp [Rendering.bind, h]

end Rendering

end Scaffold.Expr
