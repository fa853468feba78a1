namespace Scaffold

mutual

/-- `absent` is the expression written as nothing. Several terms in a row are sequenced to the
left: `seq (seq a b) c`. -/
inductive Expr
  | absent
  | var (name : String)
  | lit (text : String)
  | seq (first second : Expr)
  | equals (left right : Expr)
  | cond (test success failure : Expr)
  | orElse (first fallback : Expr)
  | call (function : String) (file : Expr) (define : Defines) (undefine : List String)

inductive Defines
  | nil
  | cons (name : String) (value : Expr) (rest : Defines)

end

deriving instance DecidableEq for Expr, Defines

namespace Defines

def set : Defines → String → Expr → Defines
  | .nil, name, value => .cons name value .nil
  | .cons n v rest, name, value =>
    if n = name then .cons n value rest else .cons n v (rest.set name value)

def toList : Defines → List (String × Expr)
  | .nil => []
  | .cons n v rest => (n, v) :: rest.toList

def isEmpty : Defines → Bool
  | .nil => true
  | .cons .. => false

end Defines

namespace Expr

def append : Expr → Expr → Expr
  | e, .absent => e
  | .absent, t => t
  | e, t => .seq e t

@[simp] theorem append_absent (e : Expr) : e.append .absent = e := by
  cases e <;> rfl

@[simp] theorem absent_append (e : Expr) : Expr.append .absent e = e := by
  cases e <;> rfl

end Expr

end Scaffold
