import MagxNet.Lib.Bytes

set_option autoImplicit false

-- What running a piece of C can come to: it returns, it accesses memory it must not, or the fuel
-- given to its loops runs out.
inductive Outcome (α : Type) where
  | ret (value : α)
  | fault
  | running
deriving DecidableEq, Repr

namespace Outcome

variable {α β : Type}

def bind (x : Outcome α) (f : α → Outcome β) : Outcome β :=
  match x with
  | .ret value => f value
  | .fault => .fault
  | .running => .running

@[simp] theorem ret_bind (value : α) (f : α → Outcome β) : (ret value).bind f = f value := rfl

@[simp] theorem fault_bind (f : α → Outcome β) : (fault : Outcome α).bind f = .fault := rfl

@[simp] theorem running_bind (f : α → Outcome β) : (running : Outcome α).bind f = .running := rfl

theorem bind_eq_ret (x : Outcome α) (f : α → Outcome β) (result : β) :
    x.bind f = .ret result ↔ ∃ value, x = .ret value ∧ f value = .ret result := by
  cases x <;> simp

end Outcome
