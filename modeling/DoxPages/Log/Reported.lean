import DoxPages.Log.Event

/-!
# Values with a log

A computation that reports events on its way to a value. It may be one that the program
breaks off: it then holds the log up to that point, and its value and its whole log are
those it would have if it went on.
-/

namespace DoxPages

structure Reported (α : Type) where
  value : α
  log : Log := []
  /-- The log when the program breaks off, if it does. -/
  stopped : Option Log := none

namespace Reported

instance : Monad Reported where
  pure a := { value := a }
  bind x f :=
    { value := (f x.value).value
      log := x.log ++ (f x.value).log
      stopped := x.stopped.or ((f x.value).stopped.map (x.log ++ ·)) }

variable {α β : Type}

@[simp] theorem value_pure (a : α) : (pure a : Reported α).value = a := rfl

@[simp] theorem value_bind (x : Reported α) (f : α → Reported β) :
    (x >>= f).value = (f x.value).value := rfl

@[simp] theorem log_pure (a : α) : (pure a : Reported α).log = [] := rfl

@[simp] theorem log_bind (x : Reported α) (f : α → Reported β) :
    (x >>= f).log = x.log ++ (f x.value).log := rfl

@[simp] theorem stopped_pure (a : α) : (pure a : Reported α).stopped = none := rfl

@[simp] theorem stopped_bind (x : Reported α) (f : α → Reported β) :
    (x >>= f).stopped = x.stopped.or ((f x.value).stopped.map (x.log ++ ·)) := rfl

/-- A computation goes to its end if each of its two parts does. -/
theorem stopped_bind_eq_none_iff (x : Reported α) (f : α → Reported β) :
    (x >>= f).stopped = none ↔ x.stopped = none ∧ (f x.value).stopped = none := by
  rw [stopped_bind, Option.or_eq_none_iff, Option.map_eq_none_iff]

def report (e : Event) : Reported Unit := { value := (), log := [e] }

def each (f : α → Reported β) : List α → Reported (List β)
  | [] => pure []
  | a :: as => do return (← f a) :: (← each f as)

theorem stopped_each_eq_none_iff (f : α → Reported β) (as : List α) :
    (each f as).stopped = none ↔ ∀ a ∈ as, (f a).stopped = none := by
  induction as with
  | nil => simp [each]
  | cons a as ih =>
    rw [each, stopped_bind_eq_none_iff, stopped_bind_eq_none_iff, ih, List.forall_mem_cons]
    simp

@[simp] theorem value_each (f : α → Reported β) (as : List α) :
    (each f as).value = as.map fun a => (f a).value := by
  induction as with
  | nil => rfl
  | cons a as ih => simp [each, ih]

end Reported

end DoxPages
