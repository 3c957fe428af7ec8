import TextScan.Fault

namespace TextScan

inductive Event where
  | recorded (fault : Fault)
  | suppressed (fault first : Fault)
  | accepted (consumed total : Nat)
  | rejected (fault : Fault) (total : Nat)
deriving DecidableEq, Repr

def Event.render : Event → String
  | recorded f => s!"TRACE recording failure '{f.expected}' with {f.remaining} bytes remaining"
  | suppressed f first =>
    s!"TRACE suppressing failure '{f.expected}', already failed with '{first.expected}'"
  | accepted consumed total => s!"TRACE parsed {consumed} of {total} bytes"
  | rejected f total =>
    s!"DEBUG parse failed with {f.remaining} of {total} bytes remaining: {f.expected}"

structure Traced (α : Type) where
  value : α
  events : List Event
deriving DecidableEq, Repr

namespace Traced

variable {α β : Type}

@[ext] theorem ext {x y : Traced α} (hv : x.value = y.value) (he : x.events = y.events) :
    x = y := by
  cases x
  cases y
  simp_all

def log (e : Event) : Traced Unit :=
  ⟨(), [e]⟩

instance : Monad Traced where
  pure a := ⟨a, []⟩
  bind x f := ⟨(f x.value).value, x.events ++ (f x.value).events⟩

@[simp] theorem value_pure (a : α) : (pure a : Traced α).value = a := rfl

@[simp] theorem events_pure (a : α) : (pure a : Traced α).events = [] := rfl

@[simp] theorem value_bind (x : Traced α) (f : α → Traced β) :
    (x >>= f).value = (f x.value).value := rfl

@[simp] theorem events_bind (x : Traced α) (f : α → Traced β) :
    (x >>= f).events = x.events ++ (f x.value).events := rfl

instance : LawfulMonad Traced :=
  LawfulMonad.mk' Traced
    (fun x => ext rfl (by simp [Functor.map]))
    (fun _ _ => ext rfl (by simp))
    (fun _ _ _ => ext rfl (by simp))

end Traced

abbrev Run := ExceptT Fault Traced

namespace Run

variable {α : Type}

def ofExcept (x : Except Fault α) : Run α :=
  ExceptT.mk (pure x)

def log (e : Event) : Run Unit :=
  ExceptT.lift (Traced.log e)

end Run

end TextScan
