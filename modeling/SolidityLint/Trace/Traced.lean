import SolidityLint.Trace.Event

/-!
# Values with their events

A traced value comes with the events reported on the way to it, in the order in
which they were made. A checked one may be a fault instead; the events made
before the fault stay. The searches over lists below stop as soon as the answer
is known, so that what is not looked at reports nothing.
-/

namespace SolidityLint

/-- A value with the events on the way to it. -/
@[ext]
structure Traced (α : Type) where
  value : α
  events : List Event

/-- A traced value, or a fault. -/
abbrev Checked := ExceptT Fault Traced

namespace Traced

variable {α β : Type}

instance : Monad Traced where
  pure a := ⟨a, []⟩
  bind x f := ⟨(f x.value).value, x.events ++ (f x.value).events⟩

@[simp]
theorem value_pure (a : α) : (Pure.pure a : Traced α).value = a := rfl

@[simp]
theorem events_pure (a : α) : (Pure.pure a : Traced α).events = [] := rfl

@[simp]
theorem value_bind (x : Traced α) (f : α → Traced β) : (x >>= f).value = (f x.value).value := rfl

@[simp]
theorem events_bind (x : Traced α) (f : α → Traced β) :
    (x >>= f).events = x.events ++ (f x.value).events := rfl

instance : LawfulMonad Traced := LawfulMonad.mk' Traced
  (fun _ => Traced.ext rfl (List.append_nil _))
  (fun _ _ => Traced.ext rfl (List.nil_append _))
  (fun _ _ _ => Traced.ext rfl (List.append_assoc _ _ _))

/-- Reports an event. -/
def emit (event : Event) : Traced Unit := ⟨(), [event]⟩

/-- Whether one of the members passes the test; those after the first that does
are not tested. -/
def any (p : α → Traced Bool) : List α → Traced Bool
  | [] => return false
  | a :: rest => do
    if ← p a then return true else any p rest

/-- The first member that passes the test; those after it are not tested. -/
def find? (p : α → Traced Bool) : List α → Traced (Option α)
  | [] => return none
  | a :: rest => do
    if ← p a then return some a else find? p rest

/-- How many members pass the test. -/
def count (p : α → Traced Bool) : List α → Traced Nat
  | [] => return 0
  | a :: rest => do
    let passes ← p a
    let others ← count p rest
    return if passes then others + 1 else others

/-- The first value that passes the test, of those the members lead to; members
after it are not looked at. -/
def firstOf? (f : α → Traced β) (p : β → Bool) : List α → Traced (Option β)
  | [] => return none
  | a :: rest => do
    let b ← f a
    if p b then return some b else firstOf? f p rest

/-! The values of the searches are those of the plain searches in lists. -/

@[simp]
theorem value_any (p : α → Traced Bool) (list : List α) :
    (any p list).value = list.any fun a => (p a).value := by
  induction list with
  | nil => rfl
  | cons a rest ih =>
    simp only [any, value_bind, List.any_cons]
    cases (p a).value <;> simp [ih]

@[simp]
theorem value_find? (p : α → Traced Bool) (list : List α) :
    (find? p list).value = list.find? fun a => (p a).value := by
  induction list with
  | nil => rfl
  | cons a rest ih =>
    simp only [find?, value_bind, List.find?_cons]
    cases (p a).value <;> simp [ih]

@[simp]
theorem value_count (p : α → Traced Bool) (list : List α) :
    (count p list).value = list.countP fun a => (p a).value := by
  induction list with
  | nil => rfl
  | cons a rest ih =>
    simp only [count, value_bind, value_pure, List.countP_cons, ih]
    cases (p a).value <;> rfl

@[simp]
theorem value_firstOf? (f : α → Traced β) (p : β → Bool) (list : List α) :
    (firstOf? f p list).value = (list.map fun a => (f a).value).find? p := by
  induction list with
  | nil => rfl
  | cons a rest ih =>
    simp only [firstOf?, value_bind, List.map_cons, List.find?_cons]
    cases p (f a).value <;> simp [ih]

end Traced

namespace Checked

variable {α : Type}

/-- Stops with a fault unless the condition holds. -/
def require (holds : Bool) (fault : Fault) : Checked Unit :=
  if holds then return () else throw fault

/-- The value of an option; an absent one is a fault. -/
def get (value : Option α) (fault : Fault) : Checked α :=
  match value with
  | some a => return a
  | none => throw fault

/-- An outcome that came about without events. -/
def ofExcept (outcome : Except Fault α) : Checked α := ExceptT.mk (return outcome)

/-- The outcome without the events. -/
def outcome (x : Checked α) : Except Fault α := x.run.value

/-- The events alone. -/
def events (x : Checked α) : List Event := x.run.events

/-! Outcomes follow the steps of a computation as if there were no events. -/

variable {β : Type}

@[simp]
theorem outcome_pure (a : α) : outcome (Pure.pure a) = .ok a := rfl

@[simp]
theorem outcome_monadLift (x : Traced α) : outcome (monadLift x) = .ok x.value := rfl

@[simp]
theorem outcome_ofExcept (x : Except Fault α) : (ofExcept x).outcome = x := rfl

@[simp]
theorem outcome_bind (x : Checked α) (f : α → Checked β) :
    (x >>= f).outcome = x.outcome.bind fun a => (f a).outcome := by
  show (x.run >>= ExceptT.bindCont f).value = x.run.value.bind fun a => (f a).outcome
  rw [Traced.value_bind]
  cases x.run.value <;> rfl

@[simp]
theorem outcome_require (holds : Bool) (fault : Fault) :
    (require holds fault).outcome = if holds then .ok () else .error fault := by
  cases holds <;> rfl

@[simp]
theorem outcome_get (value : Option α) (fault : Fault) :
    (get value fault).outcome = (value.map Except.ok).getD (.error fault) := by
  cases value <;> rfl

end Checked

end SolidityLint
