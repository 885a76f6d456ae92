import SoapBindings.Generator
-- Computations that may fail and report what they do, seen from outside: how they end and what
-- they have reported by then. Loops of such steps end with the first step that fails.

namespace SoapBindings

namespace Generator.Generating

variable {α β σ : Type}

def outcome (x : Generating α) : Except GenerateError α :=
  x.run.value

def events (x : Generating α) : List Event :=
  x.run.events

@[simp] theorem outcome_pure (a : α) : (pure a : Generating α).outcome = .ok a := rfl

@[simp] theorem events_pure (a : α) : (pure a : Generating α).events = [] := rfl

@[simp] theorem outcome_liftM (x : Journaled α) : (liftM x : Generating α).outcome = .ok x.value :=
  rfl

@[simp] theorem events_liftM (x : Journaled α) : (liftM x : Generating α).events = x.events :=
  List.append_nil _

@[simp] theorem outcome_bind (x : Generating α) (f : α → Generating β) :
    (x >>= f).outcome = match x.outcome with
      | .ok a    => (f a).outcome
      | .error e => .error e := by
  simp only [outcome, ExceptT.run_bind, Journaled.value_bind]
  cases x.run.value <;> rfl

-- What comes after a failure reports nothing.
@[simp] theorem events_bind (x : Generating α) (f : α → Generating β) :
    (x >>= f).events = x.events ++ match x.outcome with
      | .ok a    => (f a).events
      | .error _ => [] := by
  simp only [outcome, events, ExceptT.run_bind, Journaled.events_bind]
  cases x.run.value <;> rfl

-- The end of a computation of a value, which a flaw makes fail.
def verdict (flaw : Option GenerateError) (a : α) : Except GenerateError α :=
  match flaw with
  | none   => .ok a
  | some e => .error e

theorem verdict_eq_ok_iff {flaw : Option GenerateError} {a b : α} :
    verdict flaw a = .ok b ↔ flaw = none ∧ a = b := by
  cases flaw <;> simp [verdict]

theorem verdict_eq_error_iff {flaw : Option GenerateError} {a : α} {e : GenerateError} :
    verdict flaw a = .error e ↔ flaw = some e := by
  cases flaw <;> simp [verdict]

-- A step of a loop over items. Whether it fails and what it reports depends on its item alone, and
-- it brings to the state what it makes of the item.
structure Step (step : σ → α → Generating σ) (flaw : α → Option GenerateError) (add : σ → α → σ)
    (report : α → List Event) : Prop where
  outcome : ∀ s a, (step s a).outcome = verdict (flaw a) (add s a)
  events  : ∀ s a, (step s a).events = report a

namespace Step

variable {step : σ → α → Generating σ} {flaw : α → Option GenerateError} {add : σ → α → σ}
variable {report : α → List Event}

theorem outcome_foldlM (h : Step step flaw add report) (s : σ) (l : List α) :
    (l.foldlM step s).outcome = verdict (l.findSome? flaw) (l.foldl add s) := by
  induction l generalizing s
  case nil => rfl
  case cons a l hi =>
    rw [List.foldlM_cons, List.findSome?_cons, List.foldl_cons, outcome_bind, h.outcome]
    cases flaw a
    case none   => exact hi _
    case some e => rfl

theorem events_foldlM_append (h : Step step flaw add report) (s : σ) {before : List α}
    (hb : ∀ b ∈ before, flaw b = none) (rest : List α) :
    ((before ++ rest).foldlM step s).events =
      before.flatMap report ++ (rest.foldlM step (before.foldl add s)).events := by
  induction before generalizing s
  case nil => rfl
  case cons b before hi =>
    rw [List.cons_append, List.foldlM_cons, events_bind, h.events, h.outcome, hb b (by simp),
      List.flatMap_cons, List.append_assoc]
    exact congrArg _ (hi _ fun c hc => hb c (by simp [hc]))

-- All items are gone through when none of them has a flaw.
theorem events_foldlM_flawless (h : Step step flaw add report) (s : σ) {l : List α}
    (hl : ∀ a ∈ l, flaw a = none) : (l.foldlM step s).events = l.flatMap report := by
  have hr := h.events_foldlM_append s hl []
  simpa using hr

-- The first item with a flaw is the last one that is gone through.
theorem events_foldlM_flawed (h : Step step flaw add report) (s : σ) {before : List α}
    (hb : ∀ b ∈ before, flaw b = none) {a : α} {e : GenerateError} (ha : flaw a = some e)
    (after : List α) :
    ((before ++ a :: after).foldlM step s).events = before.flatMap report ++ report a := by
  rw [h.events_foldlM_append s hb, List.foldlM_cons, events_bind, h.events, h.outcome, ha]
  simp [verdict]

end Step
end Generator.Generating
end SoapBindings
