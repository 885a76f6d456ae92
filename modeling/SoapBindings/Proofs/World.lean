import SoapBindings.World
-- Computations followed in a world, from the world before them to the world after them.

namespace SoapBindings.World

variable {φ ε ε' α β : Type}

-- How a computation ends, with the world that it leaves.
def perform (w : World φ) (x : ExceptT ε (StateM (World φ)) α) : Except ε α × World φ :=
  Id.run (x.run.run w)

@[simp] theorem perform_mk_pure (w : World φ) (r : Except ε α) :
    w.perform (.mk (pure r : StateM (World φ) _)) = (r, w) := rfl

@[simp] theorem perform_bind (w : World φ) (x : ExceptT ε (StateM (World φ)) α)
    (f : α → ExceptT ε (StateM (World φ)) β) :
    w.perform (x >>= f) = match w.perform x with
      | (.ok a, w')    => w'.perform (f a)
      | (.error e, w') => (.error e, w') := by
  simp only [perform, ExceptT.run_bind, StateT.run_bind]
  cases x.run.run w with
  | mk r w' => cases r <;> rfl

theorem perform_bind_ok {w w' : World φ} {x : ExceptT ε (StateM (World φ)) α} {a : α}
    (h : w.perform x = (.ok a, w')) (f : α → ExceptT ε (StateM (World φ)) β) :
    w.perform (x >>= f) = w'.perform (f a) := by
  rw [perform_bind, h]

theorem perform_bind_error {w w' : World φ} {x : ExceptT ε (StateM (World φ)) α} {e : ε}
    (h : w.perform x = (.error e, w')) (f : α → ExceptT ε (StateM (World φ)) β) :
    w.perform (x >>= f) = (.error e, w') := by
  rw [perform_bind, h]

@[simp] theorem perform_adapt (w : World φ) (x : ExceptT ε (StateM (World φ)) α) (f : ε → ε') :
    w.perform (x.adapt f) = ((w.perform x).1.mapError f, (w.perform x).2) := rfl

theorem perform_liftM (w : World φ) (x : StateM (World φ) α) :
    w.perform (liftM x : ExceptT ε (StateM (World φ)) α) =
      (.ok (Id.run (x.run w)).1, (Id.run (x.run w)).2) := rfl

@[simp] theorem perform_log (w : World φ) (r : LogRecord) :
    w.perform (liftM (MonadJournal.log r : StateM (World φ) Unit) : ExceptT ε _ Unit) =
      (.ok (), { w with log := w.log ++ [r] }) := rfl

@[simp] theorem perform_readText [FileSystem φ] (w : World φ) (path : String) :
    w.perform (.mk (readText path : StateM (World φ) _)) =
      (FileSystem.read w.store path, w) := rfl

@[simp] theorem perform_liftM_readText [FileSystem φ] (w : World φ) (path : String) :
    w.perform (liftM (readText path : StateM (World φ) _) : ExceptT ε _ _) =
      (.ok (FileSystem.read w.store path), w) := rfl

@[simp] theorem perform_writeText [FileSystem φ] (w : World φ) (path text : String) :
    w.perform (.mk (writeText path text : StateM (World φ) _)) =
      match FileSystem.write w.store path text with
        | .ok store => (.ok (), { w with store })
        | .error e  => (.error e, w) := by
  cases h : FileSystem.write w.store path text <;>
    simp [perform, writeText, MonadDisk.writeText, h]

-- A report lengthens the log and touches no files.
theorem run_forM_logEvent (w : World φ) (es : List Event) :
    ∃ log, Id.run ((es.forM logEvent : StateM (World φ) Unit).run w) = ((), { w with log }) := by
  induction es generalizing w
  case nil => exact ⟨w.log, rfl⟩
  case cons e es hi =>
    cases e
    case inquiry q => exact hi w
    case notice n =>
      have ⟨log, h⟩ := hi {
        w with
        log := w.log ++ [{
          severity := n.severity, target := Log.generatorTarget, text := n.text }] }
      exact ⟨log, h⟩

theorem run_logged (w : World φ) (x : Journaled α) :
    ∃ log, Id.run ((logged x : StateM (World φ) α).run w) = (x.value, { w with log }) := by
  have ⟨log, h⟩ := w.run_forM_logEvent x.events
  refine ⟨log, ?_⟩
  simp only [logged, StateT.run_bind]
  rw [show (x.events.forM logEvent : StateM (World φ) Unit).run w = ((), { w with log }) from h]
  rfl

theorem perform_liftM_logged (ε : Type) (w : World φ) (x : Journaled α) :
    ∃ log, w.perform (liftM (logged x : StateM (World φ) α) : ExceptT ε _ α) =
      (.ok x.value, { w with log }) := by
  have ⟨log, h⟩ := w.run_logged x
  exact ⟨log, by rw [perform_liftM, h]⟩

theorem perform_logged (w : World φ) (x : Journaled (Except ε α)) :
    ∃ log, w.perform (.mk (logged x : StateM (World φ) _)) = (x.value, { w with log }) :=
  w.run_logged x

end SoapBindings.World
