import Mathlib.Data.List.Forall2
-- Computations that may fail, and when they succeed.

namespace SoapBindings

variable {ε α β : Type}

@[simp]
theorem Except.pure_eq_ok_iff {a b : α} : (pure a : Except ε α) = .ok b ↔ a = b :=
  ⟨Except.ok.inj, congrArg _⟩

@[simp]
theorem Except.throw_ne_ok (e : ε) (a : α) : (throw e : Except ε α) ≠ .ok a :=
  nofun

theorem Except.ok_bind (a : α) (f : α → Except ε β) : (Except.ok a >>= f) = f a :=
  rfl

theorem Except.bind_eq_ok_iff {x : Except ε α} {f : α → Except ε β} {b : β} :
    (x >>= f) = .ok b ↔ ∃ a, x = .ok a ∧ f a = .ok b := by
  cases x
  case error e => exact ⟨fun h => (nomatch h), fun ⟨_, h, _⟩ => nomatch h⟩
  case ok a    => exact ⟨fun h => ⟨a, rfl, h⟩, fun ⟨_, h, hf⟩ => Except.ok.inj h ▸ hf⟩

theorem Except.map_eq_ok_iff {x : Except ε α} {f : α → β} {b : β} :
    (f <$> x) = .ok b ↔ ∃ a, x = .ok a ∧ f a = b := by
  cases x
  case error e => exact ⟨fun h => (nomatch h), fun ⟨_, h, _⟩ => nomatch h⟩
  case ok a    =>
    exact ⟨fun h => ⟨a, rfl, Except.ok.inj h⟩, fun ⟨_, h, hf⟩ => Except.ok.inj h ▸ congrArg _ hf⟩

theorem Except.mapM_eq_ok_iff {f : α → Except ε β} {l : List α} {m : List β} :
    l.mapM f = .ok m ↔ List.Forall₂ (fun a b => f a = .ok b) l m := by
  induction l generalizing m
  case nil =>
    simp [List.mapM_nil, pure, Except.pure, eq_comm]
  case cons a l hi =>
    simp only [List.mapM_cons, bind_eq_ok_iff, hi, List.forall₂_cons_left_iff]
    constructor
    case mp =>
      intro ⟨b, hb, m', hm, he⟩
      exact ⟨b, m', hb, hm, (Except.ok.inj he).symm⟩
    case mpr =>
      intro ⟨b, m', hb, hm, he⟩
      exact ⟨b, hb, m', hm, he ▸ rfl⟩

theorem Except.exists_mapM_eq_ok_iff {f : α → Except ε β} {l : List α} :
    (∃ m, l.mapM f = .ok m) ↔ ∀ a ∈ l, ∃ b, f a = .ok b := by
  simp only [mapM_eq_ok_iff]
  induction l
  case nil         => simp
  case cons a l hi =>
    simp only [List.forall₂_cons_left_iff, List.forall_mem_cons, ← hi]
    constructor
    case mp  => exact fun ⟨_, b, m, hb, hm, _⟩ => ⟨⟨b, hb⟩, m, hm⟩
    case mpr => exact fun ⟨⟨b, hb⟩, m, hm⟩ => ⟨_, b, m, hb, hm, rfl⟩

theorem Except.pair_eq_ok_iff {x : Except ε β} {a a' : α} {b : β} :
    (x >>= fun b => pure (a, b)) = .ok (a', b) ↔ a' = a ∧ x = .ok b := by
  rw [bind_eq_ok_iff]
  constructor
  case mp =>
    intro ⟨b', hx, he⟩
    have he := Prod.mk.inj (Except.ok.inj he)
    exact ⟨he.left.symm, he.right ▸ hx⟩
  case mpr => exact fun ⟨ha, hx⟩ => ⟨b, hx, ha ▸ rfl⟩

end SoapBindings
