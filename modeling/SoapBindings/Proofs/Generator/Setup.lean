import SoapBindings.Proofs.Generator.Script
-- What settings do to a generator, seen through what it looks up. Each setting has its own field,
-- and a later setting takes the place of an earlier one for the same thing.

namespace SoapBindings

namespace BaseNamespaces

-- The key as it is written.
def Key.name : Key → String
  | headers  => "headers"
  | parts    => "parts"
  | messages => "messages"

-- A key that stands for no kind of class.
def Unknown (key : String) : Prop :=
  key ≠ "headers" ∧ key ≠ "parts" ∧ key ≠ "messages"

instance (key : String) : Decidable (Unknown key) :=
  inferInstanceAs (Decidable (_ ∧ _))

theorem Key.ofString?_eq_some_iff {s : String} {key : Key} :
    Key.ofString? s = some key ↔ s = key.name := by
  constructor
  case mp =>
    intro h
    unfold Key.ofString? at h
    split at h <;> cases h <;> rfl
  case mpr =>
    intro h
    subst h
    cases key <;> rfl

theorem Key.ofString?_eq_none_iff {s : String} : Key.ofString? s = none ↔ Unknown s := by
  simp only [Option.eq_none_iff_forall_ne_some, ne_eq, Key.ofString?_eq_some_iff]
  constructor
  case mp  => exact fun h => ⟨h .headers, h .parts, h .messages⟩
  case mpr => exact fun ⟨hh, hp, hm⟩ key => match key with
    | .headers  => hh
    | .parts    => hp
    | .messages => hm

theorem get_set (base : BaseNamespaces) (key key' : Key) (nspace : String) :
    (base.set key nspace).get key' = if key' = key then nspace else base.get key' := by
  cases key <;> cases key' <;> rfl

theorem ext_get {b₁ b₂ : BaseNamespaces} (h : ∀ key, b₁.get key = b₂.get key) : b₁ = b₂ := by
  cases b₁
  cases b₂
  have hh := h .headers
  have hp := h .parts
  have hm := h .messages
  simp_all [get]

-- The pairs are set one after the other, without those that have an unknown key.
def override (base : BaseNamespaces) (pairs : List (String × String)) : BaseNamespaces :=
  pairs.foldl
    (fun base (key, nspace) =>
      match Key.ofString? key with
      | some key => base.set key nspace
      | none     => base) base

-- What a list of pairs gives for a key, from the first pair to the last.
def given (key : String) (pairs : List (String × String)) : List String :=
  (pairs.filter (·.1 = key)).map Prod.snd

theorem given_cons (key : String) (pair : String × String) (pairs : List (String × String)) :
    given key (pair :: pairs) =
      if pair.1 = key then pair.2 :: given key pairs else given key pairs := by
  by_cases h : pair.1 = key <;> simp [given, h]

theorem given_append (key : String) (l₁ l₂ : List (String × String)) :
    given key (l₁ ++ l₂) = given key l₁ ++ given key l₂ := by
  simp [given]

theorem mem_given_iff {key value : String} {pairs : List (String × String)} :
    value ∈ given key pairs ↔ (key, value) ∈ pairs := by
  simp [given]

theorem get_override (base : BaseNamespaces) (key : Key) (pairs : List (String × String)) :
    (base.override pairs).get key = (given key.name pairs).getLast?.getD (base.get key) := by
  induction pairs generalizing base
  case nil => rfl
  case cons pair pairs hi =>
    have ho : base.override (pair :: pairs) = (base.override [pair]).override pairs := rfl
    rw [ho, hi, given_cons]
    by_cases hk : pair.1 = key.name
    case pos =>
      have hb : (base.override [pair]).get key = pair.2 := by
        simp [override, Key.ofString?_eq_some_iff.mpr hk, get_set]
      rw [if_pos hk, hb, List.getLast?_cons, Option.getD_some]
    case neg =>
      have hb : (base.override [pair]).get key = base.get key := by
        cases hs : Key.ofString? pair.1
        case none => simp [override, hs]
        case some key' =>
          have hn : key ≠ key' := fun he => hk (he ▸ Key.ofString?_eq_some_iff.mp hs)
          simp [override, hs, get_set, hn]
      rw [if_neg hk, hb]

end BaseNamespaces

-- The record of a pair with an unknown key.
def Script.ignored (key : String) : Sight :=
  .logged .debug s!"Ignoring unknown base namespace key {key}"

namespace Generator

open BaseNamespaces

variable {g h : Generator}

-- Generators that look up the same, though they may keep their endpoints in different maps: a
-- service without endpoints can be there or not.
structure Alike (g h : Generator) : Prop where
  naming     : g.naming = h.naming
  namespaces : g.namespaces = h.namespaces
  base       : g.base = h.base
  unwrap     : g.unwrap = h.unwrap
  endpoint   : ∀ service port, g.endpoint? service port = h.endpoint? service port

theorem Alike.eq_with_endpoints (a : g.Alike h) : h = { g with endpoints := h.endpoints } := by
  rw [a.naming, a.namespaces, a.base, a.unwrap]

theorem Alike.portMetadata_eq (a : g.Alike h) (service : Service) :
    g.portMetadata service = h.portMetadata service := by
  have ho : g.operationTable = h.operationTable := by
    rw [a.eq_with_endpoints]
    rfl
  rw [portMetadata, portMetadata, ho, a.unwrap, a.endpoint]

theorem Alike.generate_eq (a : g.Alike h) (services : List Service) :
    g.generate services = h.generate services := by
  have hs : g.addService = h.addService := by
    funext tree service
    rw [addService, addService, a.portMetadata_eq]
  rw [generate, generate, hs]

theorem endpoint?_addAlternativeEndpoint (g : Generator)
    (service port endpoint service' port' : String) :
    (g.addAlternativeEndpoint service port endpoint).endpoint? service' port' =
      if service' = service ∧ port' = port then some endpoint else g.endpoint? service' port' := by
  by_cases hs : service' = service
  case neg => simp [endpoint?, addAlternativeEndpoint, StringMap.find?_insert, hs]
  case pos =>
    subst hs
    cases hp : g.endpoints.find? service' <;>
      simp [endpoint?, addAlternativeEndpoint, StringMap.find?_insert, hp]

theorem value_setBaseNamespaces (g : Generator) (pairs : List (String × String)) :
    (g.setBaseNamespaces pairs).value = { g with base := g.base.override pairs } := by
  rw [setBaseNamespaces, Journaled.value_foldlM]
  induction pairs generalizing g
  case nil => rfl
  case cons pair pairs hi =>
    rw [List.foldl_cons, hi]
    cases hk : Key.ofString? pair.1 <;> simp [setBaseNamespace, override, hk]

theorem sight_unknownNamespaceKey (key : String) :
    (Event.notice (.unknownNamespaceKey key)).sight = Script.ignored key := by
  delta Event.sight Notice.text
  rfl

theorem sights_setBaseNamespaces (g : Generator) (pairs : List (String × String)) :
    (g.setBaseNamespaces pairs).sights =
      (pairs.filter (Unknown ·.1)).map fun (key, _) => Script.ignored key := by
  rw [setBaseNamespaces]
  induction pairs generalizing g
  case nil => rfl
  case cons pair pairs hi =>
    rw [List.foldlM_cons, Journaled.sights_bind, hi]
    cases hk : Key.ofString? pair.1
    case none =>
      have hu := Key.ofString?_eq_none_iff.mp hk
      simp [setBaseNamespace, hk, hu, sight_unknownNamespaceKey]
    case some key =>
      have hu : ¬Unknown pair.1 := fun hu =>
        nomatch hk.symm.trans (Key.ofString?_eq_none_iff.mpr hu)
      simp [setBaseNamespace, hk, hu]

end Generator
end SoapBindings
