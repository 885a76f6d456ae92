import SoapBindings.Proofs.Generator.History
import SoapBindings.Settings
-- Generators made of settings. The maps of settings may list their entries in any order, and the
-- generator looks up the same whatever the order is, since no key stands in a map twice.

namespace SoapBindings

theorem getLast?_eq_of_mem_iff {α : Type} {l : List α} {o : Option α}
    (h : ∀ a, a ∈ l ↔ o = some a) : l.getLast? = o := by
  cases hl : l.getLast?
  case none =>
    have hn : l = [] := List.getLast?_eq_none_iff.mp hl
    exact (Option.eq_none_iff_forall_ne_some.mpr fun a ha => by simpa [hn] using (h a).mpr ha).symm
  case some a => exact ((h a).mp (List.mem_of_getLast? hl)).symm

namespace Settings

open Generator BaseNamespaces

variable {s : Settings}

-- The maps of settings as lists, in an order of the maps' own.
structure Enumeration (s : Settings) where
  namespaces      : List (String × String)
  base            : List (String × String)
  endpoints       : List (String × List (String × String))
  namespaces_perm : namespaces.Perm s.namespaces.entries
  base_perm       : base.Perm s.base.entries
  services_perm   : (endpoints.map Prod.fst).Perm s.endpoints.keys
  ports_perm      : ∀ entry ∈ endpoints, ∃ ports,
    s.endpoints.find? entry.1 = some ports ∧ entry.2.Perm ports.entries

-- The order of the keys.
def ascending (s : Settings) : s.Enumeration where
  namespaces      := s.namespaces.entries
  base            := s.base.entries
  endpoints       := s.endpoints.entries.map fun (service, ports) => (service, ports.entries)
  namespaces_perm := .rfl
  base_perm       := .rfl
  services_perm   := by
    rw [List.map_map]
    exact .rfl
  ports_perm entry hm := by
    have ⟨(service, ports), hs, he⟩ := List.mem_map.mp hm
    subst he
    exact ⟨ports, StringMap.mem_entries_iff.mp hs, .rfl⟩

namespace Enumeration

def generator (e : s.Enumeration) (naming : NamingStrategy) : Journaled Generator :=
  assemble naming (.ofList e.namespaces) s.unwrap e.base e.endpoints

def registrations (e : s.Enumeration) : List Action :=
  e.endpoints.flatMap fun (service, ports) =>
    ports.map fun (port, endpoint) => .addEndpoint service port endpoint

-- What is done with a fresh generator.
def history (e : s.Enumeration) : List Action :=
  .setBaseNamespaces e.base :: .setUnwrap s.unwrap :: e.registrations

theorem mem_registrations_iff {e : s.Enumeration} {action : Action} :
    action ∈ e.registrations ↔ ∃ service port endpoint ports,
      action = .addEndpoint service port endpoint ∧ s.endpoints.find? service = some ports ∧
        ports.find? port = some endpoint := by
  simp only [registrations, List.mem_flatMap, List.mem_map]
  constructor
  case mp =>
    intro ⟨(service, entries), hs, (port, endpoint), hp, ha⟩
    have ⟨ports, hf, hm⟩ := e.ports_perm _ hs
    exact ⟨service, port, endpoint, ports, ha.symm, hf,
      StringMap.mem_entries_iff.mp (hm.mem_iff.mp hp)⟩
  case mpr =>
    intro ⟨service, port, endpoint, ports, ha, hf, hp⟩
    have hk : service ∈ s.endpoints.keys := StringMap.mem_keys_iff.mpr (hf ▸ rfl)
    have ⟨(service', entries), hs, he⟩ := List.mem_map.mp (e.services_perm.mem_iff.mpr hk)
    subst he
    have ⟨ports', hf', hm⟩ := e.ports_perm _ hs
    cases hf.symm.trans hf'
    exact ⟨_, hs, (port, endpoint), hm.mem_iff.mpr (StringMap.mem_entries_iff.mpr hp), ha.symm⟩

theorem generator_eq (e : s.Enumeration) (naming : NamingStrategy) :
    e.generator naming = (do
      let g ← (fresh naming s.namespaces).setBaseNamespaces e.base
      return (g.setUnwrap s.unwrap).after e.registrations) := by
  rw [generator, StringMap.ofList_of_perm e.namespaces_perm]
  simp only [assemble, after, registrations, List.foldl_flatMap, List.foldl_map]
  rfl

theorem value_generator (e : s.Enumeration) (naming : NamingStrategy) :
    (e.generator naming).value = (fresh naming s.namespaces).after e.history := by
  rw [generator_eq]
  rfl

theorem sights_generator (e : s.Enumeration) (naming : NamingStrategy) :
    (e.generator naming).sights = (e.base.filter (Unknown ·.1)).map fun (key, _) =>
      Script.ignored key := by
  rw [generator_eq, Journaled.sights_bind, sights_setBaseNamespaces]
  exact List.append_nil _

end Enumeration

-- What a generator has from settings.
structure Configures (s : Settings) (naming : NamingStrategy) (g : Generator) : Prop where
  naming     : g.naming = naming
  namespaces : g.namespaces = s.namespaces
  unwrap     : g.unwrap = s.unwrap
  base       : ∀ key, g.base.get key =
    (s.base.find? key.name).getD (({} : BaseNamespaces).get key)
  endpoint   : ∀ service port endpoint, g.endpoint? service port = some endpoint ↔
    ∃ ports, s.endpoints.find? service = some ports ∧ ports.find? port = some endpoint

namespace Enumeration

theorem filterMap_registrations_unwrap? (e : s.Enumeration) :
    e.registrations.filterMap Action.unwrap? = [] := by
  refine List.filterMap_eq_nil_iff.mpr fun action hm => ?_
  have ⟨_, _, _, _, ha, _⟩ := mem_registrations_iff.mp hm
  exact ha ▸ rfl

theorem flatMap_registrations_pairs (e : s.Enumeration) :
    e.registrations.flatMap Action.pairs = [] := by
  refine List.flatMap_eq_nil_iff.mpr fun action hm => ?_
  have ⟨_, _, _, _, ha, _⟩ := mem_registrations_iff.mp hm
  exact ha ▸ rfl

-- There is one value for a key in a map, so it is the last one in any order.
theorem getLast?_given (e : s.Enumeration) (key : String) :
    (given key e.base).getLast? = s.base.find? key := by
  refine getLast?_eq_of_mem_iff fun value => ?_
  rw [mem_given_iff, e.base_perm.mem_iff, StringMap.mem_entries_iff]

theorem mem_filterMap_endpoint?_iff (e : s.Enumeration) {service port endpoint : String} :
    endpoint ∈ e.history.filterMap (Action.endpoint? service port) ↔
      (s.endpoints.find? service >>= (·.find? port)) = some endpoint := by
  simp only [history, List.filterMap_cons, Action.endpoint?, List.mem_filterMap,
    mem_registrations_iff, bind, Option.bind_eq_some_iff]
  constructor
  case mp =>
    rintro ⟨action, ⟨service', port', endpoint', ports, ha, hs, hp⟩, he⟩
    subst ha
    obtain ⟨⟨hs', hp'⟩, he'⟩ := Option.ite_none_right_eq_some.mp he
    subst hs' hp'
    exact ⟨ports, hs, Option.some.inj he' ▸ hp⟩
  case mpr =>
    rintro ⟨ports, hs, hp⟩
    exact ⟨_, ⟨service, port, endpoint, ports, rfl, hs, hp⟩, if_pos ⟨rfl, rfl⟩⟩

theorem configures_of_settled (e : s.Enumeration) {naming : NamingStrategy} {g : Generator}
    (hg : Settled naming s.namespaces e.history g) : s.Configures naming g where
  naming     := hg.naming
  namespaces := hg.namespaces
  unwrap     := by
    rw [hg.unwrap, history, List.filterMap_cons, List.filterMap_cons]
    simp only [Action.unwrap?, e.filterMap_registrations_unwrap?]
    rfl
  base key   := by
    rw [hg.base, history, List.flatMap_cons, List.flatMap_cons, e.flatMap_registrations_pairs]
    simp only [Action.pairs, List.append_nil, e.getLast?_given]
  endpoint service port endpoint := by
    rw [hg.endpoint, getLast?_eq_of_mem_iff fun _ => e.mem_filterMap_endpoint?_iff]
    exact Option.bind_eq_some_iff

end Enumeration

theorem Configures.alike {naming : NamingStrategy} {g h : Generator}
    (hg : s.Configures naming g) (hh : s.Configures naming h) : g.Alike h where
  naming                := hg.naming.trans hh.naming.symm
  namespaces            := hg.namespaces.trans hh.namespaces.symm
  base                  := ext_get fun key => (hg.base key).trans (hh.base key).symm
  unwrap                := hg.unwrap.trans hh.unwrap.symm
  endpoint service port := Option.ext fun endpoint =>
    (hg.endpoint service port endpoint).trans (hh.endpoint service port endpoint).symm

-- In every order the settings make a generator that looks up what they hold, so the generations of
-- any two of them are the same. Each key of a base namespace that is not known is reported once.
theorem generator_in_any_order (s : Settings) (naming : NamingStrategy) (e₁ e₂ : s.Enumeration) :
    s.Configures naming (e₁.generator naming).value ∧
    (∀ services, (e₁.generator naming).value.generate services =
      (e₂.generator naming).value.generate services) ∧
    (e₁.generator naming).sights.Perm (e₂.generator naming).sights ∧
    (e₁.generator naming).sights.Perm ((s.base.keys.filter (Unknown ·)).map Script.ignored) ∧
    s.ascending.generator naming = s.generator naming := by
  have hc (e : s.Enumeration) : s.Configures naming (e.generator naming).value := by
    rw [e.value_generator]
    exact e.configures_of_settled (settled_after naming s.namespaces e.history)
  have hp (e : s.Enumeration) : (e.generator naming).sights.Perm
      ((s.base.keys.filter (Unknown ·)).map Script.ignored) := by
    rw [e.sights_generator, StringMap.keys, List.filter_map, List.map_map]
    exact (e.base_perm.filter _).map _
  refine ⟨hc e₁, (hc e₁).alike (hc e₂) |>.generate_eq, (hp e₁).trans (hp e₂).symm, hp e₁, ?_⟩
  rw [Enumeration.generator, StringMap.ofList_of_perm s.ascending.namespaces_perm]
  rfl

end Settings
end SoapBindings
