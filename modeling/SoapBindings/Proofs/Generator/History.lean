import SoapBindings.Proofs.Generator.Setup
-- Generators in use. What a generation gives depends on the last settings before it alone, whatever
-- else has been done with the generator by then.

namespace SoapBindings.Generator

open BaseNamespaces Generating

inductive Action where
  | addEndpoint (service port endpoint : String)
  | setUnwrap (unwrap : Bool)
  | setBaseNamespaces (pairs : List (String × String))
  | generate (services : List Service)

-- What an action shows. Only generations have an outcome.
structure Reply where
  outcome : Option (Except GenerateError Metadata) := none
  events  : List Event := []

def Reply.sights (r : Reply) : List Sight :=
  r.events.map Event.sight

-- The generator after an action, and the reply. A generation leaves the generator as it is.
def perform (g : Generator) : Action → Generator × Reply
  | .addEndpoint service port endpoint => (g.addAlternativeEndpoint service port endpoint, {})
  | .setUnwrap unwrap                  => (g.setUnwrap unwrap, {})
  | .setBaseNamespaces pairs           =>
    ((g.setBaseNamespaces pairs).value, { events := (g.setBaseNamespaces pairs).events })
  | .generate services                 =>
    (g, { outcome := some (g.generate services).outcome, events := (g.generate services).events })

-- The replies to actions, each of which finds the generator as the actions before it leave it.
def session : Generator → List Action → List Reply
  | _, []              => []
  | g, action :: later => (g.perform action).2 :: session (g.perform action).1 later

def after (g : Generator) (history : List Action) : Generator :=
  history.foldl (fun g action => (g.perform action).1) g

-- A generator that nothing has been set for.
def fresh (naming : NamingStrategy) (namespaces : StringMap String) : Generator where
  naming     := naming
  namespaces := namespaces

namespace Action

def unwrap? : Action → Option Bool
  | setUnwrap unwrap => some unwrap
  | _                => none

def pairs : Action → List (String × String)
  | setBaseNamespaces pairs => pairs
  | _                       => []

def endpoint? (service port : String) : Action → Option String
  | addEndpoint service' port' endpoint =>
    if service' = service ∧ port' = port then some endpoint else none
  | _                                   => none

end Action

-- A generator with the last settings of a history. What has not been set is as in a fresh one.
structure Settled (naming : NamingStrategy) (namespaces : StringMap String)
    (history : List Action) (g : Generator) : Prop where
  naming     : g.naming = naming
  namespaces : g.namespaces = namespaces
  unwrap     : g.unwrap = (history.filterMap Action.unwrap?).getLast?.getD false
  base       : ∀ key, g.base.get key =
    (given key.name (history.flatMap Action.pairs)).getLast?.getD (({} : BaseNamespaces).get key)
  endpoint   : ∀ service port, g.endpoint? service port =
    (history.filterMap (Action.endpoint? service port)).getLast?

variable {naming : NamingStrategy} {namespaces : StringMap String} {history : List Action}
variable {g h : Generator}

theorem settled_fresh (naming : NamingStrategy) (namespaces : StringMap String) :
    Settled naming namespaces [] (fresh naming namespaces) where
  naming       := rfl
  namespaces   := rfl
  unwrap       := rfl
  base _       := rfl
  endpoint _ _ := rfl

theorem Settled.alike (hg : Settled naming namespaces history g)
    (hh : Settled naming namespaces history h) : g.Alike h where
  naming                := hg.naming.trans hh.naming.symm
  namespaces            := hg.namespaces.trans hh.namespaces.symm
  base                  := ext_get fun key => (hg.base key).trans (hh.base key).symm
  unwrap                := hg.unwrap.trans hh.unwrap.symm
  endpoint service port := (hg.endpoint service port).trans (hh.endpoint service port).symm

theorem naming_perform (g : Generator) (action : Action) :
    (g.perform action).1.naming = g.naming := by
  cases action <;> simp [perform, addAlternativeEndpoint, setUnwrap, value_setBaseNamespaces]

theorem namespaces_perform (g : Generator) (action : Action) :
    (g.perform action).1.namespaces = g.namespaces := by
  cases action <;> simp [perform, addAlternativeEndpoint, setUnwrap, value_setBaseNamespaces]

theorem unwrap_perform (g : Generator) (action : Action) :
    (g.perform action).1.unwrap = action.unwrap?.getD g.unwrap := by
  cases action <;>
    simp [perform, addAlternativeEndpoint, setUnwrap, value_setBaseNamespaces, Action.unwrap?]

theorem base_perform (g : Generator) (action : Action) (key : Key) :
    (g.perform action).1.base.get key =
      (given key.name action.pairs).getLast?.getD (g.base.get key) := by
  cases action
  case setBaseNamespaces pairs =>
    rw [perform, value_setBaseNamespaces]
    exact get_override g.base key pairs
  all_goals rfl

theorem endpoint?_perform (g : Generator) (action : Action) (service port : String) :
    (g.perform action).1.endpoint? service port =
      (action.endpoint? service port).or (g.endpoint? service port) := by
  cases action
  case addEndpoint service' port' endpoint =>
    rw [perform, endpoint?_addAlternativeEndpoint, Action.endpoint?]
    by_cases h : service = service' ∧ port = port'
    case pos => simp [h]
    case neg =>
      have h' : ¬(service' = service ∧ port' = port) := fun ⟨hs, hp⟩ => h ⟨hs.symm, hp.symm⟩
      simp [h, h']
  case setBaseNamespaces pairs =>
    rw [perform, value_setBaseNamespaces]
    rfl
  all_goals rfl

-- Each action adds its own settings, which are now the last ones, and touches no others.
theorem Settled.perform (hg : Settled naming namespaces history g) (action : Action) :
    Settled naming namespaces (history ++ [action]) (g.perform action).1 where
  naming     := (naming_perform g action).trans hg.naming
  namespaces := (namespaces_perform g action).trans hg.namespaces
  unwrap     := by
    rw [unwrap_perform, hg.unwrap]
    cases h : action.unwrap? <;> simp [h]
  base key   := by
    rw [base_perform, hg.base, List.flatMap_append, List.flatMap_singleton, given_append,
      List.getLast?_append]
    cases (given key.name action.pairs).getLast? <;> rfl
  endpoint service port := by
    rw [endpoint?_perform, hg.endpoint, List.filterMap_append, List.getLast?_append]
    cases h : action.endpoint? service port <;> simp [h]

theorem settled_after (naming : NamingStrategy) (namespaces : StringMap String)
    (history : List Action) :
    Settled naming namespaces history ((fresh naming namespaces).after history) := by
  induction history using List.reverseRecOn
  case nil => exact settled_fresh naming namespaces
  case append_singleton history action hi =>
    rw [after, List.foldl_append]
    exact hi.perform action

theorem session_getElem? (g : Generator) (before : List Action) (action : Action)
    (later : List Action) :
    (g.session (before ++ action :: later))[before.length]? =
      some ((g.after before).perform action).2 := by
  induction before generalizing g
  case nil => rfl
  case cons first before hi => exact hi (g.perform first).1

-- What the reply to an action has to be after a history.
def Answers (naming : NamingStrategy) (namespaces : StringMap String) (history : List Action)
    (reply : Reply) : Action → Prop
  | .generate services =>
    ∀ g, Settled naming namespaces history g →
      reply.outcome = some (g.generate services).outcome ∧
        reply.events = (g.generate services).events
  | .setBaseNamespaces pairs =>
    reply.outcome = none ∧
      reply.sights = (pairs.filter (Unknown ·.1)).map fun (key, _) => Script.ignored key
  | .addEndpoint .. | .setUnwrap _ => reply.outcome = none ∧ reply.events = []

-- A generation in a session ends as it would with any generator that has the last settings before
-- it, and there is one. A pair with an unknown key is reported, and nothing else comes of it.
theorem session_answers (naming : NamingStrategy) (namespaces : StringMap String)
    (before : List Action) (action : Action) (later : List Action) :
    (∃ g, Settled naming namespaces before g) ∧
    ∃ reply, ((fresh naming namespaces).session (before ++ action :: later))[before.length]? =
      some reply ∧ Answers naming namespaces before reply action := by
  have hs := settled_after naming namespaces before
  refine ⟨⟨_, hs⟩, _, session_getElem? _ before action later, ?_⟩
  cases action
  case generate services =>
    intro g hg
    have he := (hs.alike hg).generate_eq services
    exact ⟨congrArg (some <| outcome ·) he, congrArg events he⟩
  case setBaseNamespaces pairs => exact ⟨rfl, sights_setBaseNamespaces _ pairs⟩
  case addEndpoint             => exact ⟨rfl, rfl⟩
  case setUnwrap               => exact ⟨rfl, rfl⟩

-- A generation that fails, settings that take the place of one another, and one for a key that
-- there is not.
namespace Shop

def actions : List Action := [
  .addEndpoint "Shop" "Soap" "http://first",
  .generate brokenOff,
  .setBaseNamespaces [("parts", "\\Old"), ("Parts", "\\Lost"), ("parts", "\\New")],
  .setUnwrap true,
  .addEndpoint "Shop" "Soap" "http://localhost",
  .addEndpoint "Depot" "Soap" "http://depot"]

def settled : Generator where
  naming     := .short
  namespaces := generator.namespaces
  endpoints  := .ofList [
    ("Depot", .ofList [("Soap", "http://depot")]), ("Shop", .ofList [("Soap", "http://localhost")])]
  base       := { parts := "\\New" }
  unwrap     := true

theorem settled_actions : Settled .short generator.namespaces actions settled where
  naming     := rfl
  namespaces := rfl
  unwrap     := rfl
  base key   := by cases key <;> rfl
  endpoint service port := by
    simp only [settled, endpoint?, StringMap.ofList, List.foldl_cons, List.foldl_nil,
      StringMap.find?_insert, actions, List.filterMap_cons, Action.endpoint?]
    by_cases hs : service = "Shop" <;> by_cases hd : service = "Depot" <;>
      by_cases hp : port = "Soap" <;> simp_all [eq_comm, StringMap.find?_insert]

end Shop

theorem session_answers_shop :
    Settled .short Shop.generator.namespaces Shop.actions Shop.settled ∧
    ∃ reply, ((fresh .short Shop.generator.namespaces).session
        (Shop.actions ++ [.generate [Shop.latter]]))[Shop.actions.length]? = some reply ∧
      reply.outcome = some (.ok (Shop.settled.tree [Shop.latter])) ∧
      (Shop.settled.tree [Shop.latter]).port? "Shop" "Soap" =
        some (Shop.settled.portRecord Shop.latter) ∧
      (Shop.settled.portRecord Shop.latter).endpoint = "http://localhost" := by
  have ⟨_, reply, hr, ha⟩ := session_answers .short Shop.generator.namespaces Shop.actions
    (.generate [Shop.latter]) []
  have ho := (ha Shop.settled Shop.settled_actions).left
  have ht : (Shop.settled.generate [Shop.latter]).outcome = .ok (Shop.settled.tree [Shop.latter]) :=
    generate_eq_ok_iff.mpr ⟨by decide, rfl⟩
  exact ⟨Shop.settled_actions, reply, hr, ho.trans (congrArg some ht), by decide, by decide⟩

end SoapBindings.Generator
