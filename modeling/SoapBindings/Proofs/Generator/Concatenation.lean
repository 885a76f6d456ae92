import SoapBindings.Proofs.Generator.Script
-- Generations for lists one after the other. The first list that fails decides the error, and if
-- none does, the tree of the second list lies over the tree of the first.

namespace SoapBindings

theorem findRev?_append {α : Type} (p : α → Bool) (l₁ l₂ : List α) :
    (l₁ ++ l₂).findRev? p = (l₂.findRev? p).or (l₁.findRev? p) := by
  simp only [List.findRev?_eq_find?_reverse, List.reverse_append, List.find?_append]

namespace Metadata

-- A tree that has the records of one tree, as they are, and elsewhere those of another one. The
-- ports of a service in both trees are all there.
structure Overlaid (base top tree : Metadata) : Prop where
  port     : ∀ service port,
    tree.port? service port = (top.port? service port).or (base.port? service port)
  services : ∀ service, service ∈ tree.keys ↔ service ∈ base.keys ∨ service ∈ top.keys
  united   : ∀ service lower upper,
    base.find? service = some lower → top.find? service = some upper →
      ∃ ports, tree.find? service = some ports ∧
        ∀ port, port ∈ ports.keys ↔ port ∈ lower.keys ∨ port ∈ upper.keys

theorem Overlaid.of_port? {base top tree : Metadata}
    (hp : ∀ service port,
      tree.port? service port = (top.port? service port).or (base.port? service port))
    (hs : ∀ service, service ∈ tree.keys ↔ service ∈ base.keys ∨ service ∈ top.keys) :
    base.Overlaid top tree where
  port     := hp
  services := hs
  united service lower upper hl hu := by
    have hk : service ∈ tree.keys := by
      rw [hs, StringMap.mem_keys_iff (m := base), hl]
      exact .inl rfl
    have ⟨ports, ht⟩ := Option.isSome_iff_exists.mp (StringMap.mem_keys_iff.mp hk)
    refine ⟨ports, ht, fun port => ?_⟩
    have ho := hp service port
    rw [port?_of_find? ht, port?_of_find? hu, port?_of_find? hl] at ho
    rw [StringMap.mem_keys_iff, StringMap.mem_keys_iff, StringMap.mem_keys_iff, ho,
      Option.isSome_or, Bool.or_eq_true, Or.comm]

end Metadata

namespace Generator

open Generating

theorem overlaid_tree (g : Generator) (xs ys : List Service) :
    (g.tree xs).Overlaid (g.tree ys) (g.tree (xs ++ ys)) := by
  refine .of_port? (fun service port => ?port) fun service => ?services
  case port =>
    rw [port?_tree, port?_tree, port?_tree, findRev?_append, Option.map_or]
  case services =>
    rw [mem_keys_tree_iff, mem_keys_tree_iff, mem_keys_tree_iff, List.map_append, List.mem_append]

theorem outcome_generate_append (g : Generator) (xs ys : List Service) :
    (g.generate (xs ++ ys)).outcome =
      verdict ((xs.findSome? g.portFlaw).or (ys.findSome? g.portFlaw)) (g.tree (xs ++ ys)) := by
  rw [outcome_generate, List.findSome?_append]

-- The second list does not matter for the error if the first one fails, and it takes the place of
-- whole records of the first one if both succeed.
theorem generate_append (g : Generator) (xs ys : List Service) :
    (∀ e, (g.generate xs).outcome = .error e → (g.generate (xs ++ ys)).outcome = .error e) ∧
    ∀ base, (g.generate xs).outcome = .ok base →
      (∀ e, (g.generate ys).outcome = .error e → (g.generate (xs ++ ys)).outcome = .error e) ∧
      ∀ top, (g.generate ys).outcome = .ok top →
        ∃ tree, (g.generate (xs ++ ys)).outcome = .ok tree ∧ base.Overlaid top tree := by
  simp only [outcome_generate_append]
  simp only [outcome_generate, verdict_eq_ok_iff, verdict_eq_error_iff]
  refine ⟨fun e hx => ?first, fun base ⟨hx, hb⟩ => ⟨fun e hy => ?second, fun top ⟨hy, ht⟩ => ?both⟩⟩
  case first  => rw [hx, Option.some_or]
  case second => rw [hx, Option.none_or, hy]
  case both   =>
    refine ⟨_, ⟨?_, rfl⟩, hb ▸ ht ▸ g.overlaid_tree xs ys⟩
    rw [hx, hy, Option.none_or]

-- The port of the shop is in both lists, and another one of its ports in the first list only.
theorem generate_append_shop :
    (Shop.generator.generate (Shop.brokenOff ++ [Shop.latter])).outcome =
      .error (.unresolvedNamespace "urn:other") ∧
    (Shop.generator.generate ([Shop.former] ++ Shop.brokenOff)).outcome =
      .error (.unresolvedNamespace "urn:other") ∧
    ∃ base top tree,
      (Shop.generator.generate [Shop.former, { Shop.former with port := "Mail" }]).outcome =
        .ok base ∧
      (Shop.generator.generate [Shop.latter]).outcome = .ok top ∧
      (Shop.generator.generate
        ([Shop.former, { Shop.former with port := "Mail" }] ++ [Shop.latter])).outcome = .ok tree ∧
      base.Overlaid top tree ∧
      tree.port? "Shop" "Soap" = some (Shop.generator.portRecord Shop.latter) := by
  have hb : (Shop.generator.generate Shop.brokenOff).outcome =
      .error (.unresolvedNamespace "urn:other") := by decide +kernel
  have hok {l : List Service} (hr : ∀ s ∈ l, ∀ o ∈ s.operations, Shop.generator.Resolves o) :
      (Shop.generator.generate l).outcome = .ok (Shop.generator.tree l) :=
    generate_eq_ok_iff.mpr ⟨hr, rfl⟩
  have hf := hok (l := [Shop.former]) (by decide)
  have hl := hok (l := [Shop.latter]) (by decide)
  have hm := hok (l := [Shop.former, { Shop.former with port := "Mail" }]) (by decide)
  have ⟨tree, ht, ho⟩ := ((generate_append _ _ _).right _ hm).right _ hl
  refine ⟨(generate_append _ _ _).left _ hb, ((generate_append _ _ _).right _ hf).left _ hb,
    _, _, tree, hm, hl, ht, ho, ?_⟩
  rw [ho.port, port?_tree]
  rfl

end Generator
end SoapBindings
