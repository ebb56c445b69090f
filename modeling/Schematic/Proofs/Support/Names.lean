import Mathlib.Data.List.Pairwise
import Schematic.Proofs.Support.Supplies
import Schematic.Text.Characters

namespace Schematic

/-- Every supply has a proper name that no node and no other supply has. -/
structure Circuit.SuppliesNamed (registry : Registry) (c : Circuit) : Prop where
  proper : ∀ s ∈ c.supplies registry, Text.isIdentifier s.blockName = true
  free : ∀ s ∈ c.supplies registry, ∀ node ∈ c.nodes, node.name ≠ s.blockName
  distinct : ((c.supplies registry).map (·.blockName)).Nodup

namespace Circuit

variable {registry : Registry} {c : Circuit}

/-- The names of the blocks that are added to a circuit. -/
def supportNames (registry : Registry) (c : Circuit) : List String :=
  (c.supplies registry).map (·.blockName)

/-- The names of all blocks of a circuit. -/
def blockNames (registry : Registry) (c : Circuit) : List String :=
  c.nodes.map (·.name) ++ c.supportNames registry

/-- The conditions on the names of supplies, said of the list of names. -/
theorem suppliesNamed_iff_names :
    c.SuppliesNamed registry ↔
      (∀ name ∈ c.supportNames registry, Text.isIdentifier name = true) ∧
        (c.supportNames registry).Disjoint (c.nodes.map (·.name)) ∧
        (c.supportNames registry).Nodup := by
  rw [supportNames, List.forall_mem_map]
  constructor
  · rintro ⟨hproper, hfree, hdistinct⟩
    refine ⟨hproper, fun name hsupply hnode => ?_, hdistinct⟩
    obtain ⟨s, hs, rfl⟩ := List.mem_map.mp hsupply
    obtain ⟨node, hnode, hname⟩ := List.mem_map.mp hnode
    exact hfree s hs node hnode hname
  · rintro ⟨hproper, hfree, hdistinct⟩
    refine ⟨hproper, fun s hs node hnode hname => ?_, hdistinct⟩
    exact hfree (List.mem_map_of_mem hs) (hname ▸ List.mem_map_of_mem hnode)

private theorem blockName_of_supplyAt? {net : String} {rule : BusRule} {s : Supply}
    (hs : c.supplyAt? net rule = some s) : s.blockName = rule.supportStem ++ net := by
  obtain ⟨-, -, -, rfl, rfl⟩ := supplyAt?_eq_some_iff.mp hs
  rfl

theorem mem_nets_of_supplyAt? {net : String} {rule : BusRule}
    (hs : (c.supplyAt? net rule).isSome = true) : net ∈ c.nets := by
  obtain ⟨s, hs⟩ := Option.isSome_iff_exists.mp hs
  obtain ⟨hneeds, -⟩ := supplyAt?_eq_some_iff.mp hs
  by_contra hnet
  have hwired := wired_eq_nil_iff.mpr hnet
  simp [needsSupport, endpoints, hwired] at hneeds

/-- What holds of the name of every supply holds of every rule and net that have one. -/
theorem forall_blockName_iff {test : String → Prop} :
    (∀ s ∈ c.supplies registry, test s.blockName) ↔
      ∀ rule ∈ registry.buses, ∀ net, (c.supplyAt? net rule).isSome = true →
        test (rule.supportStem ++ net) := by
  constructor
  · intro hall rule hrule net hsome
    obtain ⟨s, hs⟩ := Option.isSome_iff_exists.mp hsome
    obtain ⟨-, -, -, rfl, rfl⟩ := supplyAt?_eq_some_iff.mp hs
    exact hall s (mem_supplies.mpr ⟨mem_nets_of_supplyAt? hsome, hrule, hs⟩)
  · intro hall s hs
    obtain ⟨-, hrule, hs⟩ := mem_supplies.mp hs
    exact hall s.rule hrule s.net (by simp [hs])

/-- Rules at different positions have different names on one net. -/
theorem nodup_blockNames_on_iff {net : String} :
    ((registry.buses.filterMap (c.supplyAt? net)).map (·.blockName)).Nodup ↔
      ∀ (i j : Nat) rule other, registry.buses[i]? = some rule → registry.buses[j]? = some other →
        (c.supplyAt? net rule).isSome = true → (c.supplyAt? net other).isSome = true →
        rule.supportStem ++ net = other.supportStem ++ net → i = j := by
  rw [List.Nodup, List.pairwise_map, List.pairwise_filterMap, List.pairwise_iff_getElem]
  constructor
  · intro hpair i j rule other hi hj hrule hother hname
    obtain ⟨s, hs⟩ := Option.isSome_iff_exists.mp hrule
    obtain ⟨t, ht⟩ := Option.isSome_iff_exists.mp hother
    obtain ⟨hi', rfl⟩ := List.getElem?_eq_some_iff.mp hi
    obtain ⟨hj', rfl⟩ := List.getElem?_eq_some_iff.mp hj
    have hsame : s.blockName = t.blockName := by
      rw [blockName_of_supplyAt? hs, blockName_of_supplyAt? ht, hname]
    rcases Nat.lt_trichotomy i j with hlt | heq | hgt
    · exact absurd hsame (hpair i j hi' hj' hlt s hs t ht)
    · exact heq
    · exact absurd hsame.symm (hpair j i hj' hi' hgt t ht s hs)
  · intro hinj i j hi hj hlt s hs t ht hsame
    rw [blockName_of_supplyAt? hs, blockName_of_supplyAt? ht] at hsame
    have heq := hinj i j _ _ (List.getElem?_eq_getElem hi) (List.getElem?_eq_getElem hj)
      (by simp [hs]) (by simp [ht]) hsame
    omega

theorem nodup_blockNames_iff :
    ((c.supplies registry).map (·.blockName)).Nodup ↔
      ∀ (i j : Nat) rule other net net', registry.buses[i]? = some rule →
        registry.buses[j]? = some other → (c.supplyAt? net rule).isSome = true →
        (c.supplyAt? net' other).isSome = true →
        rule.supportStem ++ net = other.supportStem ++ net' → i = j ∧ net = net' := by
  have hmem : ∀ {net : String} {rule : BusRule}, rule ∈ registry.buses →
      (c.supplyAt? net rule).isSome = true →
      rule.supportStem ++ net ∈ (registry.buses.filterMap (c.supplyAt? net)).map (·.blockName) := by
    intro net rule hrule hsome
    obtain ⟨s, hs⟩ := Option.isSome_iff_exists.mp hsome
    rw [← blockName_of_supplyAt? hs]
    exact List.mem_map_of_mem (List.mem_filterMap.mpr ⟨rule, hrule, hs⟩)
  -- Names on one net are told apart by their rules, and otherwise by their nets.
  rw [supplies, List.map_flatMap, List.nodup_flatMap]
  constructor
  · rintro ⟨hon, hdisjoint⟩ i j rule other net net' hi hj hrule hother hname
    have hnet : net = net' := by
      by_contra hne
      have hsymm : Std.Symm (Function.onFun List.Disjoint fun net =>
          (registry.buses.filterMap (c.supplyAt? net)).map (·.blockName)) :=
        ⟨fun _ _ hapart _ hleft hright => hapart hright hleft⟩
      have hapart :=
        hdisjoint.forall (mem_nets_of_supplyAt? hrule) (mem_nets_of_supplyAt? hother) hne
      exact hapart (hmem (List.mem_of_getElem? hi) hrule)
        (hname ▸ hmem (List.mem_of_getElem? hj) hother)
    subst hnet
    exact ⟨nodup_blockNames_on_iff.mp (hon net (mem_nets_of_supplyAt? hrule)) i j rule other hi hj
      hrule hother hname, rfl⟩
  · intro hinj
    refine ⟨fun net _ => nodup_blockNames_on_iff.mpr ?_, ?_⟩
    · intro i j rule other hi hj hrule hother hname
      exact (hinj i j rule other net net hi hj hrule hother hname).1
    · refine c.nodup_nets.pairwise_of_forall_ne fun net _ net' _ hne name hname hname' => hne ?_
      obtain ⟨s, hs, rfl⟩ := List.mem_map.mp hname
      obtain ⟨t, ht, hsame⟩ := List.mem_map.mp hname'
      obtain ⟨rule, hrule, hs⟩ := List.mem_filterMap.mp hs
      obtain ⟨other, hother, ht⟩ := List.mem_filterMap.mp ht
      obtain ⟨i, hi⟩ := List.getElem?_of_mem hrule
      obtain ⟨j, hj⟩ := List.getElem?_of_mem hother
      rw [blockName_of_supplyAt? hs, blockName_of_supplyAt? ht] at hsame
      exact (hinj i j rule other net net' hi hj (by simp [hs]) (by simp [ht]) hsame.symm).2

/-- Supplies that are listed apart are of rules at different positions or on different nets. -/
theorem pairwise_supplies (registry : Registry) (c : Circuit) :
    (c.supplies registry).Pairwise fun s t => ∃ i j : Nat, registry.buses[i]? = some s.rule ∧
      registry.buses[j]? = some t.rule ∧ ¬ (i = j ∧ s.net = t.net) := by
  rw [supplies, List.pairwise_flatMap]
  constructor
  · intro net _
    rw [List.pairwise_filterMap, List.pairwise_iff_getElem]
    intro i j hi hj hlt s hs t ht
    obtain ⟨-, -, -, -, hrule⟩ := supplyAt?_eq_some_iff.mp hs
    obtain ⟨-, -, -, -, hother⟩ := supplyAt?_eq_some_iff.mp ht
    refine ⟨i, j, ?_, ?_, fun hsame => ?_⟩
    · rw [List.getElem?_eq_getElem hi, hrule]
    · rw [List.getElem?_eq_getElem hj, hother]
    · omega
  · refine c.nodup_nets.pairwise_of_forall_ne fun net _ net' _ hne s hs t ht => ?_
    obtain ⟨rule, hmem, hs⟩ := List.mem_filterMap.mp hs
    obtain ⟨other, hmem', ht⟩ := List.mem_filterMap.mp ht
    obtain ⟨-, -, -, rfl, rfl⟩ := supplyAt?_eq_some_iff.mp hs
    obtain ⟨-, -, -, rfl, rfl⟩ := supplyAt?_eq_some_iff.mp ht
    obtain ⟨i, hi⟩ := List.getElem?_of_mem hmem
    obtain ⟨j, hj⟩ := List.getElem?_of_mem hmem'
    exact ⟨i, j, hi, hj, fun hsame => hne hsame.2⟩

theorem suppliesNamed_iff :
    c.SuppliesNamed registry ↔
      (∀ rule ∈ registry.buses, ∀ net, (c.supplyAt? net rule).isSome = true →
        Text.isIdentifier (rule.supportStem ++ net) = true ∧
          ∀ node ∈ c.nodes, node.name ≠ rule.supportStem ++ net) ∧
      ∀ (i j : Nat) rule other net net', registry.buses[i]? = some rule →
        registry.buses[j]? = some other → (c.supplyAt? net rule).isSome = true →
        (c.supplyAt? net' other).isSome = true →
        rule.supportStem ++ net = other.supportStem ++ net' → i = j ∧ net = net' := by
  have hnames := @forall_blockName_iff registry c fun name =>
    Text.isIdentifier name = true ∧ ∀ node ∈ c.nodes, node.name ≠ name
  rw [← hnames, ← nodup_blockNames_iff]
  constructor
  · rintro ⟨hproper, hfree, hdistinct⟩
    exact ⟨fun s hs => ⟨hproper s hs, hfree s hs⟩, hdistinct⟩
  · rintro ⟨hall, hdistinct⟩
    exact ⟨fun s hs => (hall s hs).1, fun s hs => (hall s hs).2, hdistinct⟩

end Circuit

end Schematic
