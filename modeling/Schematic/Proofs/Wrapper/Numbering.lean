import Schematic.Proofs.Decimal.Value
import Schematic.Proofs.Wrapper.Adaptation

namespace Schematic

/-- The port stands on a connection. -/
def Connections.Holds (cs : Connections) (r : PortRef) : Prop :=
  ∃ entry, cs.owner? r = .ok (some entry)

namespace Wrapper

/-- Names of pins whose digits agree apart from zeros in front. -/
def SameDigits (name other : String) : Prop :=
  ∃ core k l, name.toList = "port_".toList ++ (List.replicate k '0' ++ core) ∧
    other.toList = "port_".toList ++ (List.replicate l '0' ++ core)

theorem IsPinNumber.eq_iff {name other : String} {i j : Nat} (hname : IsPinNumber name i)
    (hother : IsPinNumber other j) : i = j ↔ SameDigits name other := by
  obtain ⟨ds, hds, -, hdigits, -, rfl⟩ := hname
  obtain ⟨es, hes, -, hdigits', -, rfl⟩ := hother
  have hisDigit : ∀ cs : List Char, (∀ d ∈ cs, '0' ≤ d ∧ d ≤ '9') →
      ∀ d ∈ cs, Decimal.isDigit d = true := by
    intro cs hcs d hd
    simp [Decimal.isDigit, hcs d hd]
  rw [Nat.add_right_cancel_iff,
    Decimal.valueOf_eq_iff (hisDigit ds hdigits) (hisDigit es hdigits'), SameDigits, hds, hes]
  simp only [List.append_cancel_left_eq]

private theorem isPinNumber_of_adapt {registry : Registry} {c : Circuit} {cs : Connections}
    {s : Site} {pin : Pin} (hpin : adapt registry c cs s = .ok pin) :
    IsPinNumber s.port.name pin.number := by
  rw [← pinNumber?_eq_some_iff]
  rw [adapt, adapting] at hpin
  cases hnumber : pinNumber? s.port.name with
  | none =>
    rw [hnumber] at hpin
    cases hpin
  | some number =>
    simp only [hnumber, Inquiry.result_bind] at hpin
    obtain ⟨isArray, -, hpin⟩ := bind_eq_ok_iff.mp hpin
    cases isArray with
    | true => cases hpin
    | false =>
      rw [if_neg Bool.false_ne_true, Inquiry.result_bind] at hpin
      obtain ⟨types, -, hpin⟩ := bind_eq_ok_iff.mp hpin
      cases hrule : registry.adapter? types with
      | none =>
        rw [hrule] at hpin
        cases hpin
      | some rule =>
        rw [hrule] at hpin
        cases hpin
        rfl

theorem siteAt?_eq_some_iff {cs : Connections} {node : Circuit.Node} {n : Nat} {entry : Port × Nat}
    {s : Site} :
    siteAt? cs node n entry = .ok (some s) ↔ ∃ owner, cs.owner? ⟨n, entry.2⟩ = .ok (some owner) ∧
      s = ⟨node, entry.1, ⟨n, entry.2⟩, owner.1, owner.2⟩ := by
  rw [siteAt?, bind_eq_ok_iff]
  constructor
  · intro hs
    obtain ⟨found, howner, hs⟩ := hs
    cases found with
    | none => cases hs
    | some owner =>
      cases hs
      exact ⟨owner, howner, rfl⟩
  · intro hs
    obtain ⟨owner, howner, rfl⟩ := hs
    exact ⟨some owner, howner, rfl⟩

private theorem sitesOf_eq_filterMap {cs : Connections} {node : Circuit.Node} {n : Nat}
    {sites : List Site} (hsites : sitesOf cs (node, n) = .ok sites) :
    sites = node.ports.zipIdx.filterMap fun entry => (siteAt? cs node n entry).toOption.join := by
  obtain ⟨founds, hfounds, hsites⟩ := bind_eq_ok_iff.mp hsites
  cases hsites
  have hvalues : node.ports.zipIdx.map (fun entry => (siteAt? cs node n entry).toOption.join) =
      founds.map id := by
    refine map_eq_map_of_forall₂ ((mapM_eq_ok_iff_forall₂.mp hfounds).imp ?_)
    intro entry found hfound
    rw [hfound]
    rfl
  rw [← List.map_id founds, ← hvalues, List.filterMap_map]
  rfl

/-- What holds of any two labelled ports of a connector, in order. -/
theorem pairwise_sitesOf_iff {cs : Connections} {node : Circuit.Node} {n : Nat} {sites : List Site}
    (hsites : sitesOf cs (node, n) = .ok sites) {R : Port → Port → Prop} :
    sites.Pairwise (fun s t => R s.port t.port) ↔
      ∀ (p q : Nat) port other, p < q → node.ports[p]? = some port →
        node.ports[q]? = some other → cs.Holds ⟨n, p⟩ → cs.Holds ⟨n, q⟩ → R port other := by
  have hsite : ∀ (entry : Port × Nat) (s : Site),
      (siteAt? cs node n entry).toOption.join = some s ↔
        siteAt? cs node n entry = .ok (some s) := by
    intro entry s
    cases siteAt? cs node n entry with
    | error f => simp [Except.toOption]
    | ok found => cases found <;> simp [Except.toOption]
  rw [sitesOf_eq_filterMap hsites, List.pairwise_filterMap, List.pairwise_iff_getElem]
  simp only [List.getElem_zipIdx, List.length_zipIdx, Nat.zero_add, hsite, siteAt?_eq_some_iff]
  constructor
  · intro hpair p q port other hless hport hother hholds hholds'
    obtain ⟨hp, rfl⟩ := List.getElem?_eq_some_iff.mp hport
    obtain ⟨hq, rfl⟩ := List.getElem?_eq_some_iff.mp hother
    obtain ⟨entry, hentry⟩ := hholds
    obtain ⟨entry', hentry'⟩ := hholds'
    exact hpair p q hp hq hless _ ⟨entry, hentry, rfl⟩ _ ⟨entry', hentry', rfl⟩
  · intro hall p q hp hq hless s hs t ht
    obtain ⟨entry, hentry, rfl⟩ := hs
    obtain ⟨entry', hentry', rfl⟩ := ht
    exact hall p q _ _ hless (List.getElem?_eq_getElem hp) (List.getElem?_eq_getElem hq)
      ⟨entry, hentry⟩ ⟨entry', hentry'⟩

/-- The wrapper of a connector has its pins numbered apart exactly when no two of its ports that
stand on connections are named alike apart from zeros in front of their digits. -/
theorem wrapAll_numbers_nodup_iff {registry : Registry} {c : Circuit} {cs : Connections}
    {ws : List Wrapper} (hws : wrapAll registry c cs = .ok ws) {n : Nat} {node : Circuit.Node}
    (hnode : c.nodes[n]? = some node) (hrole : node.role = .connector) :
    (∃ w ∈ ws, w.node = n) ∧ ∀ w ∈ ws, w.node = n →
      ((w.pins.map (·.number)).Nodup ↔
        ∀ (p q : Nat) port other, p < q → node.ports[p]? = some port →
          node.ports[q]? = some other → cs.Holds ⟨n, p⟩ → cs.Holds ⟨n, q⟩ →
          ¬ SameDigits port.name other.name) := by
  have hall := forall₂_of_wrapAll hws
  constructor
  · obtain ⟨w, hw, hposition, -⟩ :=
      exists_of_forall₂_of_mem hall.flip (mem_connectors.mpr ⟨hnode, hrole⟩)
    exact ⟨w, hw, hposition.symm⟩
  · intro w hw hposition
    obtain ⟨⟨node', n'⟩, hentry, hposition', -, sites, hsites, hpins⟩ :=
      exists_of_forall₂_of_mem hall hw
    obtain ⟨hnode', -⟩ := mem_connectors.mp hentry
    obtain rfl : n' = n := hposition'.trans hposition
    obtain rfl : node' = node := Option.some.inj (hnode'.symm.trans hnode)
    have hnumbers : List.Forall₂ (fun s pin => IsPinNumber s.port.name pin.number) sites w.pins :=
      hpins.imp fun _ _ hpin => isPinNumber_of_adapt hpin
    rw [List.Nodup, List.pairwise_map,
      ← pairwise_sitesOf_iff hsites (R := fun port other => ¬ SameDigits port.name other.name)]
    refine (pairwise_iff_of_forall₂ hnumbers ?_).symm
    intro s pin t other hpin hother
    exact not_congr (hpin.eq_iff hother).symm

/-- A header with two pins, wired to a light. -/
def lightHeader (second : String) : Circuit where
  nodes := [
    { id := "h"
      name := "J1"
      type := "PinHeader254"
      superClasses := ["PassiveConnector"]
      ports := [⟨"port_0", "Passive", false, none⟩, ⟨second, "Passive", false, none⟩]
      arguments := []
      role := .connector },
    { id := "d"
      name := "D1"
      type := "IndicatorLed"
      superClasses := []
      ports := [⟨"signal", "DigitalSink", false, none⟩, ⟨"gnd", "Ground", false, none⟩]
      arguments := []
      role := .plain }]
  labels := [⟨"1", "sig", ⟨1, 0⟩⟩, ⟨"2", "sig", ⟨0, 0⟩⟩, ⟨"3", "gnd", ⟨1, 1⟩⟩, ⟨"4", "gnd", ⟨0, 1⟩⟩]

/-- The connections of the header and the light. -/
def lightHeaderNets : Connections :=
  ⟨[⟨0, "sig", [⟨1, 0⟩, ⟨0, 0⟩], none⟩, ⟨1, "gnd", [⟨1, 1⟩, ⟨0, 1⟩], none⟩],
    [("sig", 0), ("gnd", 1)], [(⟨1, 0⟩, 0), (⟨0, 0⟩, 0), (⟨1, 1⟩, 1), (⟨0, 1⟩, 1)]⟩

private theorem ofCircuit_lightHeader (second : String) :
    Connections.ofCircuit (lightHeader second) = .ok lightHeaderNets :=
  Connections.ofCircuit_eq_ok_iff.mpr ⟨by simp [Circuit.Unshared, lightHeader], rfl⟩

/-- A zero in front of another digit does not make the ports alike. -/
theorem wrapAll_numbers_lightHeader :
    ∃ ws w, Connections.ofCircuit (lightHeader "port_01") = .ok lightHeaderNets ∧
      wrapAll .builtin (lightHeader "port_01") lightHeaderNets = .ok ws ∧ w ∈ ws ∧ w.node = 0 ∧
      w.pins.map (·.number) = [1, 2] ∧ ¬ SameDigits "port_0" "port_01" := by
  have hws : wrapAll .builtin (lightHeader "port_01") lightHeaderNets = .ok [⟨0, "PinHeader254_J1",
      [⟨0, "port_0", 1, "DigitalBidir"⟩, ⟨1, "port_01", 2, "Ground"⟩]⟩] :=
    eq_ok_of_toOption_eq_some (by decide +kernel)
  obtain ⟨-, hiff⟩ := wrapAll_numbers_nodup_iff hws (n := 0) rfl rfl
  have hapart := (hiff _ List.mem_cons_self rfl).mp (by decide)
  refine ⟨_, _, ofCircuit_lightHeader _, hws, List.mem_cons_self, rfl, rfl, ?_⟩
  exact hapart 0 1 _ _ (by decide) rfl rfl ⟨_, rfl⟩ ⟨_, rfl⟩

/-- The ports of the header have different names, and yet both are its first pin. -/
theorem lightHeader_zeros_one_pin :
    ∃ node ws w, Connections.ofCircuit (lightHeader "port_00") = .ok lightHeaderNets ∧
      wrapAll .builtin (lightHeader "port_00") lightHeaderNets = .ok ws ∧
      (lightHeader "port_00").nodes[0]? = some node ∧ node.role = .connector ∧
      (node.ports.map (·.name)).Nodup ∧ w ∈ ws ∧ w.node = 0 ∧
      w.pins.map (·.number) = [1, 1] ∧ ¬ (w.pins.map (·.number)).Nodup := by
  have hws : wrapAll .builtin (lightHeader "port_00") lightHeaderNets = .ok [⟨0, "PinHeader254_J1",
      [⟨0, "port_0", 1, "DigitalBidir"⟩, ⟨1, "port_00", 1, "Ground"⟩]⟩] :=
    eq_ok_of_toOption_eq_some (by decide +kernel)
  exact ⟨_, _, _, ofCircuit_lightHeader _, hws, rfl, rfl, by decide, List.mem_cons_self, rfl, rfl,
    by decide⟩

end Wrapper

end Schematic
