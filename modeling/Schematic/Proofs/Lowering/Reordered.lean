import Schematic.Proofs.Lowering.Design

namespace Schematic.Circuit

/-- The same nodes, and the same labels in any order. -/
structure Reordered (c d : Circuit) : Prop where
  nodes : d.nodes = c.nodes
  labels : d.labels.Perm c.labels

namespace Reordered

variable {registry : Registry} {c d : Circuit}

section

variable (hsame : c.Reordered d)

include hsame

private theorem endpoint?_eq : d.endpoint? = c.endpoint? := by
  funext r
  rw [endpoint?, endpoint?, hsame.nodes]

private theorem wired_perm (net : String) : (d.wired net).Perm (c.wired net) :=
  (hsame.labels.filter _).map _

theorem endpoints_perm (net : String) :
    (d.endpoints (d.wired net)).Perm (c.endpoints (c.wired net)) := by
  rw [endpoints, endpoints, hsame.endpoint?_eq]
  exact (hsame.wired_perm net).filterMap _

theorem mem_endpoints_iff {net : String} (e : Endpoint) :
    e ∈ d.endpoints (d.wired net) ↔ e ∈ c.endpoints (c.wired net) :=
  (hsame.endpoints_perm net).mem_iff

theorem nets_perm : d.nets.Perm c.nets := by
  rw [List.perm_ext_iff_of_nodup d.nodup_nets c.nodup_nets]
  intro net
  simp only [mem_nets, hsame.labels.mem_iff]

private theorem unshared (hc : c.Unshared) : d.Unshared :=
  (hsame.labels.map Label.target).nodup_iff.mpr hc

theorem netOf?_eq (hc : c.Unshared) (r : PortRef) : d.netOf? r = c.netOf? r := by
  apply Option.ext
  intro net
  rw [(hsame.unshared hc).netOf?_eq_some_iff, hc.netOf?_eq_some_iff, (hsame.wired_perm net).mem_iff]

theorem carriesArray_eq (net : String) : d.carriesArray net = c.carriesArray net :=
  carriesArray_congr hsame.mem_endpoints_iff

theorem mem_typesBeside_iff (net : String) (r : PortRef) (t : String) :
    t ∈ d.typesBeside net r ↔ t ∈ c.typesBeside net r := by
  simp only [mem_typesBeside, hsame.endpoint?_eq, (hsame.wired_perm net).mem_iff]

theorem pinFits_iff (net : String) (r : PortRef) (port : Port) :
    d.PinFits registry net r port ↔ c.PinFits registry net r port :=
  pinFits_congr (hsame.carriesArray_eq net) (hsame.mem_typesBeside_iff net r)

/-- Whether a bus rule adds a supply does not depend on the order, although which net powers it may.
-/
theorem supplyAt?_isSome_iff (net : String) (rule : BusRule) :
    (d.supplyAt? net rule).isSome = true ↔ (c.supplyAt? net rule).isSome = true := by
  simp only [Circuit.supplyAt?_isSome_iff, powerNet?_isSome_iff, hsame.carriesArray_eq,
    needsSupport_congr hsame.mem_endpoints_iff, hsame.endpoint?_eq, (hsame.wired_perm net).mem_iff,
    hsame.labels.mem_iff]

theorem sound (hc : c.Sound registry) : d.Sound registry where
  unshared := hsame.unshared hc.unshared
  uniform net hnet := (uniform_congr hsame.mem_endpoints_iff).mpr
    (hc.uniform net (hsame.nets_perm.mem_iff.mp hnet))
  pins l hl e he hrole := by
    rw [hsame.endpoint?_eq] at he
    exact (hsame.pinFits_iff l.name l.target e.port).mpr
      (hc.pins l (hsame.labels.mem_iff.mp hl) e he hrole)
  nodes := hsame.nodes ▸ hc.nodes
  supplies := by
    -- The list of supplies may be reordered, so its names are compared by rules and nets.
    have hsupplies := suppliesNamed_iff.mp hc.supplies
    simp only [← hsame.supplyAt?_isSome_iff, ← hsame.nodes] at hsupplies
    exact suppliesNamed_iff.mpr hsupplies
  ports l hl e he := by
    rw [hsame.endpoint?_eq] at he
    exact hc.ports l (hsame.labels.mem_iff.mp hl) e he

end

end Reordered

end Schematic.Circuit
