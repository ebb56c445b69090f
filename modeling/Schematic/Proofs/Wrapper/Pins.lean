import Schematic.Proofs.Connection.Uniform
import Schematic.Wrapper

namespace Schematic

namespace AdaptRule

theorem covers_iff {rule : AdaptRule} {types : List String} :
    rule.covers types = true ↔ (∃ t, t ∈ types) ∧ ∀ t ∈ types, t ∈ rule.accepts := by
  cases types <;> simp [covers]

/-- Only which types there are matters, not their order or how often they occur. -/
theorem covers_congr {rule : AdaptRule} {types others : List String}
    (hsame : ∀ t, t ∈ types ↔ t ∈ others) : rule.covers types = rule.covers others := by
  rw [Bool.eq_iff_iff, covers_iff, covers_iff]
  simp only [hsame]

end AdaptRule

theorem Registry.adapter?_congr {registry : Registry} {types others : List String}
    (hsame : ∀ t, t ∈ types ↔ t ∈ others) : registry.adapter? types = registry.adapter? others := by
  have hcovers : (fun rule : AdaptRule => rule.covers types) = fun rule => rule.covers others :=
    funext fun _ => AdaptRule.covers_congr hsame
  rw [adapter?, adapter?, hcovers]

namespace Circuit

/-- The types of the ports on a net other than a given one. -/
def typesBeside (c : Circuit) (net : String) (r : PortRef) : List String :=
  (c.endpoints ((c.wired net).filter (· != r))).map (·.port.type)

/-- A port of a connector that stands on a net can be made a pin. -/
@[mk_iff] structure PinFits (registry : Registry) (c : Circuit) (net : String) (r : PortRef)
    (port : Port) : Prop where
  named : (Wrapper.pinNumber? port.name).isSome
  scalar : c.carriesArray net = false
  typed : (registry.adapter? (c.typesBeside net r)).isSome

/-- The pin of a port that stands on a net. -/
def pinAt (registry : Registry) (c : Circuit) (net : String) (r : PortRef) (port : Port) :
    Wrapper.Pin where
  port := r.port
  name := port.name
  number := (Wrapper.pinNumber? port.name).getD 0
  exposed := ((registry.adapter? (c.typesBeside net r)).map (·.exposes)).getD ""

theorem mem_typesBeside {c : Circuit} {net : String} {r : PortRef} {t : String} :
    t ∈ c.typesBeside net r ↔
      ∃ s ∈ c.wired net, s ≠ r ∧ ∃ e, c.endpoint? s = some e ∧ e.port.type = t := by
  simp only [typesBeside, List.mem_map, mem_endpoints, List.mem_filter, bne_iff_ne]
  constructor
  · rintro ⟨e, ⟨s, ⟨hs, hne⟩, he⟩, rfl⟩
    exact ⟨s, hs, hne, e, he, rfl⟩
  · rintro ⟨s, hs, hne, e, he, rfl⟩
    exact ⟨e, ⟨s, ⟨hs, hne⟩, he⟩, rfl⟩

theorem pinFits_congr {registry : Registry} {c d : Circuit} {net : String} {r s : PortRef}
    {port : Port} (harray : c.carriesArray net = d.carriesArray net)
    (htypes : ∀ t, t ∈ c.typesBeside net r ↔ t ∈ d.typesBeside net s) :
    c.PinFits registry net r port ↔ d.PinFits registry net s port := by
  rw [pinFits_iff, pinFits_iff, harray, Registry.adapter?_congr htypes]

theorem pinAt_congr {registry : Registry} {c d : Circuit} {net : String} {r s : PortRef}
    {port : Port} (hport : r.port = s.port)
    (htypes : ∀ t, t ∈ c.typesBeside net r ↔ t ∈ d.typesBeside net s) :
    c.pinAt registry net r port = d.pinAt registry net s port := by
  rw [pinAt, pinAt, hport, Registry.adapter?_congr htypes]

/-- The pins of a node: its labelled ports, in port order. -/
def pinsOf (registry : Registry) (c : Circuit) (entry : Node × Nat) : List Wrapper.Pin :=
  entry.1.ports.zipIdx.filterMap fun (port, p) =>
    (c.netOf? ⟨entry.2, p⟩).map fun net => c.pinAt registry net ⟨entry.2, p⟩ port

/-- The wrapper of a node at a position. -/
def wrapperAt (registry : Registry) (c : Circuit) (entry : Node × Nat) : Wrapper :=
  ⟨entry.2, entry.1.wrapperClass, c.pinsOf registry entry⟩

/-- Every labelled port of a connector fits. -/
def PinsFit (registry : Registry) (c : Circuit) : Prop :=
  ∀ l ∈ c.labels, ∀ e, c.endpoint? l.target = some e → e.node.role = .connector →
    c.PinFits registry l.name l.target e.port

end Circuit

namespace Wrapper

theorem incoming_eq_ok {c : Circuit} (hc : c.Closed) {net : String} {s : Site}
    (hs : s.connection = c.connection net) :
    incoming c s =
      .ok ((c.typesBeside net s.ref).eraseDups.mergeSort fun a b => decide (a ≤ b)) := by
  have hothers := Circuit.mapM_endpoint fun r (hr : r ∈ (c.wired net).filter (· != s.ref)) =>
    hc.exists_endpoint (List.mem_of_mem_filter hr)
  simp only [incoming, hs, bind_eq_ok_iff, pure_eq_ok_iff]
  exact ⟨_, hothers, rfl⟩

/-- What a site comes to. -/
def adapt (registry : Registry) (c : Circuit) (cs : Connections) (s : Site) : Except Fault Pin :=
  (adapting registry c s).result (cs.answers c)

/-- Once it is known whether the connection is an array and what it is wired to. -/
theorem adapt_eq {c : Circuit} {cs : Connections} {s : Site} {isArray : Bool} {types : List String}
    (harray : (Inquiry.isArray s.connectionId).result (cs.answers c) = .ok isArray)
    (htypes : incoming c s = .ok types) (registry : Registry) :
    adapt registry c cs s =
      match pinNumber? s.port.name with
      | none => .error (.pinName s.node.name s.port.name)
      | some number =>
        if isArray then .error (.pinOnArray s.node.name s.port.name s.connection.name)
        else
          match registry.adapter? types with
          | none => .error (.pinTypes s.node.name s.port.name types)
          | some rule => .ok ⟨s.ref.port, s.port.name, number, rule.exposes⟩ := by
  rw [adapt, adapting]
  cases pinNumber? s.port.name with
  | none => rfl
  | some number =>
    dsimp only
    rw [Inquiry.result_bind, harray, ok_bind]
    cases isArray with
    | true => rfl
    | false =>
      rw [if_neg Bool.false_ne_true, if_neg Bool.false_ne_true, Inquiry.result_bind,
        Inquiry.result_lift, htypes, ok_bind]
      cases registry.adapter? types <;> rfl

theorem wrapAll_eq (registry : Registry) (c : Circuit) (cs : Connections) :
    wrapAll registry c cs = (connectors c).mapM fun entry => do
      let sites ← sitesOf cs entry
      let pins ← sites.mapM (adapt registry c cs)
      return { node := entry.2, className := entry.1.wrapperClass, pins } := by
  rw [wrapAll, Inquiry.result_run, wrapping, Inquiry.result_mapM]
  refine congrArg ((connectors c).mapM ·) (funext fun entry => ?_)
  simp only [wrappingOne, Inquiry.result_bind, Inquiry.result_lift, Inquiry.result_mapM]
  rfl

/-- The site of a port of a node that stands on a net. -/
def siteAt (c : Circuit) (entry : Circuit.Node × Nat) (port : Port × Nat) (net : String) :
    Site where
  node := entry.1
  port := port.1
  ref := ⟨entry.2, port.2⟩
  connection := c.connection net
  connectionId := c.nets.idxOf net

theorem adapt_eq_ok_iff {registry : Registry} {c : Circuit} (hc : c.Closed) {net : String}
    (hmem : net ∈ c.nets) (hnet : c.Uniform net) {entry : Circuit.Node × Nat} {port : Port × Nat}
    {pin : Pin} :
    adapt registry c c.connections (siteAt c entry port net) = .ok pin ↔
      c.PinFits registry net ⟨entry.2, port.2⟩ port.1 ∧
        pin = c.pinAt registry net ⟨entry.2, port.2⟩ port.1 := by
  have harray := Connections.result_isArray_connections hc hmem hnet
  have hadapter : registry.adapter?
      ((c.typesBeside net ⟨entry.2, port.2⟩).eraseDups.mergeSort fun a b => decide (a ≤ b)) =
        registry.adapter? (c.typesBeside net ⟨entry.2, port.2⟩) :=
    Registry.adapter?_congr fun t => by rw [List.mem_mergeSort, List.mem_eraseDups]
  rw [adapt_eq (s := siteAt c entry port net) harray (incoming_eq_ok hc rfl), Circuit.pinFits_iff,
    Circuit.pinAt]
  dsimp only [siteAt]
  rw [hadapter]
  cases pinNumber? port.1.name with
  | none => simp
  | some number =>
    cases c.carriesArray net with
    | true => simp
    | false => cases registry.adapter? (c.typesBeside net ⟨entry.2, port.2⟩) <;> simp [eq_comm]

end Wrapper

/-- The sites of a node: its labelled ports, in port order. -/
def Circuit.sitesOf (c : Circuit) (entry : Circuit.Node × Nat) : List Wrapper.Site :=
  entry.1.ports.zipIdx.filterMap fun port =>
    (c.netOf? ⟨entry.2, port.2⟩).map (Wrapper.siteAt c entry port)

namespace Wrapper

theorem sitesOf_connections (c : Circuit) (entry : Circuit.Node × Nat) :
    sitesOf c.connections entry = .ok (c.sitesOf entry) := by
  have hsites : ∀ port, siteAt? c.connections entry.1 entry.2 port =
      .ok ((c.netOf? ⟨entry.2, port.2⟩).map (siteAt c entry port)) := by
    intro port
    rw [siteAt?, Connections.owner?_connections]
    cases c.netOf? ⟨entry.2, port.2⟩ <;> rfl
  rw [sitesOf, mapM_eq_ok_map fun port _ => hsites port]
  change Except.ok _ = Except.ok _
  rw [List.filterMap_map]
  rfl

theorem mem_sitesOf_connections {c : Circuit} {entry : Circuit.Node × Nat} {s : Site} :
    s ∈ c.sitesOf entry ↔ ∃ port p net, entry.1.ports[p]? = some port ∧
      c.netOf? ⟨entry.2, p⟩ = some net ∧ siteAt c entry (port, p) net = s := by
  simp only [Circuit.sitesOf, List.mem_filterMap, Prod.exists, List.mem_zipIdx_iff_getElem?,
    Option.map_eq_some_iff]
  constructor
  · rintro ⟨port, p, hport, net, hnet, rfl⟩
    exact ⟨port, p, net, hport, hnet, rfl⟩
  · rintro ⟨port, p, net, hport, hnet, rfl⟩
    exact ⟨port, p, hport, net, hnet, rfl⟩

/-- The condition and the value of one wrapper. -/
theorem mapM_adapt_eq_ok_iff {registry : Registry} {c : Circuit} (hclosed : c.Closed)
    (huniform : ∀ net ∈ c.nets, c.Uniform net) (entry : Circuit.Node × Nat) (pins : List Pin) :
    (c.sitesOf entry).mapM (adapt registry c c.connections) = .ok pins ↔
      (∀ s ∈ c.sitesOf entry, c.PinFits registry s.connection.name s.ref s.port) ∧
        pins = c.pinsOf registry entry := by
  have hstep : ∀ s ∈ c.sitesOf entry, ∀ pin, adapt registry c c.connections s = .ok pin ↔
      c.PinFits registry s.connection.name s.ref s.port ∧
        pin = c.pinAt registry s.connection.name s.ref s.port := by
    intro s hs pin
    obtain ⟨port, p, net, -, hnet, rfl⟩ := mem_sitesOf_connections.mp hs
    have hmem := Circuit.mem_nets_of_netOf? hnet
    exact adapt_eq_ok_iff hclosed hmem (huniform net hmem)
  rw [mapM_eq_ok_iff hstep, Circuit.sitesOf, List.map_filterMap]
  simp only [Option.map_map]
  rfl

/-- All connectors can be wrapped exactly when all their labelled ports fit. -/
theorem wrapAll_eq_ok_iff {registry : Registry} {c : Circuit} (hclosed : c.Closed)
    (hshared : c.Unshared) (huniform : ∀ net ∈ c.nets, c.Uniform net) {ws : List Wrapper} :
    wrapAll registry c c.connections = .ok ws ↔
      c.PinsFit registry ∧ ws = (connectors c).map (c.wrapperAt registry) := by
  have hstep : ∀ entry ∈ connectors c, ∀ w,
      (do
        let sites ← sitesOf c.connections entry
        let pins ← sites.mapM (adapt registry c c.connections)
        return { node := entry.2, className := entry.1.wrapperClass, pins }) = Except.ok w ↔
        (∀ s ∈ c.sitesOf entry, c.PinFits registry s.connection.name s.ref s.port) ∧
          w = c.wrapperAt registry entry := by
    intro entry _ w
    simp only [sitesOf_connections, ok_bind, bind_eq_ok_iff, mapM_adapt_eq_ok_iff hclosed huniform,
      pure_eq_ok_iff]
    constructor
    · rintro ⟨_, ⟨hfits, rfl⟩, rfl⟩
      exact ⟨hfits, rfl⟩
    · rintro ⟨hfits, rfl⟩
      exact ⟨_, ⟨hfits, rfl⟩, rfl⟩
  rw [wrapAll_eq, mapM_eq_ok_iff hstep]
  refine and_congr_left fun _ => ?_
  constructor
  · intro hfits l hl e he hrole
    obtain ⟨hnode, hport⟩ := Circuit.endpoint?_eq_some_iff.mp he
    have hentry : (e.node, l.target.node) ∈ connectors c :=
      List.mem_filter.mpr ⟨List.mem_zipIdx_iff_getElem?.mpr hnode, by simp [hrole]⟩
    exact hfits _ hentry _ (mem_sitesOf_connections.mpr
      ⟨e.port, l.target.port, l.name, hport, hshared.netOf?_target hl, rfl⟩)
  · intro hfits entry hentry s hs
    obtain ⟨port, p, net, hport, hnet, rfl⟩ := mem_sitesOf_connections.mp hs
    obtain ⟨hnode, hrole⟩ := List.mem_filter.mp hentry
    obtain ⟨l, hl, hname, htarget⟩ := Circuit.mem_wired.mp (hshared.netOf?_eq_some_iff.mp hnet)
    have he : c.endpoint? l.target = some ⟨entry.1, port⟩ := by
      rw [htarget]
      exact Circuit.endpoint?_eq_some_iff.mpr ⟨List.mem_zipIdx_iff_getElem?.mp hnode, hport⟩
    have hfit := hfits l hl _ he (by simpa using hrole)
    rwa [hname, htarget] at hfit

end Wrapper

end Schematic
