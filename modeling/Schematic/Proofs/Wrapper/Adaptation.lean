import Mathlib.Data.List.Sort
import Mathlib.Data.Set.Basic
import Schematic.Proofs.Connection.Agreement
import Schematic.Proofs.Connection.Partition
import Schematic.Proofs.Pipeline.Forgetting
import Schematic.Proofs.Wrapper.PinNames
import Schematic.Proofs.Wrapper.Pins

namespace Schematic

/-- There are types, a rule at a position accepts all of them, and every earlier rule misses one. -/
structure Registry.Adapts (registry : Registry) (types : Set String) (j : Nat) (rule : AdaptRule) :
    Prop where
  wired : types.Nonempty
  at_position : registry.adaptRules[j]? = some rule
  accepts : ∀ t ∈ types, t ∈ rule.accepts
  first : ∀ i < j, ∀ earlier, registry.adaptRules[i]? = some earlier →
    ∃ t ∈ types, t ∉ earlier.accepts

/-- A member that is no slot is an array. -/
def Connection.HasArray (c : Circuit) (k : Connection) : Prop :=
  ∃ r ∈ k.members, ∃ e, c.endpoint? r = some e ∧ e.port.isSlot = false ∧ e.port.isArray = true

namespace Wrapper

namespace Site

/-- Nodes come before ports. -/
def place (s : Site) : Nat × Nat :=
  (s.ref.node, s.ref.port)

/-- The site is a labelled port of a connector, with the connection of the label. -/
structure On (c : Circuit) (cs : Connections) (s : Site) : Prop where
  node : c.nodes[s.ref.node]? = some s.node
  connector : s.node.role = .connector
  port : s.node.ports[s.ref.port]? = some s.port
  connection : cs.list[s.connectionId]? = some s.connection
  label : ∃ l ∈ c.labels, l.name = s.connection.name ∧ l.target = s.ref

/-- The types of the other members of the connection, those on the same connector included. -/
def beside (c : Circuit) (s : Site) : Set String :=
  { t | ∃ r ∈ s.connection.members, r ≠ s.ref ∧ ∃ e, c.endpoint? r = some e ∧ e.port.type = t }

/-- The pin that the circuit calls for at a site. -/
structure Becomes (registry : Registry) (c : Circuit) (s : Site) (pin : Pin) : Prop where
  port : pin.port = s.ref.port
  name : pin.name = s.port.name
  number : IsPinNumber s.port.name pin.number
  single : ¬ s.connection.HasArray c
  exposed : ∃ j rule, registry.Adapts (s.beside c) j rule ∧ pin.exposed = rule.exposes

/-- Why a site has no pin; each cause is looked for after those before it. -/
inductive Fails (registry : Registry) (c : Circuit) (s : Site) : Fault → Prop
  | name (hname : ¬ IsPinName s.port.name) : Fails registry c s (.pinName s.node.name s.port.name)
  | array (hname : IsPinName s.port.name) (harray : s.connection.HasArray c) :
    Fails registry c s (.pinOnArray s.node.name s.port.name s.connection.name)
  | types (hname : IsPinName s.port.name) (hsingle : ¬ s.connection.HasArray c)
    {types : List String} (hsorted : types.Pairwise (· < ·))
    (hmem : ∀ t, t ∈ types ↔ t ∈ s.beside c)
    (hnone : ∀ j rule, ¬ registry.Adapts (s.beside c) j rule) :
    Fails registry c s (.pinTypes s.node.name s.port.name types)

end Site

/-- The wrappers are those of the connectors of a circuit, with their labelled ports as pins. -/
structure Adaptation (registry : Registry) (c : Circuit) (cs : Connections) (ws : List Wrapper) :
    Prop where
  /-- The wrappers stand in node order. -/
  sorted : (ws.map (·.node)).Pairwise (· < ·)
  /-- Each connector has one, which is named by type and name, and no other node has one. -/
  classes : ∀ n className, (∃ w ∈ ws, w.node = n ∧ w.className = className) ↔
    ∃ node, c.nodes[n]? = some node ∧ node.role = .connector ∧
      className = node.type ++ "_" ++ node.name
  /-- The pins stand in port order. -/
  ports : ∀ w ∈ ws, (w.pins.map (·.port)).Pairwise (· < ·)
  /-- Each labelled port of the connector has become a pin. -/
  adapted : ∀ w ∈ ws, ∀ s : Site, s.On c cs → s.ref.node = w.node →
    ∃ pin ∈ w.pins, s.Becomes registry c pin
  /-- Each pin comes from such a port. -/
  labelled : ∀ w ∈ ws, ∀ pin ∈ w.pins,
    ∃ s : Site, s.On c cs ∧ s.ref.node = w.node ∧ s.Becomes registry c pin

end Wrapper

section

variable {registry : Registry} {types : Set String} {rule other : AdaptRule} {i j : Nat}

theorem Registry.Adapts.le (hrule : registry.Adapts types j rule)
    (hother : registry.Adapts types i other) : j ≤ i := by
  by_contra hless
  obtain ⟨t, ht, hmissed⟩ := hrule.first i (by omega) other hother.at_position
  exact hmissed (hother.accepts t ht)

/-- A set of types has at most one first rule. -/
theorem Registry.Adapts.rule_eq (hrule : registry.Adapts types j rule)
    (hother : registry.Adapts types i other) : rule = other := by
  have hsame : j = i := Nat.le_antisymm (hrule.le hother) (hother.le hrule)
  subst hsame
  exact Option.some.inj (hrule.at_position.symm.trans hother.at_position)

theorem Registry.adapter?_eq_some_iff {listed : List String} (hmem : ∀ t, t ∈ listed ↔ t ∈ types) :
    registry.adapter? listed = some rule ↔ ∃ j, registry.Adapts types j rule := by
  have hcovers : ∀ r : AdaptRule,
      r.covers listed = true ↔ types.Nonempty ∧ ∀ t ∈ types, t ∈ r.accepts := by
    intro r
    rw [AdaptRule.covers_iff]
    simp only [hmem]
    rfl
  rw [adapter?, List.find?_eq_some_iff_getElem]
  constructor
  · intro hfound
    obtain ⟨hcovered, j, hj, rfl, hbefore⟩ := hfound
    obtain ⟨hwired, haccepts⟩ := (hcovers _).mp hcovered
    refine ⟨j, hwired, List.getElem?_eq_getElem hj, haccepts, ?_⟩
    intro i hi earlier hearlier
    obtain ⟨_, rfl⟩ := List.getElem?_eq_some_iff.mp hearlier
    have hmissed := hbefore i hi
    rw [Bool.not_eq_true', ← Bool.not_eq_true, hcovers] at hmissed
    by_contra hall
    push Not at hall
    exact hmissed ⟨hwired, hall⟩
  · intro hadapts
    obtain ⟨j, hwired, hat, haccepts, hfirst⟩ := hadapts
    obtain ⟨hj, rfl⟩ := List.getElem?_eq_some_iff.mp hat
    refine ⟨(hcovers _).mpr ⟨hwired, haccepts⟩, j, hj, rfl, ?_⟩
    intro i hi
    obtain ⟨t, ht, hmissed⟩ :=
      hfirst i hi _ (List.getElem?_eq_getElem (Nat.lt_trans hi hj))
    rw [Bool.not_eq_true', ← Bool.not_eq_true, hcovers]
    intro hcovered
    exact hmissed (hcovered.2 t ht)

theorem Registry.adapter?_eq_none_iff {listed : List String} (hmem : ∀ t, t ∈ listed ↔ t ∈ types) :
    registry.adapter? listed = none ↔ ∀ j rule, ¬ registry.Adapts types j rule := by
  simp only [Option.eq_none_iff_forall_ne_some, ne_eq, adapter?_eq_some_iff hmem, not_exists]
  exact forall_comm

end

namespace Connection

variable {c : Circuit} {k : Connection} {shape : Shape}

private theorem exists_endpoint_of_shapeIn (hk : k.shapeIn c = .ok shape) :
    ∀ r ∈ k.members, ∃ e, c.endpoint? r = some e := by
  intro r hr
  obtain ⟨_, hsolid, -⟩ := bind_eq_ok_iff.mp hk
  obtain ⟨es, hes, -⟩ := bind_eq_ok_iff.mp hsolid
  obtain ⟨e, -, he⟩ := exists_of_forall₂_of_mem (mapM_eq_ok_iff_forall₂.mp hes).flip hr
  exact ⟨e, Circuit.endpoint_eq_ok_iff.mp he⟩

private theorem eq_array_iff_of_shapeIn (hk : k.shapeIn c = .ok shape) :
    shape = .array ↔ k.HasArray c := by
  have hwithin : k.Within c := exists_endpoint_of_shapeIn hk
  obtain ⟨hslots, hshape⟩ | ⟨isArray, hagrees, hshape⟩ | ⟨_, _, -, -, -, hshape⟩ :=
    hwithin.shapeIn_cases
  · cases hk.symm.trans hshape
    constructor
    · intro harray
      cases harray
    · intro harray
      obtain ⟨r, hr, e, he, hslot, -⟩ := harray
      rw [hslots r hr e he] at hslot
      cases hslot
  · cases hk.symm.trans hshape
    have hhas : k.HasArray c ↔ isArray = true := by
      constructor
      · intro harray
        obtain ⟨r, hr, e, he, hslot, harray⟩ := harray
        rw [← hagrees.alike r hr e he hslot, harray]
      · intro harray
        obtain ⟨r, hr, e, he, hslot⟩ := hagrees.solid
        exact ⟨r, hr, e, he, hslot, (hagrees.alike r hr e he hslot).trans harray⟩
    rw [hhas]
    exact Shape.ofPort_inj (b := true)
  · cases hk.symm.trans hshape

private theorem exists_isArray_eq_ok (hunknown : k.known = none) (hk : k.shape c = .ok shape) :
    ∃ b, k.isArray c = .ok b ∧ (b = true ↔ k.HasArray c) := by
  have hin : k.shapeIn c = .ok shape := (shape_of_unknown hunknown c).symm.trans hk
  refine ⟨shape == .array, ?_, ?_⟩
  · rw [isArray, hk]
    rfl
  · rw [beq_iff_eq, eq_array_iff_of_shapeIn hin]

end Connection

namespace Wrapper

/-- The types beside a pin as they are told: in order and once each. -/
def Site.types (c : Circuit) (s : Site) : List String :=
  ((c.endpoints (s.connection.members.filter (· != s.ref))).map (·.port.type)).eraseDups.mergeSort
    fun a b => decide (a ≤ b)

section

variable {registry : Registry} {c : Circuit} {s : Site}

theorem Site.mem_types {t : String} : t ∈ s.types c ↔ t ∈ s.beside c := by
  simp only [types, beside, List.mem_mergeSort, List.mem_eraseDups, List.mem_map,
    Circuit.mem_endpoints, List.mem_filter, bne_iff_ne, Set.mem_ofPred_eq]
  constructor
  · intro ht
    obtain ⟨e, ⟨r, ⟨hr, hne⟩, he⟩, htype⟩ := ht
    exact ⟨r, hr, hne, e, he, htype⟩
  · intro ht
    obtain ⟨r, hr, hne, e, he, htype⟩ := ht
    exact ⟨e, ⟨r, ⟨hr, hne⟩, he⟩, htype⟩

theorem Site.pairwise_types (c : Circuit) (s : Site) : (s.types c).Pairwise (· < ·) := by
  have hle : (s.types c).Pairwise fun a b => decide (a ≤ b) = true := by
    apply List.pairwise_mergeSort
    · intro a b d hab hbd
      exact decide_eq_true (String.le_trans (of_decide_eq_true hab) (of_decide_eq_true hbd))
    · intro a b
      rcases String.le_total a b with hab | hba
      · simp [hab]
      · simp [hba]
  have hnodup : (s.types c).Nodup := (List.mergeSort_perm _ _).nodup_iff.mpr (nodup_eraseDups _)
  refine (hle.and hnodup).imp ?_
  intro a b hab
  by_contra hnot
  exact hab.2 (String.le_antisymm (of_decide_eq_true hab.1) (String.not_lt.mp hnot))

private theorem incoming_eq_types
    (hmembers : ∀ r ∈ s.connection.members, ∃ e, c.endpoint? r = some e) :
    incoming c s = .ok (s.types c) := by
  have hothers := Circuit.mapM_endpoint
    fun r (hr : r ∈ s.connection.members.filter (· != s.ref)) =>
      hmembers r (List.mem_of_mem_filter hr)
  rw [incoming, hothers]
  rfl

variable {cs : Connections} {b : Bool}
  (harray : (Inquiry.isArray s.connectionId).result (cs.answers c) = .ok b)
  (hb : b = true ↔ s.connection.HasArray c)
  (hmembers : ∀ r ∈ s.connection.members, ∃ e, c.endpoint? r = some e)

include harray hb hmembers

private theorem adapt_eq_ok_iff_becomes {pin : Pin} :
    adapt registry c cs s = .ok pin ↔ s.Becomes registry c pin := by
  rw [adapt_eq harray (incoming_eq_types hmembers)]
  constructor
  · intro hpin
    cases hnumber : pinNumber? s.port.name with
    | none =>
      rw [hnumber] at hpin
      cases hpin
    | some number =>
      rw [hnumber] at hpin
      cases b with
      | true => cases hpin
      | false =>
        cases hrule : registry.adapter? (s.types c) with
        | none => simp [hrule] at hpin
        | some rule =>
          simp only [hrule, Bool.false_eq_true, if_false, Except.ok.injEq] at hpin
          subst hpin
          obtain ⟨j, hj⟩ := (Registry.adapter?_eq_some_iff fun _ => Site.mem_types).mp hrule
          exact ⟨rfl, rfl, pinNumber?_eq_some_iff.mp hnumber, by simp [← hb], j, rule, hj, rfl⟩
  · intro hpin
    obtain ⟨hport, hname, hnumber, hsingle, j, rule, hrule, hexposed⟩ := hpin
    have hfalse : b = false := by simpa [← hb] using hsingle
    have hadapter := (Registry.adapter?_eq_some_iff fun _ => Site.mem_types).mpr ⟨j, hrule⟩
    rw [pinNumber?_eq_some_iff.mpr hnumber, hfalse]
    simp only [hadapter, Bool.false_eq_true, if_false, Except.ok.injEq]
    obtain ⟨_, _, _, _⟩ := pin
    simp_all

private theorem adapt_eq_error_iff_fails {f : Fault} :
    adapt registry c cs s = .error f ↔ s.Fails registry c f := by
  rw [adapt_eq harray (incoming_eq_types hmembers)]
  constructor
  · intro hf
    cases hnumber : pinNumber? s.port.name with
    | none =>
      have hname : ¬ IsPinName s.port.name := by
        rw [← pinNumber?_isSome_iff, hnumber]
        simp
      rw [hnumber] at hf
      cases hf
      exact .name hname
    | some number =>
      have hname := pinNumber?_isSome_iff.mp (Option.isSome_of_eq_some hnumber)
      rw [hnumber] at hf
      cases b with
      | true =>
        cases hf
        exact .array hname (hb.mp rfl)
      | false =>
        have hsingle : ¬ s.connection.HasArray c := by simp [← hb]
        cases hrule : registry.adapter? (s.types c) with
        | none =>
          simp only [hrule, Bool.false_eq_true, if_false] at hf
          cases hf
          exact .types hname hsingle (s.pairwise_types c) (fun _ => Site.mem_types)
            ((Registry.adapter?_eq_none_iff fun _ => Site.mem_types).mp hrule)
        | some rule =>
          simp only [hrule, Bool.false_eq_true, if_false] at hf
          cases hf
  · intro hf
    cases hf with
    | name hname =>
      have hnumber : pinNumber? s.port.name = none := by
        rw [← Option.not_isSome_iff_eq_none, pinNumber?_isSome_iff]
        exact hname
      rw [hnumber]
    | array hname hhas =>
      obtain ⟨number, hnumber⟩ := isPinName_iff_exists.mp hname
      rw [pinNumber?_eq_some_iff.mpr hnumber, hb.mpr hhas]
      rfl
    | types hname hsingle hsorted hmem hnone =>
      obtain ⟨number, hnumber⟩ := isPinName_iff_exists.mp hname
      have hfalse : b = false := by simpa [← hb] using hsingle
      have hadapter := (Registry.adapter?_eq_none_iff fun _ => Site.mem_types).mpr hnone
      -- There is one way to list a set in order.
      have hlisted := List.Pairwise.eq_of_mem_iff hsorted (s.pairwise_types c)
        fun t => (hmem t).trans Site.mem_types.symm
      rw [pinNumber?_eq_some_iff.mpr hnumber, hfalse, hlisted]
      simp only [hadapter, Bool.false_eq_true, if_false]

end

section

variable {c : Circuit}

theorem mem_connectors {node : Circuit.Node} {n : Nat} :
    (node, n) ∈ connectors c ↔ c.nodes[n]? = some node ∧ node.role = .connector := by
  rw [connectors, List.mem_filter, List.mem_zipIdx_iff_getElem?, beq_iff_eq]

theorem mem_sitesOf_iff (hshared : c.Unshared) {entry : Circuit.Node × Nat} {s : Site} :
    s ∈ c.sitesOf entry ↔ s.node = entry.1 ∧ s.ref.node = entry.2 ∧
      entry.1.ports[s.ref.port]? = some s.port ∧
      c.connections.list[s.connectionId]? = some s.connection ∧
      ∃ l ∈ c.labels, l.name = s.connection.name ∧ l.target = s.ref := by
  rw [mem_sitesOf_connections]
  simp only [← Circuit.mem_wired, ← hshared.netOf?_eq_some_iff]
  constructor
  · intro hs
    obtain ⟨port, p, net, hport, hnet, rfl⟩ := hs
    exact ⟨rfl, rfl, hport, Connections.getElem?_connections (Circuit.mem_nets_of_netOf? hnet),
      hnet⟩
  · intro hs
    obtain ⟨hnode, href, hport, hk, hlabel⟩ := hs
    obtain ⟨hi, hconnection⟩ := Connections.getElem?_connections_eq_some hk
    have hid : s.connectionId = c.nets.idxOf s.connection.name := by
      rw [← (Connections.indexed_connections hshared).ids _ _ hk, hconnection]
      rfl
    obtain ⟨node, port, ⟨n, p⟩, k, i⟩ := s
    cases hnode
    cases href
    refine ⟨port, p, k.name, hport, hlabel, ?_⟩
    dsimp only at hid hconnection
    rw [siteAt, ← hconnection, hid]

theorem Site.on_iff (hshared : c.Unshared) {s : Site} :
    s.On c c.connections ↔ ∃ entry ∈ connectors c, s ∈ c.sitesOf entry := by
  simp only [mem_sitesOf_iff hshared, Prod.exists, mem_connectors]
  constructor
  · intro hs
    exact ⟨s.node, s.ref.node, ⟨hs.node, hs.connector⟩, rfl, rfl, hs.port, hs.connection, hs.label⟩
  · intro hs
    obtain ⟨node, n, ⟨hnode, hrole⟩, rfl, rfl, hport, hk, hlabel⟩ := hs
    exact ⟨hnode, hrole, hport, hk, hlabel⟩

private theorem pairwise_connectors (c : Circuit) : (connectors c).Pairwise fun a b => a.2 < b.2 :=
  (pairwise_zipIdx c.nodes).filter _

private theorem pairwise_sitesOf (c : Circuit) (entry : Circuit.Node × Nat) :
    (c.sitesOf entry).Pairwise fun s t => s.ref.port < t.ref.port := by
  rw [Circuit.sitesOf, List.pairwise_filterMap]
  refine (pairwise_zipIdx entry.1.ports).imp ?_
  intro port other hless s hs t ht
  obtain ⟨_, -, rfl⟩ := Option.map_eq_some_iff.mp hs
  obtain ⟨_, -, rfl⟩ := Option.map_eq_some_iff.mp ht
  exact hless

private theorem pairwise_sites (hshared : c.Unshared) :
    ((connectors c).flatMap c.sitesOf).Pairwise
      fun s t => Prod.Lex (· < ·) (· < ·) s.place t.place := by
  rw [List.pairwise_flatMap]
  constructor
  · intro entry _
    refine (pairwise_sitesOf c entry).imp_of_mem ?_
    intro s t hs ht hless
    obtain ⟨-, hsnode, -⟩ := (mem_sitesOf_iff hshared).mp hs
    obtain ⟨-, htnode, -⟩ := (mem_sitesOf_iff hshared).mp ht
    exact Prod.lex_def.mpr (.inr ⟨hsnode.trans htnode.symm, hless⟩)
  · refine (pairwise_connectors c).imp ?_
    intro entry other hless s hs t ht
    obtain ⟨-, hsnode, -⟩ := (mem_sitesOf_iff hshared).mp hs
    obtain ⟨-, htnode, -⟩ := (mem_sitesOf_iff hshared).mp ht
    rw [← hsnode, ← htnode] at hless
    exact Prod.lex_def.mpr (.inl hless)

theorem Site.not_lex_of_lex {s t : Site} (hless : Prod.Lex (· < ·) (· < ·) s.place t.place) :
    ¬ Prod.Lex (· < ·) (· < ·) t.place s.place := by
  rw [Prod.lex_def] at hless ⊢
  omega

variable {registry : Registry}

theorem wrapAll_eq_error_iff (hshared : c.Unshared)
    (hfails : ∀ s : Site, s.On c c.connections →
      ∀ f, adapt registry c c.connections s = .error f ↔ s.Fails registry c f)
    {f : Fault} :
    wrapAll registry c c.connections = .error f ↔
      ∃ s : Site, s.On c c.connections ∧ s.Fails registry c f ∧
      ∀ t : Site, t.On c c.connections → Prod.Lex (· < ·) (· < ·) t.place s.place →
        ∀ g, ¬ t.Fails registry c g := by
  have hon : ∀ s : Site, s ∈ (connectors c).flatMap c.sitesOf ↔ s.On c c.connections := by
    intro s
    rw [List.mem_flatMap, Site.on_iff hshared]
  have hsucceeds : ∀ t : Site, t.On c c.connections →
      ((∃ pin, adapt registry c c.connections t = .ok pin) ↔ ∀ g, ¬ t.Fails registry c g) := by
    intro t ht
    simp only [← hfails t ht]
    cases adapt registry c c.connections t <;> simp
  simp only [wrapAll_eq, sitesOf_connections, ok_bind]
  rw [mapM_flatMap_eq_error_iff,
    mapM_eq_error_iff_first (fun _ _ => Site.not_lex_of_lex) (pairwise_sites hshared)]
  constructor
  · intro hfirst
    obtain ⟨s, hs, hf, hbefore⟩ := hfirst
    have hs := (hon s).mp hs
    refine ⟨s, hs, (hfails s hs f).mp hf, ?_⟩
    intro t ht hless
    exact (hsucceeds t ht).mp (hbefore t ((hon t).mpr ht) hless)
  · intro hfirst
    obtain ⟨s, hs, hf, hbefore⟩ := hfirst
    refine ⟨s, (hon s).mpr hs, (hfails s hs f).mpr hf, ?_⟩
    intro t ht hless
    have ht := (hon t).mp ht
    exact (hsucceeds t ht).mpr (hbefore t ht hless)

/-- The wrappers stand beside the connectors, and their pins beside the labelled ports. -/
theorem forall₂_of_wrapAll {cs : Connections} {ws : List Wrapper}
    (hws : wrapAll registry c cs = .ok ws) :
    List.Forall₂ (fun entry w => entry.2 = w.node ∧ entry.1.wrapperClass = w.className ∧
      ∃ sites, sitesOf cs entry = .ok sites ∧
        List.Forall₂ (fun s pin => adapt registry c cs s = .ok pin) sites w.pins)
      (connectors c) ws := by
  rw [wrapAll_eq] at hws
  refine (mapM_eq_ok_iff_forall₂.mp hws).imp ?_
  intro entry w hw
  obtain ⟨sites, hsites, hw⟩ := bind_eq_ok_iff.mp hw
  obtain ⟨pins, hpins, hw⟩ := bind_eq_ok_iff.mp hw
  cases hw
  exact ⟨rfl, rfl, sites, hsites, mapM_eq_ok_iff_forall₂.mp hpins⟩

private theorem adaptation_of_wrapAll (hshared : c.Unshared)
    (hbecomes : ∀ s : Site, s.On c c.connections → ∀ pin,
      adapt registry c c.connections s = .ok pin ↔ s.Becomes registry c pin)
    {ws : List Wrapper} (hws : wrapAll registry c c.connections = .ok ws) :
    Adaptation registry c c.connections ws := by
  have hall := forall₂_of_wrapAll hws
  have hpins : ∀ entry ∈ connectors c, ∀ pins,
      List.Forall₂ (fun s pin => adapt registry c c.connections s = .ok pin)
        (c.sitesOf entry) pins →
      List.Forall₂ (fun s pin => s.On c c.connections ∧ s.ref.node = entry.2 ∧
        s.Becomes registry c pin) (c.sitesOf entry) pins := by
    intro entry hentry pins hadapted
    have hsites : ∀ s ∈ c.sitesOf entry, s.On c c.connections ∧ s.ref.node = entry.2 := by
      intro s hs
      exact ⟨(Site.on_iff hshared).mpr ⟨entry, hentry, hs⟩, ((mem_sitesOf_iff hshared).mp hs).2.1⟩
    refine ((List.forall₂_and_left _ _).mpr ⟨hsites, hadapted⟩).imp ?_
    intro s pin hpin
    obtain ⟨⟨hon, hnode⟩, hadapt⟩ := hpin
    exact ⟨hon, hnode, (hbecomes s hon pin).mp hadapt⟩
  have hfrom : ∀ w ∈ ws, ∃ entry ∈ connectors c, entry.2 = w.node ∧
      entry.1.wrapperClass = w.className ∧ List.Forall₂
        (fun s pin => s.On c c.connections ∧ s.ref.node = entry.2 ∧ s.Becomes registry c pin)
        (c.sitesOf entry) w.pins := by
    intro w hw
    obtain ⟨entry, hentry, hnode, hclass, sites, hsites, hadapted⟩ :=
      exists_of_forall₂_of_mem hall hw
    cases hsites.symm.trans (sitesOf_connections c entry)
    exact ⟨entry, hentry, hnode, hclass, hpins entry hentry w.pins hadapted⟩
  constructor
  case sorted =>
    have hnodes : (connectors c).map (·.2) = ws.map (·.node) :=
      map_eq_map_of_forall₂ (hall.imp fun _ _ hentry => hentry.1)
    rw [← hnodes, List.pairwise_map]
    exact pairwise_connectors c
  case classes =>
    intro n className
    constructor
    · intro hw
      obtain ⟨w, hw, rfl, rfl⟩ := hw
      obtain ⟨⟨node, m⟩, hentry, hnode, hclass, -⟩ := hfrom w hw
      obtain ⟨hat, hrole⟩ := mem_connectors.mp hentry
      cases hnode
      exact ⟨node, hat, hrole, hclass.symm⟩
    · intro hnode
      obtain ⟨node, hat, hrole, rfl⟩ := hnode
      have hentry : (node, n) ∈ connectors c := mem_connectors.mpr ⟨hat, hrole⟩
      obtain ⟨w, hw, hnode, hclass, -⟩ := exists_of_forall₂_of_mem hall.flip hentry
      exact ⟨w, hw, hnode.symm, hclass.symm⟩
  case ports =>
    intro w hw
    obtain ⟨entry, -, -, -, hadapted⟩ := hfrom w hw
    have hports : (c.sitesOf entry).map (·.ref.port) = w.pins.map (·.port) :=
      map_eq_map_of_forall₂ (hadapted.imp fun _ _ hpin => hpin.2.2.port.symm)
    rw [← hports, List.pairwise_map]
    exact pairwise_sitesOf c entry
  case adapted =>
    intro w hw s hs hnode
    obtain ⟨⟨node, n⟩, hentry, hposition, -, hadapted⟩ := hfrom w hw
    obtain ⟨hat, -⟩ := mem_connectors.mp hentry
    have hn : s.ref.node = n := hnode.trans hposition.symm
    have hsame : s.node = node := Option.some.inj (hs.node.symm.trans (hn ▸ hat))
    have hsite : s ∈ c.sitesOf (node, n) :=
      (mem_sitesOf_iff hshared).mpr ⟨hsame, hn, hsame ▸ hs.port, hs.connection, hs.label⟩
    obtain ⟨pin, hpin, -, -, hbecome⟩ := exists_of_forall₂_of_mem hadapted.flip hsite
    exact ⟨pin, hpin, hbecome⟩
  case labelled =>
    intro w hw pin hpin
    obtain ⟨entry, -, hposition, -, hadapted⟩ := hfrom w hw
    obtain ⟨s, -, hon, hnode, hbecome⟩ := exists_of_forall₂_of_mem hadapted hpin
    exact ⟨s, hon, hnode.trans hposition, hbecome⟩

end

/-- Where all connections have shapes, whether a connection is an array is known. -/
theorem Site.On.exists_isArray {c : Circuit} {cs : Connections} (hcs : cs.Partition c)
    (hshapes : cs.checkShapes c = .ok ()) {s : Site} (hs : s.On c cs) :
    (∃ b, (Inquiry.isArray s.connectionId).result (cs.answers c) = .ok b ∧
      (b = true ↔ s.connection.HasArray c)) ∧
      ∀ r ∈ s.connection.members, ∃ e, c.endpoint? r = some e := by
  have hmem : s.connection ∈ cs.list := List.mem_of_getElem? hs.connection
  have hunknown := hcs.unknown _ hmem
  obtain ⟨shape, hshape⟩ := Connections.checkShapes_eq_ok_iff.mp hshapes _ hmem
  rw [Connections.result_isArray hs.connection]
  refine ⟨Connection.exists_isArray_eq_ok hunknown hshape, ?_⟩
  exact Connection.exists_endpoint_of_shapeIn
    ((Connection.shape_of_unknown hunknown c).symm.trans hshape)

theorem Site.Fails.path_eq {registry : Registry} {c : Circuit} {s : Site} {f : Fault}
    (hf : s.Fails registry c f) :
    ∃ d, f.problem = .invalid d ∧ d.path = [s.node.name, s.port.name] := by
  cases hf with
  | name => exact ⟨_, rfl, rfl⟩
  | array => exact ⟨_, rfl, rfl⟩
  | types => exact ⟨_, rfl, rfl⟩

/-- In a circuit whose connections have shapes, the connectors are wrapped unless a labelled port of
one of them has no pin, and then the first such port is reported. The wrappers are those of the
connectors in order, with what their labelled ports become for pins, and two sites with the same
types beside them are exposed alike. It does not matter which shapes were asked for before. -/
theorem wrapAll_adapts (registry : Registry) {c : Circuit} {cs : Connections}
    (hcs : Connections.ofCircuit c = .ok cs) (hshapes : cs.checkShapes c = .ok ()) :
    (∀ ws, wrapAll registry c cs = .ok ws → Adaptation registry c cs ws) ∧
    (∀ types j rule i other, registry.Adapts types j rule → registry.Adapts types i other →
      rule = other) ∧
    ((∃ f, wrapAll registry c cs = .error f) ↔
      ∃ s : Site, s.On c cs ∧ (¬ IsPinName s.port.name ∨ s.connection.HasArray c ∨
        ∀ j rule, ¬ registry.Adapts (s.beside c) j rule)) ∧
    (∀ f, wrapAll registry c cs = .error f ↔ ∃ s : Site, s.On c cs ∧ s.Fails registry c f ∧
      ∀ t : Site, t.On c cs → Prod.Lex (· < ·) (· < ·) t.place s.place →
        ∀ g, ¬ t.Fails registry c g) ∧
    (∀ (s : Site) f, s.Fails registry c f →
      ∃ d, f.problem = .invalid d ∧ d.path = [s.node.name, s.port.name]) ∧
    ∀ asked, wrapAll registry c (cs.remember c asked) = wrapAll registry c cs := by
  obtain ⟨hshared, rfl⟩ := Connections.ofCircuit_eq_ok_iff.mp hcs
  have hpartition := Connections.partition_connections hshared
  have hbecomes : ∀ s : Site, s.On c c.connections → ∀ pin,
      adapt registry c c.connections s = .ok pin ↔ s.Becomes registry c pin := by
    intro s hs pin
    obtain ⟨⟨b, harray, hb⟩, hmembers⟩ := hs.exists_isArray hpartition hshapes
    exact adapt_eq_ok_iff_becomes harray hb hmembers
  have hfails : ∀ s : Site, s.On c c.connections → ∀ f,
      adapt registry c c.connections s = .error f ↔ s.Fails registry c f := by
    intro s hs f
    obtain ⟨⟨b, harray, hb⟩, hmembers⟩ := hs.exists_isArray hpartition hshapes
    exact adapt_eq_error_iff_fails harray hb hmembers
  refine ⟨?_, ?_, ?_, ?_, ?_, ?_⟩
  · exact fun ws hws => adaptation_of_wrapAll hshared hbecomes hws
  · exact fun types j rule i other hrule hother => hrule.rule_eq hother
  · constructor
    · intro herror
      obtain ⟨f, hf⟩ := herror
      obtain ⟨s, hs, hfault, -⟩ := (wrapAll_eq_error_iff hshared hfails).mp hf
      refine ⟨s, hs, ?_⟩
      cases hfault with
      | name hname => exact .inl hname
      | array _ harray => exact .inr (.inl harray)
      | types _ _ _ _ hnone => exact .inr (.inr hnone)
    · intro hbad
      obtain ⟨s, hs, hcause⟩ := hbad
      cases hws : wrapAll registry c c.connections with
      | error f => exact ⟨f, rfl⟩
      | ok ws =>
        -- The wrapper of the connector would have a pin for the site.
        have hadaptation := adaptation_of_wrapAll hshared hbecomes hws
        obtain ⟨w, hw, hnode, -⟩ := (hadaptation.classes s.ref.node _).mpr
          ⟨s.node, hs.node, hs.connector, rfl⟩
        obtain ⟨pin, -, hpin⟩ := hadaptation.adapted w hw s hs hnode.symm
        obtain ⟨j, rule, hrule, -⟩ := hpin.exposed
        rcases hcause with hname | harray | hnone
        · exact absurd (isPinName_iff_exists.mpr ⟨_, hpin.number⟩) hname
        · exact absurd harray hpin.single
        · exact absurd hrule (hnone j rule)
  · exact fun f => wrapAll_eq_error_iff hshared hfails
  · exact fun s f hf => hf.path_eq
  · intro asked
    have hfaithful := Connections.faithful_connections c
    rw [← wrapAll_forget (hfaithful.remember asked), Connections.forget_remember,
      wrapAll_forget hfaithful]

/-- Two connectors and a load, with given labels and a given name for the first pin of the first
connector. -/
def terminal (first : String) (labels : List Circuit.Label) : Circuit where
  nodes := [
    { id := "j"
      name := "j1"
      type := "PassiveConnector"
      superClasses := []
      ports := [⟨first, "VoltageSource", false, none⟩, ⟨"port_1", "Passive", false, none⟩,
        ⟨"port_09", "VoltageSink", false, none⟩]
      arguments := []
      role := .connector },
    { id := "l"
      name := "load"
      type := "Load"
      superClasses := []
      ports := [⟨"pwr", "VoltageSink", false, none⟩]
      arguments := []
      role := .plain },
    { id := "k"
      name := "j2"
      type := "JstConnector"
      superClasses := ["PassiveConnector"]
      ports := [⟨"port_0", "Passive", false, none⟩]
      arguments := []
      role := .connector }]
  labels

/-- Two pins of one connector on one net with the load. -/
def supplied : List Circuit.Label :=
  [⟨"1", "v", ⟨0, 2⟩⟩, ⟨"2", "v", ⟨1, 0⟩⟩, ⟨"3", "v", ⟨0, 0⟩⟩]

/-- A pin of each connector, the second of them alone on its net. -/
def stranded : List Circuit.Label :=
  [⟨"1", "w", ⟨2, 0⟩⟩, ⟨"2", "v", ⟨1, 0⟩⟩, ⟨"3", "v", ⟨0, 0⟩⟩]

private theorem closed_supplied : (terminal "port_0" supplied).Closed := by
  constructor
  · intro l hl
    simp only [terminal, supplied, List.mem_cons, List.not_mem_nil, or_false] at hl
    obtain rfl | rfl | rfl := hl <;> exact ⟨_, rfl⟩
  · intro node hnode
    simp only [terminal, List.mem_cons, List.not_mem_nil, or_false] at hnode
    rw [← Circuit.strayPort?_eq_none_iff]
    obtain rfl | rfl | rfl := hnode <;> rfl

private theorem pinsFit_supplied : (terminal "port_0" supplied).PinsFit .builtin := by
  intro l hl e he hrole
  simp only [terminal, supplied, List.mem_cons, List.not_mem_nil, or_false] at hl
  obtain rfl | rfl | rfl := hl
  · cases he
    exact ⟨by decide, by decide, by decide⟩
  · cases he
    cases hrole
  · cases he
    exact ⟨by decide, by decide, by decide⟩

theorem wrapAll_adapts_terminal :
    (∃ (cs : Connections) (ws : List Wrapper),
      Connections.ofCircuit (terminal "port_0" supplied) = .ok cs ∧
      cs.checkShapes (terminal "port_0" supplied) = .ok () ∧
      wrapAll .builtin (terminal "port_0" supplied) cs = .ok ws ∧
      Adaptation .builtin (terminal "port_0" supplied) cs ws ∧
      ws = [⟨0, "PassiveConnector_j1",
        [⟨0, "port_0", 1, "VoltageSource"⟩, ⟨2, "port_09", 10, "VoltageSink"⟩]⟩,
        ⟨2, "JstConnector_j2", []⟩]) ∧
    (∃ cs : Connections, Connections.ofCircuit (terminal "pin_0" stranded) = .ok cs ∧
      cs.checkShapes (terminal "pin_0" stranded) = .ok () ∧
      ∃ s : Site, s.On (terminal "pin_0" stranded) cs ∧
        s.Fails .builtin (terminal "pin_0" stranded) (.pinName "j1" "pin_0")) := by
  constructor
  · have hcs : Connections.ofCircuit (terminal "port_0" supplied) =
        .ok (terminal "port_0" supplied).connections :=
      Connections.ofCircuit_eq_ok_iff.mpr ⟨by unfold Circuit.Unshared; decide, rfl⟩
    have hshapes : (terminal "port_0" supplied).connections.checkShapes
        (terminal "port_0" supplied) = .ok () := rfl
    have hclosed := closed_supplied
    have hws : wrapAll .builtin (terminal "port_0" supplied)
        (terminal "port_0" supplied).connections = .ok [⟨0, "PassiveConnector_j1",
          [⟨0, "port_0", 1, "VoltageSource"⟩, ⟨2, "port_09", 10, "VoltageSink"⟩]⟩,
          ⟨2, "JstConnector_j2", []⟩] :=
      (wrapAll_eq_ok_iff hclosed (Connections.ofCircuit_eq_ok_iff.mp hcs).1
        ((Connections.checkShapes_connections_eq_ok_iff hclosed).mp hshapes)).mpr
          ⟨pinsFit_supplied, by decide +kernel⟩
    exact ⟨_, _, hcs, hshapes, hws, (wrapAll_adapts .builtin hcs hshapes).1 _ hws, rfl⟩
  · have hcs : Connections.ofCircuit (terminal "pin_0" stranded) =
        .ok (terminal "pin_0" stranded).connections :=
      Connections.ofCircuit_eq_ok_iff.mpr ⟨by unfold Circuit.Unshared; decide, rfl⟩
    have hshapes : (terminal "pin_0" stranded).connections.checkShapes
        (terminal "pin_0" stranded) = .ok () := rfl
    have hf : wrapAll .builtin (terminal "pin_0" stranded)
        (terminal "pin_0" stranded).connections = .error (.pinName "j1" "pin_0") := rfl
    obtain ⟨s, hs, hfails, -⟩ :=
      ((wrapAll_adapts .builtin hcs hshapes).2.2.2.1 _).mp hf
    exact ⟨_, hcs, hshapes, s, hs, hfails⟩

end Wrapper

end Schematic
