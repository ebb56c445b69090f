import Schematic.Proofs.Connection.Partition
import Schematic.Proofs.Lowering.Acceptance
import Schematic.Proofs.Netlist.Broken
import Schematic.Proofs.Netlist.Placed
import Schematic.Proofs.Pipeline.Stages

namespace Schematic

open Netlist (Breaks Bears)

variable {registry : Registry} {n : Netlist}

theorem Circuit.strayPort?_eq_some {ports : List Port} {p : Port} {k : Nat}
    (hstray : strayPort? ports = some (p, k)) :
    p ∈ ports ∧ p.slotOf = some k ∧ ¬ ∃ q, ports[k]? = some q ∧ q.slotOf = none := by
  obtain ⟨q, hq, hfound⟩ := List.exists_of_findSome?_eq_some hstray
  rw [← isSlotParent_iff]
  cases hslot : q.slotOf with
  | none => simp [hslot] at hfound
  | some parent =>
    cases hparent : isSlotParent ports parent with
    | true => simp [hslot, hparent] at hfound
    | false =>
      simp only [hslot, hparent] at hfound
      cases hfound
      exact ⟨hq, hslot, by simp [hparent]⟩

theorem Circuit.ofNetlist_bears (registry : Registry) (n : Netlist) :
    FailsOnly (n.Bears registry) (ofNetlist registry n) := by
  have hnode : ∀ entry ∈ n.nodes, FailsOnly (n.Bears registry) (resolveNode registry entry) := by
    intro entry hentry
    rw [resolveNode]
    split
    next p k hstray =>
      obtain ⟨hp, hslot, hparent⟩ := strayPort?_eq_some hstray
      exact failsOnly_error
        (.broken rfl (.slotParent hslot hparent) ⟨List.mem_map_of_mem hentry, hp⟩ rfl)
    next => exact failsOnly_ok _
  have hlabel : ∀ entry ∈ n.labels, FailsOnly (n.Bears registry) (resolveLabel n.nodes entry) := by
    intro entry hentry
    have hin := List.mem_map_of_mem (f := Prod.snd) hentry
    rw [resolveLabel, find?_key_eq]
    cases hlookup : n.nodes.lookup entry.2.node with
    | none => exact failsOnly_error (.broken rfl (.unknownNode hlookup) hin rfl)
    | some c =>
      dsimp only [Option.map_some]
      split
      next => exact failsOnly_ok _
      next hport =>
        exact failsOnly_error (.broken rfl (.unknownPort hlookup (by omega)) hin rfl)
  refine (failsOnly_mapM hnode).bind fun nodes _ => ?_
  exact (failsOnly_mapM hlabel).bind fun labels _ => failsOnly_ok _

theorem Connections.ofCircuit_bears (hn : n.Resolvable) :
    FailsOnly (n.Bears registry) (ofCircuit (n.circuit registry)) := by
  intro f hf
  obtain ⟨before, l, after, cs, hlabels, hcs, hl⟩ := exists_of_foldlM_eq_error hf
  obtain ⟨hnodup, rfl⟩ := (foldlM_addLabel_eq_ok_iff (n.circuit registry).nodes [] before
    List.nodup_nil cs).mp hcs
  obtain ⟨first, rest, hentries, rfl, hrest⟩ := List.map_eq_append_iff.mp hlabels
  obtain ⟨entry, last, rfl, rfl, -⟩ := List.map_eq_cons_iff.mp hrest
  have hentry : entry.2 ∈ n.labels.map (·.2) := by simp [hentries]
  obtain ⟨c, p, hattached⟩ := hn.attached hentry
  obtain ⟨m, hm, htarget, rfl⟩ := (addLabel_eq_error_iff hnodup hattached.endpoint?).mp hl
  obtain ⟨earlier, hearlier, rfl⟩ := List.mem_map.mp hm
  have hlisted : earlier.2 ∈ n.labels.map (·.2) :=
    List.mem_map_of_mem (hentries ▸ List.mem_append_left _ hearlier)
  obtain ⟨d, q, hother⟩ := hn.attached hlisted
  obtain ⟨hnode, hport⟩ := (Netlist.refOf_eq_iff hother.node hattached.node).mp htarget
  have hsome : [earlier.2, entry.2].Sublist (n.labels.map (·.2)) := by
    rw [hentries, List.map_append, List.map_cons]
    exact (List.singleton_sublist.mpr (List.mem_map_of_mem hearlier)).append
      (List.singleton_sublist.mpr List.mem_cons_self)
  have hsame : n.Attached earlier.2 c p :=
    ⟨hlisted, by rw [hnode, hattached.node], by rw [hport, hattached.port]⟩
  have hshared : n.Bears registry (.duplicateLabel c.name p.name earlier.2.name entry.2.name) :=
    .shared hsome hsame hattached (by rw [hnode, hport])
  exact hshared

theorem Connections.checkShapes_bears (hn : n.Resolvable) :
    FailsOnly (n.Bears registry) ((n.circuit registry).connections.checkShapes
      (n.circuit registry)) := by
  rw [checkShapes_eq]
  refine failsOnly_forM fun k hk => FailsOnly.bind ?_ fun _ _ => failsOnly_ok _
  obtain ⟨net, -, rfl⟩ := List.mem_map.mp hk
  rw [Connection.shape_of_unknown rfl, Connection.shapeIn,
    Connection.solid_connection (hn.closed registry), ok_bind]
  cases hsolid : (n.circuit registry).solid net with
  | nil => exact failsOnly_ok _
  | cons e rest =>
    dsimp only
    cases hfind : rest.find? fun f => f.port.isArray != e.port.isArray with
    | none => exact failsOnly_ok _
    | some f =>
      have hdiffer := List.find?_some hfind
      obtain ⟨l, c, p, hl, hname, hslot, rfl⟩ := hn.mem_solid_iff.mp (hsolid ▸ List.mem_cons_self)
      obtain ⟨m, d, q, hm, hname', hslot', rfl⟩ := hn.mem_solid_iff.mp
        (hsolid ▸ List.mem_cons_of_mem _ (List.mem_of_find?_eq_some hfind))
      have harray : p.isArray ≠ q.isArray := Ne.symm (bne_iff_ne.mp hdiffer)
      have hbreaks : n.Breaks registry .e0300 (.label l) :=
        .mixedShape hl hm (hname'.trans hname.symm) hslot hslot' harray
      have htold : ∀ array single, n.Bears registry (.mixedShape net array single) :=
        fun _ _ => .broken rfl hbreaks hl.listed (by rw [← hname]; rfl)
      dsimp only
      split
      · exact failsOnly_error (htold _ _)
      · exact failsOnly_error (htold _ _)

/-- The labelled ports of connectors are attached to labels. -/
theorem Wrapper.exists_attached_of_mem_sitesOf (hn : n.Resolvable)
    (hshared : (n.circuit registry).Unshared) {entry : Circuit.Node × Nat}
    (hentry : entry ∈ connectors (n.circuit registry)) {s : Site}
    (hs : s ∈ (n.circuit registry).sitesOf entry) :
    ∃ l c p k, n.Attached l c p ∧ registry.roleOf c.type c.superClasses = .connector ∧
      entry.1.name = c.name ∧ n.refOf l = ⟨entry.2, k⟩ ∧
      s = siteAt (n.circuit registry) entry (p, k) l.name := by
  obtain ⟨port, k, net, hport, hnet, rfl⟩ := mem_sitesOf_connections.mp hs
  obtain ⟨hnode, hrole⟩ := List.mem_filter.mp hentry
  obtain ⟨l, hl, hname, htarget⟩ := Circuit.mem_wired.mp (hshared.netOf?_eq_some_iff.mp hnet)
  have he : (n.circuit registry).endpoint? l.target = some ⟨entry.1, port⟩ := by
    rw [htarget]
    exact Circuit.endpoint?_eq_some_iff.mpr ⟨List.mem_zipIdx_iff_getElem?.mp hnode, hport⟩
  obtain ⟨m, c, p, hm, hname', href, hendpoint⟩ := hn.exists_attached hl he
  obtain ⟨hcomponent, rfl⟩ := Endpoint.mk.inj hendpoint
  refine ⟨m, c, p, k, hm, ?_, ?_, href.trans htarget, ?_⟩
  · have hconnector : entry.1.role = .connector := beq_iff_eq.mp hrole
    rw [← hconnector, ← hcomponent]
    rfl
  · exact congrArg (·.name) hcomponent.symm
  · rw [hname', hname]

/-- The types are told in order and once each, but any list of them is adapted alike. -/
theorem Registry.adapter?_sorted (registry : Registry) (types : List String) :
    registry.adapter? (types.eraseDups.mergeSort fun a b => decide (a ≤ b)) =
      registry.adapter? types :=
  adapter?_congr fun t => by rw [List.mem_mergeSort, List.mem_eraseDups]

theorem Wrapper.adapt_bears (hn : n.Resolvable) {l : Netlist.Label} {c : Component} {p : Port}
    (hl : n.Attached l c p) (hrole : registry.roleOf c.type c.superClasses = .connector)
    (hnet : (n.circuit registry).Uniform l.name) {entry : Circuit.Node × Nat} {k : Nat}
    (hnode : entry.1.name = c.name) (href : n.refOf l = ⟨entry.2, k⟩) :
    FailsOnly (n.Bears registry) (adapt registry (n.circuit registry)
      (n.circuit registry).connections (siteAt (n.circuit registry) entry (p, k) l.name)) := by
  have hin : (Netlist.Element.port c p).In n :=
    ⟨hl.component_mem, List.mem_of_getElem? hl.port⟩
  have harray := Connections.result_isArray_connections (hn.closed registry) hl.mem_nets hnet
  rw [adapt_eq (s := siteAt (n.circuit registry) entry (p, k) l.name) harray
    (incoming_eq_ok (hn.closed registry) rfl)]
  dsimp only [siteAt]
  rw [hnode, ← href, Registry.adapter?_sorted]
  cases hnumber : pinNumber? p.name with
  | none =>
    have hname : ¬ IsPinName p.name := by
      rw [← pinNumber?_isSome_iff, hnumber]
      simp
    exact failsOnly_error (Bears.broken rfl (.pinName hl hrole hname) hin rfl)
  | some number =>
    have hnamed := pinNumber?_isSome_iff.mp (Option.isSome_of_eq_some hnumber)
    cases hcarries : (n.circuit registry).carriesArray l.name with
    | true =>
      have hscalar : ¬ n.Scalar l.name := by
        rw [← hn.carriesArray_circuit_iff, hcarries]
        simp
      exact failsOnly_error (Bears.broken rfl (.pinOnArray hl hrole hscalar) hin rfl)
    | false =>
      have hscalar := hn.carriesArray_circuit_iff.mp hcarries
      simp only [Bool.false_eq_true, if_false]
      split
      next hnone =>
        have htypes : ¬ ∃ rule ∈ registry.adaptRules, (∃ m d q, n.Beside l m d q) ∧
            ∀ m d q, n.Beside l m d q → q.type ∈ rule.accepts := by
          intro htyped
          have hfits := (hn.pinFits_circuit_iff hl).mpr ⟨hnamed, hscalar, htyped⟩
          simpa [hnone] using hfits.typed
        exact failsOnly_error (Bears.broken rfl (.pinTypes hl hrole htypes) hin rfl)
      next => exact failsOnly_ok _

theorem Wrapper.wrapAll_bears (hn : n.Resolvable) (hshared : (n.circuit registry).Unshared)
    (huniform : ∀ net ∈ (n.circuit registry).nets, (n.circuit registry).Uniform net) :
    FailsOnly (n.Bears registry)
      (wrapAll registry (n.circuit registry) (n.circuit registry).connections) := by
  rw [wrapAll_eq]
  refine failsOnly_mapM fun entry hentry => ?_
  rw [sitesOf_connections, ok_bind]
  refine (failsOnly_mapM fun s hs => ?_).bind fun pins _ => failsOnly_ok _
  obtain ⟨l, c, p, k, hl, hrole, hnode, href, rfl⟩ :=
    exists_attached_of_mem_sitesOf hn hshared hentry hs
  exact adapt_bears hn hl hrole (huniform l.name hl.mem_nets) hnode href

theorem Fault.code_argumentDiagnostic (node argument : String) (kind : ArgumentKind) (v : Json) :
    (argumentDiagnostic node argument kind v).code = kind.code := by
  cases kind <;> rfl

theorem Fault.path_argumentDiagnostic (node argument : String) (kind : ArgumentKind) (v : Json) :
    (argumentDiagnostic node argument kind v).path = [node, argument] := by
  cases kind <;> rfl

theorem Argument.writeAll_bears {c : Component} (hc : c ∈ n.nodes.map (·.2)) :
    FailsOnly (n.Bears registry) (writeAll c.name c.arguments) := by
  refine failsOnly_mapM fun entry hentry => ?_
  obtain ⟨a, ha, hvalue⟩ := List.mem_filterMap.mp hentry
  obtain ⟨v, hv, rfl⟩ := Option.map_eq_some_iff.mp hvalue
  change FailsOnly _ (write c.name a v)
  rw [write]
  cases hname : Text.isIdentifier a.name with
  | false =>
    exact failsOnly_error (Bears.broken rfl (.argumentName (Option.isSome_of_eq_some hv) hname)
      ⟨hc, ha⟩ rfl)
  | true =>
    cases hliteral : literal? a.kind v with
    | some text => exact failsOnly_ok _
    | none =>
      have hbreaks : n.Breaks registry a.kind.code (.argument c a) := .argumentValue hv hliteral
      rw [← Fault.code_argumentDiagnostic c.name a.name a.kind v] at hbreaks
      exact failsOnly_error (Bears.broken rfl hbreaks ⟨hc, ha⟩
        (Fault.path_argumentDiagnostic c.name a.name a.kind v))

namespace Declaration

private theorem checkNode_bears {c : Component} (hc : c ∈ n.nodes.map (·.2)) {node : Circuit.Node}
    (hname : node.name = c.name) (htype : node.type = c.type) :
    FailsOnly (n.Bears registry) (checkNode node) := by
  rw [checkNode, hname, htype]
  cases hproper : Text.isIdentifier c.name with
  | false => exact failsOnly_error (Bears.broken rfl (.blockName hproper) hc rfl)
  | true =>
    cases hclass : Text.isIdentifier c.type with
    | false => exact failsOnly_error (Bears.broken rfl (.blockClass hclass) hc rfl)
    | true => exact failsOnly_ok _

private theorem ofNode_bears (wrappers : List Wrapper) {node : Circuit.Node} {i : Nat}
    (hnode : (node, i) ∈ (n.circuit registry).nodes.zipIdx) :
    FailsOnly (n.Bears registry) (ofNode wrappers (node, i)) := by
  obtain ⟨entry, hentry, rfl⟩ := List.mem_map.mp (List.fst_mem_of_mem_zipIdx hnode)
  have hin : entry.2 ∈ n.nodes.map (·.2) := List.mem_map_of_mem hentry
  refine (checkNode_bears hin rfl rfl).bind fun _ _ => ?_
  refine (Argument.writeAll_bears hin).bind fun arguments _ => ?_
  split
  · exact failsOnly_ok _
  · exact failsOnly_ok _

private theorem map_name_zipIdx (registry : Registry) (n : Netlist) :
    (n.circuit registry).nodes.zipIdx.map (·.1.name) = n.nodes.map (·.2.name) := by
  calc (n.circuit registry).nodes.zipIdx.map (·.1.name)
    _ = ((n.circuit registry).nodes.zipIdx.map (·.1)).map (·.name) := by rw [List.map_map]; rfl
    _ = (n.circuit registry).nodes.map (·.name) := by rw [List.zipIdx_map_fst]
    _ = n.nodes.map (·.2.name) := by rw [Netlist.circuit, List.map_map]; rfl

/-- A supply among the others, with the label of its net and what it is added for. -/
theorem exists_label_of_mem_supplies (hn : n.Resolvable) {t : Supply}
    (ht : t ∈ (n.circuit registry).supplies registry) :
    ∃ l ∈ n.labels.map (·.2), l.name = t.net ∧ t.rule ∈ registry.buses ∧
      n.Supplied registry t.rule t.net := by
  obtain ⟨hnet, hrule, hsupply⟩ := Circuit.mem_supplies.mp ht
  obtain ⟨l, hl, hname⟩ := Circuit.mem_nets.mp hnet
  obtain ⟨entry, hentry, rfl⟩ := List.mem_map.mp hl
  exact ⟨entry.2, List.mem_map_of_mem hentry, hname, hrule,
    hn.supplyAt?_circuit_iff.mp (Option.isSome_of_eq_some hsupply)⟩

/-- The name of a supply is taken by a component or by a supply before it. -/
theorem supportTaken_of_mem (hn : n.Resolvable) {before after : List Supply} {t : Supply}
    (hsupplies : (n.circuit registry).supplies registry = before ++ t :: after)
    (htaken : t.blockName ∈ n.nodes.map (·.2.name) ++ before.map (·.blockName)) :
    n.SupportTaken registry t.rule t.net := by
  obtain hnode | hsupply := List.mem_append.mp htaken
  · obtain ⟨e, he, hname⟩ := List.mem_map.mp hnode
    exact .inl ⟨e, he, hname⟩
  · obtain ⟨s, hs, hname⟩ := List.mem_map.mp hsupply
    have hapart := (n.circuit registry).pairwise_supplies registry
    rw [hsupplies, List.pairwise_append] at hapart
    obtain ⟨j, i, hj, hi, hne⟩ := hapart.2.2 s hs t List.mem_cons_self
    have hmem : s ∈ (n.circuit registry).supplies registry := by
      rw [hsupplies]
      exact List.mem_append_left _ hs
    obtain ⟨-, -, -, -, hother⟩ := exists_label_of_mem_supplies hn hmem
    exact .inr ⟨i, j, s.rule, s.net, hi, hj, fun hsame => hne ⟨hsame.1.symm, hsame.2.symm⟩, hother,
      hname.symm⟩

private theorem addSupport_bears (hn : n.Resolvable) {before after : List Supply} {t : Supply}
    (hsupplies : (n.circuit registry).supplies registry = before ++ t :: after)
    {blocks : List Block}
    (hblocks : blocks.map (·.name) = n.nodes.map (·.2.name) ++ before.map (·.blockName)) :
    FailsOnly (n.Bears registry) (addSupport (n.circuit registry).connections blocks
      (t.support (n.circuit registry))) := by
  have ht : t ∈ (n.circuit registry).supplies registry := by simp [hsupplies]
  obtain ⟨l, hl, hname, hrule, hadded⟩ := exists_label_of_mem_supplies hn ht
  have hget : (n.circuit registry).connections.get (t.support (n.circuit registry)).busConnection =
      .ok ((n.circuit registry).connection t.net) :=
    Connections.get_connections (Circuit.mem_nets_of_mem_supplies ht).2
  rw [addSupport, hget, ok_bind, ok_bind]
  rw [← hname] at hadded
  split
  next hproper =>
    have hbreaks : n.Breaks registry .e0105 (.label l) :=
      .supportName hrule hadded (by rw [hname]; exact (Bool.not_eq_eq_eq_not ..).mp hproper)
    exact failsOnly_error (Bears.broken rfl hbreaks hl (congrArg ([·]) hname.symm))
  next =>
    split
    next htaken =>
      have hmem : t.blockName ∈ blocks.map (·.name) := by
        simpa [Supply.support] using htaken
      have hbreaks : n.Breaks registry .e0106 (.label l) :=
        .supportTaken hrule hadded (hname ▸ supportTaken_of_mem hn hsupplies (hblocks ▸ hmem))
      exact failsOnly_error (Bears.broken rfl hbreaks hl (congrArg ([·]) hname.symm))
    next => exact failsOnly_ok _

section

variable (hn : n.Resolvable) {a : Support.Additions} (ha : a.Supplied registry (n.circuit registry))

include hn ha

/-- Supports are placed after the blocks of the components and of the supports before them. -/
theorem foldlM_addSupport_bears {blocks : List Block}
    (hblocks : blocks.map (·.name) = n.nodes.map (·.2.name)) :
    FailsOnly (n.Bears registry)
      (a.blocks.foldlM (addSupport (n.circuit registry).connections) blocks) := by
  intro f hf
  rw [ha.blocks] at hf
  obtain ⟨before, s, after, placed, hsupports, hplaced, hs⟩ := exists_of_foldlM_eq_error hf
  obtain ⟨first, rest, hsupplies, rfl, hrest⟩ := List.map_eq_append_iff.mp hsupports
  obtain ⟨t, last, rfl, rfl, -⟩ := List.map_eq_cons_iff.mp hrest
  obtain ⟨-, -, rfl⟩ := foldlM_addSupport_eq_ok_iff.mp hplaced
  refine addSupport_bears hn hsupplies ?_ f hs
  rw [List.map_append, hblocks, List.map_map, List.map_map]
  rfl

private theorem placeBlocks_bears :
    FailsOnly (n.Bears registry) (placeBlocks (n.circuit registry) (n.circuit registry).connections
      ((Wrapper.connectors (n.circuit registry)).map ((n.circuit registry).wrapperAt registry))
      a) := by
  refine (failsOnly_mapM fun entry hentry => ofNode_bears _ hentry).bind fun nodes hnodes => ?_
  refine FailsOnly.bind (foldlM_addSupport_bears hn ha ?_) fun _ _ => failsOnly_ok _
  obtain ⟨-, rfl⟩ := (mapM_eq_ok_iff (fun entry hentry decls => ofNode_eq_ok_iff hentry) nodes).mp
    hnodes
  rw [List.map_map, List.map_map, ← map_name_zipIdx registry n]
  exact List.map_congr_left fun entry _ => Circuit.Node.block_name entry.1

end

private theorem ofMember_bears (hn : n.Resolvable) {l : Netlist.Label} {c : Component} {p : Port}
    (hl : n.Attached l c p) {e : Endpoint}
    (he : (n.circuit registry).endpoint? (n.refOf l) = some e) (hname : e.node.name = c.name)
    (hport : e.port = p) (hports : e.node.ports = c.ports) (isArray : Bool) :
    FailsOnly (n.Bears registry) (ofMember (n.circuit registry) isArray (n.refOf l)) := by
  have hmem := List.mem_of_getElem? hl.port
  have hslots := hn.slots _ (List.mem_of_getElem? (Circuit.getElem?_findIdx_key hl.node)) p hmem
  obtain ⟨hnode, -⟩ := Circuit.endpoint?_eq_some_iff.mp he
  rw [ofMember, Circuit.endpoint_eq_ok_iff.mpr he, ok_bind, hname, hport]
  cases hproper : Text.isIdentifier p.name with
  | false =>
    exact failsOnly_error
      (Bears.broken rfl (.portName hl hproper) ⟨hl.component_mem, hmem⟩ rfl)
  | true =>
    cases hslot : p.slotOf with
    | none => exact failsOnly_ok _
    | some k =>
      obtain ⟨q, hparent, -⟩ := hslots k hslot
      have hq : (n.circuit registry).endpoint ⟨(n.refOf l).node, k⟩ = .ok ⟨e.node, q⟩ :=
        Circuit.endpoint_eq_ok_iff.mpr
          (Circuit.endpoint?_eq_some_iff.mpr ⟨hnode, hports ▸ hparent⟩)
      simp only [hq, ok_bind]
      cases hparentName : Text.isIdentifier q.name with
      | false =>
        exact failsOnly_error (Bears.broken rfl (.parentName hl hslot hparent hparentName)
          ⟨hl.component_mem, List.mem_of_getElem? hparent⟩ rfl)
      | true => cases isArray <;> exact failsOnly_ok _

private theorem ofConnection_bears (hn : n.Resolvable) {net : String}
    (hmem : net ∈ (n.circuit registry).nets) (hnet : (n.circuit registry).Uniform net)
    (additions : Support.Additions) :
    FailsOnly (n.Bears registry) (ofConnection (n.circuit registry)
      (n.circuit registry).connections additions
      ((n.circuit registry).connection net, (n.circuit registry).nets.idxOf net)) := by
  rw [ofConnection, connecting, Inquiry.result_bind,
    Connections.result_isArray_connections (hn.closed registry) hmem hnet, ok_bind,
    Inquiry.result_bind, Inquiry.result_lift]
  refine (failsOnly_mapM fun r hr => ?_).bind fun members _ => failsOnly_ok _
  obtain ⟨l, hl, -, rfl⟩ := Circuit.mem_wired.mp hr
  obtain ⟨e, he⟩ := (hn.closed registry).targets l hl
  obtain ⟨m, c, p, hm, -, href, rfl⟩ := hn.exists_attached hl he
  rw [← href] at he ⊢
  exact ofMember_bears hn hm he rfl rfl rfl _

end Declaration

theorem Declarations.ofCircuit_bears (hn : n.Resolvable) {a : Support.Additions}
    (ha : a.Supplied registry (n.circuit registry))
    (huniform : ∀ net ∈ (n.circuit registry).nets, (n.circuit registry).Uniform net)
    (header : ModuleHeader) :
    FailsOnly (n.Bears registry) (ofCircuit (n.circuit registry) (n.circuit registry).connections
      ((Wrapper.connectors (n.circuit registry)).map ((n.circuit registry).wrapperAt registry)) a
      header) := by
  rw [ofCircuit_eq]
  refine (Declaration.placeBlocks_bears hn ha).bind fun placed _ => ?_
  refine FailsOnly.bind ?_ fun connects _ => failsOnly_ok _
  rw [Connections.zipIdx_connections]
  refine failsOnly_mapM fun entry hentry => ?_
  obtain ⟨net, hnet, rfl⟩ := List.mem_map.mp hentry
  exact Declaration.ofConnection_bears hn hnet (huniform net hnet) a

/-- What stops a run is true of the netlist. -/
theorem Netlist.stages_bears (registry : Registry) (header : ModuleHeader) (n : Netlist) :
    FailsOnly (fun stop => n.Bears registry stop.fault) (n.stages registry header) := by
  have hstage : ∀ {α : Type} {x : Except Fault α} (pass : Pass), FailsOnly (n.Bears registry) x →
      FailsOnly (fun stop => n.Bears registry stop.fault) (x.mapError (Stop.mk pass)) :=
    fun _ hx => hx.mapError fun _ hf => hf
  refine (hstage .buildGraph (Circuit.ofNetlist_bears registry n)).bind fun c hc => ?_
  obtain ⟨hn, rfl⟩ := Circuit.ofNetlist_eq_ok_iff.mp (mapError_eq_ok_iff.mp hc)
  have hclosed := hn.closed registry
  refine (hstage .aggregate (Connections.ofCircuit_bears hn)).bind fun cs hcs => ?_
  obtain ⟨hshared, rfl⟩ := Connections.ofCircuit_eq_ok_iff.mp (mapError_eq_ok_iff.mp hcs)
  refine (hstage .inferShape (Connections.checkShapes_bears hn)).bind fun _ hshapes => ?_
  have huniform :=
    (Connections.checkShapes_connections_eq_ok_iff hclosed).mp (mapError_eq_ok_iff.mp hshapes)
  refine (hstage .synthesizeConnectors (Wrapper.wrapAll_bears hn hshared huniform)).bind
    fun ws hws => ?_
  obtain ⟨-, rfl⟩ :=
    (Wrapper.wrapAll_eq_ok_iff hclosed hshared huniform).mp (mapError_eq_ok_iff.mp hws)
  obtain ⟨a, hplan, ha, -⟩ := Support.plan_connections hclosed huniform registry
  rw [hplan]
  exact hstage .emit (Declarations.ofCircuit_bears hn ha huniform header)

/-- A pass gives no codes but its own. -/
theorem Fault.ReportedBy.code_mem {f : Fault} {pass : Pass} (hf : f.ReportedBy pass)
    {d : Diagnostic} (hd : f.problem = .invalid d) : d.code ∈ pass.codes := by
  cases f with
  | argumentValue node argument kind v =>
    cases hf
    cases hd
    rw [code_argumentDiagnostic]
    cases kind <;> simp [ArgumentKind.code, Pass.codes]
  | duplicateLabel | dangling | lostConnection | inputsMissing => cases hd
  | _ =>
    cases hf
    cases hd
    simp [Pass.codes]

theorem Fault.ReportedBy.ne_inferImplicit {f : Fault} {pass : Pass} (hf : f.ReportedBy pass) :
    pass ≠ .inferImplicit := by
  rintro rfl
  cases f <;> cases hf

namespace Workspace

/-- A run that fails tells the truth. The diagnostic of a pass has one of its own codes, and its
path is that of an element of the netlist that breaks the rule of the code. Only the grouping of
labels gives something else: it names a port and two labels that stand on it. The planning of
supports never fails. -/
theorem run_new_diagnoses {registry : Registry} {header : ModuleHeader} {n : Netlist} {stop : Stop}
    (hstop : ((new registry n).run header .emit).result = .error stop) :
    stop.pass ≠ .inferImplicit ∧
      ((∃ d x, stop.fault.problem = .invalid d ∧ d.code ∈ stop.pass.codes ∧
          n.Breaks registry d.code x ∧ x.In n ∧ d.path = x.path) ∨
        stop.pass = .aggregate ∧ ∃ l m c p, [l, m].Sublist (n.labels.map (·.2)) ∧
          n.Attached l c p ∧ n.Attached m c p ∧ l.node = m.node ∧ l.port = m.port ∧
          stop.fault.problem = .internal ("duplicate label: port " ++ c.name ++ "." ++ p.name ++
            " is claimed by '" ++ l.name ++ "' and '" ++ m.name ++ "'")) := by
  have hstages := run_new_eq_error_iff.mp hstop
  have hreporter := n.stages_reports registry header _ hstages
  obtain ⟨pass, fault⟩ := stop
  refine ⟨hreporter.ne_inferImplicit, ?_⟩
  cases n.stages_bears registry header _ hstages with
  | broken hproblem hbreaks hin hpath =>
    exact .inl ⟨_, _, hproblem, hreporter.code_mem hproblem, hbreaks, hin, hpath⟩
  | shared hsome hl hm hsame =>
    cases hreporter
    obtain ⟨hnode, hport⟩ := Prod.mk.inj hsame
    exact .inr ⟨rfl, _, _, _, _, hsome, hl, hm, hnode, hport, rfl⟩

/-- A controller on a bus, and a part that has the name of the support block that the bus gets. -/
def takenBoard : Netlist where
  nodes := [
    ("m", {
      id := "m"
      name := "mcu"
      type := "Mcu"
      superClasses := []
      ports := [⟨"i2c", "I2cController", false, none⟩, ⟨"pwr", "VoltageSink", false, none⟩]
      arguments := [] }),
    ("p", {
      id := "p"
      name := "_implicit_i2c_pullup_bus"
      type := "Part"
      superClasses := []
      ports := []
      arguments := [] })]
  labels := [("1", ⟨"bus", "m", 0⟩), ("2", ⟨"v", "m", 1⟩)]

theorem run_new_diagnoses_takenBoard :
    ∃ stop d x, ((new .builtin takenBoard).run {} .emit).result = .error stop ∧
      stop.pass = .emit ∧ stop.fault.problem = .invalid d ∧ d.code = .e0106 ∧
      takenBoard.Breaks .builtin d.code x ∧ x.In takenBoard ∧ d.path = x.path := by
  have hresult : ((new .builtin takenBoard).run {} .emit).result.mapError
      (fun stop => (stop.pass, stop.fault.problem)) = .error (.emit,
        (Fault.supportTaken "bus" "_implicit_i2c_pullup_bus").problem) := by
    decide +kernel
  cases hrun : ((new .builtin takenBoard).run {} .emit).result with
  | ok _ =>
    rw [hrun] at hresult
    cases hresult
  | error stop =>
    rw [hrun, Except.mapError, Except.error.injEq, Prod.mk.injEq] at hresult
    obtain ⟨hpass, hproblem⟩ := hresult
    obtain ⟨-, ⟨d, x, hd, -, htrue⟩ | ⟨hother, -⟩⟩ := run_new_diagnoses hrun
    · rw [hproblem] at hd
      cases hd
      exact ⟨stop, _, x, rfl, hpass, hproblem, rfl, htrue⟩
    · cases hpass.symm.trans hother

end Workspace

end Schematic
