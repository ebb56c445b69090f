import Schematic.Proofs.Connection.Partition
import Schematic.Proofs.Declaration.Connects
import Schematic.Proofs.Pipeline.Forgetting
import Schematic.Proofs.Wrapper.Pins

namespace Schematic

namespace Fault

/-- The pass that reports a fault. No pass reports a lost position or a missing input. -/
def reporter? : Fault → Option Pass
  | unknownNode .. | unknownPort .. | slotParent .. => some .buildGraph
  | duplicateLabel .. => some .aggregate
  | mixedShape .. => some .inferShape
  | pinName .. | pinOnArray .. | pinTypes .. => some .synthesizeConnectors
  | blockName .. | blockClass .. | argumentName .. | argumentValue .. | supportName ..
  | supportTaken .. | portName .. | parentName .. => some .emit
  | dangling .. | lostConnection .. | inputsMissing .. => none

def ReportedBy (pass : Pass) (f : Fault) : Prop :=
  f.reporter? = some pass

/-- The only internal error that is reported is about two labels on one port. -/
theorem ReportedBy.eq_duplicateLabel {f : Fault} {pass : Pass} {detail : String}
    (hf : f.ReportedBy pass) (hinternal : f.problem = .internal detail) :
    pass = .aggregate ∧ ∃ node port owner label, f = .duplicateLabel node port owner label := by
  cases f with
  | duplicateLabel node port owner label =>
    cases hf
    exact ⟨rfl, node, port, owner, label, rfl⟩
  | dangling | lostConnection | inputsMissing => cases hf
  | _ => cases hinternal

end Fault

open Fault (ReportedBy)

theorem Circuit.ofNetlist_reports (registry : Registry) (n : Netlist) :
    FailsOnly (ReportedBy .buildGraph) (ofNetlist registry n) := by
  have hnode : ∀ entry, FailsOnly (ReportedBy .buildGraph) (resolveNode registry entry) := by
    intro entry
    rw [resolveNode]
    split
    · exact failsOnly_error rfl
    · exact failsOnly_ok _
  have hlabel : ∀ entry, FailsOnly (ReportedBy .buildGraph) (resolveLabel n.nodes entry) := by
    intro entry
    rw [resolveLabel]
    split
    · exact failsOnly_error rfl
    · split
      · exact failsOnly_ok _
      · exact failsOnly_error rfl
  refine (failsOnly_mapM fun entry _ => hnode entry).bind fun nodes _ => ?_
  exact (failsOnly_mapM fun entry _ => hlabel entry).bind fun labels _ => failsOnly_ok _

theorem Connections.ofCircuit_reports {c : Circuit} (hc : c.Closed) :
    FailsOnly (ReportedBy .aggregate) (ofCircuit c) := by
  intro f hf
  obtain ⟨first, again, e, -, -, rfl⟩ := (ofCircuit_eq_error_iff hc).mp hf
  rfl

theorem Connection.shapeIn_reports {c : Circuit} (hc : c.Closed) (net : String) :
    FailsOnly (ReportedBy .inferShape) ((c.connection net).shapeIn c) := by
  rw [shapeIn, solid_connection hc, ok_bind]
  split
  · exact failsOnly_ok _
  · split
    · exact failsOnly_ok _
    · split
      · exact failsOnly_error rfl
      · exact failsOnly_error rfl

theorem Connections.checkShapes_reports {c : Circuit} (hc : c.Closed) :
    FailsOnly (ReportedBy .inferShape) (c.connections.checkShapes c) := by
  rw [checkShapes_eq]
  refine failsOnly_forM fun k hk => ?_
  obtain ⟨net, -, rfl⟩ := List.mem_map.mp hk
  rw [Connection.shape_of_unknown rfl]
  exact (Connection.shapeIn_reports hc net).bind fun _ _ => failsOnly_ok _

theorem Wrapper.wrapAll_reports (registry : Registry) {c : Circuit} (hclosed : c.Closed)
    (huniform : ∀ net ∈ c.nets, c.Uniform net) :
    FailsOnly (ReportedBy .synthesizeConnectors) (wrapAll registry c c.connections) := by
  rw [wrapAll_eq]
  refine failsOnly_mapM fun entry _ => ?_
  rw [sitesOf_connections, ok_bind]
  refine (failsOnly_mapM fun s hs => ?_).bind fun pins _ => failsOnly_ok _
  obtain ⟨port, p, net, -, hnet, rfl⟩ := mem_sitesOf_connections.mp hs
  have hmem := Circuit.mem_nets_of_netOf? hnet
  have harray := Connections.result_isArray_connections hclosed hmem (huniform net hmem)
  rw [adapt_eq (s := siteAt c entry (port, p) net) harray (incoming_eq_ok hclosed rfl)]
  split
  · exact failsOnly_error rfl
  · split
    · exact failsOnly_error rfl
    · split
      · exact failsOnly_error rfl
      · exact failsOnly_ok _

namespace Declaration

private theorem writeAll_reports (node : String) (arguments : List Argument) :
    FailsOnly (ReportedBy .emit) (Argument.writeAll node arguments) := by
  refine failsOnly_mapM fun entry _ => ?_
  change FailsOnly (ReportedBy .emit) (Argument.write node entry.1 entry.2)
  rw [Argument.write]
  split
  · split
    · exact failsOnly_ok _
    · exact failsOnly_error rfl
  · exact failsOnly_error rfl

private theorem checkNode_reports (node : Circuit.Node) :
    FailsOnly (ReportedBy .emit) (checkNode node) := by
  rw [checkNode]
  split
  · exact failsOnly_error rfl
  · split
    · exact failsOnly_error rfl
    · exact failsOnly_ok _

private theorem ofNode_reports (wrappers : List Wrapper) (entry : Circuit.Node × Nat) :
    FailsOnly (ReportedBy .emit) (ofNode wrappers entry) := by
  refine (checkNode_reports entry.1).bind fun _ _ => ?_
  refine (writeAll_reports entry.1.name entry.1.arguments).bind fun arguments _ => ?_
  split
  · exact failsOnly_ok _
  · exact failsOnly_ok _

private theorem addSupport_reports {cs : Connections} {s : Support}
    (hs : ∃ k, cs.get s.busConnection = .ok k) (blocks : List Block) :
    FailsOnly (ReportedBy .emit) (addSupport cs blocks s) := by
  obtain ⟨k, hk⟩ := hs
  rw [addSupport, hk]
  split
  · exact failsOnly_error rfl
  · split
    · exact failsOnly_error rfl
    · exact failsOnly_ok _

theorem placeBlocks_reports {cs : Connections} {additions : Support.Additions}
    (hadditions : additions.Located cs) (c : Circuit) (wrappers : List Wrapper) :
    FailsOnly (ReportedBy .emit) (placeBlocks c cs wrappers additions) := by
  refine (failsOnly_mapM fun entry _ => ofNode_reports wrappers entry).bind fun nodes _ => ?_
  refine FailsOnly.bind ?_ fun blocks _ => failsOnly_ok _
  exact failsOnly_foldlM (fun s hs blocks => addSupport_reports (hadditions s hs).1 blocks) _

theorem ofMember_reports {c : Circuit} (hc : c.Closed) (isArray : Bool) {m : PortRef}
    {e : Endpoint} (he : c.endpoint? m = some e) :
    FailsOnly (ReportedBy .emit) (ofMember c isArray m) := by
  obtain ⟨hnode, hport⟩ := Circuit.endpoint?_eq_some_iff.mp he
  have hslots := hc.slots e.node (List.mem_of_getElem? hnode) e.port (List.mem_of_getElem? hport)
  rw [ofMember, Circuit.endpoint_eq_ok_iff.mpr he, ok_bind]
  cases hname : Text.isIdentifier e.port.name with
  | false => exact failsOnly_error rfl
  | true =>
    cases hslot : e.port.slotOf with
    | none => exact failsOnly_ok _
    | some k =>
      obtain ⟨q, hparent, -⟩ := hslots k hslot
      have hq : c.endpoint ⟨m.node, k⟩ = .ok ⟨e.node, q⟩ :=
        Circuit.endpoint_eq_ok_iff.mpr (Circuit.endpoint?_eq_some_iff.mpr ⟨hnode, hparent⟩)
      simp only [hq, ok_bind]
      cases hproper : Text.isIdentifier q.name with
      | false => exact failsOnly_error rfl
      | true => cases isArray <;> exact failsOnly_ok _

private theorem ofConnection_reports {c : Circuit} (hclosed : c.Closed) {net : String}
    (hmem : net ∈ c.nets) (hnet : c.Uniform net) (additions : Support.Additions) :
    FailsOnly (ReportedBy .emit)
      (ofConnection c c.connections additions (c.connection net, c.nets.idxOf net)) := by
  rw [ofConnection, connecting, Inquiry.result_bind,
    Connections.result_isArray_connections hclosed hmem hnet, ok_bind, Inquiry.result_bind,
    Inquiry.result_lift]
  refine (failsOnly_mapM fun m hm => ?_).bind fun members _ => failsOnly_ok _
  obtain ⟨e, he⟩ := hclosed.exists_endpoint hm
  exact ofMember_reports hclosed (c.carriesArray net) he

end Declaration

theorem Declarations.ofCircuit_reports {c : Circuit} (hclosed : c.Closed)
    (huniform : ∀ net ∈ c.nets, c.Uniform net) {additions : Support.Additions}
    (hadditions : additions.Located c.connections) (wrappers : List Wrapper)
    (header : ModuleHeader) :
    FailsOnly (ReportedBy .emit) (ofCircuit c c.connections wrappers additions header) := by
  rw [ofCircuit_eq]
  refine (Declaration.placeBlocks_reports hadditions c wrappers).bind fun placed _ => ?_
  refine FailsOnly.bind ?_ fun connects _ => failsOnly_ok _
  rw [Connections.zipIdx_connections]
  refine failsOnly_mapM fun entry hentry => ?_
  obtain ⟨net, hnet, rfl⟩ := List.mem_map.mp hentry
  exact Declaration.ofConnection_reports hclosed hnet (huniform net hnet) additions

end Schematic
