import Schematic.Proofs.Circuit.Nets
import Schematic.Proofs.Connection.Known

namespace Schematic

namespace Circuit

/-- The connection of a net. -/
def connection (c : Circuit) (net : String) : Connection :=
  ⟨c.nets.idxOf net, net, c.wired net, none⟩

/-- The connections of all nets, with the nets and the labelled ports for indices. -/
def connections (c : Circuit) : Connections where
  list := c.nets.map c.connection
  byName := c.nets.zipIdx
  byPort := c.labels.map fun l => (l.target, c.nets.idxOf l.name)

theorem wired_append (nodes : List Node) (ls : List Label) (l : Label) (net : String) :
    (mk nodes (ls ++ [l])).wired net =
      (mk nodes ls).wired net ++ if l.name = net then [l.target] else [] := by
  by_cases hname : l.name = net <;> simp [wired, hname]

/-- A net stays where it is when labels are added. -/
theorem idxOf_nets_append {nodes : List Node} {ls : List Label} {net : String}
    (hnet : net ∈ (mk nodes ls).nets) (ms : List Label) :
    (mk nodes (ls ++ ms)).nets.idxOf net = (mk nodes ls).nets.idxOf net := by
  simp only [nets, List.map_append, List.eraseDups_append]
  exact List.idxOf_append_of_mem hnet

theorem mem_nets_append {nodes : List Node} {ls : List Label} {net : String}
    (hnet : net ∈ (mk nodes ls).nets) (ms : List Label) : net ∈ (mk nodes (ls ++ ms)).nets := by
  obtain ⟨l, hl, hname⟩ := mem_nets.mp hnet
  exact mem_nets.mpr ⟨l, List.mem_append_left ms hl, hname⟩

theorem mem_nets_append_self (nodes : List Node) (ls : List Label) (l : Label) :
    l.name ∈ (mk nodes (ls ++ [l])).nets :=
  mem_nets.mpr ⟨l, List.mem_append_right ls List.mem_cons_self, rfl⟩

end Circuit

namespace Connections

private theorem lookup_byName (c : Circuit) (net : String) :
    c.connections.byName.lookup net = if net ∈ c.nets then some (c.nets.idxOf net) else none :=
  lookup_zipIdx c.nets net

theorem lookup_byPort (c : Circuit) (r : PortRef) :
    c.connections.byPort.lookup r = (c.netOf? r).map c.nets.idxOf := by
  rw [Circuit.connections, lookup_map_pair, Circuit.netOf?, Option.map_map]
  rfl

/-- The connections between the two halves of taking in a label: there is one for its name, but the
port is on none. -/
def opened (nodes : List Circuit.Node) (ls : List Circuit.Label) (l : Circuit.Label) :
    Connections where
  list := (Circuit.mk nodes (ls ++ [l])).nets.map fun net =>
    ⟨(Circuit.mk nodes (ls ++ [l])).nets.idxOf net, net, (Circuit.mk nodes ls).wired net, none⟩
  byName := (Circuit.mk nodes (ls ++ [l])).nets.zipIdx
  byPort := (Circuit.mk nodes ls).connections.byPort

variable (nodes : List Circuit.Node) (ls : List Circuit.Label) (l : Circuit.Label)

theorem ensure_connections :
    (Circuit.mk nodes ls).connections.ensure l.name =
      (opened nodes ls l, (Circuit.mk nodes (ls ++ [l])).nets.idxOf l.name) := by
  rw [ensure, lookup_byName, opened]
  by_cases hknown : l.name ∈ (Circuit.mk nodes ls).nets
  · rw [if_pos hknown, Circuit.nets_append_of_known (by simpa using hknown)]
    rfl
  · have hone : (Circuit.mk nodes [l]).nets = [l.name] := by
      simp [Circuit.nets, List.eraseDups_cons]
    have hnets : (Circuit.mk nodes (ls ++ [l])).nets = (Circuit.mk nodes ls).nets ++ [l.name] := by
      rw [Circuit.nets_append_of_new (by simpa using hknown), hone]
    have hlast : ((Circuit.mk nodes ls).nets ++ [l.name]).idxOf l.name =
        (Circuit.mk nodes ls).nets.length := by
      rw [List.idxOf_append, if_neg hknown, List.idxOf_cons_self, Nat.zero_add]
    have hwired := Circuit.wired_eq_nil_iff.mpr hknown
    rw [if_neg hknown, hnets, hlast, List.map_append, List.zipIdx_append, List.map_singleton, hlast,
      hwired]
    have hlist : (Circuit.mk nodes ls).nets.map (fun net => (⟨((Circuit.mk nodes ls).nets ++
        [l.name]).idxOf net, net, (Circuit.mk nodes ls).wired net, none⟩ : Connection)) =
        (Circuit.mk nodes ls).nets.map (Circuit.mk nodes ls).connection := by
      refine List.map_congr_left fun net hnet => ?_
      rw [List.idxOf_append_of_mem hnet]
      rfl
    rw [hlist]
    simp [Circuit.connections]

theorem get_opened {net : String} (hnet : net ∈ (Circuit.mk nodes (ls ++ [l])).nets) :
    (opened nodes ls l).get ((Circuit.mk nodes (ls ++ [l])).nets.idxOf net) = .ok
      ⟨(Circuit.mk nodes (ls ++ [l])).nets.idxOf net, net, (Circuit.mk nodes ls).wired net,
        none⟩ := by
  refine get_of_getElem? ?_
  rw [opened, List.getElem?_map, List.getElem?_idxOf hnet]
  rfl

private theorem attach_opened :
    (opened nodes ls l).attach ((Circuit.mk nodes (ls ++ [l])).nets.idxOf l.name) l.target =
      .ok (Circuit.mk nodes (ls ++ [l])).connections := by
  have hmem := Circuit.mem_nets_append_self nodes ls l
  have hports : (opened nodes ls l).byPort ++
      [(l.target, (Circuit.mk nodes (ls ++ [l])).nets.idxOf l.name)] =
        (Circuit.mk nodes (ls ++ [l])).connections.byPort := by
    rw [opened, Circuit.connections, Circuit.connections, List.map_append, List.map_singleton]
    congr 1
    refine List.map_congr_left fun m hm => ?_
    rw [Circuit.idxOf_nets_append (Circuit.mem_nets.mpr ⟨m, hm, rfl⟩)]
  have hlist : (opened nodes ls l).list.set ((Circuit.mk nodes (ls ++ [l])).nets.idxOf l.name)
      ((Circuit.mk nodes (ls ++ [l])).connection l.name) =
        (Circuit.mk nodes (ls ++ [l])).connections.list := by
    refine set_idxOf_map (Circuit.nodup_nets _) hmem _ _ fun net _ hnet => ?_
    rw [Circuit.connection, Circuit.wired_append, if_neg (Ne.symm hnet), List.append_nil]
  rw [Circuit.connection, Circuit.wired_append, if_pos rfl] at hlist
  rw [attach, get_opened nodes ls l hmem, ok_bind, hports]
  dsimp only
  rw [hlist]
  rfl

/-- Taking in a label goes on with the connections of the labels so far, unless its port is labelled
already. -/
theorem addLabel_connections (circuit : Circuit) :
    addLabel circuit (Circuit.mk nodes ls).connections l =
      match (Circuit.mk nodes ls).netOf? l.target with
      | none => .ok (Circuit.mk nodes (ls ++ [l])).connections
      | some net => circuit.endpoint l.target >>= fun e =>
        .error (.duplicateLabel e.node.name e.port.name net l.name) := by
  have hports : (opened nodes ls l).byPort.lookup l.target =
      ((Circuit.mk nodes ls).netOf? l.target).map (Circuit.mk nodes ls).nets.idxOf :=
    lookup_byPort (Circuit.mk nodes ls) l.target
  rw [addLabel, ensure_connections]
  dsimp only
  rw [hports]
  cases hnet : (Circuit.mk nodes ls).netOf? l.target with
  | none => exact attach_opened nodes ls l
  | some net =>
    have hmem := Circuit.mem_nets_of_netOf? hnet
    have hget := get_opened nodes ls l (Circuit.mem_nets_append hmem [l])
    rw [Circuit.idxOf_nets_append hmem] at hget
    rw [Option.map_some]
    dsimp only
    rw [hget]
    rfl

theorem addLabel_eq_ok_iff {circuit : Circuit} {cs : Connections} :
    addLabel circuit (Circuit.mk nodes ls).connections l = .ok cs ↔
      l.target ∉ ls.map (·.target) ∧ cs = (Circuit.mk nodes (ls ++ [l])).connections := by
  have hfree : l.target ∉ ls.map (·.target) ↔ (Circuit.mk nodes ls).netOf? l.target = none := by
    simp [Circuit.netOf?_eq_none_iff]
  rw [addLabel_connections, hfree]
  cases (Circuit.mk nodes ls).netOf? l.target with
  | none => simp [eq_comm]
  | some net => simp [bind_eq_ok_iff]

/-- The gathered connections after some of the labels are those of the circuit that has no others.
-/
theorem foldlM_addLabel_eq_ok_iff {circuit : Circuit} (nodes : List Circuit.Node)
    (ls ms : List Circuit.Label) (hls : (ls.map (·.target)).Nodup) (cs : Connections) :
    ms.foldlM (addLabel circuit) (Circuit.mk nodes ls).connections = .ok cs ↔
      ((ls ++ ms).map (·.target)).Nodup ∧ cs = (Circuit.mk nodes (ls ++ ms)).connections := by
  -- `ls` are the labels that were taken in; their ports stay distinct from step to step.
  induction ms generalizing ls with
  | nil => simp [hls]
  | cons m ms ih =>
    have hassoc : ls ++ m :: ms = ls ++ [m] ++ ms := by simp
    rw [hassoc]
    simp only [List.foldlM_cons, bind_eq_ok_iff, addLabel_eq_ok_iff]
    constructor
    · rintro ⟨_, ⟨hnew, rfl⟩, hrest⟩
      have hls' : ((ls ++ [m]).map (·.target)).Nodup := by
        simpa using hls.concat hnew
      exact (ih (ls ++ [m]) hls').mp hrest
    · rintro ⟨hnodup, rfl⟩
      have hls' : ((ls ++ [m]).map (·.target)).Nodup := by
        rw [List.map_append] at hnodup
        exact hnodup.of_append_left
      refine ⟨_, ⟨?_, rfl⟩, (ih (ls ++ [m]) hls').mpr ⟨hnodup, rfl⟩⟩
      simpa [List.nodup_append, hls] using hls'

/-- Gathering succeeds exactly when no two labels stand on one port. -/
theorem ofCircuit_eq_ok_iff {c : Circuit} {cs : Connections} :
    ofCircuit c = .ok cs ↔ c.Unshared ∧ cs = c.connections :=
  foldlM_addLabel_eq_ok_iff c.nodes [] c.labels List.nodup_nil cs

theorem getElem?_connections {c : Circuit} {net : String} (hnet : net ∈ c.nets) :
    c.connections.list[c.nets.idxOf net]? = some (c.connection net) := by
  rw [Circuit.connections, List.getElem?_map, List.getElem?_idxOf hnet]
  rfl

theorem get_connections {c : Circuit} {net : String} (hnet : net ∈ c.nets) :
    c.connections.get (c.nets.idxOf net) = .ok (c.connection net) :=
  get_of_getElem? (getElem?_connections hnet)

/-- The position of a connection is that of its net. -/
theorem zipIdx_connections (c : Circuit) :
    c.connections.list.zipIdx = c.nets.map fun net => (c.connection net, c.nets.idxOf net) := by
  have hzip : c.nets.zipIdx = c.nets.map fun net => (net, c.nets.idxOf net) := by
    apply List.ext_getElem
    · simp
    · intro i hi _
      have hi' : i < c.nets.length := by simpa using hi
      simp [c.nodup_nets.idxOf_getElem i hi']
  rw [Circuit.connections, List.zipIdx_map, hzip, List.map_map]
  rfl

/-- The connection with a name is the one of the net. -/
theorem find?_connections (c : Circuit) (net : String) :
    c.connections.find? net =
      .ok (if net ∈ c.nets then some (c.connection net, c.nets.idxOf net) else none) := by
  rw [find?, lookup_byName]
  by_cases hnet : net ∈ c.nets
  · rw [if_pos hnet, if_pos hnet, follow, get_connections hnet]
    rfl
  · rw [if_neg hnet, if_neg hnet, follow]

/-- The connection that owns a port is the one of its net. -/
theorem owner?_connections (c : Circuit) (r : PortRef) :
    c.connections.owner? r =
      .ok ((c.netOf? r).map fun net => (c.connection net, c.nets.idxOf net)) := by
  rw [owner?, lookup_byPort]
  cases hnet : c.netOf? r with
  | none => rfl
  | some net =>
    rw [Option.map_some, follow, get_connections (Circuit.mem_nets_of_netOf? hnet)]
    rfl

theorem forget_connections (c : Circuit) : c.connections.forget = c.connections := by
  rw [forget, Circuit.connections, List.map_map]
  rfl

theorem faithful_connections (c : Circuit) : c.connections.Faithful c := by
  intro k hk s hknown
  obtain ⟨net, -, rfl⟩ := List.mem_map.mp hk
  cases hknown

end Connections

end Schematic
