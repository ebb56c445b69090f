import Schematic.Netlist.Wire
import Schematic.Proofs.Json.Values

namespace Schematic

open Json (Document)
open Json.Document (Gives Storable ofValue record?_present list?_ofValue strings?_ofValue
  table?_ofValue optional?_ofValue)

structure Port.Representable (p : Port) : Prop where
  slotOf : ∀ i ∈ p.slotOf, i < 0x100000000

structure Argument.Representable (depth : Nat) (a : Argument) : Prop where
  kind : ArgumentKind.ofName a.kind.name = a.kind
  default : ∀ j ∈ a.default, Storable depth j
  value : ∀ j ∈ a.value, Storable depth j

structure Component.Representable (depth : Nat) (c : Component) : Prop where
  ports : ∀ p ∈ c.ports, p.Representable
  arguments : ∀ a ∈ c.arguments, a.Representable depth

structure Netlist.Label.Representable (l : Netlist.Label) : Prop where
  port : l.port < 0x100000000

/-- A netlist that a document can hold: its keys are distinct, positions fit 32 bits, kinds are
those that their names denote, and argument values are neither null nor too deep. -/
structure Netlist.Representable (n : Netlist) : Prop where
  nodeKeys : (n.nodes.map (·.1)).Nodup
  nodes : ∀ e ∈ n.nodes, e.2.Representable (Json.maxDepth - argumentNesting)
  labelKeys : (n.labels.map (·.1)).Nodup
  labels : ∀ e ∈ n.labels, e.2.Representable

theorem Port.gives_decode : Gives Representable decode? := by
  intro d p hd
  obtain ⟨values, -, hd⟩ := Option.bind_eq_some_iff.mp hd
  split at hd
  · simp only [Option.bind_eq_bind, Option.bind_eq_some_iff, Option.pure_def,
      Option.some.injEq] at hd
    obtain ⟨_, -, _, -, _, -, slot, hslot, rfl⟩ := hd
    have hindex := Gives.optional? fun d i _ => Document.gives_index d i
    exact ⟨hindex.defaulted? (by simp) hslot⟩
  · cases hd

theorem Argument.gives_decode (depth : Nat) : Gives (Representable depth) (decode? depth) := by
  intro d a hd
  obtain ⟨values, -, hd⟩ := Option.bind_eq_some_iff.mp hd
  split at hd
  · simp only [Option.bind_eq_bind, Option.bind_eq_some_iff, Option.pure_def,
      Option.some.injEq] at hd
    obtain ⟨_, -, kind, -, default, hdefault, value, hvalue, rfl⟩ := hd
    have hoptional := Document.gives_optional_value depth
    exact ⟨by rw [ArgumentKind.name_ofName], hoptional.defaulted? (by simp) hdefault,
      hoptional.defaulted? (by simp) hvalue⟩
  · cases hd

theorem Component.gives_decodeData (depth : Nat) (id : String) :
    Gives (Representable depth) (decodeData? depth id) := by
  intro d c hd
  obtain ⟨values, -, hd⟩ := Option.bind_eq_some_iff.mp hd
  split at hd
  · simp only [Option.bind_eq_bind, Option.bind_eq_some_iff, Option.pure_def,
      Option.some.injEq] at hd
    obtain ⟨_, -, _, -, _, -, ports, hports, arguments, harguments, rfl⟩ := hd
    exact ⟨Port.gives_decode.list?.required? hports,
      (Argument.gives_decode depth).list?.defaulted? (by simp) harguments⟩
  · cases hd

theorem Component.gives_decode (depth : Nat) : Gives (Representable depth) (decode? depth) := by
  intro d c hd
  obtain ⟨values, -, hd⟩ := Option.bind_eq_some_iff.mp hd
  split at hd
  · obtain ⟨id, -, hdata⟩ := Option.bind_eq_some_iff.mp hd
    exact (gives_decodeData depth id).required? hdata
  · cases hd

theorem Netlist.Label.gives_decode : Gives Representable decode? := by
  intro d l hd
  obtain ⟨values, -, hd⟩ := Option.bind_eq_some_iff.mp hd
  split at hd
  · simp only [Option.bind_eq_bind, Option.bind_eq_some_iff, Option.pure_def,
      Option.some.injEq] at hd
    obtain ⟨_, -, _, -, port, hport, rfl⟩ := hd
    exact ⟨Document.gives_index.required? hport⟩
  · cases hd

namespace Netlist

private theorem gives_decodeNodes :
    Gives (fun nodes => (nodes.map (·.1)).Nodup ∧
      ∀ e ∈ nodes, e.2.Representable (Json.maxDepth - argumentNesting)) decodeNodes? := by
  intro d nodes hd
  obtain ⟨values, -, hd⟩ := Option.bind_eq_some_iff.mp hd
  split at hd
  · exact (Component.gives_decode _).table?.required? hd
  · cases hd

theorem gives_decode : Gives Representable decode? := by
  intro d n hd
  obtain ⟨values, -, hd⟩ := Option.bind_eq_some_iff.mp hd
  split at hd
  · simp only [Option.bind_eq_bind, Option.bind_eq_some_iff, Option.pure_def,
      Option.some.injEq] at hd
    obtain ⟨nodes, hnodes, labels, hlabels, rfl⟩ := hd
    obtain ⟨hnodeKeys, hnodes⟩ := gives_decodeNodes.required? hnodes
    obtain ⟨hlabelKeys, hlabels⟩ := Label.gives_decode.table?.defaulted? (by simp) hlabels
    exact ⟨hnodeKeys, hnodes, hlabelKeys, hlabels⟩
  · cases hd

end Netlist

theorem Port.decode?_encode {p : Port} (hp : p.Representable) :
    decode? (ofValue p.encode) = some p := by
  have hfields : (ofValue p.encode).record? fieldNames =
      some [some (.string p.name), some (.string p.type), some (.bool p.isArray),
        some (ofValue (Json.orNull (p.slotOf.map Json.nat)))] :=
    record?_present (by decide) rfl rfl
  have hslot : Document.optional? Document.index?
      (ofValue (Json.orNull (p.slotOf.map Json.nat))) = some p.slotOf :=
    optional?_ofValue fun i hi => Document.index?_ofValue (hp.slotOf i hi)
  rw [decode?, hfields]
  simp [Document.required?, Document.defaulted?, Document.string?, Document.bool?, hslot]

theorem Argument.decode?_encode {depth : Nat} {a : Argument} (ha : a.Representable depth) :
    decode? depth (ofValue a.encode) = some a := by
  have hfields : (ofValue a.encode).record? fieldNames =
      some [some (.string a.name), some (.string a.kind.name),
        some (ofValue (Json.orNull a.default)), some (ofValue (Json.orNull a.value))] :=
    record?_present (by decide) rfl rfl
  have hread (x : Option Json) (hx : ∀ j ∈ x, Storable depth j) :
      Document.optional? (Document.value? depth) (ofValue (Json.orNull x)) = some x := by
    have hread := @optional?_ofValue _ _ id x hx
    rwa [Option.map_id] at hread
  rw [decode?, hfields]
  simp [Document.required?, Document.defaulted?, Document.string?, hread a.default ha.default,
    hread a.value ha.value, ha.kind]

theorem Component.decode?_encode {depth : Nat} {c : Component} (hc : c.Representable depth) :
    decode? depth (ofValue c.encode) = some c := by
  let data : Json := .object [
    ("name", .string c.name),
    ("type", .string c.type),
    ("superClasses", Json.strings c.superClasses),
    ("ports", .array (c.ports.map Port.encode)),
    ("argParams", .array (c.arguments.map Argument.encode))]
  have hfields : (ofValue c.encode).record? fieldNames =
      some [some (.string c.id), some (ofValue data)] :=
    record?_present (by decide) rfl rfl
  have hdata : (ofValue data).record? dataNames =
      some [some (.string c.name), some (.string c.type),
        some (ofValue (Json.strings c.superClasses)),
        some (ofValue (.array (c.ports.map Port.encode))),
        some (ofValue (.array (c.arguments.map Argument.encode)))] :=
    record?_present (by decide) rfl rfl
  have hports := list?_ofValue c.ports fun p hp => Port.decode?_encode (hc.ports p hp)
  have harguments := list?_ofValue c.arguments fun a ha =>
    Argument.decode?_encode (hc.arguments a ha)
  rw [decode?, hfields]
  simp [Document.required?, Document.defaulted?, Document.string?, decodeData?, hdata,
    strings?_ofValue, hports, harguments]

namespace Netlist

/-- Stated for any way of writing the position, so that its number is never evaluated. -/
theorem Label.decode?_object {l : Netlist.Label} {port : Json}
    (hport : Document.index? (ofValue port) = some l.port) :
    decode? (ofValue (.object
      [("labelName", .string l.name), ("nodeId", .string l.node), ("portIdx", port)])) =
        some l := by
  have hfields : (ofValue (.object
      [("labelName", .string l.name), ("nodeId", .string l.node), ("portIdx", port)])).record?
      fieldNames = some [some (.string l.name), some (.string l.node), some (ofValue port)] :=
    record?_present (by decide) rfl rfl
  rw [decode?, hfields]
  simp [Document.required?, Document.string?, hport]

theorem Label.decode?_encode {l : Netlist.Label} (hl : l.Representable) :
    decode? (ofValue l.encode) = some l :=
  decode?_object (Document.index?_ofValue hl.port).2

theorem decode?_encode {n : Netlist} (hn : n.Representable) :
    decode? (ofValue n.encode) = some n := by
  let nodes : Json := .object (n.nodes.map fun e => (e.1, e.2.encode))
  let labels : Json := .object (n.labels.map fun e => (e.1, e.2.encode))
  have hfields : (ofValue n.encode).record? ["graph", "labels"] =
      some [some (ofValue (.object [("nodes", nodes)])), some (ofValue labels)] :=
    record?_present (by decide) rfl rfl
  have hgraph : (ofValue (.object [("nodes", nodes)])).record? ["nodes"] =
      some [some (ofValue nodes)] :=
    record?_present (by decide) rfl rfl
  have hnodes := table?_ofValue hn.nodeKeys fun e he => Component.decode?_encode (hn.nodes e he)
  have hlabels := table?_ofValue hn.labelKeys fun e he => Label.decode?_encode (hn.labels e he)
  rw [decode?, hfields]
  simp [Document.required?, Document.defaulted?, decodeNodes?, hgraph, nodes, labels, hnodes,
    hlabels]

end Netlist

end Schematic
