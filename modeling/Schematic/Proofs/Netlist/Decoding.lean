import Schematic.Proofs.Json.Edits
import Schematic.Proofs.Netlist.Representable

namespace Schematic

open Json (Document Schema)
open Json.Document (Ignores Keeps ofValue)

def Port.schema : Schema :=
  .record (fieldNames.map (·, .leaf))

def Argument.schema : Schema :=
  .record (fieldNames.map (·, .leaf))

def Component.dataSchema : Schema :=
  .record [("name", .leaf), ("type", .leaf), ("superClasses", .leaf),
    ("ports", .list Port.schema), ("argParams", .list Argument.schema)]

def Component.schema : Schema :=
  .record [("id", .leaf), ("data", dataSchema)]

def Netlist.Label.schema : Schema :=
  .record (fieldNames.map (·, .leaf))

def Netlist.graphSchema : Schema :=
  .record [("nodes", .table Component.schema)]

def Netlist.schema : Schema :=
  .record [("graph", graphSchema), ("labels", .table Label.schema)]

theorem Port.ignores_decode : Ignores schema decode? :=
  Document.ignores_leaves (by decide)

theorem Argument.ignores_decode (depth : Nat) : Ignores schema (decode? depth) :=
  Document.ignores_leaves (by decide)

theorem Netlist.Label.ignores_decode : Ignores schema decode? :=
  Document.ignores_leaves (by decide)

theorem Component.ignores_decodeData (depth : Nat) (id : String) :
    Ignores dataSchema (decodeData? depth id) := by
  apply Document.ignores_record
  · decide
  · intro value value' hvalues
    simp only [List.forall_mem_cons] at hvalues
    obtain ⟨hname, htype, hclasses, hports, harguments, -⟩ := hvalues
    have hsamePorts := Port.ignores_decode.list?.required? hports
    have hsameArguments := (Argument.ignores_decode depth).list?.defaulted? [] harguments
    simp only [List.map_cons, List.map_nil, hname.eq_of_leaf, htype.eq_of_leaf,
      hclasses.eq_of_leaf, hsamePorts, hsameArguments]

theorem Component.ignores_decode (depth : Nat) : Ignores schema (decode? depth) := by
  apply Document.ignores_record
  · decide
  · intro value value' hvalues
    simp only [List.forall_mem_cons] at hvalues
    obtain ⟨hid, hdata, -⟩ := hvalues
    have hsameData := fun id => (ignores_decodeData depth id).required? hdata
    simp only [List.map_cons, List.map_nil, hid.eq_of_leaf, hsameData]

namespace Netlist

private theorem ignores_decodeNodes : Ignores graphSchema decodeNodes? := by
  apply Document.ignores_record
  · decide
  · intro value value' hvalues
    simp only [List.forall_mem_cons] at hvalues
    exact (Component.ignores_decode _).table?.required? hvalues.1

private theorem ignores_decode : Ignores schema decode? := by
  apply Document.ignores_record
  · decide
  · intro value value' hvalues
    simp only [List.forall_mem_cons] at hvalues
    obtain ⟨hgraph, hlabels, -⟩ := hvalues
    have hsameNodes := ignores_decodeNodes.required? hgraph
    have hsameLabels := Label.ignores_decode.table?.defaulted? [] hlabels
    simp only [List.map_cons, List.map_nil, hsameNodes, hsameLabels]

/-- The entries of the map of nodes, as they stand in a document. -/
def nodeEntries? (d : Document) : Option (List (String × Document)) := do
  match ← d.record? ["graph", "labels"] with
  | [some graph, _] =>
    match ← graph.record? ["nodes"] with
    | [some (.object entries)] => some entries
    | _ => none
  | _ => none

/-- The entries of the map of labels, which may be missing. -/
def labelEntries? (d : Document) : Option (List (String × Document)) := do
  match ← d.record? ["graph", "labels"] with
  | [_, some (.object entries)] => some entries
  | [_, none] => some []
  | _ => none

private theorem nodeEntries?_keeps {d graph : Document} {labels : Option Document}
    {nodes : List (String × Component)}
    (hd : d.record? ["graph", "labels"] = some [some graph, labels])
    (hnodes : decodeNodes? graph = some nodes) :
    ∃ entries, nodeEntries? d = some entries ∧
      Keeps (Component.decode? (Json.maxDepth - argumentNesting)) entries nodes := by
  obtain ⟨values, hvalues, hnodes⟩ := Option.bind_eq_some_iff.mp hnodes
  split at hnodes
  · next value =>
    cases value with
    | none => cases hnodes
    | some map =>
      obtain ⟨entries, rfl, hkeeps⟩ := Document.keeps_of_table? hnodes
      refine ⟨entries, ?_, hkeeps⟩
      rw [nodeEntries?, hd]
      simp [hvalues]
  · cases hnodes

private theorem labelEntries?_keeps {d : Document} {graph value : Option Document}
    {labels : List (String × Netlist.Label)}
    (hd : d.record? ["graph", "labels"] = some [graph, value])
    (hlabels : Document.defaulted? [] (Document.table? Label.decode?) value = some labels) :
    ∃ entries, labelEntries? d = some entries ∧ Keeps Label.decode? entries labels := by
  rw [labelEntries?, hd]
  cases value with
  | none =>
    cases hlabels
    exact ⟨[], rfl, rfl, nofun⟩
  | some map =>
    obtain ⟨entries, rfl, hkeeps⟩ := Document.keeps_of_table? hlabels
    exact ⟨entries, rfl, hkeeps⟩

private theorem exists_entries_of_decode? {d : Document} {n : Netlist} (hd : decode? d = some n) :
    ∃ nodes labels, nodeEntries? d = some nodes ∧ labelEntries? d = some labels ∧
      Keeps (Component.decode? (Json.maxDepth - argumentNesting)) nodes n.nodes ∧
      Keeps Label.decode? labels n.labels := by
  obtain ⟨values, hvalues, hd⟩ := Option.bind_eq_some_iff.mp hd
  split at hd
  · next graph value =>
    simp only [Option.bind_eq_bind, Option.bind_eq_some_iff, Option.pure_def,
      Option.some.injEq] at hd
    obtain ⟨nodes, hnodes, labels, hlabels, rfl⟩ := hd
    cases graph with
    | none => cases hnodes
    | some graph =>
      obtain ⟨nodeEntries, hnodeEntries, hkeepsNodes⟩ := nodeEntries?_keeps hvalues hnodes
      obtain ⟨labelEntries, hlabelEntries, hkeepsLabels⟩ := labelEntries?_keeps hvalues hlabels
      exact ⟨nodeEntries, labelEntries, hnodeEntries, hlabelEntries, hkeepsNodes, hkeepsLabels⟩
  · cases hd

/-- What a document decodes to is what its own encoding decodes to. It stays the same when records
of the document are edited, any number of times and anywhere: the document itself, the graph, a
node, the data of a node, a port, an argument or a label. The nodes and the labels keep the order
that they have in the document. -/
theorem decoding_stable {d : Document} {n : Netlist} (hd : decode? d = some n) :
    decode? (ofValue n.encode) = some n ∧
    (∀ d', Relation.EqvGen (Document.Edit schema) d d' → decode? d' = some n) ∧
    ∃ nodes labels, nodeEntries? d = some nodes ∧ labelEntries? d = some labels ∧
      Keeps (Component.decode? (Json.maxDepth - argumentNesting)) nodes n.nodes ∧
      Keeps Label.decode? labels n.labels := by
  refine ⟨decode?_encode (gives_decode d n hd), fun d' hedits => ?_, exists_entries_of_decode? hd⟩
  rw [ignores_decode.eqvGen hedits, hd]

/-- A board with a pin header and a light. How it writes the slot of the header is left open, and so
is what it says besides. -/
def ledDocument (slot : Document) (others : List (String × Document)) : Document :=
  .object (
    ("graph", .object [("nodes", .object [("j1", header), ("d1", light)])]) ::
    ("labels", .object [
      ("9", .object [
        ("nodeId", .string "d1"), ("labelName", .string "sig"), ("portIdx", number 0)]),
      ("2", .object [
        ("portIdx", number 1), ("labelName", .string "sig"), ("nodeId", .string "j1")])]) ::
    others)
where
  number (n : Fin 256) : Document := .number (.integer ⟨n, by omega, by omega⟩)
  header : Document := .object [
    ("data", .object [
      ("name", .string "J1"),
      ("type", .string "PinHeader"),
      ("ports", .array [
        .object [("name", .string "pins"), ("type", .string "Passive"), ("array", .bool true)],
        slot])])]
  light : Document := .object [
    ("id", .string "d1"),
    ("data", .object [
      ("name", .string "D1"),
      ("type", .string "Led"),
      ("superClasses", .array []),
      ("ports", .array [
        .object [
          ("array", .bool false), ("type", .string "DigitalSink"), ("name", .string "signal")]]),
      ("argParams", .array [
        .object [
          ("name", .string "color"), ("type", .string "Color"), ("value", .null),
          ("default_value", .object [("r", number 255), ("r", number 7)])]])])]

def ledNetlist : Netlist where
  nodes := [
    ("j1", {
      id := "", name := "J1", type := "PinHeader", superClasses := []
      ports := [⟨"pins", "Passive", true, none⟩, ⟨"p0", "Passive", false, some 0⟩]
      arguments := [] }),
    ("d1", {
      id := "d1", name := "D1", type := "Led", superClasses := []
      ports := [⟨"signal", "DigitalSink", false, none⟩]
      arguments := [⟨"color", .unknown "Color",
        some (.object [("r", .number (.integer ⟨7, by omega, by omega⟩))]), none⟩] })]
  labels := [("9", ⟨"sig", "d1", 0⟩), ("2", ⟨"sig", "j1", 1⟩)]

private theorem edit_ledDocument {slot slot' : Document}
    (hedit : Document.Edit Port.schema slot slot') (others : List (String × Document)) :
    Document.Edit schema (ledDocument slot others) (ledDocument slot' others) := by
  refine .field (s := graphSchema) List.mem_cons_self [] _ ?_
  refine .field (s := .table Component.schema) List.mem_cons_self [] [] ?_
  refine .entry "j1" [] [("d1", ledDocument.light)] ?_
  refine .field (s := Component.dataSchema) (by simp) [] [] ?_
  refine .field (s := .list Port.schema) (by simp)
    [("name", .string "J1"), ("type", .string "PinHeader")] [] ?_
  exact .item [_] [] hedit

/-- The slot of the header, and the same slot with a field more and in another order. -/
def ledSlot : Document := .object [
  ("name", .string "p0"), ("type", .string "Passive"), ("array", .bool false),
  ("elementOf", ledDocument.number 0)]

def ledSlotReworded : Document := .object [
  ("note", .unreadable), ("array", .bool false), ("elementOf", ledDocument.number 0),
  ("name", .string "p0"), ("type", .string "Passive")]

theorem decoding_stable_ledDocument :
    decode? (ledDocument ledSlot []) = some ledNetlist ∧
    decode? (ofValue ledNetlist.encode) = some ledNetlist ∧
    decode? (ledDocument ledSlotReworded [("version", ledDocument.number 2)]) = some ledNetlist ∧
    ledNetlist.nodes.map (·.1) = ["j1", "d1"] ∧ ledNetlist.labels.map (·.1) = ["9", "2"] := by
  have hdecode : decode? (ledDocument ledSlot []) = some ledNetlist := rfl
  have hversion : Document.Edit schema (ledDocument ledSlot [])
      (ledDocument ledSlot [("version", ledDocument.number 2)]) :=
    .insert (by decide) [_, _] [] _
  have hnote : Document.Edit Port.schema ledSlot (.object [
      ("name", .string "p0"), ("type", .string "Passive"), ("note", .unreadable),
      ("array", .bool false), ("elementOf", ledDocument.number 0)]) :=
    .insert (by decide) [_, _] [_, _] .unreadable
  have horder : Document.Edit Port.schema _ ledSlotReworded :=
    .permute (List.perm_append_comm : ([_, _] ++ [_, _, _]).Perm _)
  obtain ⟨hagain, hedits, nodes, labels, hnodes, hlabels, hnodeOrder, hlabelOrder⟩ :=
    decoding_stable hdecode
  cases hnodes
  cases hlabels
  refine ⟨hdecode, hagain, hedits _ ?_, hnodeOrder.keys, hlabelOrder.keys⟩
  exact .trans _ _ _ (.rel _ _ hversion)
    (.trans _ _ _ (.rel _ _ (edit_ledDocument hnote _)) (.rel _ _ (edit_ledDocument horder _)))

end Netlist

end Schematic
