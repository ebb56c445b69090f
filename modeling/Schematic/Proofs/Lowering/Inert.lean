import Schematic.Lowering
import Schematic.Proofs.Argument.Equality
import Schematic.Proofs.Argument.Written
import Schematic.Proofs.Netlist.Representable
import Schematic.Proofs.Pipeline.Outline

namespace Schematic

namespace Argument

private theorem explicits_filter (arguments : List Argument) :
    explicits (arguments.filter isExplicit) = explicits arguments := by
  rw [explicits, explicits, List.filterMap_filter]
  refine List.filterMap_congr fun a _ => ?_
  rw [isExplicit]
  cases a.explicit? <;> rfl

private theorem writeAll_filter (node : String) (arguments : List Argument) :
    writeAll node (arguments.filter isExplicit) = writeAll node arguments := by
  rw [writeAll, writeAll, explicits_filter]

end Argument

def Component.pruned (c : Component) : Component :=
  { c with arguments := c.arguments.filter Argument.isExplicit }

/-- The netlist without the arguments that are not written out. -/
def Netlist.pruned (n : Netlist) : Netlist :=
  { n with nodes := n.nodes.map fun e => (e.1, e.2.pruned) }

namespace Circuit

def Node.pruned (node : Node) : Node :=
  { node with arguments := node.arguments.filter Argument.isExplicit }

def pruned (c : Circuit) : Circuit :=
  { c with nodes := c.nodes.map Node.pruned }

private theorem outline_pruned (c : Circuit) : c.pruned.outline = c.outline := by
  rw [outline, outline, pruned, List.map_map]
  rfl

private theorem ofNode_pruned (wrappers : List Wrapper) (node : Node) (n : Nat) :
    Declaration.ofNode wrappers (node.pruned, n) = Declaration.ofNode wrappers (node, n) := by
  rw [Declaration.ofNode, Declaration.ofNode, Node.pruned, Argument.writeAll_filter]
  rfl

private theorem emittedAlike_pruned (c : Circuit) : c.pruned.EmittedAlike c := by
  intro wrappers
  rw [pruned, List.zipIdx_map]
  exact mapM_map_congr fun e _ => ofNode_pruned wrappers e.1 e.2

private theorem resolveNode_pruned (registry : Registry) (e : String × Component) :
    resolveNode registry (e.1, e.2.pruned) = (resolveNode registry e).map Node.pruned := by
  rw [resolveNode, resolveNode, Component.pruned]
  cases strayPort? e.2.ports <;> rfl

private theorem resolveLabel_pruned (n : Netlist) (entry : String × Netlist.Label) :
    resolveLabel n.pruned.nodes entry = resolveLabel n.nodes entry := by
  have hfind : (n.pruned.nodes.zipIdx.find? fun e => e.1.1 == entry.2.node) =
      (n.nodes.zipIdx.find? fun e => e.1.1 == entry.2.node).map
        (Prod.map (fun e => (e.1, e.2.pruned)) id) := by
    rw [Netlist.pruned, List.zipIdx_map, List.find?_map]
    rfl
  rw [resolveLabel, resolveLabel, hfind]
  cases n.nodes.zipIdx.find? fun e => e.1.1 == entry.2.node <;> rfl

private theorem ofNetlist_pruned (registry : Registry) (n : Netlist) :
    ofNetlist registry n.pruned = (ofNetlist registry n).map pruned := by
  have hnodes : n.pruned.nodes.mapM (resolveNode registry) =
      (n.nodes.mapM (resolveNode registry)).map (List.map Node.pruned) := by
    rw [← mapM_map_eq]
    exact mapM_map_congr fun e _ => resolveNode_pruned registry e
  have hlabels : n.pruned.labels.mapM (resolveLabel n.pruned.nodes) =
      n.labels.mapM (resolveLabel n.nodes) := by
    rw [funext (resolveLabel_pruned n)]
    rfl
  rw [ofNetlist, ofNetlist, hnodes, hlabels, map_bind_eq]
  cases n.nodes.mapM (resolveNode registry) with
  | error fault => rfl
  | ok nodes => cases n.labels.mapM (resolveLabel n.nodes) <;> rfl

end Circuit

namespace Netlist

/-- The passes stop alike without the arguments that are not written out. -/
theorem stages_pruned (registry : Registry) (header : ModuleHeader) (n : Netlist) :
    n.pruned.stages registry header = n.stages registry header := by
  rw [stages, stages, Circuit.ofNetlist_pruned]
  cases Circuit.ofNetlist registry n with
  | error fault => rfl
  | ok c =>
    exact Circuit.stages_eq_of_outline_eq c.outline_pruned c.emittedAlike_pruned registry header

private theorem lower_pruned (registry : Registry) (header : ModuleHeader) (n : Netlist) :
    n.pruned.lower registry header = n.lower registry header := by
  rw [lower_eq_stages, lower_eq_stages, stages_pruned]

end Netlist

/-- A value that equals the default is cleared, or a cleared one is set to the default. -/
inductive Argument.Reset : Argument → Argument → Prop where
  | clear {a : Argument} {v d : Json} {empty : Option Json} (hvalue : a.value = some v)
      (hdefault : a.default = some d) (hequal : d.sameValue v = true)
      (hempty : Json.present empty = none) : Reset a { a with value := empty }
  | restore {a : Argument} (hcleared : Json.present a.value = none) :
      Reset a { a with value := a.default }

/-- Any arguments of any nodes are reset, and nothing else is changed. -/
structure Netlist.Resets (n m : Netlist) : Prop where
  nodes : List.Forall₂ (fun e f => e.1 = f.1 ∧ ∃ arguments, { e.2 with arguments } = f.2 ∧
    List.Forall₂ (Relation.ReflGen Argument.Reset) e.2.arguments arguments) n.nodes m.nodes
  labels : n.labels = m.labels

/-- No default has an object with two fields of one key, so that each of them equals itself. It is
so in every netlist that is read. -/
def Netlist.DistinctDefaults (n : Netlist) : Prop :=
  ∀ e ∈ n.nodes, ∀ a ∈ e.2.arguments, ∀ d ∈ a.default, d.Distinct

theorem Netlist.distinctDefaults_of_read? {text : String} {n : Netlist}
    (hread : read? text = some n) : n.DistinctDefaults := by
  obtain ⟨document, -, hdecode⟩ := Option.bind_eq_some_iff.mp hread
  have hrepresentable := gives_decode document n hdecode
  intro e he a ha d hd
  have hstorable := ((hrepresentable.nodes e he).arguments a ha).default d hd
  exact Json.Document.distinct_of_value? hstorable.2

theorem Argument.Reset.not_isExplicit {a b : Argument} (hreset : a.Reset b)
    (hdistinct : ∀ d ∈ a.default, d.Distinct) : a.isExplicit = false ∧ b.isExplicit = false := by
  have hcleared : ∀ {value : Option Json}, Json.present value = none →
      ∀ v ∈ value, v.isTruthy = false := by
    rintro value hvalue v rfl
    cases v with
    | null => rfl
    | _ => cases hvalue
  simp only [isExplicit_eq_false_iff]
  cases hreset with
  | @clear v d empty hvalue hdefault hequal hempty =>
    refine ⟨?_, fun w hw => .inl (hcleared hempty w hw)⟩
    rintro w hw
    cases hvalue.symm.trans hw
    exact .inr ⟨d, hdefault, hequal⟩
  | restore hnone =>
    refine ⟨fun w hw => .inl (hcleared hnone w hw), fun w hw => .inr ⟨w, hw, ?_⟩⟩
    exact (hdistinct w hw).sameValue_refl

theorem Argument.filter_isExplicit_eq {as bs : List Argument}
    (hresets : List.Forall₂ (Relation.ReflGen Reset) as bs)
    (hdistinct : ∀ a ∈ as, ∀ d ∈ a.default, d.Distinct) :
    bs.filter isExplicit = as.filter isExplicit := by
  induction hresets with
  | nil => rfl
  | @cons a b as bs hreset _ ih =>
    obtain ⟨ha, has⟩ := List.forall_mem_cons.mp hdistinct
    rw [List.filter_cons, List.filter_cons, ih has]
    cases hreset with
    | refl => rfl
    | single hreset =>
      obtain ⟨ha, hb⟩ := hreset.not_isExplicit ha
      rw [ha, hb, if_neg Bool.false_ne_true, if_neg Bool.false_ne_true]

namespace Netlist

theorem Resets.pruned_eq {n m : Netlist} (hresets : n.Resets m) (hdistinct : n.DistinctDefaults) :
    m.pruned = n.pruned := by
  have hnodes : n.nodes.map (fun e => (e.1, e.2.pruned)) =
      m.nodes.map fun e => (e.1, e.2.pruned) := by
    have hboth := (List.forall₂_and_left _ _).mpr ⟨hdistinct, hresets.nodes⟩
    refine map_eq_map_of_forall₂ (hboth.imp ?_)
    rintro ⟨key, c⟩ ⟨key', c'⟩ ⟨hdefaults, rfl, arguments, rfl, harguments⟩
    rw [Component.pruned, Component.pruned, Argument.filter_isExplicit_eq harguments hdefaults]
  rw [pruned, pruned, hnodes, hresets.labels]

/-- Arguments that are not written out are inert. They are those that have no value, one that counts
as not set, or one that equals the default, whatever their names and kinds are. Without them a
netlist is lowered to the same, be it declarations or a fault. In any document, what equals its
default may be cleared, and what is cleared may be set to its default. -/
theorem lower_inert (registry : Registry) (header : ModuleHeader) (n : Netlist) :
    (∀ a : Argument, a.isExplicit = false ↔
        ∀ v ∈ a.value, v.isTruthy = false ∨ ∃ d ∈ a.default, d.sameValue v = true) ∧
      n.pruned.lower registry header = n.lower registry header ∧
      (n.DistinctDefaults → ∀ m, n.Resets m →
        m.lower registry header = n.lower registry header) ∧
      ∀ text edited m, read? text = some n → n.Resets m → read? edited = some m →
        lowerText registry header edited = lowerText registry header text := by
  have hresets : n.DistinctDefaults → ∀ m, n.Resets m →
      m.lower registry header = n.lower registry header := by
    intro hdistinct m hm
    rw [← lower_pruned, hm.pruned_eq hdistinct, lower_pruned]
  refine ⟨fun a => Argument.isExplicit_eq_false_iff, lower_pruned registry header n, hresets, ?_⟩
  intro text edited m hread hm hedited
  rw [lowerText, lowerText, hread, hedited]
  dsimp only
  rw [hresets (distinctDefaults_of_read? hread) m hm]

/-- A pair of truth values and a list. -/
def biasDefault : Json :=
  .object [("enabled", .bool true), ("limits", .array [.bool false, .null])]

/-- A source with a gain and with an argument that could not be written, for it has neither a proper
name nor a known kind. -/
def biasBoard (bias : Option Json) : Netlist where
  nodes := [("s", {
    id := "s"
    name := "V1"
    type := "Source"
    superClasses := []
    ports := []
    arguments := [
      ⟨"the bias", .unknown "pair", some biasDefault, bias⟩,
      ⟨"gain", .int, some (.bool false), some (.bool true)⟩] })]
  labels := []

private theorem resets_biasBoard : (biasBoard none).Resets (biasBoard (some biasDefault)) := by
  refine ⟨.cons ⟨rfl, _, rfl, .cons (.single ?_) (.cons .refl .nil)⟩ .nil, rfl⟩
  exact .restore rfl

private theorem distinctDefaults_biasBoard (bias : Option Json) :
    (biasBoard bias).DistinctDefaults := by
  have hlimits : Json.Distinct (.array [.bool false, .null]) :=
    .array (List.forall_mem_cons.mpr ⟨.bool false, List.forall_mem_singleton.mpr .null⟩)
  have hfields : ∀ e ∈ [("enabled", Json.bool true), ("limits", .array [.bool false, .null])],
      e.2.Distinct := List.forall_mem_cons.mpr ⟨.bool true, List.forall_mem_singleton.mpr hlimits⟩
  have hbias : biasDefault.Distinct := .object (by simp) hfields
  rintro e he a ha d hd
  obtain rfl := List.mem_singleton.mp he
  rcases List.mem_pair.mp ha with rfl | rfl
  · cases hd
    exact hbias
  · cases hd
    exact .bool false

theorem lower_inert_biasBoard :
    (biasBoard none).DistinctDefaults ∧ (biasBoard none).Resets (biasBoard (some biasDefault)) ∧
      (biasBoard (some biasDefault)).lower .builtin {} =
        .ok ⟨{}, [], [⟨"V1", "Source", [⟨"gain", "1"⟩]⟩], []⟩ := by
  have hinert := (lower_inert .builtin {} (biasBoard none)).2.2.1 (distinctDefaults_biasBoard none)
    _ resets_biasBoard
  refine ⟨distinctDefaults_biasBoard none, resets_biasBoard, hinert.trans ?_⟩
  exact eq_ok_of_toOption_eq_some (by decide +kernel)

end Netlist

end Schematic
