import Schematic.Proofs.Lowering.Design

namespace Schematic

namespace Circuit

/-- The references of a design to labelled ports, each with the port that it is made for. -/
def emitted (c : Circuit) (d : Declarations) : List (PortRef × Declaration.Expression) :=
  d.connects.flatMap fun x => (c.wired x.label).zip x.members

/-- The references of a design to the labelled ports of the node at a position. -/
def referencesTo (c : Circuit) (d : Declarations) (i : Nat) : List Declaration.Expression :=
  ((c.emitted d).filter (·.1.node == i)).map (·.2)

private theorem zip_references {c : Circuit} {refs : List PortRef}
    (hrefs : ∀ r ∈ refs, ∃ e, c.endpoint? r = some e) (isArray : Bool)
    (more : List Declaration.Expression) :
    refs.zip ((c.endpoints refs).map (·.reference isArray) ++ more) =
      refs.filterMap fun r => (c.endpoint? r).map fun e => (r, e.reference isArray) := by
  induction refs with
  | nil => rfl
  | cons r refs ih =>
    obtain ⟨e, he⟩ := hrefs r List.mem_cons_self
    have hrest := ih fun s hs => hrefs s (List.mem_cons_of_mem r hs)
    have hcons : c.endpoints (r :: refs) = e :: c.endpoints refs := by simp [endpoints, he]
    rw [hcons, List.map_cons, List.cons_append, List.zip_cons_cons, hrest, List.filterMap_cons, he]
    rfl

theorem Unshared.nodup_flatMap_wired {c : Circuit} (hc : c.Unshared) :
    (c.nets.flatMap c.wired).Nodup := by
  refine List.nodup_flatMap.mpr ⟨fun net _ => ?_, ?_⟩
  · exact hc.sublist (List.filter_sublist.map _)
  · refine c.nodup_nets.pairwise_of_forall_ne fun net _ other _ hne r hr hr' => hne ?_
    obtain ⟨l, hl, rfl, rfl⟩ := mem_wired.mp hr
    obtain ⟨m, hm, rfl, htarget⟩ := mem_wired.mp hr'
    rw [hc.eq_of_target hm hl htarget]

section

variable {registry : Registry} {header : ModuleHeader} {c : Circuit} (hc : c.Closed)

include hc

private theorem emitted_design :
    c.emitted (c.design registry header) = c.nets.flatMap fun net =>
      (c.wired net).filterMap fun r =>
        (c.endpoint? r).map fun e => (r, e.reference (c.carriesArray net)) := by
  rw [emitted, design, List.flatMap_map]
  refine List.flatMap_congr fun net _ => ?_
  exact zip_references (fun r hr => hc.exists_endpoint hr) _ _

/-- A labelled port has one reference, in the form that its net asks for. -/
theorem mem_emitted_design (hshared : c.Unshared) {l : Label} (hl : l ∈ c.labels) {e : Endpoint}
    (he : c.endpoint? l.target = some e) {x : Declaration.Expression} :
    (l.target, x) ∈ c.emitted (c.design registry header) ↔
      x = e.reference (c.carriesArray l.name) := by
  simp only [emitted_design hc, List.mem_flatMap, List.mem_filterMap, Option.map_eq_some_iff,
    Prod.mk.injEq]
  constructor
  · rintro ⟨net, -, r, hr, f, hf, rfl, rfl⟩
    obtain ⟨m, hm, rfl, htarget⟩ := mem_wired.mp hr
    obtain rfl := hshared.eq_of_target hm hl htarget
    rw [he, Option.some.injEq] at hf
    rw [hf]
  · rintro rfl
    exact ⟨l.name, mem_nets.mpr ⟨l, hl, rfl⟩, l.target, mem_wired.mpr ⟨l, hl, rfl, rfl⟩, e, he, rfl,
      rfl⟩

theorem exists_label_of_mem_emitted {r : PortRef} {x : Declaration.Expression}
    (hx : (r, x) ∈ c.emitted (c.design registry header)) : ∃ l ∈ c.labels, l.target = r := by
  simp only [emitted_design hc, List.mem_flatMap, List.mem_filterMap, Option.map_eq_some_iff,
    Prod.mk.injEq] at hx
  obtain ⟨net, -, s, hs, -, -, rfl, -⟩ := hx
  obtain ⟨l, hl, -, htarget⟩ := mem_wired.mp hs
  exact ⟨l, hl, htarget⟩

/-- No port has a second reference. -/
theorem nodup_emitted_design (hshared : c.Unshared) :
    ((c.emitted (c.design registry header)).map (·.1)).Nodup := by
  have hrefs : ∀ net, ((c.wired net).filterMap fun r =>
      (c.endpoint? r).map fun e => (r, e.reference (c.carriesArray net))).map (·.1) =
        c.wired net := by
    intro net
    have hsome : ∀ r ∈ c.wired net, ((c.endpoint? r).map fun e =>
        (r, e.reference (c.carriesArray net))).map (·.1) = some r := by
      intro r hr
      obtain ⟨e, he⟩ := hc.exists_endpoint hr
      rw [he]
      rfl
    rw [List.map_filterMap, List.filterMap_congr hsome, List.filterMap_some]
  rw [emitted_design hc, List.map_flatMap]
  simp only [hrefs]
  exact hshared.nodup_flatMap_wired

end

end Circuit

end Schematic
