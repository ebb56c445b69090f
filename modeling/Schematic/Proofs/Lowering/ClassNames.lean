import Mathlib.Data.List.Pairwise
import Schematic.Proofs.Lowering.Exports

namespace Schematic

/-- The type of one component goes on, after an underscore, with what the name of the other starts
with. -/
def Component.Shifted (a b : Component) : Prop :=
  ∃ moved, a.type = b.type ++ "_" ++ moved ∧ b.name = moved ++ "_" ++ a.name

namespace Component

private theorem not_shifted_self (c : Component) : ¬ c.Shifted c := by
  intro hshifted
  obtain ⟨moved, htype, -⟩ := hshifted
  have hlength := congrArg String.length htype
  simp only [String.length_append] at hlength
  change _ = _ + 1 + _ at hlength
  omega

/-- The text after the shorter of two types decides. -/
theorem same_or_shifted_of_append_eq {a b : Component} {rest : List Char}
    (htype : a.type.toList = b.type.toList ++ rest)
    (hname : '_' :: b.name.toList = rest ++ '_' :: a.name.toList) :
    (a.type = b.type ∧ a.name = b.name) ∨ a.Shifted b := by
  cases rest with
  | nil =>
    rw [List.append_nil] at htype
    rw [List.nil_append, List.cons.injEq] at hname
    exact .inl ⟨String.toList_inj.mp htype, (String.toList_inj.mp hname.2).symm⟩
  | cons mark moved =>
    rw [List.cons_append, List.cons.injEq] at hname
    obtain ⟨rfl, hname⟩ := hname
    refine .inr ⟨String.ofList moved, String.toList_inj.mp ?_, String.toList_inj.mp ?_⟩
    · simp [htype]
    · simp [hname]

theorem Shifted.wrapperClass_eq {a b : Component} (hshifted : a.Shifted b) :
    a.wrapperClass = b.wrapperClass := by
  obtain ⟨moved, htype, hname⟩ := hshifted
  simp only [wrapperClass, htype, hname, String.append_assoc]

/-- Two components have one wrapper class only if they agree in type and name, or text is moved
across the underscore. -/
theorem wrapperClass_eq_iff {a b : Component} :
    a.wrapperClass = b.wrapperClass ↔
      (a.type = b.type ∧ a.name = b.name) ∨ a.Shifted b ∨ b.Shifted a := by
  constructor
  · intro hsame
    have hchars : a.type.toList ++ '_' :: a.name.toList =
        b.type.toList ++ '_' :: b.name.toList := by
      simpa [wrapperClass] using congrArg String.toList hsame
    rcases List.append_eq_append_iff.mp hchars with ⟨rest, htype, hname⟩ | ⟨rest, htype, hname⟩
    · rcases same_or_shifted_of_append_eq htype hname with ⟨htype, hname⟩ | hshifted
      · exact .inl ⟨htype.symm, hname.symm⟩
      · exact .inr (.inr hshifted)
    · rcases same_or_shifted_of_append_eq htype hname with hsame | hshifted
      · exact .inl hsame
      · exact .inr (.inl hshifted)
  · intro hcases
    rcases hcases with ⟨htype, hname⟩ | hshifted | hshifted
    · rw [wrapperClass, wrapperClass, htype, hname]
    · exact hshifted.wrapperClass_eq
    · exact hshifted.wrapperClass_eq.symm

/-- Among components that differ in type or name, those with one wrapper class are the shifted
ones. -/
theorem nodup_wrapperClass_iff {cs : List Component}
    (hcs : (cs.map fun c => (c.type, c.name)).Nodup) :
    (cs.map (·.wrapperClass)).Nodup ↔ ∀ a ∈ cs, ∀ b ∈ cs, ¬ a.Shifted b := by
  constructor
  · intro hclasses a ha b hb hshifted
    obtain rfl := List.inj_on_of_nodup_map hclasses ha hb hshifted.wrapperClass_eq
    exact a.not_shifted_self hshifted
  · intro hnone
    refine hcs.of_map.map_on ?_
    intro a ha b hb hsame
    rcases wrapperClass_eq_iff.mp hsame with ⟨htype, hname⟩ | hshifted | hshifted
    · exact List.inj_on_of_nodup_map hcs ha hb (Prod.ext htype hname)
    · exact absurd hshifted (hnone a ha b hb)
    · exact absurd hshifted (hnone b hb a ha)

end Component

/-- The components that are wrapped, in order. -/
def Circuit.wrapped (c : Circuit) : List Component :=
  (Wrapper.connectors c).map (·.1.toComponent)

namespace Netlist

/-- The wrapper classes of a design are named apart exactly when no text is moved across the
underscore between two connectors. -/
theorem lower_wrapper_classes_nodup_iff {registry : Registry} {header : ModuleHeader} {n : Netlist}
    {d : Declarations} {c : Circuit} (hd : n.lower registry header = .ok d)
    (hc : Circuit.ofNetlist registry n = .ok c)
    (hdistinct : (c.wrapped.map fun k => (k.type, k.name)).Nodup) :
    (d.connectors.map (·.className)).Nodup ↔ ∀ a ∈ c.wrapped, ∀ b ∈ c.wrapped, ¬ a.Shifted b := by
  obtain ⟨-, -, rfl⟩ := lower_eq_ok_iff.mp hd
  obtain ⟨-, rfl⟩ := Circuit.ofNetlist_eq_ok_iff.mp hc
  have hclasses : ((n.circuit registry).design registry header).connectors.map (·.className) =
      (n.circuit registry).wrapped.map (·.wrapperClass) := by
    rw [Circuit.connectors_design, Circuit.wrapped, List.map_map, List.map_map]
    rfl
  rw [hclasses, Component.nodup_wrapperClass_iff hdistinct]

/-- Two headers with a pin each, wired to a light. -/
def headerPair (type name type' name' : String) : Netlist where
  nodes := [
    ("h", {
      id := "h"
      name := name
      type := type
      superClasses := ["PassiveConnector"]
      ports := [⟨"port_0", "Passive", false, none⟩]
      arguments := [] }),
    ("k", {
      id := "k"
      name := name'
      type := type'
      superClasses := ["PassiveConnector"]
      ports := [⟨"port_0", "Passive", false, none⟩]
      arguments := [] }),
    ("d", {
      id := "d"
      name := "D1"
      type := "IndicatorLed"
      superClasses := []
      ports := [⟨"signal", "DigitalSink", false, none⟩, ⟨"gnd", "Ground", false, none⟩]
      arguments := [] })]
  labels := [("1", ⟨"sig", "d", 0⟩), ("2", ⟨"sig", "h", 0⟩), ("3", ⟨"gnd", "d", 1⟩),
    ("4", ⟨"gnd", "k", 0⟩)]

/-- The design of the headers. -/
def headerPairDesign (type name type' name' : String) : Declarations where
  header := {}
  connectors := [
    ⟨type ++ "_" ++ name, type, [], [⟨"port_0", 1, "DigitalBidir"⟩]⟩,
    ⟨type' ++ "_" ++ name', type', [], [⟨"port_0", 1, "Ground"⟩]⟩]
  blocks := [⟨name, type ++ "_" ++ name, []⟩, ⟨name', type' ++ "_" ++ name', []⟩,
    ⟨"D1", "IndicatorLed", []⟩]
  connects := [⟨"sig", [.port "D1" "signal", .port name "port_0"]⟩,
    ⟨"gnd", [.port "D1" "gnd", .port name' "port_0"]⟩]

theorem lower_wrapper_classes_headerPair :
    ∃ d c, (headerPair "PinHeader" "J1" "PinHeader_Angled" "J2").lower .builtin {} = .ok d ∧
      Circuit.ofNetlist .builtin (headerPair "PinHeader" "J1" "PinHeader_Angled" "J2") = .ok c ∧
      (c.wrapped.map fun k => (k.type, k.name)).Nodup ∧
      d.connectors.map (·.className) = ["PinHeader_J1", "PinHeader_Angled_J2"] ∧
      ∀ a ∈ c.wrapped, ∀ b ∈ c.wrapped, ¬ a.Shifted b := by
  have hd : (headerPair "PinHeader" "J1" "PinHeader_Angled" "J2").lower .builtin {} =
      .ok (headerPairDesign "PinHeader" "J1" "PinHeader_Angled" "J2") :=
    eq_ok_of_toOption_eq_some (by decide +kernel)
  have hc := ofNetlist_of_lower hd
  refine ⟨_, _, hd, hc, by decide, by decide, ?_⟩
  exact (lower_wrapper_classes_nodup_iff hd hc (by decide)).mp (by decide)

/-- The headers differ in type and name, and yet their classes have one name. -/
theorem headerPair_shifted_one_class :
    ∃ d c, (headerPair "PinHeader" "Angled_J1" "PinHeader_Angled" "J1").lower .builtin {} = .ok d ∧
      Circuit.ofNetlist .builtin (headerPair "PinHeader" "Angled_J1" "PinHeader_Angled" "J1") =
        .ok c ∧
      (c.wrapped.map fun k => (k.type, k.name)).Nodup ∧
      d.connectors.map (·.className) = ["PinHeader_Angled_J1", "PinHeader_Angled_J1"] ∧
      ¬ (d.connectors.map (·.className)).Nodup := by
  have hd : (headerPair "PinHeader" "Angled_J1" "PinHeader_Angled" "J1").lower .builtin {} =
      .ok (headerPairDesign "PinHeader" "Angled_J1" "PinHeader_Angled" "J1") :=
    eq_ok_of_toOption_eq_some (by decide +kernel)
  exact ⟨_, _, hd, ofNetlist_of_lower hd, by decide, by decide, by decide⟩

end Netlist

end Schematic
