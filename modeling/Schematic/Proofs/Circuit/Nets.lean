import Schematic.Circuit.Basic
import Schematic.Proofs.Sequence

namespace Schematic

namespace Circuit

/-- The names of the labels, each at its first place. -/
def nets (c : Circuit) : List String :=
  (c.labels.map (·.name)).eraseDups

/-- The ports under a name, in label order. -/
def wired (c : Circuit) (net : String) : List PortRef :=
  (c.labels.filter (·.name == net)).map (·.target)

/-- The name under which a port stands. -/
def netOf? (c : Circuit) (r : PortRef) : Option String :=
  (c.labels.find? (·.target == r)).map (·.name)

/-- No two labels stand on one port. -/
def Unshared (c : Circuit) : Prop :=
  (c.labels.map (·.target)).Nodup

theorem mem_nets {c : Circuit} {net : String} : net ∈ c.nets ↔ ∃ l ∈ c.labels, l.name = net := by
  simp [nets, List.mem_eraseDups]

theorem nodup_nets (c : Circuit) : c.nets.Nodup :=
  nodup_eraseDups _

theorem idxOf_nets_of_getElem? {c : Circuit} {net : String} {i : Nat}
    (hnet : c.nets[i]? = some net) : c.nets.idxOf net = i := by
  obtain ⟨hi, rfl⟩ := List.getElem?_eq_some_iff.mp hnet
  exact c.nodup_nets.idxOf_getElem i hi

theorem mem_wired {c : Circuit} {net : String} {r : PortRef} :
    r ∈ c.wired net ↔ ∃ l ∈ c.labels, l.name = net ∧ l.target = r := by
  simp [wired, and_assoc]

theorem wired_eq_nil_iff {c : Circuit} {net : String} : c.wired net = [] ↔ net ∉ c.nets := by
  simp [wired, mem_nets]

theorem netOf?_eq_none_iff {c : Circuit} {r : PortRef} :
    c.netOf? r = none ↔ ∀ l ∈ c.labels, l.target ≠ r := by
  simp [netOf?]

theorem netOf?_isSome_iff {c : Circuit} {r : PortRef} :
    (c.netOf? r).isSome = true ↔ ∃ l ∈ c.labels, l.target = r := by
  simp [netOf?]

theorem mem_wired_of_netOf? {c : Circuit} {r : PortRef} {net : String}
    (hnet : c.netOf? r = some net) : r ∈ c.wired net := by
  obtain ⟨l, hfind, rfl⟩ := Option.map_eq_some_iff.mp hnet
  exact mem_wired.mpr
    ⟨l, List.mem_of_find?_eq_some hfind, rfl, by simpa using List.find?_some hfind⟩

theorem Unshared.eq_of_target {c : Circuit} (hc : c.Unshared) {l m : Label} (hl : l ∈ c.labels)
    (hm : m ∈ c.labels) (htarget : l.target = m.target) : l = m :=
  List.inj_on_of_nodup_map hc hl hm htarget

theorem Unshared.netOf?_eq_some_iff {c : Circuit} (hc : c.Unshared) {r : PortRef} {net : String} :
    c.netOf? r = some net ↔ r ∈ c.wired net := by
  constructor
  · exact mem_wired_of_netOf?
  · rw [mem_wired]
    rintro ⟨l, hl, rfl, rfl⟩
    have hfind : c.labels.find? (·.target == l.target) = some l :=
      find?_eq_some_of_unique hl (by simp) fun m hm htarget =>
        hc.eq_of_target hm hl (by simpa using htarget)
    simp [netOf?, hfind]

theorem Unshared.netOf?_target {c : Circuit} (hc : c.Unshared) {l : Label} (hl : l ∈ c.labels) :
    c.netOf? l.target = some l.name :=
  hc.netOf?_eq_some_iff.mpr (mem_wired.mpr ⟨l, hl, rfl, rfl⟩)

theorem mem_nets_of_netOf? {c : Circuit} {r : PortRef} {net : String}
    (hnet : c.netOf? r = some net) : net ∈ c.nets := by
  obtain ⟨l, hfind, rfl⟩ := Option.map_eq_some_iff.mp hnet
  exact mem_nets.mpr ⟨l, List.mem_of_find?_eq_some hfind, rfl⟩

theorem nets_append_of_known {nodes : List Node} {ls ms : List Label}
    (hknown : ∀ m ∈ ms, m.name ∈ (mk nodes ls).nets) :
    (mk nodes (ls ++ ms)).nets = (mk nodes ls).nets := by
  have hnone : (ms.map (·.name)).removeAll (ls.map (·.name)) = [] := by
    rw [List.removeAll, List.filter_eq_nil_iff]
    intro name hname
    obtain ⟨m, hm, rfl⟩ := List.mem_map.mp hname
    simpa [mem_nets] using hknown m hm
  simp [nets, List.eraseDups_append, hnone]

theorem nets_append_of_new {nodes : List Node} {ls ms : List Label}
    (hnew : ∀ m ∈ ms, m.name ∉ (mk nodes ls).nets) :
    (mk nodes (ls ++ ms)).nets = (mk nodes ls).nets ++ (mk nodes ms).nets := by
  have hall : (ms.map (·.name)).removeAll (ls.map (·.name)) = ms.map (·.name) := by
    rw [List.removeAll, List.filter_eq_self]
    intro name hname
    obtain ⟨m, hm, rfl⟩ := List.mem_map.mp hname
    simpa [mem_nets] using hnew m hm
  simp [nets, List.eraseDups_append, hall]

end Circuit

end Schematic
