import Schematic.Proofs.Connection.Uniform
import Schematic.Proofs.Connection.Known

namespace Schematic

/-- The shape that a port which is no slot asks for. -/
def Shape.ofPort (isArray : Bool) : Shape :=
  if isArray then .array else .scalar

theorem Shape.ofPort_inj {a b : Bool} : Shape.ofPort a = Shape.ofPort b ↔ a = b := by
  cases a <;> cases b <;> decide

theorem Shape.ofPort_ne_slotsOnly (isArray : Bool) : Shape.ofPort isArray ≠ .slotsOnly := by
  cases isArray <;> decide

/-- What a reference leads to, unless that is a slot. -/
def Circuit.solid? (c : Circuit) (r : PortRef) : Option Endpoint :=
  (c.endpoint? r).filter fun e => !e.port.isSlot

/-- The reference leads to a port that is no slot. -/
def Circuit.isSolid (c : Circuit) (r : PortRef) : Bool :=
  (c.solid? r).isSome

namespace Connection

/-- The members lead to ports of the circuit. -/
def Within (c : Circuit) (k : Connection) : Prop :=
  ∀ r ∈ k.members, ∃ e, c.endpoint? r = some e

/-- Every member is a slot. -/
def SlotsOnly (c : Circuit) (k : Connection) : Prop :=
  ∀ r ∈ k.members, ∀ e, c.endpoint? r = some e → e.port.isSlot = true

/-- Some member is no slot, and all such members are arrays or all are scalar. -/
structure Agrees (c : Circuit) (isArray : Bool) (k : Connection) : Prop where
  solid : ∃ r ∈ k.members, ∃ e, c.endpoint? r = some e ∧ e.port.isSlot = false
  alike : ∀ r ∈ k.members, ∀ e, c.endpoint? r = some e → e.port.isSlot = false →
    e.port.isArray = isArray

/-- The first member that is no slot, and the first such member after it that differs from it in
being an array. -/
def FirstClash (c : Circuit) (k : Connection) (e f : Endpoint) : Prop :=
  ∃ before r between s after, k.members = before ++ r :: (between ++ s :: after) ∧
    (∀ q ∈ before, ∀ g, c.endpoint? q = some g → g.port.isSlot = true) ∧
    c.endpoint? r = some e ∧ e.port.isSlot = false ∧
    (∀ q ∈ between, ∀ g, c.endpoint? q = some g → g.port.isSlot = false →
      g.port.isArray = e.port.isArray) ∧
    c.endpoint? s = some f ∧ f.port.isSlot = false ∧ f.port.isArray ≠ e.port.isArray

end Connection

section

variable {c : Circuit} {k : Connection}

theorem Circuit.solid?_eq_some_iff {r : PortRef} {e : Endpoint} :
    c.solid? r = some e ↔ c.endpoint? r = some e ∧ e.port.isSlot = false := by
  rw [solid?, Option.filter_eq_some_iff, Bool.not_eq_true']

theorem Circuit.solid?_eq_none_iff {r : PortRef} :
    c.solid? r = none ↔ ∀ e, c.endpoint? r = some e → e.port.isSlot = true := by
  rw [solid?, Option.filter_eq_none_iff]
  simp

namespace Connection

theorem mem_filterMap_solid? {e : Endpoint} :
    e ∈ k.members.filterMap c.solid? ↔
      ∃ r ∈ k.members, c.endpoint? r = some e ∧ e.port.isSlot = false := by
  simp only [List.mem_filterMap, Circuit.solid?_eq_some_iff]

theorem slotsOnly_iff : k.SlotsOnly c ↔ ∀ e, e ∉ k.members.filterMap c.solid? := by
  simp only [SlotsOnly, mem_filterMap_solid?]
  constructor
  · intro hslots e he
    obtain ⟨r, hr, hat, hslot⟩ := he
    rw [hslots r hr e hat] at hslot
    cases hslot
  · intro hnone r hr e hat
    rw [← Bool.not_eq_false]
    intro hslot
    exact hnone e ⟨r, hr, hat, hslot⟩

theorem agrees_iff {isArray : Bool} :
    k.Agrees c isArray ↔ (∃ e, e ∈ k.members.filterMap c.solid?) ∧
      ∀ e ∈ k.members.filterMap c.solid?, e.port.isArray = isArray := by
  simp only [mem_filterMap_solid?]
  constructor
  · intro hagrees
    obtain ⟨r, hr, e, he⟩ := hagrees.solid
    refine ⟨⟨e, r, hr, he⟩, ?_⟩
    intro f hf
    obtain ⟨s, hs, hat, hslot⟩ := hf
    exact hagrees.alike s hs f hat hslot
  · intro hagrees
    obtain ⟨⟨e, r, hr, he⟩, halike⟩ := hagrees
    refine ⟨⟨r, hr, e, he⟩, ?_⟩
    intro s hs f hat hslot
    exact halike f ⟨s, hs, hat, hslot⟩

theorem Agrees.not_slotsOnly {isArray : Bool} (hk : k.Agrees c isArray) : ¬ k.SlotsOnly c := by
  intro hslots
  obtain ⟨r, hr, e, he, hslot⟩ := hk.solid
  rw [hslots r hr e he] at hslot
  cases hslot

theorem Agrees.eq {a b : Bool} (ha : k.Agrees c a) (hb : k.Agrees c b) : a = b := by
  obtain ⟨r, hr, e, he, hslot⟩ := ha.solid
  rw [← ha.alike r hr e he hslot, hb.alike r hr e he hslot]

theorem FirstClash.not_slotsOnly {e f : Endpoint} (hk : k.FirstClash c e f) :
    ¬ k.SlotsOnly c := by
  intro hslots
  obtain ⟨before, r, between, s, after, hmembers, -, he, hslot, -⟩ := hk
  have hr : r ∈ k.members := by simp [hmembers]
  rw [hslots r hr e he] at hslot
  cases hslot

theorem FirstClash.not_agrees {e f : Endpoint} (hk : k.FirstClash c e f) (isArray : Bool) :
    ¬ k.Agrees c isArray := by
  intro hagrees
  obtain ⟨before, r, between, s, after, hmembers, -, he, heslot, -, hf, hfslot, hdiffer⟩ := hk
  have hr : r ∈ k.members := by simp [hmembers]
  have hs : s ∈ k.members := by simp [hmembers]
  apply hdiffer
  rw [hagrees.alike r hr e he heslot, hagrees.alike s hs f hf hfslot]

/-- A clash among the members that are no slots is one among all members. -/
theorem firstClash_of_filterMap {e f : Endpoint} {between after : List Endpoint}
    (hsolid : k.members.filterMap c.solid? = e :: (between ++ f :: after))
    (hbetween : ∀ g ∈ between, g.port.isArray = e.port.isArray)
    (hdiffer : f.port.isArray ≠ e.port.isArray) : k.FirstClash c e f := by
  obtain ⟨before, r, rest, hmembers, hbefore, he, hrest⟩ := List.filterMap_eq_cons_iff.mp hsolid
  obtain ⟨agreeing, rest, rfl, hagreeing, hrest⟩ := List.filterMap_eq_append_iff.mp hrest
  obtain ⟨slots, s, after, rfl, hslots, hf, -⟩ := List.filterMap_eq_cons_iff.mp hrest
  obtain ⟨he, heslot⟩ := Circuit.solid?_eq_some_iff.mp he
  obtain ⟨hf, hfslot⟩ := Circuit.solid?_eq_some_iff.mp hf
  refine ⟨before, r, agreeing ++ slots, s, after, ?_, ?_, he, heslot, ?_, hf, hfslot, hdiffer⟩
  · rw [hmembers, List.append_assoc]
  · intro q hq
    exact Circuit.solid?_eq_none_iff.mp (hbefore q hq)
  · intro q hq g hg hslot
    rcases List.mem_append.mp hq with hq | hq
    · apply hbetween
      rw [← hagreeing]
      exact List.mem_filterMap.mpr ⟨q, hq, Circuit.solid?_eq_some_iff.mpr ⟨hg, hslot⟩⟩
    · have hgslot := Circuit.solid?_eq_none_iff.mp (hslots q hq) g hg
      rw [hslot] at hgslot
      cases hgslot

theorem Within.solid_eq (hk : k.Within c) : k.solid c = .ok (k.members.filterMap c.solid?) := by
  rw [solid_eq_ok hk, Circuit.endpoints, List.filter_filterMap]
  rfl

/-- What can come of looking for a shape. The three cases exclude each other. -/
theorem Within.shapeIn_cases (hk : k.Within c) :
    (k.SlotsOnly c ∧ k.shapeIn c = .ok .slotsOnly) ∨
    (∃ isArray, k.Agrees c isArray ∧ k.shapeIn c = .ok (.ofPort isArray)) ∨
    ∃ array scalar : Endpoint, (k.FirstClash c array scalar ∨ k.FirstClash c scalar array) ∧
      array.port.isArray = true ∧ scalar.port.isArray = false ∧
      k.shapeIn c = .error (.mixedShape k.name array.path scalar.path) := by
  rw [shapeIn, hk.solid_eq, ok_bind]
  cases hsolid : k.members.filterMap c.solid? with
  | nil => exact .inl ⟨slotsOnly_iff.mpr (by simp [hsolid]), rfl⟩
  | cons e rest =>
    dsimp only
    cases hfind : rest.find? fun f => f.port.isArray != e.port.isArray with
    | none =>
      have hagree := find?_disagrees_eq_none_iff.mp hfind
      refine .inr (.inl ⟨e.port.isArray, agrees_iff.mpr ?_, rfl⟩)
      rw [hsolid]
      exact ⟨⟨e, List.mem_cons_self⟩, fun f hf => hagree f hf e List.mem_cons_self⟩
    | some f =>
      obtain ⟨hdiffer, between, after, rfl, hbetween⟩ := List.find?_eq_some_iff_append.mp hfind
      have hdiffer : f.port.isArray ≠ e.port.isArray := bne_iff_ne.mp hdiffer
      have hclash : k.FirstClash c e f := by
        refine firstClash_of_filterMap hsolid ?_ hdiffer
        intro g hg
        simpa using hbetween g hg
      dsimp only
      -- The first port sets which of the two is the array.
      cases harray : e.port.isArray with
      | true =>
        rw [harray] at hdiffer
        exact .inr (.inr ⟨e, f, .inl hclash, harray, by simpa using hdiffer, rfl⟩)
      | false =>
        rw [harray] at hdiffer
        exact .inr (.inr ⟨f, e, .inr hclash, by simpa using hdiffer, harray, rfl⟩)

theorem Within.shapeIn_eq_slotsOnly_iff (hk : k.Within c) :
    k.shapeIn c = .ok .slotsOnly ↔ k.SlotsOnly c := by
  obtain ⟨hslots, hshape⟩ | ⟨isArray, hagrees, hshape⟩ | ⟨_, _, hclash, -, -, hshape⟩ :=
    hk.shapeIn_cases
  · simp [hslots, hshape]
  · simp [hagrees.not_slotsOnly, hshape, Shape.ofPort_ne_slotsOnly]
  · have hnot : ¬ k.SlotsOnly c := hclash.elim (·.not_slotsOnly) (·.not_slotsOnly)
    simp [hnot, hshape]

theorem Within.shapeIn_eq_ofPort_iff (hk : k.Within c) {isArray : Bool} :
    k.shapeIn c = .ok (.ofPort isArray) ↔ k.Agrees c isArray := by
  obtain ⟨hslots, hshape⟩ | ⟨b, hagrees, hshape⟩ | ⟨_, _, hclash, -, -, hshape⟩ :=
    hk.shapeIn_cases
  · have hnot : ¬ k.Agrees c isArray := fun hagrees => hagrees.not_slotsOnly hslots
    simp [hnot, hshape, (Shape.ofPort_ne_slotsOnly isArray).symm]
  · rw [hshape, Except.ok.injEq, Shape.ofPort_inj]
    constructor
    · intro hsame
      exact hsame ▸ hagrees
    · intro hother
      exact hagrees.eq hother
  · have hnot : ¬ k.Agrees c isArray := hclash.elim (·.not_agrees _) (·.not_agrees _)
    simp [hnot, hshape]

/-- Connections with the same members apart from slots have the same shapes, if any. -/
theorem Within.shapeIn_congr {other : Connection} (hk : k.Within c) (hother : other.Within c)
    (hsame : ∀ e, e ∈ k.members.filterMap c.solid? ↔ e ∈ other.members.filterMap c.solid?)
    (s : Shape) : k.shapeIn c = .ok s ↔ other.shapeIn c = .ok s := by
  have hports : ∀ isArray, k.shapeIn c = .ok (.ofPort isArray) ↔
      other.shapeIn c = .ok (.ofPort isArray) := by
    intro isArray
    rw [hk.shapeIn_eq_ofPort_iff, hother.shapeIn_eq_ofPort_iff, agrees_iff, agrees_iff]
    simp only [hsame]
  cases s with
  | array => exact hports true
  | scalar => exact hports false
  | slotsOnly =>
    rw [hk.shapeIn_eq_slotsOnly_iff, hother.shapeIn_eq_slotsOnly_iff, slotsOnly_iff, slotsOnly_iff]
    simp only [hsame]

theorem mem_filterMap_solid?_of_perm {members others : List PortRef}
    (hperm : (members.filter c.isSolid).Perm (others.filter c.isSolid)) (e : Endpoint) :
    e ∈ members.filterMap c.solid? ↔ e ∈ others.filterMap c.solid? := by
  have hsolid : ∀ refs : List PortRef, e ∈ refs.filterMap c.solid? ↔
      ∃ r ∈ refs.filter c.isSolid, c.solid? r = some e := by
    intro refs
    rw [List.mem_filterMap]
    refine exists_congr fun r => and_congr_left fun hr => ?_
    simp [Circuit.isSolid, hr]
  rw [hsolid, hsolid]
  simp only [hperm.mem_iff]

end Connection

end

namespace Connections

theorem checkShapes_eq_ok_iff {c : Circuit} {cs : Connections} :
    cs.checkShapes c = .ok () ↔ ∀ k ∈ cs.list, ∃ s, k.shape c = .ok s := by
  rw [checkShapes_eq, forM_eq_ok_iff]
  simp only [bind_eq_ok_iff, pure_eq_ok_iff, and_true]

/-- The first connection without a shape is reported. -/
theorem checkShapes_eq_error_iff {c : Circuit} {cs : Connections} {f : Fault} :
    cs.checkShapes c = .error f ↔ ∃ before k after, cs.list = before ++ k :: after ∧
      (∀ j ∈ before, ∃ s, j.shape c = .ok s) ∧ k.shape c = .error f := by
  rw [checkShapes_eq, forM_eq_error_iff]
  simp only [bind_eq_ok_iff, bind_pure_eq_error_iff, pure_eq_ok_iff, and_true]

end Connections

/-- A connection whose shape was not asked for yet consists of slots only, or its other members
agree and set its shape, or it fails with the first two of them that do not. Its shape stays when
members are reordered and when slots are put in or taken out. All connections have shapes or the
first that has none is reported. -/
theorem Connection.shapes_exact (c : Circuit) :
    (∀ k : Connection, k.known = none → k.Within c →
      (k.shape c = .ok .slotsOnly ↔ k.SlotsOnly c) ∧
      (∀ isArray, k.shape c = .ok (.ofPort isArray) ↔ k.Agrees c isArray) ∧
      (¬ k.SlotsOnly c → (∀ isArray, ¬ k.Agrees c isArray) →
        ∃ fault array scalar, k.shape c = .error fault ∧
          (k.FirstClash c array scalar ∨ k.FirstClash c scalar array) ∧
          array.port.isArray = true ∧ scalar.port.isArray = false ∧
          fault.problem = .invalid {
            code := .e0300
            path := [k.name]
            message := "mixed array and non-array ports in label " ++ k.name
            hint := some (array.node.name ++ "." ++ array.port.name ++ " is an array port but " ++
              (scalar.node.name ++ "." ++ scalar.port.name) ++ " is not") }) ∧
      ∀ other : Connection, other.known = none → other.Within c →
        (k.members.filter c.isSolid).Perm (other.members.filter c.isSolid) →
        ∀ s, k.shape c = .ok s ↔ other.shape c = .ok s) ∧
    ∀ cs : Connections,
      (cs.checkShapes c = .ok () ↔ ∀ k ∈ cs.list, ∃ s, k.shape c = .ok s) ∧
      ∀ f, cs.checkShapes c = .error f ↔ ∃ before k after, cs.list = before ++ k :: after ∧
        (∀ j ∈ before, ∃ s, j.shape c = .ok s) ∧ k.shape c = .error f := by
  constructor
  · intro k hunknown hk
    rw [shape_of_unknown hunknown]
    refine ⟨hk.shapeIn_eq_slotsOnly_iff, fun _ => hk.shapeIn_eq_ofPort_iff, ?_, ?_⟩
    · intro hslots hagrees
      obtain ⟨honly, -⟩ | ⟨isArray, hagree, -⟩ | ⟨array, scalar, hclash, harray, hscalar, hshape⟩ :=
        hk.shapeIn_cases
      · exact absurd honly hslots
      · exact absurd hagree (hagrees isArray)
      · exact ⟨_, array, scalar, hshape, hclash, harray, hscalar, rfl⟩
    · intro other hunknown' hother hperm s
      rw [shape_of_unknown hunknown']
      exact hk.shapeIn_congr hother (mem_filterMap_solid?_of_perm hperm) s
  · intro cs
    exact ⟨Connections.checkShapes_eq_ok_iff, fun f => Connections.checkShapes_eq_error_iff⟩

/-- A part with an array port, a slot of it and a single port. -/
def Circuit.panel : Circuit where
  nodes := [{
    id := "u"
    name := "U1"
    type := "Panel"
    superClasses := []
    ports := [⟨"leds", "DigitalSink", true, none⟩, ⟨"leds_3", "DigitalSink", false, some 0⟩,
      ⟨"key", "DigitalSource", false, none⟩]
    arguments := []
    role := .plain }]
  labels := []

/-- A slot does not matter beside a single port. An array does, and is told before the port that it
comes after. -/
theorem Connection.shapes_exact_panel :
    (∃ k : Connection, k = ⟨0, "n", [⟨0, 1⟩, ⟨0, 2⟩], none⟩ ∧ k.Within .panel ∧
      k.Agrees .panel false ∧ k.shape .panel = .ok .scalar) ∧
    ∃ k : Connection, k = ⟨0, "n", [⟨0, 1⟩, ⟨0, 2⟩, ⟨0, 0⟩], none⟩ ∧ k.Within .panel ∧
      ∃ fault array scalar, k.shape .panel = .error fault ∧
        (k.FirstClash .panel array scalar ∨ k.FirstClash .panel scalar array) ∧
        fault.problem = .invalid {
          code := .e0300
          path := ["n"]
          message := "mixed array and non-array ports in label n"
          hint := some "U1.leds is an array port but U1.key is not" } := by
  obtain ⟨hexact, -⟩ := shapes_exact .panel
  constructor
  · have hk : Within .panel ⟨0, "n", [⟨0, 1⟩, ⟨0, 2⟩], none⟩ := by
      simp only [Within, List.forall_mem_cons]
      exact ⟨⟨_, rfl⟩, ⟨_, rfl⟩, by simp⟩
    have hagrees : Agrees .panel false ⟨0, "n", [⟨0, 1⟩, ⟨0, 2⟩], none⟩ := by
      refine ⟨⟨⟨0, 2⟩, by decide, _, rfl, rfl⟩, ?_⟩
      simp only [List.forall_mem_cons]
      refine ⟨?_, ?_, by simp⟩
      · rintro e ⟨⟩ -
        rfl
      · rintro e ⟨⟩ -
        rfl
    exact ⟨_, rfl, hk, hagrees, ((hexact _ rfl hk).2.1 false).mpr hagrees⟩
  · have hk : Within .panel ⟨0, "n", [⟨0, 1⟩, ⟨0, 2⟩, ⟨0, 0⟩], none⟩ := by
      simp only [Within, List.forall_mem_cons]
      exact ⟨⟨_, rfl⟩, ⟨_, rfl⟩, ⟨_, rfl⟩, by simp⟩
    have hslots : ¬ SlotsOnly .panel ⟨0, "n", [⟨0, 1⟩, ⟨0, 2⟩, ⟨0, 0⟩], none⟩ := by
      intro hslots
      cases hslots ⟨0, 2⟩ (by decide) _ rfl
    have hagrees : ∀ isArray, ¬ Agrees .panel isArray ⟨0, "n", [⟨0, 1⟩, ⟨0, 2⟩, ⟨0, 0⟩], none⟩ := by
      intro isArray hagrees
      have hkey := hagrees.alike ⟨0, 2⟩ (by decide) _ rfl rfl
      have hleds := hagrees.alike ⟨0, 0⟩ (by decide) _ rfl rfl
      cases hkey.trans hleds.symm
    obtain ⟨fault, array, scalar, hfault, hclash, -⟩ := (hexact _ rfl hk).2.2.1 hslots hagrees
    refine ⟨_, rfl, hk, fault, array, scalar, hfault, hclash, ?_⟩
    cases hfault
    decide

end Schematic
