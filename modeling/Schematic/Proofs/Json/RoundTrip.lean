import Schematic.Diagnostic
import Schematic.Proofs.Json.Records
import Schematic.Registry.Wire

namespace Schematic

open Json (Document)
open Json.Document (ofValue record?_present list?_ofValue strings?_ofValue)

theorem BusKind.decode?_name (kind : BusKind) : decode? (.string kind.name) = some kind := by
  cases kind
  rfl

theorem AdaptRule.decode?_encode (r : AdaptRule) : decode? (ofValue r.encode) = some r := by
  have hfields : (ofValue r.encode).record? ["accepts", "exposes"] =
      some [some (ofValue (Json.strings r.accepts)), some (.string r.exposes)] :=
    record?_present (by decide) rfl rfl
  rw [decode?, hfields]
  simp [Document.required?, strings?_ofValue, Document.string?]

theorem BusRule.decode?_encode (r : BusRule) : decode? (ofValue r.encode) = some r := by
  have hfields : (ofValue r.encode).record? fieldNames =
      some [some (.string r.kind.name), some (ofValue (Json.strings r.controllerTypes)),
        some (ofValue (Json.strings r.targetTypes)), some (.string r.supportClass),
        some (.string r.supportBusPort), some (.string r.supportPowerPort),
        some (ofValue (Json.strings r.controllerPowerPorts)), some (.string r.supportStem)] :=
    record?_present (by decide) rfl rfl
  rw [decode?, hfields]
  simp [Document.required?, BusKind.decode?_name, strings?_ofValue, Document.string?]

theorem Registry.decode?_encode (r : Registry) : decode? (ofValue r.encode) = some r := by
  have hfields : (ofValue r.encode).record? fieldNames =
      some [some (ofValue (Json.strings r.connectorClasses)),
        some (ofValue (.array (r.adaptRules.map AdaptRule.encode))),
        some (ofValue (.array (r.buses.map BusRule.encode)))] :=
    record?_present (by decide) rfl rfl
  have hrules := list?_ofValue r.adaptRules fun rule _ => rule.decode?_encode
  have hbuses := list?_ofValue r.buses fun bus _ => bus.decode?_encode
  rw [decode?, hfields]
  simp [Document.defaulted?, strings?_ofValue, hrules, hbuses]

theorem Registry.numberless_encode (r : Registry) : r.encode.Numberless := by
  have hrules : (Json.array (r.adaptRules.map AdaptRule.encode)).Numberless :=
    Json.numberless_array fun rule _ => ⟨Json.numberless_strings rule.accepts, trivial, trivial⟩
  have hbuses : (Json.array (r.buses.map BusRule.encode)).Numberless :=
    Json.numberless_array fun bus _ =>
      ⟨trivial, Json.numberless_strings bus.controllerTypes,
        Json.numberless_strings bus.targetTypes, trivial, trivial, trivial,
        Json.numberless_strings bus.controllerPowerPorts, trivial, trivial⟩
  exact ⟨Json.numberless_strings r.connectorClasses, hrules, hbuses, trivial⟩

/-- The text of a registry is read to it, whether or not it passes the check. -/
theorem Registry.read?_canonical (r : Registry) :
    (Document.read? r.canonical >>= decode?) = some r := by
  rw [canonical, Document.read?_compact r.numberless_encode]
  exact r.decode?_encode

theorem Registry.canonical_injective : Function.Injective Registry.canonical := by
  intro r r' hsame
  have hread := r.read?_canonical
  rw [hsame, r'.read?_canonical] at hread
  exact (Option.some.inj hread).symm

theorem Registry.load_canonical_iff (r : Registry) :
    Registry.load r.canonical = .ok r ↔ r.defect? = none := by
  rw [load, r.read?_canonical]
  cases hdefect : r.defect? with
  | none => simp [hdefect]
  | some defect => simp [hdefect]

theorem ErrorRecord.decode?_encode (r : ErrorRecord) : decode? (ofValue r.encode) = some r := by
  obtain ⟨path, kind, name, details⟩ := r
  have hfields : (ofValue (encode ⟨path, kind, name, details⟩)).record?
      ["path", "kind", "name", "details"] =
      some [some (ofValue (Json.strings path)), some (.string kind),
        name.map Document.string, some (.string details)] := by
    cases name <;> exact record?_present (by decide) rfl rfl
  rw [decode?, hfields]
  cases name <;>
    simp [Document.required?, Document.defaulted?, Document.optional?, strings?_ofValue,
      Document.string?]

theorem ErrorRecord.numberless_encode (r : ErrorRecord) : r.encode.Numberless := by
  obtain ⟨path, kind, name, details⟩ := r
  cases name with
  | none => exact ⟨Json.numberless_strings path, trivial, trivial, trivial⟩
  | some name => exact ⟨Json.numberless_strings path, trivial, trivial, trivial, trivial⟩

theorem Report.decode?_encode (r : Report) : decode? (ofValue r.encode) = some r := by
  have hfields : (ofValue r.encode).record? ["edgHdl", "errors"] =
      some [some (.string r.emitted),
        some (ofValue (.array (r.errors.map ErrorRecord.encode)))] :=
    record?_present (by decide) rfl rfl
  have herrors := list?_ofValue r.errors fun e _ => e.decode?_encode
  rw [decode?, hfields]
  simp [Document.required?, Document.string?, herrors]

theorem Report.numberless_encode (r : Report) : r.encode.Numberless :=
  ⟨trivial, Json.numberless_array fun e _ => e.numberless_encode, trivial⟩

/-- Registries and reports come back from their text, whatever strings and however many rules or
errors they hold. The text of a registry is accepted if and only if the registry passes the check,
and no other registry has it. A report comes back from its text on one line and over lines. -/
theorem written_documents_read_back :
    (∀ r : Registry, Registry.load r.canonical = .ok r ↔ r.defect? = none) ∧
    Function.Injective Registry.canonical ∧
    ∀ report : Report,
      (Document.read? report.encode.compact >>= Report.decode?) = some report ∧
      (Document.read? (report.encode.pretty ++ "\n") >>= Report.decode?) = some report := by
  refine ⟨Registry.load_canonical_iff, Registry.canonical_injective, fun report => ⟨?_, ?_⟩⟩
  · rw [Document.read?_compact report.numberless_encode]
    exact report.decode?_encode
  · rw [Document.read?_pretty report.numberless_encode]
    exact report.decode?_encode

end Schematic
