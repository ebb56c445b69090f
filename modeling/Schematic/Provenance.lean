import Schematic.Digest.Sha256
import Schematic.Json.Basic
import Schematic.Registry.Wire

namespace Schematic

def version : String := "0.4.0"

structure Provenance where
  source : String
  registry : String
  output : Option String
deriving DecidableEq, Repr

namespace Provenance

/-- The provenance of a source text that was lowered with a registry to some output, or to none. -/
def of (source : String) (registry : Registry) (output : Option String) : Provenance where
  source := Sha256.ofText source
  registry := Sha256.ofText registry.canonical
  output := output.map Sha256.ofText

/-- A missing output is left out. -/
def encode (p : Provenance) : Json :=
  let output := match p.output with
    | some hash => [("output_hash", .string hash)]
    | none => []
  .object ([("source_hash", .string p.source), ("registry_fingerprint", .string p.registry)] ++
    output ++ [("compiler_version", .string version)])

def text (p : Provenance) : String :=
  p.encode.pretty ++ "\n"

end Provenance

end Schematic
