import Schematic.Argument.Rendering
import Schematic.Json.Reader

namespace Schematic

/-- How the emitted module is named and what it is based on. -/
structure ModuleHeader where
  name : String := "MyModule"
  base : String := "SimpleBoardTop"
deriving DecidableEq, Repr

namespace ModuleHeader

open Json (Document)
open Json.Document (required?)

def decode? (d : Document) : Option ModuleHeader := do
  match ← d.record? ["module_name", "module_base"] with
  | [name, base] =>
    return {
      name := ← required? Document.string? name
      base := ← required? Document.string? base }
  | _ => none

def encode (h : ModuleHeader) : Json :=
  .object [("module_name", .string h.name), ("module_base", .string h.base)]

end ModuleHeader

namespace Declaration

/-- A reference to a member of a connect. -/
inductive Expression where
  /-- A port of a block. -/
  | port (block name : String)
  /-- One element of an array port. -/
  | request (block parent slot : String)
  /-- An element of an array port that is itself an array. -/
  | requestVector (block parent slot : String)
deriving DecidableEq, Repr

/-- A pin that a wrapper exposes as a type. -/
structure Export where
  name : String
  pin : Nat
  adaptTo : String
deriving DecidableEq, Repr

/-- The class that wraps a connector. -/
structure Connector where
  className : String
  wrappedClass : String
  arguments : List Argument.Written
  exports : List Export
deriving DecidableEq, Repr

structure Block where
  name : String
  className : String
  arguments : List Argument.Written
deriving DecidableEq, Repr

structure Connect where
  label : String
  members : List Expression
deriving DecidableEq, Repr

end Declaration

/-- A whole design, in the order of emission. -/
structure Declarations where
  header : ModuleHeader
  connectors : List Declaration.Connector
  blocks : List Declaration.Block
  connects : List Declaration.Connect
deriving DecidableEq, Repr

end Schematic
