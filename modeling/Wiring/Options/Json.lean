import Wiring.Json.Read
import Wiring.Options.Basic

/-!
# Options as JSON

An object with one field per option. A missing field leaves the option at its default.
-/

namespace Wiring

open Json

/-- The JSON form of a way to compare namespaces. -/
def NamespaceMode.toJson : NamespaceMode → Json
  | .literal => .str "literal"
  | .pattern => .str "legacy"

/-- The way to compare namespaces that a value stands for. -/
def NamespaceMode.ofJson (json : Json) : Read NamespaceMode :=
  json.readEnum [("literal", .literal), ("legacy", .pattern)]

/-- The names of the options. -/
def Options.names : List String :=
  ["provider_suffix", "singleton_prefix", "instance_prefix", "enhanced_prefix",
    "interceptor_prefix", "interceptor_args", "interceptor_this", "detect_cycles",
    "namespace_matching"]

/-- The JSON form of options. -/
def Options.toJson (o : Options) : Json :=
  .obj [("provider_suffix", .str o.providerSuffix), ("singleton_prefix", .str o.singletonPrefix),
    ("instance_prefix", .str o.instancePrefix), ("enhanced_prefix", .str o.subclassPrefix),
    ("interceptor_prefix", .str o.interceptorPrefix),
    ("interceptor_args", .str o.interceptorArgs), ("interceptor_this", .str o.interceptorThis),
    ("detect_cycles", .bool o.detectCycles), ("namespace_matching", o.namespaceMode.toJson)]

/-- The options that a value stands for. -/
def Options.ofJson (json : Json) : Read Options :=
  let absent : Options := {}
  json.readRecord "Options" Options.names fun slots =>
    Options.mk
      <$> optional "provider_suffix" slots (·.1.readText) absent.providerSuffix
      <*> optional "singleton_prefix" slots (·.1.readText) absent.singletonPrefix
      <*> optional "instance_prefix" slots (·.1.readText) absent.instancePrefix
      <*> optional "enhanced_prefix" slots (·.1.readText) absent.subclassPrefix
      <*> optional "interceptor_prefix" slots (·.1.readText) absent.interceptorPrefix
      <*> optional "interceptor_args" slots (·.1.readText) absent.interceptorArgs
      <*> optional "interceptor_this" slots (·.1.readText) absent.interceptorThis
      <*> optional "detect_cycles" slots (·.1.readBool) absent.detectCycles
      <*> optional "namespace_matching" slots (NamespaceMode.ofJson ·.1)
        absent.namespaceMode

end Wiring
