import Wiring.Options.Basic

/-!
# Settings

Options as a file or the environment gives them: values under names, of which a later one wins.
An option takes only a value of its own kind, and no kind is turned into another.
-/

namespace Wiring

/-- A value given for an option. -/
inductive Setting where
  | text (value : String)
  | flag (value : Bool)
  /-- A number, a list or a table, which no option takes. -/
  | other
deriving DecidableEq, Repr

/-- Values under names. Of several values of a name the last one counts. -/
abbrev Settings := List (String × Setting)

namespace Settings

/-- The value of a name. -/
def value? (settings : Settings) (name : String) : Option Setting :=
  settings.reverse.lookup name

/-- The text given for an option, or its default; nothing if what is given is no text. -/
def text? (settings : Settings) (name absent : String) : Option String :=
  match settings.value? name with
  | none => some absent
  | some (.text value) => some value
  | some _ => none

/-- The truth value given for an option, or its default; nothing if what is given is none. -/
def flag? (settings : Settings) (name : String) (absent : Bool) : Option Bool :=
  match settings.value? name with
  | none => some absent
  | some (.flag value) => some value
  | some _ => none

/-- The way to compare namespaces, or its default; nothing if what is given names none. -/
def namespaceMode? (settings : Settings) (name : String) (absent : NamespaceMode) :
    Option NamespaceMode :=
  match settings.value? name with
  | none => some absent
  | some (.text "literal") => some .literal
  | some (.text "legacy") => some .pattern
  | some _ => none

/-- The options that the settings give. Names that are no options are ignored. -/
def options? (settings : Settings) : Option Options := do
  let absent : Options := {}
  return {
    providerSuffix := ← settings.text? "provider_suffix" absent.providerSuffix
    singletonPrefix := ← settings.text? "singleton_prefix" absent.singletonPrefix
    instancePrefix := ← settings.text? "instance_prefix" absent.instancePrefix
    subclassPrefix := ← settings.text? "enhanced_prefix" absent.subclassPrefix
    interceptorPrefix := ← settings.text? "interceptor_prefix" absent.interceptorPrefix
    interceptorArgs := ← settings.text? "interceptor_args" absent.interceptorArgs
    interceptorThis := ← settings.text? "interceptor_this" absent.interceptorThis
    detectCycles := ← settings.flag? "detect_cycles" absent.detectCycles
    namespaceMode :=
      ← settings.namespaceMode? "namespace_matching" absent.namespaceMode }

end Settings

end Wiring
