import Wiring.Declaration.Basic
import Wiring.Expr.Json

/-!
# Declarations as JSON

Records are objects with one field per component. The selectors and what a request wants
are objects with a tag and an argument, and a source is one with a tag beside its fields.
-/

namespace Wiring

open Json

/-! ### Positions and scopes -/

/-- The JSON form of a position. -/
def Location.toJson (location : Location) : Json :=
  .obj [("file", .str location.file), ("line", .ofNat location.line.toNat),
    ("column", .ofNat location.column.toNat)]

/-- The position that a value stands for. -/
def Location.ofJson (json : Json) : Read Location :=
  json.readRecord "Location" ["file", "line", "column"] fun slots =>
    Location.mk
      <$> optional "file" slots (·.1.readText) ""
      <*> optional "line" slots (·.1.readWord) 0
      <*> optional "column" slots (·.1.readWord) 0

/-- The word for a scope. -/
def Scope.word : Scope → String
  | .prototype => "prototype"
  | .singleton => "singleton"
  | .eagerSingleton => "eager_singleton"

/-- The JSON form of a scope. -/
def Scope.toJson (scope : Scope) : Json :=
  .str scope.word

/-- The scope that a value stands for. -/
def Scope.ofJson (json : Json) : Read Scope :=
  json.readEnum [("prototype", .prototype), ("singleton", .singleton),
    ("eager_singleton", .eagerSingleton)]

/-! ### Classes -/

/-- The JSON form of a method. -/
def MethodDecl.toJson (m : MethodDecl) : Json :=
  .obj [("name", .str m.name), ("params", .ofTexts m.params), ("ambiguous", .bool m.ambiguous),
    ("location", m.location.toJson)]

/-- The method that a value stands for. -/
def MethodDecl.ofJson (json : Json) : Read MethodDecl :=
  json.readRecord "MethodDescriptor" ["name", "params", "ambiguous", "location"] fun slots =>
    MethodDecl.mk
      <$> required "name" slots (·.1.readText)
      <*> optional "params" slots (·.1.readTexts) []
      <*> optional "ambiguous" slots (·.1.readBool) false
      <*> optional "location" slots (Location.ofJson ·.1) {}

/-- The JSON form of a class. -/
def ClassDecl.toJson (c : ClassDecl) : Json :=
  .obj [("name", .str c.name), ("params", .ofTexts c.params), ("base", .ofText? c.base),
    ("methods", .ofList MethodDecl.toJson c.methods), ("setters", .ofTexts c.setters),
    ("duplicated", .bool c.duplicated), ("location", c.location.toJson)]

/-- The class that a value stands for. -/
def ClassDecl.ofJson (json : Json) : Read ClassDecl :=
  json.readRecord "ClassDescriptor"
    ["name", "params", "base", "methods", "setters", "duplicated", "location"] fun slots =>
      ClassDecl.mk
        <$> required "name" slots (·.1.readText)
        <*> optional "params" slots (·.1.readTexts) []
        <*> optional "base" slots (readOption readText ·.1) none
        <*> optional "methods" slots (·.1.readList (MethodDecl.ofJson ·.1)) []
        <*> optional "setters" slots (·.1.readTexts) []
        <*> optional "duplicated" slots (·.1.readBool) false
        <*> optional "location" slots (Location.ofJson ·.1) {}

/-! ### Bindings -/

/-- The JSON form of a way to bind. -/
def SourceKind.toJson : SourceKind → Json
  | .toType => .str "to_type"
  | .toInstance => .str "to_instance"
  | .toProvider => .str "to_provider"

/-- The way to bind that a value stands for. -/
def SourceKind.ofJson (json : Json) : Read SourceKind :=
  json.readEnum [("to_type", .toType), ("to_instance", .toInstance), ("to_provider", .toProvider)]

/-- The JSON form of a source. -/
def Source.toJson : Source → Json
  | .type className => .obj [("kind", .str "type"), ("class", .str className)]
  | .value expr => .obj [("kind", .str "instance"), ("expr", expr.toJson)]
  | .provider params => .obj [("kind", .str "provider"), ("params", .ofTexts params)]

/-- The names of the sources. -/
def Source.kinds : List String :=
  ["type", "instance", "provider"]

/-- The source of some kind with the fields in the slots. -/
def Source.fieldsOf (kind : String) (slots : String → Option Json) : Fields Source :=
  match kind with
  | "type" => .type <$> required "class" slots readText
  | "instance" => .value <$> required "expr" slots (Expr.readIn .kept)
  | _ => .provider <$> optional "params" slots readTexts []

/-- The name and the field of a source of some kind. -/
def Source.shape (kind : String) : String × String :=
  match kind with
  | "type" => ("Type", "class")
  | "instance" => ("Instance", "expr")
  | _ => ("Provider", "params")

/-- The source that a value stands for: an object with the tag `kind`, or an array of the
tag and the field. -/
def Source.ofJson (json : Json) : Read Source :=
  match json with
  | .obj fields =>
    match fields.lookup "kind" with
    | none => .error (.missingField "kind")
    | some tag => do
      let kind ← tag.readName Source.kinds
      (fieldsOf kind fun name => fields.lookup name).named
  | .arr [] => .error (.missingField "kind")
  | .arr (tag :: items) => do
    let kind ← tag.readName Source.kinds
    let (variant, field) := shape kind
    readListed ("struct variant BindingTarget::" ++ variant) [field] (inSequence 1) items
      (fieldsOf kind)
  | other => .error (.wrongType other.found "internally tagged enum BindingTarget")

/-- The JSON form of a binding. -/
def Binding.toJson (b : Binding) : Json :=
  .obj [("key", .str b.key), ("target", b.source.toJson), ("scope", .ofOption Scope.toJson b.scope),
    ("module", .str b.owner), ("location", b.location.toJson)]

/-- The binding that a value stands for. -/
def Binding.ofJson (json : Json) : Read Binding :=
  json.readRecord "BindingDescriptor" ["key", "target", "scope", "module", "location"] fun slots =>
    Binding.mk
      <$> required "key" slots (·.1.readText)
      <*> required "target" slots (Source.ofJson ·.1)
      <*> optional "scope" slots (readOption Scope.ofJson ·.1) none
      <*> optional "module" slots (·.1.readText) ""
      <*> optional "location" slots (Location.ofJson ·.1) {}

/-! ### Interceptors -/

/-- The JSON form of a class selector. -/
def ClassSelector.toJson : ClassSelector → Json
  | .inNamespace argument => .obj [("kind", .str "in_namespace"), ("argument", .str argument)]
  | .subNamespace argument => .obj [("kind", .str "sub_namespace"), ("argument", .str argument)]
  | .subclassOf argument => .obj [("kind", .str "subclass_of"), ("argument", .str argument)]
  | .instanceOf argument => .obj [("kind", .str "instance_of"), ("argument", .str argument)]
  | .any => .obj [("kind", .str "any")]

/-- The argument of a tagged value, as a text. -/
def readArgument (field : String) : Option Json → Read String
  | some json => json.readText
  | none => .error (.missingField field)

/-- The argument of a tagged value that takes none. -/
def readNoArgument (variant : String) : Option Json → Read Unit
  | none => .ok ()
  | some .null => .ok ()
  | some other => .error (.wrongType other.found ("unit variant " ++ variant))

/-- The class selector that a value stands for. -/
def ClassSelector.ofJson (json : Json) : Read ClassSelector := do
  let (kind, content) ← json.readTagged "ClassMatcher" "kind" "argument"
    ["in_namespace", "sub_namespace", "subclass_of", "instance_of", "any"]
  let selector ←
    match kind with
    | "in_namespace" => .inNamespace <$> readArgument "argument" content
    | "sub_namespace" => .subNamespace <$> readArgument "argument" content
    | "subclass_of" => .subclassOf <$> readArgument "argument" content
    | "instance_of" => .instanceOf <$> readArgument "argument" content
    | _ => (fun _ => .any) <$> readNoArgument "ClassMatcher::Any" content
  atMostTwo json selector

/-- The JSON form of a method selector. -/
def MethodSelector.toJson : MethodSelector → Json
  | .like argument => .obj [("kind", .str "like"), ("argument", .str argument)]
  | .any => .obj [("kind", .str "any")]

/-- The method selector that a value stands for. -/
def MethodSelector.ofJson (json : Json) : Read MethodSelector := do
  let (kind, content) ← json.readTagged "MethodMatcher" "kind" "argument" ["like", "any"]
  let selector ←
    match kind with
    | "like" => .like <$> readArgument "argument" content
    | _ => (fun _ => .any) <$> readNoArgument "MethodMatcher::Any" content
  atMostTwo json selector

/-- The JSON form of what a body reads of a call. -/
def CallReads.toJson (c : CallReads) : Json :=
  .obj [("receiver", .bool c.receiver), ("class_name", .bool c.className),
    ("method_name", .bool c.methodName)]

/-- What a body reads of a call, as a value says. -/
def CallReads.ofJson (json : Json) : Read CallReads :=
  json.readRecord "Captures" ["receiver", "class_name", "method_name"] fun slots =>
    CallReads.mk
      <$> optional "receiver" slots (·.1.readBool) false
      <*> optional "class_name" slots (·.1.readBool) false
      <*> optional "method_name" slots (·.1.readBool) false

/-- The JSON form of an interceptor. -/
def Interceptor.toJson (i : Interceptor) : Json :=
  .obj [("class_matcher", i.classSelector.toJson), ("method_matcher", i.methodSelector.toJson),
    ("body", .str i.body), ("captures", i.reads.toJson), ("name", .str i.name),
    ("module", .str i.owner), ("location", i.location.toJson)]

/-- The interceptor that a value stands for. -/
def Interceptor.ofJson (json : Json) : Read Interceptor :=
  json.readRecord "InterceptorDescriptor"
    ["class_matcher", "method_matcher", "body", "captures", "name", "module", "location"]
    fun slots =>
      Interceptor.mk
        <$> required "class_matcher" slots (ClassSelector.ofJson ·.1)
        <*> required "method_matcher" slots (MethodSelector.ofJson ·.1)
        <*> required "body" slots (·.1.readText)
        <*> optional "captures" slots (CallReads.ofJson ·.1) {}
        <*> optional "name" slots (·.1.readText) ""
        <*> optional "module" slots (·.1.readText) ""
        <*> optional "location" slots (Location.ofJson ·.1) {}

/-! ### Modules and entry points -/

/-- The JSON form of a module. -/
def BindingModule.toJson (m : BindingModule) : Json :=
  .obj [("name", .str m.name), ("bindings", .ofList Binding.toJson m.bindings),
    ("interceptors", .ofList Interceptor.toJson m.interceptors), ("configure", .str m.configure),
    ("location", m.location.toJson)]

/-- The module that a value stands for. -/
def BindingModule.ofJson (json : Json) : Read BindingModule :=
  json.readRecord "ModuleDescriptor" ["name", "bindings", "interceptors", "configure", "location"]
    fun slots =>
      BindingModule.mk
        <$> required "name" slots (·.1.readText)
        <*> optional "bindings" slots (·.1.readList (Binding.ofJson ·.1)) []
        <*> optional "interceptors" slots (·.1.readList (Interceptor.ofJson ·.1)) []
        <*> optional "configure" slots (·.1.readText) "configure"
        <*> optional "location" slots (Location.ofJson ·.1) {}

/-- The JSON form of what a request wants. -/
def Wanted.toJson : Wanted → Json
  | .ofClass name => .obj [("by", .str "class"), ("name", .str name)]
  | .ofKey name => .obj [("by", .str "key"), ("name", .str name)]

/-- What a request wants, as a value says. -/
def Wanted.ofJson (json : Json) : Read Wanted := do
  let (kind, content) ← json.readTagged "RequestTarget" "by" "name" ["class", "key"]
  let name ← readArgument "name" content
  atMostTwo json (if kind = "class" then .ofClass name else .ofKey name)

/-- The JSON form of a request. -/
def Request.toJson (r : Request) : Json :=
  .obj [("target", r.wanted.toJson), ("location", r.location.toJson)]

/-- The request that a value stands for. -/
def Request.ofJson (json : Json) : Read Request :=
  json.readRecord "InjectionRequest" ["target", "location"] fun slots =>
    Request.mk
      <$> required "target" slots (Wanted.ofJson ·.1)
      <*> optional "location" slots (Location.ofJson ·.1) {}

/-- The JSON form of an entry point. -/
def EntryPoint.toJson (e : EntryPoint) : Json :=
  .obj [("name", .str e.name), ("modules", .ofTexts e.modules),
    ("requests", .ofList Request.toJson e.requests), ("location", e.location.toJson)]

/-- The entry point that a value stands for. -/
def EntryPoint.ofJson (json : Json) : Read EntryPoint :=
  json.readRecord "InjectorEntry" ["name", "modules", "requests", "location"] fun slots =>
    EntryPoint.mk
      <$> required "name" slots (·.1.readText)
      <*> required "modules" slots (·.1.readTexts)
      <*> optional "requests" slots (·.1.readList (Request.ofJson ·.1)) []
      <*> optional "location" slots (Location.ofJson ·.1) {}

/-- The JSON form of the declarations of a program. -/
def Program.toJson (d : Program) : Json :=
  .obj [("classes", .ofList ClassDecl.toJson d.classes),
    ("modules", .ofList BindingModule.toJson d.modules),
    ("entries", .ofList EntryPoint.toJson d.entries)]

/-- The declarations that a value stands for. -/
def Program.ofJson (json : Json) : Read Program :=
  json.readRecord "Declarations" ["classes", "modules", "entries"] fun slots =>
    Program.mk
      <$> optional "classes" slots (·.1.readList (ClassDecl.ofJson ·.1)) []
      <*> optional "modules" slots (·.1.readList (BindingModule.ofJson ·.1)) []
      <*> optional "entries" slots (·.1.readList (EntryPoint.ofJson ·.1)) []

end Wiring
