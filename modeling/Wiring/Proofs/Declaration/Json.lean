import Wiring.Declaration.Json
import Wiring.Proofs.Expr.Json

/-!
# Declarations, written and read back

Each part of a declaration comes with the defaults that are stated for its fields, and is read back
from its JSON form with any of these left out. A field may be left out together with fields inside
it: a position that carries only defaults can go as a whole.
-/

namespace Wiring

open Json

/-! ### Positions and scopes -/

/-- The defaults of a position. -/
def Location.defaults : Defaults :=
  .record [("file", .str ""), ("line", .ofNat 0), ("column", .ofNat 0)] fun _ => .nowhere

theorem Location.faithful :
  Faithful Location.toJson Location.ofJson Location.defaults
  where
  writable location :=
    .obj (by simp) (by simp [(Faithful.text).writable, (Faithful.word).writable])
  reads location chosen := by
    refine readRecord_prune (by simp) fun apart => ?_
    refine Fields.Gives.map Location.mk ?_ |>.seq ?_ |>.seq ?_
    · exact optional_prune apart Faithful.text (by simp) rfl rfl
    · exact optional_prune apart Faithful.word (by simp) rfl rfl
    · exact optional_prune apart Faithful.word (by simp) rfl rfl

example :
  Location.defaults.prune (fun _ => true) (Location.toJson { file := "main.js", line := 7 })
    = .obj [("file", .str "main.js"), ("line", .int 7)]
  := by decide

theorem Scope.faithful :
  Faithful Scope.toJson Scope.ofJson .nowhere
  where
  writable scope := .str scope.word
  reads scope _ := by
    apply readEnum_str
    cases scope <;> rfl

/-- A scope that may be missing. -/
theorem Scope.faithful_option :
  Faithful (.ofOption Scope.toJson) (readOption Scope.ofJson) .nowhere
  := (Scope.faithful).option (by simp [Scope.toJson])

/-! ### Classes -/

/-- The defaults of a method. -/
def MethodDecl.defaults : Defaults :=
  .record [("params", .arr []), ("ambiguous", .bool false), ("location", Location.toJson {})] fun
    | "location" => Location.defaults
    | _ => .nowhere

theorem MethodDecl.faithful :
  Faithful MethodDecl.toJson MethodDecl.ofJson MethodDecl.defaults
  where
  writable m :=
    .obj (by simp) (by simp [(Faithful.text).writable, (Faithful.texts).writable,
      (Faithful.bool).writable, (Location.faithful).writable])
  reads m chosen := by
    refine readRecord_prune (by simp) fun apart => ?_
    refine Fields.Gives.map MethodDecl.mk ?_ |>.seq ?_ |>.seq ?_ |>.seq ?_
    · exact required_prune apart Faithful.text (by simp) rfl rfl
    · exact optional_prune apart Faithful.texts (by simp) rfl rfl
    · exact optional_prune apart Faithful.bool (by simp) rfl rfl
    · exact optional_prune apart Location.faithful (by simp) rfl rfl

/-- The defaults of a class. -/
def ClassDecl.defaults : Defaults :=
  .record [("params", .arr []), ("base", .null), ("methods", .arr []), ("setters", .arr []),
    ("duplicated", .bool false), ("location", Location.toJson {})] fun
    | "methods" => .list MethodDecl.defaults
    | "location" => Location.defaults
    | _ => .nowhere

theorem ClassDecl.faithful :
  Faithful ClassDecl.toJson ClassDecl.ofJson ClassDecl.defaults
  where
  writable c :=
    .obj (by simp) (by simp [(Faithful.text).writable, (Faithful.texts).writable,
      (Faithful.text?).writable, (Faithful.bool).writable, (MethodDecl.faithful).list.writable,
      (Location.faithful).writable])
  reads c chosen := by
    refine readRecord_prune (by simp) fun apart => ?_
    refine Fields.Gives.map ClassDecl.mk ?_ |>.seq ?_ |>.seq ?_ |>.seq ?_ |>.seq ?_ |>.seq ?_
      |>.seq ?_
    · exact required_prune apart Faithful.text (by simp) rfl rfl
    · exact optional_prune apart Faithful.texts (by simp) rfl rfl
    · exact optional_prune apart Faithful.text? (by simp) rfl rfl
    · exact optional_prune apart (MethodDecl.faithful).list (by simp) rfl rfl
    · exact optional_prune apart Faithful.texts (by simp) rfl rfl
    · exact optional_prune apart Faithful.bool (by simp) rfl rfl
    · exact optional_prune apart Location.faithful (by simp) rfl rfl

/-! ### Bindings -/

/-- The defaults of a source: only the parameters of a provider have one. -/
def Source.defaults : Defaults :=
  .record [("params", .arr [])] fun _ => .nowhere

/-- A source is read from a pruned object if its field is: the tag always stays. -/
theorem Source.ofJson_prune {fields : List (String × Json)} {kind : String}
    (tagged : ("kind", .str kind) ∈ fields) (isKnown : kind ∈ Source.kinds)
    (apart : (fields.map Prod.fst).Nodup) {chosen : List Step → Bool} {source : Source}
    (given : (fieldsOf kind fun name =>
      (Source.defaults.prune chosen (.obj fields)).field? name).Gives source) :
  Source.ofJson (Source.defaults.prune chosen (.obj fields)) = .ok source
  := by
  have stays : (Source.defaults.prune chosen (.obj fields)).field? "kind" = some (.str kind) :=
    Defaults.lookup_pruned_of_unstated apart tagged rfl
  simp only [Source.defaults, Defaults.prune, field?] at stays given ⊢
  simp only [Source.ofJson, stays, readName, if_pos isKnown, ok_bind]
  exact given.named

/-- A field of a pruned source. -/
theorem Source.held {fields : List (String × Json)} (apart : (fields.map Prod.fst).Nodup)
    (chosen : List Step → Bool) {name : String} {value : Json} (here : (name, value) ∈ fields) :
  HoldsPruned (fun name => (Source.defaults.prune chosen (.obj fields)).field? name) id
    [("params", .arr [])] (fun _ => .nowhere) chosen name value
  := holdsPruned_field? _ _ chosen apart here

theorem Source.faithful :
  Faithful Source.toJson Source.ofJson Source.defaults
  where
  writable source := by
    cases source with
    | type className => exact .obj (by simp) (by simp [(Faithful.text).writable])
    | value expr => exact .obj (by simp) (by simp [(Faithful.text).writable, expr.writable_toJson])
    | provider params =>
      exact .obj (by simp) (by simp [(Faithful.text).writable, (Faithful.texts).writable])
  reads source chosen := by
    cases source with
    | type className =>
      refine Source.ofJson_prune (by simp) (by decide : "type" ∈ kinds) (by simp) (.map _ ?_)
      exact (Source.held (by simp) chosen (by simp)).required rfl Faithful.text rfl
    | value expr =>
      refine Source.ofJson_prune (by simp) (by decide : "instance" ∈ kinds) (by simp) (.map _ ?_)
      exact (Source.held (by simp) chosen (by simp)).required rfl (Expr.faithful .kept) rfl
    | provider params =>
      refine Source.ofJson_prune (by simp) (by decide : "provider" ∈ kinds) (by simp) (.map _ ?_)
      exact (Source.held (by simp) chosen (by simp)).optional rfl Faithful.texts rfl

/-- The defaults of a binding. -/
def Binding.defaults : Defaults :=
  .record [("scope", .null), ("module", .str ""), ("location", Location.toJson {})] fun
    | "target" => Source.defaults
    | "location" => Location.defaults
    | _ => .nowhere

theorem Binding.faithful :
  Faithful Binding.toJson Binding.ofJson Binding.defaults
  where
  writable b :=
    .obj (by simp) (by simp [(Faithful.text).writable, (Source.faithful).writable,
      (Scope.faithful_option).writable, (Location.faithful).writable])
  reads b chosen := by
    refine readRecord_prune (by simp) fun apart => ?_
    refine Fields.Gives.map Binding.mk ?_ |>.seq ?_ |>.seq ?_ |>.seq ?_ |>.seq ?_
    · exact required_prune apart Faithful.text (by simp) rfl rfl
    · exact required_prune apart Source.faithful (by simp) rfl rfl
    · exact optional_prune apart Scope.faithful_option (by simp) rfl rfl
    · exact optional_prune apart Faithful.text (by simp) rfl rfl
    · exact optional_prune apart Location.faithful (by simp) rfl rfl

/-! ### Interceptors -/

theorem ClassSelector.faithful :
  Faithful ClassSelector.toJson ClassSelector.ofJson .nowhere
  where
  writable selector := by
    cases selector <;> exact .obj (by simp) (by simp [(Faithful.text).writable])
  reads selector _ := by
    rw [Defaults.prune_nowhere]
    cases selector <;>
      (rw [ClassSelector.ofJson, ClassSelector.toJson, readTagged_obj rfl (by decide)]; rfl)

theorem MethodSelector.faithful :
  Faithful MethodSelector.toJson MethodSelector.ofJson .nowhere
  where
  writable selector := by
    cases selector <;> exact .obj (by simp) (by simp [(Faithful.text).writable])
  reads selector _ := by
    rw [Defaults.prune_nowhere]
    cases selector <;>
      (rw [MethodSelector.ofJson, MethodSelector.toJson, readTagged_obj rfl (by decide)]; rfl)

/-- The defaults of what a body reads of a call. -/
def CallReads.defaults : Defaults :=
  .record [("receiver", .bool false), ("class_name", .bool false), ("method_name", .bool false)]
    fun _ => .nowhere

theorem CallReads.faithful :
  Faithful CallReads.toJson CallReads.ofJson CallReads.defaults
  where
  writable c := .obj (by simp) (by simp [(Faithful.bool).writable])
  reads c chosen := by
    refine readRecord_prune (by simp) fun apart => ?_
    refine Fields.Gives.map CallReads.mk ?_ |>.seq ?_ |>.seq ?_
    · exact optional_prune apart Faithful.bool (by simp) rfl rfl
    · exact optional_prune apart Faithful.bool (by simp) rfl rfl
    · exact optional_prune apart Faithful.bool (by simp) rfl rfl

/-- The defaults of an interceptor. -/
def Interceptor.defaults : Defaults :=
  .record [("captures", CallReads.toJson {}), ("name", .str ""), ("module", .str ""),
    ("location", Location.toJson {})] fun
    | "captures" => CallReads.defaults
    | "location" => Location.defaults
    | _ => .nowhere

theorem Interceptor.faithful :
  Faithful Interceptor.toJson Interceptor.ofJson Interceptor.defaults
  where
  writable i :=
    .obj (by simp) (by simp [(ClassSelector.faithful).writable, (MethodSelector.faithful).writable,
      (Faithful.text).writable, (CallReads.faithful).writable, (Location.faithful).writable])
  reads i chosen := by
    refine readRecord_prune (by simp) fun apart => ?_
    refine Fields.Gives.map Interceptor.mk ?_ |>.seq ?_ |>.seq ?_ |>.seq ?_ |>.seq ?_ |>.seq ?_
      |>.seq ?_
    · exact required_prune apart ClassSelector.faithful (by simp) rfl rfl
    · exact required_prune apart MethodSelector.faithful (by simp) rfl rfl
    · exact required_prune apart Faithful.text (by simp) rfl rfl
    · exact optional_prune apart CallReads.faithful (by simp) rfl rfl
    · exact optional_prune apart Faithful.text (by simp) rfl rfl
    · exact optional_prune apart Faithful.text (by simp) rfl rfl
    · exact optional_prune apart Location.faithful (by simp) rfl rfl

/-! ### Modules and entry points -/

/-- The defaults of a module. -/
def BindingModule.defaults : Defaults :=
  .record [("bindings", .arr []), ("interceptors", .arr []), ("configure", .str "configure"),
    ("location", Location.toJson {})] fun
    | "bindings" => .list Binding.defaults
    | "interceptors" => .list Interceptor.defaults
    | "location" => Location.defaults
    | _ => .nowhere

theorem BindingModule.faithful :
  Faithful BindingModule.toJson BindingModule.ofJson BindingModule.defaults
  where
  writable m :=
    .obj (by simp) (by simp [(Faithful.text).writable, (Binding.faithful).list.writable,
      (Interceptor.faithful).list.writable, (Location.faithful).writable])
  reads m chosen := by
    refine readRecord_prune (by simp) fun apart => ?_
    refine Fields.Gives.map BindingModule.mk ?_ |>.seq ?_ |>.seq ?_ |>.seq ?_ |>.seq ?_
    · exact required_prune apart Faithful.text (by simp) rfl rfl
    · exact optional_prune apart (Binding.faithful).list (by simp) rfl rfl
    · exact optional_prune apart (Interceptor.faithful).list (by simp) rfl rfl
    · exact optional_prune apart Faithful.text (by simp) rfl rfl
    · exact optional_prune apart Location.faithful (by simp) rfl rfl

theorem Wanted.faithful :
  Faithful Wanted.toJson Wanted.ofJson .nowhere
  where
  writable wanted := by
    cases wanted <;> exact .obj (by simp) (by simp [(Faithful.text).writable])
  reads wanted _ := by
    rw [Defaults.prune_nowhere]
    cases wanted <;>
      (rw [Wanted.ofJson, Wanted.toJson, readTagged_obj rfl (by decide)]; rfl)

/-- The defaults of a request. -/
def Request.defaults : Defaults :=
  .record [("location", Location.toJson {})] fun
    | "location" => Location.defaults
    | _ => .nowhere

theorem Request.faithful :
  Faithful Request.toJson Request.ofJson Request.defaults
  where
  writable r :=
    .obj (by simp) (by simp [(Wanted.faithful).writable, (Location.faithful).writable])
  reads r chosen := by
    refine readRecord_prune (by simp) fun apart => ?_
    refine Fields.Gives.map Request.mk ?_ |>.seq ?_
    · exact required_prune apart Wanted.faithful (by simp) rfl rfl
    · exact optional_prune apart Location.faithful (by simp) rfl rfl

/-- The defaults of an entry point. -/
def EntryPoint.defaults : Defaults :=
  .record [("requests", .arr []), ("location", Location.toJson {})] fun
    | "requests" => .list Request.defaults
    | "location" => Location.defaults
    | _ => .nowhere

theorem EntryPoint.faithful :
  Faithful EntryPoint.toJson EntryPoint.ofJson EntryPoint.defaults
  where
  writable e :=
    .obj (by simp) (by simp [(Faithful.text).writable, (Faithful.texts).writable,
      (Request.faithful).list.writable, (Location.faithful).writable])
  reads e chosen := by
    refine readRecord_prune (by simp) fun apart => ?_
    refine Fields.Gives.map EntryPoint.mk ?_ |>.seq ?_ |>.seq ?_ |>.seq ?_
    · exact required_prune apart Faithful.text (by simp) rfl rfl
    · exact required_prune apart Faithful.texts (by simp) rfl rfl
    · exact optional_prune apart (Request.faithful).list (by simp) rfl rfl
    · exact optional_prune apart Location.faithful (by simp) rfl rfl

/-- The defaults of the declarations of a program. -/
def Program.defaults : Defaults :=
  .record [("classes", .arr []), ("modules", .arr []), ("entries", .arr [])] fun
    | "classes" => .list ClassDecl.defaults
    | "modules" => .list BindingModule.defaults
    | "entries" => .list EntryPoint.defaults
    | _ => .nowhere

theorem Program.faithful :
  Faithful Program.toJson Program.ofJson Program.defaults
  where
  writable d :=
    .obj (by simp) (by simp [(ClassDecl.faithful).list.writable,
      (BindingModule.faithful).list.writable, (EntryPoint.faithful).list.writable])
  reads d chosen := by
    refine readRecord_prune (by simp) fun apart => ?_
    refine Fields.Gives.map Program.mk ?_ |>.seq ?_ |>.seq ?_
    · exact optional_prune apart (ClassDecl.faithful).list (by simp) rfl rfl
    · exact optional_prune apart (BindingModule.faithful).list (by simp) rfl rfl
    · exact optional_prune apart (EntryPoint.faithful).list (by simp) rfl rfl

end Wiring
