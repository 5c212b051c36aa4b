import Wiring.Options.Json
import Wiring.Plan.Json
import Wiring.Proofs.Declaration.Json

/-!
# What is exchanged is read back

Declarations and options come in as JSON, and plans go out as JSON. Each of them is read back from
the text that is written for it, and declarations and options also from a text that leaves out any
fields that carry their stated default.
-/

namespace Wiring

open Json

/-! ### Options -/

theorem NamespaceMode.faithful :
  Faithful NamespaceMode.toJson NamespaceMode.ofJson .nowhere
  where
  writable mode := by cases mode <;> exact .str _
  reads mode _ := by
    cases mode <;> exact readEnum_str rfl

/-- The defaults of the options. -/
def Options.defaults : Defaults :=
  .record [("provider_suffix", .str "Provider"), ("singleton_prefix", .str "singletonInstance"),
    ("instance_prefix", .str "instance$"), ("enhanced_prefix", .str "Enhanced$"),
    ("interceptor_prefix", .str "interceptor$"), ("interceptor_args", .str "interceptor$args"),
    ("interceptor_this", .str "interceptor$this"), ("detect_cycles", .bool true),
    ("namespace_matching", .str "literal")] fun _ => .nowhere

theorem Options.faithful :
  Faithful Options.toJson Options.ofJson Options.defaults
  where
  writable o :=
    .obj (by simp) (by simp [(Faithful.text).writable, (Faithful.bool).writable,
      (NamespaceMode.faithful).writable])
  reads o chosen := by
    rw [Options.ofJson]
    refine readRecord_prune (by simp) fun apart => ?_
    refine Fields.Gives.map Options.mk ?_ |>.seq ?_ |>.seq ?_ |>.seq ?_ |>.seq ?_ |>.seq ?_
      |>.seq ?_ |>.seq ?_ |>.seq ?_
    · exact optional_prune apart Faithful.text (by simp) rfl rfl
    · exact optional_prune apart Faithful.text (by simp) rfl rfl
    · exact optional_prune apart Faithful.text (by simp) rfl rfl
    · exact optional_prune apart Faithful.text (by simp) rfl rfl
    · exact optional_prune apart Faithful.text (by simp) rfl rfl
    · exact optional_prune apart Faithful.text (by simp) rfl rfl
    · exact optional_prune apart Faithful.text (by simp) rfl rfl
    · exact optional_prune apart Faithful.bool (by simp) rfl rfl
    · exact optional_prune apart NamespaceMode.faithful (by simp) rfl rfl

/-! ### Plans -/

theorem readBody_faithful :
  Faithful (fun body => .arr (Stmt.toJsons body)) readBody .nowhere
  where
  writable := Stmt.writable_toJsons
  reads body _ := (readList_arr _ _).trans (Stmt.mapM_readIn .direct body)

theorem Override.faithful :
  Faithful Override.toJson Override.ofJson (.record [] fun _ => .nowhere)
  where
  writable m :=
    .obj (by simp) (by simp [(Faithful.text).writable, (Faithful.texts).writable,
      (readBody_faithful).writable])
  reads m chosen := by
    refine readRecord_prune (by simp) fun apart => ?_
    refine Fields.Gives.map Override.mk ?_ |>.seq ?_ |>.seq ?_
    · exact required_prune apart Faithful.text (by simp) rfl rfl
    · exact required_prune apart Faithful.texts (by simp) rfl rfl
    · exact required_prune apart readBody_faithful (by simp) rfl rfl

theorem InterceptingClass.faithful :
  Faithful InterceptingClass.toJson InterceptingClass.ofJson (.record [] fun _ => .nowhere)
  where
  writable c :=
    .obj (by simp) (by simp [(Faithful.text).writable, (Faithful.texts).writable,
      (readBody_faithful).writable, (Override.faithful).list.writable])
  reads c chosen := by
    refine readRecord_prune (by simp) fun apart => ?_
    refine Fields.Gives.map InterceptingClass.mk ?_ |>.seq ?_ |>.seq ?_ |>.seq ?_ |>.seq ?_
    · exact required_prune apart Faithful.text (by simp) rfl rfl
    · exact required_prune apart Faithful.text (by simp) rfl rfl
    · exact required_prune apart Faithful.texts (by simp) rfl rfl
    · exact required_prune apart readBody_faithful (by simp) rfl rfl
    · exact required_prune apart (Override.faithful).list.whole (by simp) rfl rfl

theorem ModuleHandle.faithful :
  Faithful ModuleHandle.toJson ModuleHandle.ofJson (.record [] fun _ => .nowhere)
  where
  writable m := .obj (by simp) (by simp [(Faithful.text).writable])
  reads m chosen := by
    refine readRecord_prune (by simp) fun apart => ?_
    refine Fields.Gives.map ModuleHandle.mk ?_ |>.seq ?_ |>.seq ?_
    · exact required_prune apart Faithful.text (by simp) rfl rfl
    · exact required_prune apart Faithful.text (by simp) rfl rfl
    · exact required_prune apart Faithful.text (by simp) rfl rfl

theorem PlanStatement.faithful :
  Faithful PlanStatement.toJson PlanStatement.ofJson .nowhere
  where
  writable statement := by
    cases statement with
    | construct className target value =>
      exact .variant (.obj (by simp) (by simp [(Faithful.text).writable, value.writable_toJson]))
    | answer request value =>
      exact .variant (.obj (by simp) (by simp [(Request.faithful).writable, value.writable_toJson]))
  reads statement _ := by
    rw [Defaults.prune_nowhere]
    cases statement with
    | construct className target value =>
      rw [PlanStatement.ofJson, PlanStatement.toJson,
        readVariant_obj (by decide : "materialize" ∈ ["materialize", "inject"])]
      apply readVariantRecord_obj
      refine Fields.Gives.map PlanStatement.construct ?_ |>.seq ?_ |>.seq ?_
      · exact required_content _ rfl rfl
      · exact required_content _ rfl rfl
      · exact required_content _ rfl (value.readIn_toJson .direct)
    | answer request value =>
      rw [PlanStatement.ofJson, PlanStatement.toJson,
        readVariant_obj (by decide : "inject" ∈ ["materialize", "inject"])]
      apply readVariantRecord_obj
      refine Fields.Gives.map PlanStatement.answer ?_ |>.seq ?_
      · exact required_content _ rfl (Faithful.reads_whole Request.faithful request)
      · exact required_content _ rfl (value.readIn_toJson .direct)

theorem Plan.faithful :
  Faithful Plan.toJson Plan.ofJson (.record [] fun _ => .nowhere)
  where
  writable p :=
    .obj (by simp) (by simp [(Faithful.text).writable, (Faithful.texts).writable,
      (ModuleHandle.faithful).list.writable, (InterceptingClass.faithful).list.writable,
      (PlanStatement.faithful).list.writable])
  reads p chosen := by
    refine readRecord_prune (by simp) fun apart => ?_
    refine Fields.Gives.map Plan.mk ?_ |>.seq ?_ |>.seq ?_ |>.seq ?_ |>.seq ?_
    · exact required_prune apart Faithful.text (by simp) rfl rfl
    · exact required_prune apart (ModuleHandle.faithful).list.whole (by simp) rfl rfl
    · exact required_prune apart Faithful.texts (by simp) rfl rfl
    · exact required_prune apart (InterceptingClass.faithful).list.whole (by simp) rfl rfl
    · exact required_prune apart (PlanStatement.faithful).list.whole (by simp) rfl rfl

theorem Plans.faithful :
  Faithful Plans.toJson Plans.ofJson (.record [] fun _ => .nowhere)
  where
  writable output := .obj (by simp) (by simp [(Plan.faithful).list.writable])
  reads output chosen := by
    refine readRecord_prune (by simp) fun apart => ?_
    refine Fields.Gives.map Plans.mk ?_
    exact required_prune apart (Plan.faithful).list.whole (by simp) rfl rfl

/-! ### Everything that is exchanged -/

/-- Declarations, options and plans are read back from the text that is written for them. The same
declarations and options are read when the fields at any chosen places are left out of what is
written, as far as these carry their stated default. -/
theorem exchanged_read_back :
  (∀ d : Program, parse? d.toJson.render = some d.toJson ∧ Program.ofJson d.toJson = .ok d)
    ∧ (∀ o : Options, parse? o.toJson.render = some o.toJson ∧ Options.ofJson o.toJson = .ok o)
    ∧ (∀ p : Plans, parse? p.toJson.render = some p.toJson ∧ Plans.ofJson p.toJson = .ok p)
    ∧ (∀ (d : Program) (chosen : List Step → Bool),
        let json := Program.defaults.prune chosen d.toJson
        parse? json.render = some json ∧ Program.ofJson json = .ok d)
    ∧ (∀ (o : Options) (chosen : List Step → Bool),
        let json := Options.defaults.prune chosen o.toJson
        parse? json.render = some json ∧ Options.ofJson json = .ok o)
  := by
  refine ⟨?_, ?_, ?_, ?_, ?_⟩
  · exact Faithful.exchanged Program.faithful
  · exact Faithful.exchanged Options.faithful
  · exact Faithful.exchanged Plans.faithful
  · exact Faithful.exchanged_pruned Program.faithful
  · exact Faithful.exchanged_pruned Options.faithful

end Wiring
