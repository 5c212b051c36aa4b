import Wiring.Proofs.Expr.Nodes
import Wiring.Proofs.Planning
import Mathlib.Logic.Relation

/-!
# Constructions

Every object that resolution constructs is in the plan, and every construction in the plan was made
by resolution or stands in a bound value.

`inj.Constructs i c args q` says that an object of `c` is constructed on behalf of the invocation
`i`, with the arguments, and that resolution has come to `q` when these have been resolved.
`inj.Makes c args q errands p` says the same of errands.
-/

namespace Wiring

open Relation Progress

namespace Expr

variable {className : String} {args : List Expr}

@[simp]
theorem new_mem_visited_once {target : String} {e : Expr} :
  .new className args ∈ (once target e).visited ↔ .new className args ∈ e.visited
  := by
  simp [once, visited]

@[simp]
theorem new_mem_visited_delayed {e : Expr} :
  .new className args ∈ e.delayed.visited ↔ .new className args ∈ e.visited
  := by
  simp [delayed, visited, Stmt.visitedAll, Stmt.visited]

@[simp]
theorem new_mem_visited_callMember {object property : String} {es : List Expr} :
  .new className args ∈ (call (.member (.name object) property) es).visited
    ↔ .new className args ∈ visitedAll es
  := by
  simp [visited]

@[simp]
theorem new_mem_visited_assignedTo {target : Option String} {created : String}
    {es : List Expr} :
  .new className args ∈ (assignedTo target (.new created es)).visited
    ↔ (className = created ∧ args = es) ∨ .new className args ∈ visitedAll es
  := by
  cases target <;> simp [assignedTo, visited]

@[simp]
theorem new_mem_visited_withSetters {target created : String} {es calls : List Expr} :
  .new className args
      ∈ (sequence (.assign target (.new created es) :: (calls ++ [.name target]))).visited
    ↔ (className = created ∧ args = es) ∨ .new className args ∈ visitedAll es
      ∨ .new className args ∈ visitedAll calls
  := by
  simp [visited]

end Expr

namespace Injector

variable {inj : Injector} {site : Site} {task : Task} {i j : Invocation} {c : ManagedClass}
  {target : Option String} {className : String} {p p' q r : Progress} {args es : List Expr}
  {errands : List Errand}

/-! ### Constructions on behalf of an invocation -/

/-- On behalf of the invocation an object of the class is constructed with the arguments, once
resolution has come to the progress. -/
def Constructs (inj : Injector) (i : Invocation) (c : ManagedClass) (args : List Expr)
    (q : Progress) : Prop :=
  ∃ site target p, ReflTransGen inj.Invokes i ⟨site, .creation c target, p⟩
    ∧ inj.Resolves (site.enter (.ofClass c.name)) (.parameters c.decl.params) p args q

theorem Constructs.of_invokes (h : inj.Constructs j c args q) (invokes : inj.Invokes i j) :
  inj.Constructs i c args q
  := by
  obtain ⟨site, target, p, nested, parameters⟩ := h
  exact ⟨site, target, p, .head invokes nested, parameters⟩

/-- A construction is made on behalf of itself. -/
theorem Resolves.constructs (h : inj.Resolves site (.creation c target) p es p') :
  ∃ args q, inj.Constructs ⟨site, .creation c target, p⟩ c args q
  := by
  cases h with
  | creation _ _ parameters => exact ⟨_, _, site, target, p, .refl, parameters⟩
  | creationWithSetters _ _ parameters _ => exact ⟨_, _, site, target, p, .refl, parameters⟩

/-- There is one argument for each parameter. -/
theorem Resolves.length_eq {names : List String}
    (h : inj.Resolves site (.parameters names) p es p') :
  es.length = names.length
  := by
  induction names generalizing p es with
  | nil =>
      cases h
      rfl
  | cons name names ih =>
      cases h with
      | parameter _ rest => rw [List.length_cons, List.length_cons, ih rest]

/-! ### From constructions to the plan -/

theorem nodes_subset_of_grows (h : p.Grows q) :
  p.nodes ⊆ q.nodes
  := by
  obtain ⟨later, eq⟩ := h.statements
  rw [Progress.nodes, Progress.nodes, ← eq, List.flatMap_append]
  apply List.subset_append_left

/-- What is invoked in the course of a resolution is resolved, and all that comes of it is kept. -/
theorem Invokes.exists_resolves (h : inj.Invokes i j)
    (resolves : inj.Resolves i.site i.task i.progress es p') :
  ∃ es' q, inj.Resolves j.site j.task j.progress es' q ∧ q.Grows p'
    ∧ ∀ className args, .new className args ∈ Expr.visitedAll es' →
      .new className args ∈ Expr.visitedAll es ++ p'.nodes
  := by
  cases h with
  | heldLazily _ held lazy =>
      cases resolves with
      | heldLazily _ _ held' _ creation =>
          obtain rfl := Option.some.inj (held.symm.trans held')
          exact ⟨_, _, creation, grows_setLazy _ _ _, by simp +contextual⟩
      | _ => simp_all
  | prototype _ unheld scope =>
      cases resolves with
      | prototype _ _ _ _ creation => exact ⟨_, _, creation, .refl _, by simp +contextual⟩
      | _ => simp_all
  | singleton _ unheld scope =>
      cases resolves with
      | singleton _ _ _ _ creation => exact ⟨_, _, creation, .refl _, by simp +contextual⟩
      | _ => simp_all
  | eagerSingleton _ unheld scope =>
      cases resolves with
      | eagerSingleton _ _ _ _ creation =>
          exact ⟨_, _, creation, grows_emit _ _, by simp +contextual [PlanStatement.value]⟩
      | _ => simp_all
  | provided =>
      cases resolves with
      | provided call => exact ⟨_, _, call, .refl _, by simp +contextual⟩
  | providerFunction =>
      cases resolves with
      | providerFunction call => exact ⟨_, _, call, grows_resume _, by simp +contextual⟩
  | call fresh =>
      cases resolves with
      | cyclicCall _ _ closes => simp_all
      | call _ _ _ parameters =>
          exact ⟨_, _, parameters, .refl _, by simp +contextual⟩
  | creation =>
      cases resolves with
      | creation _ _ parameters => exact ⟨_, _, parameters, .refl _, by simp +contextual⟩
      | creationWithSetters _ _ parameters setters =>
          exact ⟨_, _, parameters, (grows_hold _ _ _).trans setters.grows, by simp +contextual⟩
  | setters plain parameters =>
      cases resolves with
      | creation _ plain' _ => exact absurd plain' plain
      | creationWithSetters _ _ parameters' setters =>
          -- the arguments were resolved before the setters, and in one way only
          obtain ⟨rfl, rfl⟩ := parameters.deterministic parameters'
          exact ⟨_, _, setters, .refl _, by simp +contextual⟩
  | parameter =>
      cases resolves with
      | parameter first rest => exact ⟨_, _, first, rest.grows, by simp +contextual⟩
  | laterParameters first =>
      cases resolves with
      | parameter first' rest =>
          obtain ⟨-, rfl⟩ := first.deterministic first'
          exact ⟨_, _, rest, .refl _, by simp +contextual⟩
  | setter =>
      cases resolves with
      | setter first rest =>
          exact ⟨_, _, first, rest.grows, by simp +contextual⟩
  | laterSetters first =>
      cases resolves with
      | setter first' rest =>
          obtain ⟨-, rfl⟩ := first.deterministic first'
          exact ⟨_, _, rest, .refl _, by simp +contextual⟩

/-- What is constructed in the course of a resolution is in the expressions or in the statements. -/
theorem Constructs.new_mem (h : inj.Constructs i c args q)
    (resolves : inj.Resolves i.site i.task i.progress es p') :
  .new (inj.constructedName c) args ∈ Expr.visitedAll es ++ p'.nodes ∧ q.Grows p'
  := by
  obtain ⟨site, target, p, nested, parameters⟩ := h
  induction nested using ReflTransGen.head_induction_on generalizing es p' with
  | refl =>
      cases resolves with
      | creation _ _ parameters' =>
          obtain ⟨rfl, rfl⟩ := parameters.deterministic parameters'
          exact ⟨by simp, .refl _⟩
      | creationWithSetters _ _ parameters' setters =>
          obtain ⟨rfl, rfl⟩ := parameters.deterministic parameters'
          exact ⟨by simp, (grows_hold _ _ _).trans setters.grows⟩
  | head invokes _ ih =>
      obtain ⟨es', q', resolves', grows, kept⟩ := invokes.exists_resolves resolves
      obtain ⟨member, grows'⟩ := ih resolves'
      refine ⟨?_, grows'.trans grows⟩
      obtain member | member := List.mem_append.mp member
      · exact kept _ _ member
      · exact List.mem_append_right _ (nodes_subset_of_grows grows member)

/-! ### From the plan to constructions -/

/-- The construction stands in a bound value, or it is made on behalf of the invocation. -/
def Accounts (inj : Injector) (i : Invocation) (className : String) (args : List Expr) : Prop :=
  (∃ b ∈ inj.bindings, ∃ e, b.binding.source = .value e ∧ .new className args ∈ e.visited)
    ∨ ∃ c q, inj.Constructs i c args q ∧ className = inj.constructedName c

theorem Accounts.of_invokes (invokes : inj.Invokes i j) (h : inj.Accounts j className args) :
  inj.Accounts i className args
  := by
  obtain bound | ⟨c, q, constructs, name⟩ := h
  · exact .inl bound
  · exact .inr ⟨c, q, constructs.of_invokes invokes, name⟩

/-- A construction that was in the statements before, or that is accounted for. -/
theorem Accounts.or_of_invokes (invokes : inj.Invokes i j)
    (nodes : j.progress.nodes = i.progress.nodes)
    (h : .new className args ∈ j.progress.nodes ∨ inj.Accounts j className args) :
  .new className args ∈ i.progress.nodes ∨ inj.Accounts i className args
  := by
  rw [nodes] at h
  exact h.imp_right (.of_invokes invokes)

/-- What resolution adds to a plan are constructions from bound values and its own ones. -/
theorem Resolves.accounts (h : inj.Resolves site task p es p')
    (member : .new className args ∈ Expr.visitedAll es ++ p'.nodes) :
  .new className args ∈ p.nodes ∨ inj.Accounts ⟨site, task, p⟩ className args
  := by
  induction h with
  | value bound =>
      obtain ⟨b, hb, source⟩ := bound
      simp only [Expr.visitedAll_cons, Expr.visitedAll_nil, List.append_nil, List.mem_append]
        at member
      obtain inside | before := member
      · exact .inr (.inl ⟨b, hb, _, source, inside⟩)
      · exact .inl before
  | heldLazily _ fresh held lazy _ ih =>
      apply Accounts.or_of_invokes (.heldLazily fresh held lazy) (by simp)
      apply ih (by simpa using member)
  | prototype _ fresh unheld scope _ ih =>
      apply Accounts.or_of_invokes (.prototype fresh unheld scope) (by simp)
      apply ih member
  | singleton _ fresh unheld scope _ ih =>
      apply Accounts.or_of_invokes (.singleton fresh unheld scope) (by simp)
      apply ih (by simpa using member)
  | eagerSingleton _ fresh unheld scope _ ih =>
      apply Accounts.or_of_invokes (.eagerSingleton fresh unheld scope) (by simp)
      apply ih (by simpa [PlanStatement.value, or_comm] using member)
  | provided _ ih => apply Accounts.or_of_invokes .provided rfl (ih member)
  | providerFunction _ ih =>
      apply Accounts.or_of_invokes .providerFunction rfl
      apply ih (by simpa using member)
  | call _ _ fresh _ ih =>
      apply Accounts.or_of_invokes (.call fresh) rfl
      apply ih (by simpa using member)
  | creation declared plain parameters ih =>
      simp only [Expr.visitedAll_cons, Expr.visitedAll_nil, List.append_nil, List.mem_append,
        Expr.new_mem_visited_assignedTo, or_assoc] at member
      obtain ⟨rfl, rfl⟩ | inside := member
      · exact .inr (.inr ⟨_, _, ⟨_, _, _, .refl, parameters⟩, rfl⟩)
      · apply Accounts.or_of_invokes .creation rfl (ih (List.mem_append.mpr inside))
  | creationWithSetters declared plain parameters _ ih₁ ih₂ =>
      simp only [List.cons_append, Expr.visitedAll_cons, Expr.visitedAll_nil, List.append_nil,
        List.mem_append, Expr.new_mem_visited_withSetters, or_assoc] at member ih₁ ih₂
      -- the object itself, what is inside its arguments, and what comes with its setters
      obtain ⟨rfl, rfl⟩ | inArgs | inside := member
      · exact .inr (.inr ⟨_, _, ⟨_, _, _, .refl, parameters⟩, rfl⟩)
      · apply Accounts.or_of_invokes .creation rfl (ih₁ (.inl inArgs))
      · obtain before | accounts := ih₂ inside
        · apply Accounts.or_of_invokes .creation rfl (ih₁ (.inr (by simpa using before)))
        · exact .inr (accounts.of_invokes (.setters plain parameters))
  | parameter first _ ih₁ ih₂ =>
      simp only [Expr.visitedAll_cons, Expr.visitedAll_nil, List.append_nil, List.mem_append,
        or_assoc] at member ih₁ ih₂
      obtain inFirst | inside := member
      · apply Accounts.or_of_invokes .parameter rfl (ih₁ (.inl inFirst))
      · obtain before | accounts := ih₂ inside
        · apply Accounts.or_of_invokes .parameter rfl (ih₁ (.inr before))
        · exact .inr (accounts.of_invokes (.laterParameters first))
  | setter first _ ih₁ ih₂ =>
      simp only [Expr.visitedAll_cons, List.mem_append, Expr.new_mem_visited_callMember, or_assoc]
        at member ih₁ ih₂
      obtain inFirst | inside := member
      · apply Accounts.or_of_invokes .setter rfl (ih₁ (.inl inFirst))
      · obtain before | accounts := ih₂ inside
        · apply Accounts.or_of_invokes .setter rfl (ih₁ (.inr before))
        · exact .inr (accounts.of_invokes (.laterSetters first))
  | _ => exact .inl (by simpa using member)

/-! ### Errands -/

/-- What an errand comes down to. -/
def invocation (inj : Injector) (errand : Errand) (p : Progress) : Invocation :=
  ⟨⟨errand.location, []⟩, .dependency (errand.dependency inj), p⟩

/-- While the errands are run an object of the class is constructed with the arguments, once
resolution has come to the progress. -/
inductive Makes (inj : Injector) (c : ManagedClass) (args : List Expr) (q : Progress) :
    List Errand → Progress → Prop where
  | first {errand errands p}
    (constructs : inj.Constructs (inj.invocation errand p) c args q) :
    Makes inj c args q (errand :: errands) p
  | later {errand errands p e p'}
    (first : inj.Resolves ⟨errand.location, []⟩ (.dependency (errand.dependency inj)) p [e] p')
    (rest : Makes inj c args q errands (errand.finish e p')) :
    Makes inj c args q (errand :: errands) p

/-- There is one argument for each parameter of the constructor. -/
theorem Makes.length_eq (h : inj.Makes c args q errands p) :
  args.length = c.decl.params.length
  := by
  induction h with
  | first constructs =>
      obtain ⟨site, target, p, -, parameters⟩ := constructs
      apply parameters.length_eq
  | later _ _ ih => exact ih

/-- Nothing is lost when an errand is finished: the value of an eager object is a mere name. -/
theorem new_mem_finish {errand : Errand} {e : Expr} (sound : errand.Sound inj)
    (valid : p.Valid inj)
    (h : inj.Resolves ⟨errand.location, []⟩ (.dependency (errand.dependency inj)) p [e] q) :
  .new className args ∈ (errand.finish e q).nodes
    ↔ .new className args ∈ Expr.visitedAll [e] ++ q.nodes
  := by
  cases errand with
  | construct location c =>
      obtain ⟨name, eq⟩ := h.name_of_eager valid (sound location c rfl).2
      obtain rfl := List.singleton_inj.mp eq
      simp [Errand.finish]
  | answer request => simp [Errand.finish, PlanStatement.value, or_comm]

/-- What errands construct is in the statements afterwards. -/
theorem Makes.new_mem (h : inj.Makes c args q errands p) (serves : inj.Serves errands p r)
    (valid : p.Valid inj) (sound : ∀ errand ∈ errands, errand.Sound inj) :
  .new (inj.constructedName c) args ∈ r.nodes ∧ q.Grows r
  := by
  induction serves with
  | nil => cases h
  | @cons errand errands p e p' r first rest ih =>
      have errandSound : errand.Sound inj := sound errand List.mem_cons_self
      cases h with
      | first constructs =>
          obtain ⟨member, grows⟩ := constructs.new_mem first
          rw [← new_mem_finish errandSound valid first] at member
          exact ⟨nodes_subset_of_grows rest.grows member,
            grows.trans ((Errand.grows_finish _ _ _).trans rest.grows)⟩
      | later first' rest' =>
          obtain ⟨eq, rfl⟩ := first.deterministic first'
          obtain rfl := List.singleton_inj.mp eq
          apply ih rest' (Errand.valid_finish (first.valid valid))
          intro other member
          apply sound other (List.mem_cons_of_mem _ member)

/-- Every construction in the statements of errands is one of theirs or stands in a bound value. -/
theorem Serves.accounts (serves : inj.Serves errands p r) (valid : p.Valid inj)
    (sound : ∀ errand ∈ errands, errand.Sound inj) (member : .new className args ∈ r.nodes) :
  .new className args ∈ p.nodes
    ∨ (∃ b ∈ inj.bindings, ∃ e, b.binding.source = .value e ∧ .new className args ∈ e.visited)
    ∨ ∃ c q, inj.Makes c args q errands p ∧ className = inj.constructedName c
  := by
  induction serves with
  | nil => exact .inl member
  | @cons errand errands p e p' r first rest ih =>
      have errandSound : errand.Sound inj := sound errand List.mem_cons_self
      obtain before | bound | ⟨c, q, makes, name⟩ :=
        ih (Errand.valid_finish (first.valid valid))
          (fun other member => sound other (List.mem_cons_of_mem _ member)) member
      · rw [new_mem_finish errandSound valid first] at before
        obtain before | bound | ⟨c, q, constructs, name⟩ := first.accounts before
        · exact .inl before
        · exact .inr (.inl bound)
        · exact .inr (.inr ⟨c, q, .first constructs, name⟩)
      · exact .inr (.inl bound)
      · exact .inr (.inr ⟨c, q, .later first makes, name⟩)

end Injector

end Wiring
