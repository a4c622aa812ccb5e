import Workflow.Proofs.StoredTasks

/-! Which calls are refused. An operation that only looks things up leaves the store as it is, and
is refused nothing by it; so a completion is refused for one reason only, which is that its task
does not admit the principal. -/

namespace Workflow

def Lenient (permits : Moment → Prop) : Prop :=
  ∀ failure, Met permits failure → failure.kind ≠ .forbidden

/-- A result that is not a refusal, and what it tells of its value if it has one. -/
structure Informs {α : Type} (told : α → Prop) (result : Except Failure α) : Prop where
  unrefused : Unrefused result
  told : ∀ value, result = .ok value → told value

namespace Informs

variable {α : Type} {told : α → Prop}

theorem ok {value : α} (holds : told value) : Informs told (.ok value) := by
  refine ⟨.ok value, ?_⟩
  rintro _ ⟨⟩
  exact holds

theorem error {failure : Failure} (other : failure.kind ≠ .forbidden) :
    Informs told (.error failure) := by
  refine ⟨.error other, ?_⟩
  intro value impossible
  cases impossible

end Informs

namespace Host

variable {permits : Moment → Prop} {moments : Moments} {host : Host} {α β : Type}

theorem run_bind (program : Program α) (next : α → Program β) :
    run moments (program.bind next) host =
      run moments (next (run moments program host).1) (run moments program host).2 := by
  induction program generalizing host with
  | done result => rfl
  | request operation rest ih => exact ih _

theorem keyed_serve (keyed : host.store.Keyed) (operation : Request α) :
    (host.serve moments operation).2.store.Keyed := by
  cases operation with
  | store call =>
    simp only [serve, answer, callStore]
    split
    · exact keyed
    · exact keyed.answer _ call
  | _ => exact keyed

theorem keyed_run (keyed : host.store.Keyed) (program : Program α) :
    (run moments program host).2.store.Keyed := by
  induction program generalizing host with
  | done result => exact keyed
  | request operation next ih => exact ih _ (keyed_serve keyed operation)

theorem keyed_of_run (keyed : host.store.Keyed) {program : Program α} {result : α} {after : Host}
    (ran : run moments program host = (result, after)) : after.store.Keyed := by
  have kept := @keyed_run moments host α keyed program
  rwa [ran] at kept

theorem serve_unrefused (within : ∀ n, permits (moments n)) (lenient : Lenient permits)
    (call : StoreCall α) : Unrefused (host.serve moments (.store call)).1 := by
  simp only [serve, answer, callStore]
  split
  next failure fault => exact .error (lenient failure (.store (within _) fault))
  · exact Store.answer_unrefused _ _ call

theorem run_storeCall (call : StoreCall α) :
    run moments (Operation.store call).run host = host.serve moments (.store call) := by
  have shape : (Operation.store call).run = .request (.store call) .done := by
    refine congrArg (Program.request (.store call)) (funext fun answer => ?_)
    cases answer <;> rfl
  rw [shape]
  rfl

def Tells (moments : Moments) (host : Host) (operation : Operation α)
    (post : Except Failure α → Prop) : Prop :=
  host.store.Keeps (run moments operation.run host).2.store ∧
    post (run moments operation.run host).1

namespace Tells

theorem ran {operation : Operation α} {post : Except Failure α → Prop}
    (tells : Tells moments host operation post) {result : Except Failure α} {after : Host}
    (ended : run moments operation.run host = (result, after)) :
    host.store.Keeps after.store ∧ post result := by
  unfold Tells at tells
  rwa [ended] at tells

theorem mono {operation : Operation α} {first post : Except Failure α → Prop}
    (tells : Tells moments host operation first) (implies : ∀ result, first result → post result) :
    Tells moments host operation post :=
  ⟨tells.1, implies _ tells.2⟩

theorem pure {value : α} {post : Except Failure α → Prop} (holds : post (.ok value)) :
    Tells moments host (Pure.pure value) post :=
  ⟨.refl _, holds⟩

theorem throw {failure : Failure} {post : Except Failure α → Prop} (holds : post (.error failure)) :
    Tells moments host (throw failure) post :=
  ⟨.refl _, holds⟩

theorem bind {operation : Operation α} {next : α → Operation β} {first : Except Failure α → Prop}
    {post : Except Failure β → Prop} (tells : Tells moments host operation first)
    (failed : ∀ failure, first (.error failure) → post (.error failure))
    (resume : ∀ value (later : Host), host.store.Keeps later.store → first (.ok value) →
      Tells moments later (next value) post) :
    Tells moments host (operation >>= next) post := by
  obtain ⟨kept, told⟩ := tells
  unfold Tells
  rw [Engine.run_bind, run_bind]
  cases result : (run moments operation.run host).1 with
  | error failure =>
    rw [result] at told
    exact ⟨kept, failed failure told⟩
  | ok value =>
    rw [result] at told
    obtain ⟨later, ended⟩ := resume value _ kept told
    exact ⟨kept.trans later, ended⟩

theorem goes_on {operation : Operation α} {next : α → Operation β} {told : α → Prop}
    {post : Except Failure β → Prop} (looks : Tells moments host operation (Informs told))
    (failed : ∀ failure, failure.kind ≠ .forbidden → post (.error failure))
    (resume : ∀ value (later : Host), host.store.Keeps later.store → told value →
      Tells moments later (next value) post) :
    Tells moments host (operation >>= next) post := by
  apply looks.bind
  · intro failure informs
    exact failed failure (informs.unrefused failure rfl)
  · intro value later kept informs
    exact resume value later kept (informs.told value rfl)

theorem store (within : ∀ n, permits (moments n)) (lenient : Lenient permits)
    (call : StoreCall α) (reads : call.IsRead) :
    Tells moments host (Operation.store call)
      (Informs fun value => ∃ now, (host.store.answer now call).1 = .ok value) := by
  have unrefused : Unrefused (host.serve moments (.store call)).1 := serve_unrefused within lenient call
  unfold Tells
  rw [run_storeCall]
  simp only [serve, answer, callStore] at unrefused ⊢
  split
  next failure fault => exact ⟨.refl _, .error (lenient failure (.store (within _) fault))⟩
  · exact ⟨Store.answer_reads reads, Store.answer_unrefused _ _ call, fun value told => ⟨_, told⟩⟩

theorem load (within : ∀ n, permits (moments n)) (lenient : Lenient permits)
    (call : StoreCall (Option α)) (reads : call.IsRead) (missing : Failure)
    (lost : missing.kind = .notFound) :
    Tells moments host (do Operation.found missing (← Operation.store call))
      (Informs fun value => ∃ now, (host.store.answer now call).1 = .ok (some value)) := by
  refine (store within lenient call reads).goes_on (fun _ => .error) fun value later _ told => ?_
  cases value with
  | none =>
    have other : missing.kind ≠ .forbidden := by
      rw [lost]
      nofun
    exact throw (.error other)
  | some value => exact pure (.ok told)

theorem consults {operation : Operation α} {drawn : List Uuid}
    {post : List Uuid → Except Failure α → Prop} (within : ∀ n, permits (moments n))
    (consults : Operation.Consults permits drawn operation post) :
    Tells moments host operation fun result => ∃ ids, post ids result := by
  unfold Operation.Consults at consults
  unfold Tells
  generalize operation.run = program at consults
  induction consults generalizing host with
  | done holds => exact ⟨.refl _, _, holds⟩
  | holders _ ih => exact @ih _ (within _) { host with asked := host.asked + 1 }
  | hasRole _ ih => exact @ih _ (within _) { host with asked := host.asked + 1 }
  | freshId _ ih =>
    exact @ih _ (within _) { host with
      asked := host.asked + 1, drawn := (moments host.asked).freshId :: host.drawn }

end Tells

theorem status_tells (within : ∀ n, permits (moments n)) (lenient : Lenient permits) (id : Uuid) :
    Tells moments host (Engine.status id) (Informs fun view =>
      ∃ tasks, host.store.tasksOf id = .ok tasks ∧
        view.pendingTasks = tasks.filter Task.isPending) := by
  refine (Tells.load within lenient (.loadInstance id) trivial (.noInstance id) rfl).goes_on
    (fun _ => .error) fun target later kept _ => ?_
  refine (Tells.store within lenient (.tasksOf id) trivial).goes_on
    (fun _ => .error) fun tasks last _ told => ?_
  obtain ⟨now, answered⟩ := told
  refine .pure (.ok ⟨tasks, ?_, rfl⟩)
  rw [← kept.tasksOf]
  exact Store.tasksOf_of_answer answered

/-- A result that is refused only where the store has a task with a certain identifier which does
not admit the principal. -/
def Withheld (permits : Moment → Prop) (host : Host) (id : Uuid) (principal : String)
    (result : Except Failure α) : Prop :=
  ∀ failure, result = .error failure → failure.kind = .forbidden →
    ∃ task, (id, .ok task) ∈ host.store.held ∧ Refuses permits task principal

namespace Withheld

variable {id : Uuid} {principal : String}

theorem ok (value : α) : Withheld permits host id principal (.ok value) := nofun

theorem of_unrefused {result : Except Failure α} (unrefused : Unrefused result) :
    Withheld permits host id principal result :=
  fun failure failed refusal => absurd refusal (unrefused failure failed)

theorem error {failure : Failure}
    (withheld : Withheld permits host id principal (.error failure : Except Failure α)) :
    Withheld permits host id principal (.error failure : Except Failure β) := by
  rintro _ ⟨⟩
  exact withheld failure rfl

theorem of_keeps {later : Host} {result : Except Failure α} (kept : host.store.Keeps later.store)
    (withheld : Withheld permits later id principal result) :
    Withheld permits host id principal result :=
  fun failure failed refusal => kept.held ▸ withheld failure failed refusal

/-- A completion stops as forbidden only if its task does not admit the principal. -/
theorem of_stops {definition : Definition} {target : Instance} {task : Task} {data : Json.Members}
    {failure : Failure} (lenient : Lenient permits) (held : (id, .ok task) ∈ host.store.held)
    (stops : Stops permits definition target task data principal failure) :
    Withheld permits host id principal (.error failure : Except Failure α) := by
  cases stops with
  | met met => exact of_unrefused (.error (lenient failure met))
  | refused _ refused => exact fun _ _ _ => ⟨task, held, refused⟩
  | _ => exact of_unrefused (.error nofun)

end Withheld

theorem prepare_withheld (within : ∀ n, permits (moments n)) (lenient : Lenient permits) (id : Uuid)
    (data : Json.Members) (principal : String) :
    Tells moments host (Engine.prepare id data principal) (Withheld permits host id principal) := by
  have failed (failure : Failure) (other : failure.kind ≠ .forbidden) :
      Withheld permits host id principal (.error failure : Except Failure ChangeSet) :=
    .of_unrefused (.error other)
  refine (Tells.load within lenient (.loadTask id) trivial (.noTask id) rfl).goes_on failed
    fun task first kept told => ?_
  obtain ⟨now, loaded⟩ := told
  have held := Store.held_of_loadTask loaded
  refine (Tells.load within lenient (.loadInstance task.instanceId) trivial _ rfl).goes_on failed
    fun target second _ _ => ?_
  refine (Tells.load within lenient (.loadDefinition target.definitionId) trivial _ rfl).goes_on failed
    fun definition third _ _ => ?_
  refine (Tells.store within lenient (.pendingTasks target.id) trivial).goes_on failed
    fun pending fourth _ _ => ?_
  change Tells moments { fourth with asked := fourth.asked + 1 } _ _
  have advances : Operation.Consults permits [] _ _ :=
    advance_consults definition target task pending data principal (moments fourth.asked).now
  refine (Tells.consults within advances).mono fun result told => ?_
  obtain ⟨ids, told⟩ := told
  cases result with
  | ok changes => exact .ok changes
  | error failure => exact .of_stops lenient held told

theorem settle_withheld (within : ∀ n, permits (moments n)) (lenient : Lenient permits) {id : Uuid}
    {principal : String} {prepared : Except Failure ChangeSet}
    (withheld : Withheld permits host id principal prepared) (target : Uuid) (later : Host) :
    Withheld permits host id principal (run moments (Engine.settle target prepared) later).1 := by
  cases prepared with
  | error failure =>
    rw [run_closes ((Engine.settle_commits target).failed failure)]
    exact withheld.error
  | ok changes =>
    obtain ⟨next, asks, failed, closes⟩ := Engine.settle_asks target changes
    have wrote : Unrefused (later.serve moments (.store (.commit changes))).1 :=
      serve_unrefused within lenient _
    rw [asks, run]
    cases written : (later.serve moments (.store (.commit changes))).1 with
    | error failure =>
      rw [written] at wrote
      rw [run_closes (failed failure)]
      exact .of_unrefused (.error (wrote failure rfl))
    | ok _ =>
      rw [run_closes closes]
      exact .ok _

/-- A completion that is refused is one whose task does not admit the principal. -/
theorem complete_withheld (within : ∀ n, permits (moments n)) (lenient : Lenient permits) (id : Uuid)
    (data : Json.Members) (principal : String) :
    Withheld permits host id principal
      (run moments (Engine.complete id data principal).run host).1 := by
  obtain ⟨next, begins, failed, missing, found⟩ := Engine.complete_run id data principal
  have reading : Tells moments host (Operation.store (.loadTask id)) _ :=
    Tells.store within lenient (.loadTask id) trivial
  unfold Tells at reading
  rw [run_storeCall] at reading
  obtain ⟨kept, informs⟩ := reading
  rw [begins, run]
  cases loaded : (host.serve moments (.store (.loadTask id))).1 with
  | error failure =>
    rw [loaded] at informs
    rw [failed]
    exact .of_unrefused (.error (informs.unrefused failure rfl))
  | ok task? =>
    cases task? with
    | none =>
      rw [missing]
      refine .of_unrefused (.error ?_)
      intro refusal
      cases refusal
    | some task =>
      rw [found, run, run_bind]
      refine settle_withheld within lenient ?_ task.instanceId _
      exact .of_keeps kept (prepare_withheld within lenient id data principal).2

end Host

end Workflow
