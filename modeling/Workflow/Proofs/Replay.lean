import Workflow.Proofs.Gathering
import Workflow.Proofs.Serialization

/-! A call run over other records. What it does depends on what it reads and on nothing else: over
all records that look alike to it, it draws the same identifiers, has the same result and writes the
same changes. -/

namespace Workflow

def MemoryStore.write (records : MemoryStore) : Option ChangeSet → MemoryStore
  | none => records
  | some changes => records.commit changes

/-- Prepared changes are written by a last call of the store and answered with what they are; a call
that has not prepared any fails. -/
structure Program.Answers {α : Type}
    (write : Except Failure ChangeSet → Program (Except Failure α)) (answer : ChangeSet → α) :
    Prop where
  failed : ∀ failure, (write (.error failure)).Closes (.error failure)
  commits : ∀ changes, ∃ next, write (.ok changes) = .request (.store (.commit changes)) next ∧
    (∀ failure, (next (.error failure)).Closes (.error failure)) ∧
    (next (.ok ())).Closes (.ok (answer changes))

theorem Engine.settle_answers (target : Uuid) : Program.Answers (settle target) fun changes =>
    ⟨changes.target.id, changes.target.status, changes.createdTasks⟩ where
  failed := (settle_commits target).failed
  commits := settle_asks target

theorem Engine.settleStart_answers : Program.Answers settleStart fun changes =>
    changes.target.id where
  failed := settleStart_commits.failed
  commits _ := ⟨_, rfl, fun _ => .done, .request trivial fun _ => .done⟩

/-- What a call comes to over records: its result, the identifiers that it draws, the last one first,
and the changes that it writes, if any. -/
structure Yields (records : MemoryStore) (attempt : Attempt)
    (result : Except Failure attempt.Answer) (ids : List Uuid) (written : Option ChangeSet) :
    Prop where
  returns : (World.run attempt.moments attempt.call.operation.run { records }).1 = result
  drawn : (World.run attempt.moments attempt.call.operation.run { records }).2.drawn = ids
  stored : (World.run attempt.moments attempt.call.operation.run { records }).2.records =
    records.write written
  writes : ∀ changes, written = some changes → ∃ value, result = .ok value ∧
    Writes records attempt.call value ids changes

namespace Yields

variable {attempt : Attempt} {frame : MemoryStore → Prop}

theorem of_closes {records : MemoryStore} {program : Program (Except Failure attempt.Answer)}
    {world : World} {result : Except Failure attempt.Answer} {written : Option ChangeSet}
    (runs : World.run attempt.moments attempt.call.operation.run { records } =
      World.run attempt.moments program (world.holding (records.write written)))
    (closes : program.Closes result)
    (writes : ∀ changes, written = some changes → ∃ value, result = .ok value ∧
      Writes records attempt.call value world.drawn changes) :
    Yields records attempt result world.drawn written := by
  obtain ⟨same, stored, drawn⟩ := @World.run_closes _ attempt.moments _ _
    (world.holding (records.write written)) closes
  rw [← runs] at same stored drawn
  exact ⟨same, drawn, stored, writes⟩

theorem of_prepared {write : Except Failure ChangeSet → Program (Except Failure attempt.Answer)}
    {answer : ChangeSet → attempt.Answer} (answers : Program.Answers write answer)
    (prepared : Except Failure ChangeSet) (middle : World)
    (runs : ∀ records, frame records →
      World.run attempt.moments attempt.call.operation.run { records } =
        World.run attempt.moments (write prepared) (middle.holding records))
    (ready : ∀ changes, prepared = .ok changes → ∀ records, frame records →
      Writes records attempt.call (answer changes) middle.drawn changes) :
    ∃ result written, ∀ records, frame records →
      Yields records attempt result middle.drawn written := by
  cases prepared with
  | error failure =>
    refine ⟨.error failure, none, fun records member => ?_⟩
    exact of_closes (runs records member) (answers.failed failure) fun _ none => nomatch none
  | ok changes =>
    obtain ⟨next, asks, failed, closes⟩ := answers.commits changes
    let told : World := { middle with asked := middle.asked + 1 }
    cases fault : (attempt.moments middle.asked).fault with
    | some failure =>
      refine ⟨.error failure, none, fun records member => ?_⟩
      have served : (middle.holding records).serve attempt.moments (.store (.commit changes)) =
          (.error failure, told.holding records) := by
        simp only [World.serve, World.answer, World.callStore, World.holding, fault, told]
      have here := runs records member
      rw [asks, World.run, served] at here
      exact @of_closes _ _ _ told _ none here (failed failure) fun _ none => nomatch none
    | none =>
      refine ⟨.ok (answer changes), some changes, fun records member => ?_⟩
      have served : (middle.holding records).serve attempt.moments (.store (.commit changes)) =
          (.ok (), told.holding (records.commit changes)) := by
        simp only [World.serve, World.answer, World.callStore, World.holding, fault, told]
        rfl
      have here := runs records member
      rw [asks, World.run, served] at here
      refine @of_closes _ _ _ told _ (some changes) here closes fun other same => ?_
      cases same
      exact ⟨answer changes, rfl, ready changes rfl records member⟩

/-- What a call comes to over records is what it comes to in a world with these records. -/
theorem performed {world : World} {result : Except Failure attempt.Answer} {ids : List Uuid}
    {written : Option ChangeSet} (yields : Yields world.records attempt result ids written) :
    (world.perform attempt).1 = result ∧
      (world.perform attempt).2.drawn = ids ++ world.drawn ∧
      (world.perform attempt).2.records = world.records.write written := by
  rw [world.perform_eq attempt]
  exact ⟨yields.returns, congrArg (· ++ world.drawn) yields.drawn, yields.stored⟩

end Yields

/-- Records that look alike to a call: they have the same definitions, the same task for it to
complete and, beside the task, the same instance with its tasks. -/
structure Alike {α : Type} (call : EngineCall α) (base records : MemoryStore) : Prop where
  definitions : records.definitions = base.definitions
  task? : ∀ id, call.task? = some id → records.task? id = base.task? id
  home : ∀ id target, call.task? = some id → Houses base id target → Agrees id target base records

theorem Alike.refl {α : Type} (call : EngineCall α) (base : MemoryStore) : Alike call base base :=
  ⟨rfl, fun _ _ => rfl, fun id target _ _ => .refl id target base⟩

theorem start_yields (base : MemoryStore) (id : Uuid) (data : Json.Members) (startedBy : String)
    (moments : Moments) :
    ∃ result ids written, ∀ records, records.definitions = base.definitions →
      Yields records ⟨.start id data startedBy, moments⟩ result ids written := by
  obtain ⟨prepared, middle, ran⟩ :=
    @World.run_holding moments _ {} _ _ _ (prepareStart_steady base id data startedBy)
  replace ran : ∀ records : MemoryStore, records.definitions = base.definitions →
      World.run moments (Engine.prepareStart id data startedBy).run { records } =
        (prepared, middle.holding records) := ran
  have runs : ∀ records : MemoryStore, records.definitions = base.definitions →
      World.run moments (Engine.start id data startedBy).run { records } =
        World.run moments (Engine.settleStart prepared) (middle.holding records) := by
    intro records same
    rw [Engine.start_run, World.run_bind, ran records same]
  have ready : ∀ changes, prepared = .ok changes → ∀ records : MemoryStore,
      records.definitions = base.definitions →
        Writes records (.start id data startedBy) changes.target.id middle.drawn changes := by
    intro changes prepares records same
    have ends : World.Ends moments (Engine.prepareStart id data startedBy) { records } _ :=
      @prepareStart_ends (fun _ => True) _ _ (fun _ => trivial) id data startedBy
    unfold World.Ends at ends
    rw [ran records same, prepares] at ends
    obtain ⟨_, _, begun, rfl, _, drawn⟩ := ends
    have drawn : middle.drawn = [begun.taskId, begun.id] := drawn
    exact drawn ▸ .begun begun
  obtain ⟨result, written, yields⟩ := @Yields.of_prepared ⟨.start id data startedBy, moments⟩
    _ _ _ Engine.settleStart_answers prepared middle runs ready
  exact ⟨result, middle.drawn, written, yields⟩

theorem complete_yields (base : MemoryStore) (id : Uuid) (data : Json.Members) (principal : String)
    (moments : Moments) :
    ∃ result ids written, ∀ records, Alike (.complete id data principal) base records →
      Yields records ⟨.complete id data principal, moments⟩ result ids written := by
  obtain ⟨first, begins, failed, missing, _⟩ := Engine.complete_run id data principal
  -- A completion that does not find its task fails, whatever else is stored.
  have ends (failure : Failure) (fails : ∀ records, Alike (.complete id data principal) base records →
      World.run moments (Engine.complete id data principal).run { records } =
        (.error failure, { records, asked := 1 })) :
      ∃ result ids written, ∀ records, Alike (.complete id data principal) base records →
        Yields records ⟨.complete id data principal, moments⟩ result ids written := by
    refine ⟨.error failure, [], none, fun records alike => ?_⟩
    exact @Yields.of_closes ⟨.complete id data principal, moments⟩ _ (.done (.error failure))
      { asked := 1 } _ none (fails records alike) .done fun _ none => nomatch none
  cases fault : (moments 0).fault with
  | some failure =>
    refine ends failure fun records alike => ?_
    have served : ({ records } : World).serve moments (.store (.loadTask id)) =
        (.error failure, { records, asked := 1 }) := by
      simp only [World.serve, World.answer, World.callStore, fault]
    rw [begins, World.run, served, failed]
    rfl
  | none =>
  cases found : base.task? id with
  | none =>
    refine ends (.noTask id) fun records alike => ?_
    have served : ({ records } : World).serve moments (.store (.loadTask id)) =
        (.ok none, { records, asked := 1 }) := by
      simp only [World.serve, World.answer, World.callStore, fault, MemoryStore.answer,
        alike.task? id rfl, found]
    rw [begins, World.run, served, missing]
    rfl
  | some task =>
  obtain ⟨prepared, middle, ran⟩ := @World.run_holding moments _ { asked := 2 } _ _ _
    (prepare_steady found rfl data principal)
  replace ran : ∀ records : MemoryStore, Agrees id task.instanceId base records →
      World.run moments (Engine.prepare id data principal).run { records, asked := 2 } =
        (prepared, middle.holding records) := ran
  have runs : ∀ records : MemoryStore, Agrees id task.instanceId base records →
      World.run moments (Engine.complete id data principal).run { records } =
        World.run moments (Engine.settle task.instanceId prepared) (middle.holding records) := by
    intro records agrees
    rw [completion_runs fault ⟨task, agrees.task?.trans found, rfl⟩, World.run]
    change World.run moments ((Engine.prepare id data principal).run.bind _) { records, asked := 2 } = _
    rw [World.run_bind, ran records agrees]
  have ready : ∀ changes, prepared = .ok changes → ∀ records : MemoryStore,
      Agrees id task.instanceId base records →
        Writes records (.complete id data principal)
          ⟨changes.target.id, changes.target.status, changes.createdTasks⟩ middle.drawn changes := by
    intro changes prepares records agrees
    have ends : World.Ends moments (Engine.prepare id data principal) { records, asked := 2 } _ :=
      @prepare_ends (fun _ => True) _ _ (fun _ => trivial) id data principal
    unfold World.Ends at ends
    rw [ran records agrees, prepares] at ends
    obtain ⟨_, _, done, rfl, _, drawn⟩ := ends
    have drawn : middle.drawn = done.ids := drawn.trans (List.append_nil _)
    exact drawn ▸ .completed done
  obtain ⟨result, written, yields⟩ := @Yields.of_prepared ⟨.complete id data principal, moments⟩
    _ _ _ (Engine.settle_answers task.instanceId) prepared middle runs ready
  exact ⟨result, middle.drawn, written, fun records alike =>
    yields records (alike.home id task.instanceId rfl ⟨task, found, rfl⟩)⟩

/-- A call that moves an instance on comes to the same over all records that look alike to it. -/
theorem alike_yields {attempt : Attempt} (moves : attempt.call.Moves) (base : MemoryStore) :
    ∃ result ids written, ∀ records, Alike attempt.call base records →
      Yields records attempt result ids written := by
  obtain ⟨call, moments⟩ := attempt
  cases call with
  | start id data startedBy =>
    obtain ⟨result, ids, written, yields⟩ := start_yields base id data startedBy moments
    exact ⟨result, ids, written, fun records alike => yields records alike.definitions⟩
  | complete id data principal => exact complete_yields base id data principal moments
  | _ => exact moves.elim

end Workflow
