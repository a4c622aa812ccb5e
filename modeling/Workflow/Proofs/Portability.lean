import Workflow.Proofs.Host
import Workflow.Proofs.Mirror
import Workflow.Proofs.RoundTrip

/-! Calls over a relational store and over records in memory. Every request that a call makes of the
records is one that rows can follow, so that both stores are asked the same, answer the same and go
on showing the same. -/

namespace Workflow

def StoreCall.Portable {α : Type} (records : MemoryStore) : StoreCall α → Prop
  | saveDefinition draft => draft.ReadsBack ∧
      (∀ step ∈ draft.steps, step.kind ∈ StepKind.recognizedKinds) ∧
      (∃ time, draft.createdAt = some time ∧ time.IsWhole) ∧
      records.named? draft.name draft.version = none ∧ records.definition? draft.id = none
  | transition .. => (records.definitions.map (·.id)).Nodup
  | commit changes => Lands records changes
  | call => call.IsRead ∧ call.IsBounded ∧ records.ReadsBack

def Request.Portable {α : Type} (records : MemoryStore) : Request α → Prop
  | store call => call.Portable records
  | _ => True

theorem Mirrors.follows {records : MemoryStore} {database : Database} {α : Type}
    (mirrors : Mirrors records database) {call : StoreCall α} (portable : call.Portable records)
    (now : Timestamp) : Mirrors.Follows records database now call := by
  cases call with
  | saveDefinition draft =>
    obtain ⟨back, recognized, ⟨time, dated, whole⟩, unnamed, unused⟩ := portable
    exact mirrors.saveDefinition back recognized dated whole unnamed unused now
  | transition id source target => exact mirrors.transition portable id source target now
  | commit changes => exact mirrors.commit portable now
  | saveInstance _ | saveTask _ => exact portable.1.elim
  | _ =>
    obtain ⟨reads, bounded, back⟩ := portable
    exact ⟨database, mirrors.reads back reads bounded now, mirrors⟩

namespace World

def Along {α : Type} (moments : Moments) : Program α → World → Prop
  | .done _, _ => True
  | .request operation next, world => operation.Portable world.records ∧
      Along moments (next (world.serve moments operation).1) (world.serve moments operation).2

variable {moments : Moments} {world : World} {α β : Type}

theorem Along.bind {program : Program α} {next : α → Program β} (first : Along moments program world)
    (rest : Along moments (next (run moments program world).1) (run moments program world).2) :
    Along moments (program.bind next) world := by
  induction program generalizing world with
  | done result => exact rest
  | request operation later ih => exact ⟨first.1, ih _ first.2 rest⟩

end World

open World

theorem Request.IsPlain.portable {α : Type} {operation : Request α} (plain : operation.IsPlain)
    {records : MemoryStore} (back : records.ReadsBack) : operation.Portable records := by
  cases operation with
  | store call =>
    cases call with
    | saveDefinition _ | transition _ _ _ | saveInstance _ | saveTask _ | commit _ =>
      exact plain.1.elim
    | _ => exact ⟨plain.1, plain.2, back⟩
  | _ => trivial

theorem Request.IsPlain.records_eq {α : Type} {operation : Request α} (plain : operation.IsPlain)
    (moments : Moments) (world : World) :
    (world.serve moments operation).2.records = world.records := by
  cases operation with
  | store call =>
    simp only [World.serve, World.answer, World.callStore]
    split
    · rfl
    · cases call with
      | saveDefinition _ | transition _ _ _ | saveInstance _ | saveTask _ | commit _ =>
        exact plain.1.elim
      | _ => rfl
  | _ => rfl

namespace Program

variable {moments : Moments} {world : World} {α : Type}

theorem Uses.along {program : Program α} (plain : program.Uses Request.IsPlain)
    (back : world.records.ReadsBack) : Along moments program world := by
  induction program generalizing world with
  | done result => trivial
  | request operation next ih =>
    refine ⟨plain.1.portable back, ih _ (plain.2 _) ?_⟩
    rw [plain.1.records_eq moments world]
    exact back

theorem Closes.along {program : Program α} {result : α} (closes : program.Closes result) :
    Along moments program world := by
  induction closes generalizing world with
  | done => trivial
  | @request β operation next closing _ ih =>
    refine ⟨?_, ih _⟩
    cases operation with
    | leave _ | release _ | notify _ => trivial
    | _ => exact closing.elim

theorem Commits.along {write : Except Failure ChangeSet → Program (Except Failure α)}
    (commits : Commits write) {prepared : Except Failure ChangeSet}
    (lands : ∀ changes, prepared = .ok changes → Lands world.records changes) :
    Along moments (write prepared) world := by
  cases prepared with
  | error failure => exact (commits.failed failure).along
  | ok changes =>
    obtain ⟨next, asks, failed, value, closes⟩ := commits.commits changes
    rw [asks]
    refine ⟨lands changes rfl, ?_⟩
    cases (world.serve moments (.store (.commit changes))).1 with
    | error failure => exact (failed failure).along
    | ok _ => exact closes.along

end Program

structure MemoryStore.IsWhole (records : MemoryStore) : Prop where
  instances : ∀ id target, records.instance? id = some target → target.IsWhole
  tasks : ∀ id task, records.task? id = some task → task.IsWhole

theorem Mirrors.whole {records : MemoryStore} {database : Database}
    (mirrors : Mirrors records database) : records.IsWhole where
  instances id target found := by
    have shown := find?_shows mirrors.instances (p := fun row => row.id = id)
      (q := fun other => other.id = id) fun row target shown => by rw [shown.1]; rfl
    rw [← MemoryStore.instance?, found] at shown
    generalize database.tables.instances.find? (fun row => row.id = id) = row at shown
    cases shown with
    | some here => exact here.2
  tasks id task found := by
    have shown := find?_shows mirrors.tasks (p := fun row => row.id = id)
      (q := fun other => other.id = id) fun row task shown => by rw [shown.1]; rfl
    rw [← MemoryStore.task?, found] at shown
    generalize database.tables.tasks.find? (fun row => row.id = id) = row at shown
    cases shown with
    | some here => exact here.2

theorem dueAt_isWhole {step : Step} {now : Timestamp} (whole : now.IsWhole) {time : Timestamp}
    (due : step.dueAt now = some time) : time.IsWhole := by
  obtain ⟨span, _, reached⟩ := Option.bind_eq_some_iff.mp due
  exact whole.add? reached

theorem make_isWhole {id : Uuid} {target : Instance} {step : Step} {assignment : Assignment}
    {now : Timestamp} (whole : now.IsWhole) : (Task.make id target step assignment now).IsWhole :=
  ⟨whole, fun _ due => dueAt_isWhole whole due, fun _ impossible => (nomatch impossible)⟩

variable {permits : Moment → Prop} {records : MemoryStore}

theorem Beginning.lands {id : Uuid} {data : Json.Members} {startedBy : String}
    (begun : Beginning permits records id data startedBy)
    (fresh : Fresh records [begun.taskId, begun.id]) (whole : begun.now.IsWhole) :
    Lands records begun.changes where
  carries := begun.carries fresh
  distinct := List.nodup_cons.mpr ⟨List.not_mem_nil, List.nodup_nil⟩
  governed := by
    have defined : records.definition? begun.changes.target.definitionId = _ := begun.defined
    rw [defined]
    rfl
  target := ⟨whole, fun _ impossible => (nomatch impossible)⟩
  tasks task member := by
    rw [List.mem_singleton.mp member]
    exact make_isWhole whole

theorem Completion.lands {id : Uuid} {data : Json.Members} {principal : String}
    (done : Completion permits records id data principal) (fresh : Fresh records done.ids)
    (whole : done.now.IsWhole) (stored : records.IsWhole) : Lands records done.changes where
  carries := done.carries fresh
  distinct := by
    refine List.nodup_cons.mpr ⟨fun known => ?_, done.created_distinct fresh⟩
    obtain ⟨task, member, same⟩ := List.mem_map.mp known
    apply done.created_new fresh member
    rw [same]
    exact List.mem_map.mpr ⟨done.task, MemoryStore.mem_of_task? done.found, rfl⟩
  governed := by
    rw [done.changes_definitionId, done.defined]
    rfl
  target := by
    have old := stored.instances _ _ done.housed
    have continues := done.target.continues_withPending
      (Json.Members.overlay done.target.data data)
      (Engine.pendingSteps done.task.id (records.pendingTasks done.target.id) done.created) done.now
    refine ⟨?_, ?_⟩
    · rw [Completion.changes, completionChanges, continues.startedAt]
      exact old.startedAt
    · intro time ended
      rw [Completion.changes, completionChanges, Instance.withPending] at ended
      split at ended
      · cases ended
        exact whole
      · exact old.completedAt time ended
  tasks := by
    have old := stored.tasks _ _ done.found
    refine done.forall_written ⟨old.createdAt, old.dueAt, ?_⟩ fun task member => ?_
    · intro time ended
      cases ended
      exact whole
    · obtain ⟨step, assignment, _, _, made⟩ := done.advances.creates.mem member
      rw [made]
      exact make_isWhole whole

/-- A moment at which the clock shows whole microseconds. -/
def Moment.IsWhole (moment : Moment) : Prop :=
  moment.now.IsWhole

/-- What a call has stored is read back from columns. -/
def EngineCall.ReadsBack {α : Type} : EngineCall α → Prop
  | define definition => definition.ReadsBack
  | start _ data _ | complete _ data _ => (Json.object data).ReadsBack
  | _ => True

theorem Json.empty_readsBack : (Json.object []).ReadsBack :=
  within_object.mpr ⟨.nil, List.forall_mem_nil _⟩

theorem MemoryStore.ReadsBack.empty : ({} : MemoryStore).ReadsBack :=
  ⟨List.forall_mem_nil _, List.forall_mem_nil _⟩

theorem MemoryStore.ReadsBack.commit (back : records.ReadsBack) {changes : ChangeSet}
    (target : (Json.object changes.target.data).ReadsBack)
    (tasks : ∀ task ∈ changes.tasks, (Json.object task.data).ReadsBack) :
    (records.commit changes).ReadsBack where
  instances other member := by
    rw [commit_instances] at member
    rcases mem_upsert member with rfl | old
    · exact target
    · exact back.instances other old
  tasks task member := by
    rcases mem_commit_tasks member with new | old
    · exact tasks task new
    · exact back.tasks task old

/-- Where what is stored by one call is read back, everything that is stored is. -/
theorem Effect.readsBack {α : Type} {call : EngineCall α} {value : α} {new : List Uuid}
    {after : MemoryStore} (effect : Effect permits records call value new after)
    (stores : call.ReadsBack) (back : records.ReadsBack) : after.ReadsBack := by
  cases effect with
  | read _ => exact back
  | defined _ _ _ => exact ⟨back.instances, back.tasks⟩
  | activated _ _ => exact ⟨back.instances, back.tasks⟩
  | begun begun =>
    refine back.commit stores fun task member => ?_
    rw [List.mem_singleton.mp member]
    exact Json.empty_readsBack
  | @completed id data principal done =>
    refine back.commit ?_ (done.forall_written stores fun task member => ?_)
    · rw [Completion.changes, completionChanges, Instance.withPending_data]
      exact Json.within_overlay (back.instances _ (MemoryStore.mem_of_instance? done.housed)) stores
    · obtain ⟨step, assignment, _, _, made⟩ := done.advances.creates.mem member
      rw [made]
      exact Json.empty_readsBack

/-- A history of such calls keeps what it stores readable. -/
theorem Reachable.readsBack {world : World} (reached : Reachable permits world)
    (back : world.records.ReadsBack) {attempts : List Attempt}
    (within : ∀ attempt ∈ attempts, attempt.Within permits)
    (stores : ∀ attempt ∈ attempts, attempt.call.ReadsBack)
    (fresh : (world.after attempts).drawn.Nodup) : (world.after attempts).records.ReadsBack := by
  induction attempts generalizing world with
  | nil => exact back
  | cons attempt rest ih =>
    have here := within attempt List.mem_cons_self
    have first := World.fresh_perform fresh
    have kept : (world.perform attempt).2.records.ReadsBack :=
      reached.sound.perform_keeps MemoryStore.ReadsBack here first
        (fun _ _ _ effect _ => effect.readsBack (stores attempt List.mem_cons_self) back) back
    exact ih (.perform reached attempt here first) kept
      (fun other member => within other (List.mem_cons_of_mem _ member))
      (fun other member => stores other (List.mem_cons_of_mem _ member)) fresh

def EngineCall.IsBounded {α : Type} : EngineCall α → Prop
  | tasksFor _ filter => ∀ limit, filter.limit = some limit → limit < 0x8000000000000000
  | _ => True

namespace World

variable {moments : Moments} {world : World} {α β : Type}

theorem fresh_run {program : Program α} (fresh : (run moments program world).2.drawn.Nodup) :
    world.drawn.Nodup := by
  obtain ⟨later, grown⟩ := @drawn_grows moments world _ program
  rw [grown] at fresh
  exact (List.nodup_append.mp fresh).2.1

theorem still_serve {call : StoreCall α} (reads : (world.records.answer call).2 = world.records) :
    Still world (world.serve moments (.store call)).2 := by
  simp only [serve, answer, callStore]
  split
  · exact ⟨rfl, rfl, rfl⟩
  · exact ⟨reads, rfl, rfl⟩

end World

namespace Operation.Plain

variable {moments : Moments} {world : World} {α β : Type}

theorem along_bind {operation : Operation α} {next : Except Failure α → Program β}
    {post : Except Failure α → World → Prop} (plain : Plain operation)
    (back : world.records.ReadsBack)
    (ends : Ends moments operation world post)
    (fresh : (run moments (operation.run.bind next) world).2.drawn.Nodup)
    (resume : ∀ result after, post result after → after.drawn.Nodup →
      Along moments (next result) after) :
    Along moments (operation.run.bind next) world := by
  rw [run_bind] at fresh
  exact (Program.Uses.along plain back).bind (resume _ _ ends (fresh_run fresh))

end Operation.Plain

section Calls

variable {moments : Moments} {world : World}

theorem define_along (within : ∀ n, (moments n).IsWhole) (back : world.records.ReadsBack)
    {definition : Definition} (kept : definition.ReadsBack)
    (fresh : (run moments (Engine.define definition).run world).2.drawn.Nodup) :
    Along moments (Engine.define definition).run world := by
  rw [Engine.define_eq, Engine.run_bind] at fresh ⊢
  refine (prepareDraft_plain definition).along_bind back (prepareDraft_ends within definition) fresh ?_
  intro result after ended _
  obtain ⟨still, told⟩ := ended
  cases result with
  | error failure => trivial
  | ok draft =>
    obtain ⟨valid, unnamed, unused, moment, whole, rfl⟩ := told
    rw [← still.records] at unnamed unused
    have recognized := Definition.recognized_of_isOk valid
    refine ⟨⟨kept.of_steps rfl, recognized, ⟨moment.now, rfl, whole⟩, unnamed, unused⟩, ?_⟩
    cases (after.serve moments (.store (.saveDefinition _))).1 with
    | error failure => trivial
    | ok _ => trivial

theorem activate_along (sound : Sound Moment.IsWhole world.records)
    (back : world.records.ReadsBack) (within : ∀ n, (moments n).IsWhole) (id : Uuid)
    (fresh : (run moments (Engine.activate id).run world).2.drawn.Nodup) :
    Along moments (Engine.activate id).run world := by
  rw [Engine.activate_eq, Engine.run_bind] at fresh ⊢
  refine (checkDraft_plain id).along_bind back (checkDraft_ends within id) fresh ?_
  intro result after ended _
  obtain ⟨still, _⟩ := ended
  cases result with
  | error failure => trivial
  | ok _ =>
    have distinct := sound.definitions
    rw [← still.records] at distinct
    refine ⟨distinct, ?_⟩
    cases (after.serve moments (.store (.transition id .draft .active))).1 with
    | error failure => trivial
    | ok switched => cases switched <;> trivial

theorem start_along (sound : world.Sound Moment.IsWhole) (back : world.records.ReadsBack)
    (within : ∀ n, (moments n).IsWhole) (id : Uuid) (data : Json.Members) (startedBy : String)
    (fresh : (run moments (Engine.start id data startedBy).run world).2.drawn.Nodup) :
    Along moments (Engine.start id data startedBy).run world := by
  rw [Engine.start_run] at fresh ⊢
  refine (prepareStart_plain id data startedBy).along_bind back
    (prepareStart_ends within id data startedBy) fresh ?_
  intro result after ended distinct
  obtain ⟨records, _, told⟩ := ended
  refine Engine.settleStart_commits.along fun changes prepared => ?_
  subst prepared
  obtain ⟨begun, rfl, ⟨moment, whole, dated⟩, drawn⟩ := told
  rw [drawn] at distinct
  rw [records]
  exact begun.lands (sound.accounted.fresh distinct) (dated ▸ whole)

theorem prepare_along (sound : world.Sound Moment.IsWhole) (stored : world.records.IsWhole)
    (back : world.records.ReadsBack) (within : ∀ n, (moments n).IsWhole) (id : Uuid)
    (data : Json.Members) (principal : String) (target : Uuid)
    (fresh : (run moments ((Engine.prepare id data principal).run.bind (Engine.settle target))
      world).2.drawn.Nodup) :
    Along moments ((Engine.prepare id data principal).run.bind (Engine.settle target)) world := by
  refine (prepare_plain id data principal).along_bind back (prepare_ends within id data principal)
    fresh ?_
  intro result after ended distinct
  obtain ⟨records, _, told⟩ := ended
  refine (Engine.settle_commits target).along fun changes prepared => ?_
  subst prepared
  obtain ⟨done, rfl, ⟨moment, whole, dated⟩, drawn⟩ := told
  rw [drawn] at distinct
  rw [records]
  exact done.lands (sound.accounted.fresh distinct) (dated ▸ whole) stored

theorem complete_along (sound : world.Sound Moment.IsWhole) (stored : world.records.IsWhole)
    (back : world.records.ReadsBack) (within : ∀ n, (moments n).IsWhole) (id : Uuid)
    (data : Json.Members) (principal : String)
    (fresh : (run moments (Engine.complete id data principal).run world).2.drawn.Nodup) :
    Along moments (Engine.complete id data principal).run world := by
  obtain ⟨next, begins, failed, missing, found⟩ := Engine.complete_run id data principal
  rw [begins] at fresh ⊢
  refine ⟨⟨trivial, trivial, back⟩, ?_⟩
  rw [run] at fresh
  have still : Still world (world.serve moments (.store (.loadTask id))).2 := still_serve rfl
  cases located : (world.serve moments (.store (.loadTask id))).1 with
  | error failure =>
    rw [failed]
    trivial
  | ok task =>
    cases task with
    | none =>
      rw [missing]
      trivial
    | some task =>
      rw [located, found] at fresh
      rw [found]
      refine ⟨trivial, prepare_along ⟨?_, ?_⟩ ?_ ?_ within id data principal task.instanceId fresh⟩
      · exact still.records ▸ sound.records
      · have accounted := sound.accounted
        rw [← still.records, ← still.drawn] at accounted
        exact accounted
      · exact still.records ▸ stored
      · exact still.records ▸ back

/-- Every request of a call is portable where the records are those of a history. -/
theorem call_along {α : Type} (sound : world.Sound Moment.IsWhole) (stored : world.records.IsWhole)
    (back : world.records.ReadsBack) (within : ∀ n, (moments n).IsWhole) (call : EngineCall α)
    (bounded : call.IsBounded) (stores : call.ReadsBack)
    (fresh : (run moments call.operation.run world).2.drawn.Nodup) :
    Along moments call.operation.run world := by
  cases call with
  | define definition => exact define_along within back stores fresh
  | activate id => exact activate_along sound.records back within id fresh
  | start id data startedBy => exact start_along sound back within id data startedBy fresh
  | complete id data principal => exact complete_along sound stored back within id data principal fresh
  | status id => exact Program.Uses.along (status_plain id) back
  | instancesFor principal => exact Program.Uses.along (instancesFor_plain principal) back
  | tasksFor principal filter =>
    have looks : Operation.Looks (Operation.store (.assignedTasks principal filter)) :=
      .store _ trivial bounded
    exact Program.Uses.along looks.plain back

end Calls

/-- A host with rows that show the records of a world, which has done the same otherwise. -/
structure Host.Reflects (host : Host) (world : World) : Prop where
  store : ∃ database, host.store = .relational database ∧ Mirrors world.records database
  asked : host.asked = world.asked
  drawn : host.drawn = world.drawn
  sent : host.sent = world.sent

namespace Host.Reflects

variable {moments : Moments} {host : Host} {world : World} {α : Type}

theorem serve (reflects : host.Reflects world) {operation : Request α}
    (portable : operation.Portable world.records) :
    (host.serve moments operation).1 = (world.serve moments operation).1 ∧
      (host.serve moments operation).2.Reflects (world.serve moments operation).2 := by
  obtain ⟨⟨database, stored, mirrors⟩, asked, drawn, sent⟩ := reflects
  have later : host.asked + 1 = world.asked + 1 := congrArg (· + 1) asked
  cases operation with
  | store call =>
    simp only [Host.serve, Host.answer, callStore, World.serve, World.answer, World.callStore, asked]
    cases (moments world.asked).fault with
    | some failure => exact ⟨rfl, ⟨database, stored, mirrors⟩, rfl, drawn, sent⟩
    | none =>
      obtain ⟨after, told, shown⟩ := mirrors.follows portable (moments world.asked).now
      simp only [stored, Store.answer, told]
      exact ⟨trivial, ⟨after, rfl, shown⟩, rfl, drawn, sent⟩
  | freshId =>
    simp only [Host.serve, Host.answer, World.serve, World.answer, asked, drawn]
    exact ⟨trivial, ⟨database, stored, mirrors⟩, rfl, rfl, sent⟩
  | notify assignments =>
    simp only [Host.serve, Host.answer, World.serve, World.answer, asked]
    exact ⟨trivial, ⟨database, stored, mirrors⟩, rfl, drawn, congrArg (· ++ assignments) sent⟩
  | acquire _ | leave _ | release _ => exact ⟨rfl, ⟨database, stored, mirrors⟩, later, drawn, sent⟩
  | _ =>
    simp only [Host.serve, Host.answer, World.serve, World.answer, asked]
    exact ⟨trivial, ⟨database, stored, mirrors⟩, rfl, drawn, sent⟩

theorem run {program : Program α} (reflects : host.Reflects world)
    (along : Along moments program world) :
    (Host.run moments program host).1 = (World.run moments program world).1 ∧
      (Host.run moments program host).2.Reflects (World.run moments program world).2 := by
  induction program generalizing host world with
  | done result => exact ⟨rfl, reflects⟩
  | request operation next ih =>
    obtain ⟨portable, rest⟩ := along
    obtain ⟨told, reflected⟩ : (host.serve moments operation).1 = _ ∧ _ := reflects.serve portable
    rw [Host.run, World.run, told]
    exact ih _ reflected rest

theorem empty : ({ store := .relational {} } : Host).Reflects {} :=
  ⟨⟨{}, rfl, .empty⟩, rfl, rfl, rfl⟩

theorem perform_along (reflects : host.Reflects world) {attempt : Attempt}
    (along : Along attempt.moments attempt.call.operation.run { world with asked := 0 }) :
    (host.perform attempt).1 = (world.perform attempt).1 ∧
      (host.perform attempt).2.Reflects (world.perform attempt).2 := by
  obtain ⟨store, _, drawn, sent⟩ := reflects
  have begun : { host with asked := 0 }.Reflects { world with asked := 0 } :=
    ⟨store, rfl, drawn, sent⟩
  exact begun.run along

theorem perform (reflects : host.Reflects world) (reached : Reachable Moment.IsWhole world)
    (back : world.records.ReadsBack) {attempt : Attempt} (within : attempt.Within Moment.IsWhole)
    (bounded : attempt.call.IsBounded) (stores : attempt.call.ReadsBack)
    (fresh : (world.perform attempt).2.drawn.Nodup) :
    (host.perform attempt).1 = (world.perform attempt).1 ∧
      (host.perform attempt).2.Reflects (world.perform attempt).2 := by
  obtain ⟨_, _, mirrors⟩ := reflects.store
  have sound : World.Sound Moment.IsWhole { world with asked := 0 } :=
    ⟨reached.sound.records, reached.sound.accounted⟩
  exact reflects.perform_along
    (call_along sound mirrors.whole back within attempt.call bounded stores fresh)

/-- An instance begins in both stores whatever its data is. -/
theorem perform_start (reflects : host.Reflects world) (reached : Reachable Moment.IsWhole world)
    (back : world.records.ReadsBack) (within : ∀ n, (moments n).IsWhole) (id : Uuid)
    (data : Json.Members) (startedBy : String)
    (fresh : (world.perform ⟨.start id data startedBy, moments⟩).2.drawn.Nodup) :
    (host.perform ⟨.start id data startedBy, moments⟩).2.Reflects
      (world.perform ⟨.start id data startedBy, moments⟩).2 := by
  have sound : World.Sound Moment.IsWhole { world with asked := 0 } :=
    ⟨reached.sound.records, reached.sound.accounted⟩
  exact (reflects.perform_along (start_along sound back within id data startedBy fresh)).2

/-- Calls one after another have the same results over the rows as over the records. -/
theorem results_eq (reflects : host.Reflects world) (reached : Reachable Moment.IsWhole world)
    (back : world.records.ReadsBack) {attempts : List Attempt}
    (within : ∀ attempt ∈ attempts, attempt.Within Moment.IsWhole)
    (bounded : ∀ attempt ∈ attempts, attempt.call.IsBounded)
    (stores : ∀ attempt ∈ attempts, attempt.call.ReadsBack)
    (fresh : (world.after attempts).drawn.Nodup) :
    host.results attempts = (ofWorld world).results attempts ∧
      (host.after attempts).Reflects (world.after attempts) := by
  induction attempts generalizing host world with
  | nil => exact ⟨rfl, reflects⟩
  | cons attempt rest ih =>
    have first := fresh_perform fresh
    have here := within attempt List.mem_cons_self
    have kept := stores attempt List.mem_cons_self
    obtain ⟨told, after⟩ :=
      reflects.perform reached back here (bounded attempt List.mem_cons_self) kept first
    have shown := @Reachable.readsBack _ _ reached back [attempt] (List.forall_mem_singleton.mpr here)
      (List.forall_mem_singleton.mpr kept) first
    obtain ⟨results, last⟩ := ih after (.perform reached attempt here first) shown
      (fun other member => within other (List.mem_cons_of_mem _ member))
      (fun other member => bounded other (List.mem_cons_of_mem _ member))
      (fun other member => stores other (List.mem_cons_of_mem _ member)) fresh
    refine ⟨?_, last⟩
    rw [Host.results, Host.results, perform_ofWorld, told, results]

/-- Rows show the records of a history from its beginning on. -/
theorem of_history {attempts : List Attempt}
    (measured : ∀ attempt ∈ attempts, attempt.Within Moment.IsWhole)
    (bounded : ∀ attempt ∈ attempts, attempt.call.IsBounded)
    (stores : ∀ attempt ∈ attempts, attempt.call.ReadsBack)
    (fresh : (({} : World).after attempts).drawn.Nodup) :
    (({ store := .relational {} } : Host).after attempts).Reflects (({} : World).after attempts) ∧
      Reachable Moment.IsWhole (({} : World).after attempts) ∧
      (({} : World).after attempts).records.ReadsBack :=
  ⟨(Host.Reflects.empty.results_eq .empty .empty measured bounded stores fresh).2,
    Reachable.empty.after attempts measured fresh,
    Reachable.empty.readsBack .empty measured stores fresh⟩

end Host.Reflects

/-- Calls that are served one after another return the same, failures included, and send the same
over a relational store as over records in memory, where the clock shows whole microseconds, no
identifier is drawn twice, and the definitions and the open data that are stored are read back from
the columns that they are kept in. -/
theorem stores_agree {attempts : List Attempt}
    (measured : ∀ attempt ∈ attempts, attempt.Within Moment.IsWhole)
    (bounded : ∀ attempt ∈ attempts, attempt.call.IsBounded)
    (stores : ∀ attempt ∈ attempts, attempt.call.ReadsBack)
    (fresh : (({ store := .memory {} } : Host).after attempts).drawn.Nodup) :
    ({ store := .relational {} } : Host).results attempts =
        ({ store := .memory {} } : Host).results attempts ∧
      (({ store := .relational {} } : Host).after attempts).sent =
        (({ store := .memory {} } : Host).after attempts).sent := by
  have memory : ({ store := .memory {} } : Host) = Host.ofWorld {} := rfl
  rw [memory, Host.after_ofWorld] at fresh ⊢
  obtain ⟨told, last⟩ :=
    Host.Reflects.empty.results_eq .empty .empty measured bounded stores fresh
  exact ⟨told, last.sent⟩

theorem calm_isWhole (first n : Nat) : (calm first n).IsWhole :=
  ⟨rfl, rfl⟩

/-- The graded article with an instance of it, whose first task is completed, then completed again
too late. -/
def gradedRounds : List Attempt := [
  ⟨.define gradedArticle, calm 10⟩,
  ⟨.activate gradedArticle.id, calm 20⟩,
  ⟨.start gradedArticle.id gradedInstance.data "ada", calm 30⟩,
  ⟨.complete gradedTask.id [("notes", .array [.string "short"])] "ada", calm 40⟩,
  ⟨.complete gradedTask.id [] "ada", calm 50⟩,
  ⟨.status gradedInstance.id, calm 60⟩,
  ⟨.tasksFor "bob" { limit := some 1 }, calm 70⟩]

theorem gradedArticle_readsBack : gradedArticle.ReadsBack where
  words := by decide
  document := by
    refine Definition.within_toJson.mpr ?_
    simp [gradedArticle, Definition.make, Transition.onlyWhen, Transition.ifNoneFires,
      Transition.always, Json.within_int]

theorem graded_rounds_agree :
    (({ store := .relational {} } : Host).results gradedRounds).map (fun round => round.2.isOk) =
        [true, true, true, true, false, true, true] ∧
      ({ store := .relational {} } : Host).results gradedRounds =
        ({ store := .memory {} } : Host).results gradedRounds ∧
      (({ store := .relational {} } : Host).after gradedRounds).sent =
        (({ store := .memory {} } : Host).after gradedRounds).sent := by
  have measured : ∀ attempt ∈ gradedRounds, attempt.Within Moment.IsWhole := by
    simp only [gradedRounds, List.forall_mem_cons]
    exact ⟨calm_isWhole 10, calm_isWhole 20, calm_isWhole 30, calm_isWhole 40, calm_isWhole 50,
      calm_isWhole 60, calm_isWhole 70, List.forall_mem_nil _⟩
  have bounded : ∀ attempt ∈ gradedRounds, attempt.call.IsBounded := by
    simp only [gradedRounds, List.forall_mem_cons]
    refine ⟨trivial, trivial, trivial, trivial, trivial, trivial, ?_, List.forall_mem_nil _⟩
    intro limit given
    cases given
    decide
  have stores : ∀ attempt ∈ gradedRounds, attempt.call.ReadsBack := by
    simp only [gradedRounds, List.forall_mem_cons]
    refine ⟨gradedArticle_readsBack, trivial, ?_, ?_, Json.empty_readsBack, trivial, trivial,
      List.forall_mem_nil _⟩
    · exact ⟨graded_data_sorted, by decide +kernel, by decide +kernel⟩
    · refine Json.within_object.mpr ⟨by simp, ?_⟩
      simp only [List.forall_mem_cons]
      refine ⟨Json.within_array.mpr ?_, List.forall_mem_nil _⟩
      simp [Json.within_string]
  obtain ⟨results, sent⟩ := stores_agree measured bounded stores (by decide +kernel)
  exact ⟨by rw [results]; decide +kernel, results, sent⟩

theorem Database.fetch_refused {α : Type} {statement : String} {database : Database}
    (healthy : database.faults = []) {query : Query α} {fetch : Tables → Except Failure α}
    {failure : Failure}
    (same : query = act statement 0 fun _ tables => (fetch tables).map (·, tables))
    (told : fetch database.tables = .error failure) : (query database).1 = .error failure := by
  simp only [same, act, healthy, strike, told]
  rfl

namespace Host

variable {host : Host} {moments : Moments} {id : Uuid}

theorem activate_fails {failure : Failure}
    (failed : ({ host with asked := 0 }.serve moments (.store (.loadDefinition id))).1 =
      .error failure) : (host.perform ⟨.activate id, moments⟩).1 = .error failure := by
  obtain ⟨next, loads, fails⟩ : ∃ next,
      (Engine.activate id).run = .request (.store (.loadDefinition id)) next ∧
        ∀ failure, next (.error failure) = .done (.error failure) := ⟨_, rfl, fun _ => rfl⟩
  change (run moments (Engine.activate id).run { host with asked := 0 }).1 = _
  rw [loads, run, failed, fails]
  rfl

theorem status_shows {target : Instance} {view : StatusView}
    (loaded : ({ host with asked := 0 }.serve moments (.store (.loadInstance id))).1 =
      .ok (some target)) (succeeded : (host.perform ⟨.status id, moments⟩).1 = .ok view) :
    view.target = target := by
  obtain ⟨next, loads, found⟩ : ∃ next,
      (Engine.status id).run = .request (.store (.loadInstance id)) next ∧
        ∃ last, next (.ok (some target)) = .request (.store (.tasksOf id)) last ∧
          (∀ failure, last (.error failure) = .done (.error failure)) ∧
          ∀ tasks, last (.ok tasks) = .done (.ok
            { target, pendingTasks := tasks.filter Task.isPending
              completedTasks := tasks.filter fun task => !task.isPending }) :=
    ⟨_, rfl, _, rfl, fun _ => rfl, fun _ => rfl⟩
  obtain ⟨last, asks, fails, shows⟩ := found
  change (run moments (Engine.status id).run { host with asked := 0 }).1 = _ at succeeded
  rw [loads, run, loaded, asks, run] at succeeded
  cases told : (({ host with asked := 0 }.serve moments (.store (.loadInstance id))).2.serve moments
      (.store (.tasksOf id))).1 with
  | error failure =>
    rw [told, fails] at succeeded
    cases succeeded
  | ok tasks =>
    rw [told, shows] at succeeded
    cases succeeded
    rfl

end Host

/-- The draft of an article whose notes are one level too deep for a reader. -/
def annotatedDraft : Definition :=
  { annotatedArticle 122 with createdAt := some .epoch }

def annotatedRounds : List Attempt := [
  ⟨.define (annotatedArticle 122), calm 10⟩,
  ⟨.activate annotatedDraft.id, calm 20⟩]

def annotatedFailure : Failure :=
  .database (.undecodable "body" (some "recursion limit exceeded"))

set_option maxRecDepth 20000 in
theorem annotated_draft_refused :
    decodeColumn "body" (Definition.read annotatedDraft.id) annotatedDraft.toJson.render =
      .error annotatedFailure := by
  have faithful : annotatedDraft.toJson.Faithful := by decide +kernel
  have unreadable : Definition.read annotatedDraft.id Json.format [] annotatedDraft.toJson.draft =
      .error .unreadable := rfl
  have fault : Json.parse annotatedDraft.toJson.render = .error .recursionLimit := by
    rw [Json.parse, Json.Draft.ofText_render faithful]
    rfl
  rw [decodeColumn, Json.readDocument, Json.Draft.ofText_render faithful]
  simp only [unreadable, bind, Except.bind, Except.mapError, refusal?, fault]
  rfl

theorem annotated_article_refused :
    ((({ store := .relational {} } : Host).perform ⟨.define (annotatedArticle 122), calm 10⟩).2.perform
      ⟨.activate annotatedDraft.id, calm 20⟩).1 = .error annotatedFailure := by
  let row := (DefinitionRow.ofDefinition .epoch annotatedDraft).encode
  have decoded : row.read = .error annotatedFailure := by
    rw [DefinitionRow.read, DefinitionRow.decode]
    change ((decodeColumn "body" (Definition.read annotatedDraft.id) annotatedDraft.toJson.render).bind
      _).bind _ = _
    rw [annotated_draft_refused]
    rfl
  have loaded : (Database.loadDefinition annotatedDraft.id { tables := { definitions := [row] } }).1 =
      .error annotatedFailure := by
    refine Database.fetch_refused rfl (Database.loadDefinition_act _) ?_
    change row.read.map some = _
    rw [decoded]
    rfl
  refine Host.activate_fails ?_
  have stored : (({ store := .relational {} } : Host).perform
      ⟨.define (annotatedArticle 122), calm 10⟩).2.store =
        .relational { tables := { definitions := [row] } } := rfl
  change ((({ store := .relational {} } : Host).perform
    ⟨.define (annotatedArticle 122), calm 10⟩).2.store.answer .epoch
      (.loadDefinition annotatedDraft.id)).1 = _
  rw [stored]
  exact loaded

/-- The double next to a third of 271, which is written as `90.33333333333333`. -/
def sharedDouble : Json.Number :=
  .real ⟨false, 6356643224048981, -46, by decide⟩

/-- The double as which its text is read. -/
def sharedOther : Json.Number :=
  .real ⟨false, 6356643224048980, -46, by decide⟩

def sharedBegins : List Attempt := [
  ⟨.define article, calm 10⟩,
  ⟨.activate article.id, calm 20⟩]

def sharedRounds : List Attempt :=
  sharedBegins ++ [
    ⟨.start article.id [("share", .number sharedDouble)] "ada", calm 30⟩,
    ⟨.status (Uuid.ofNat 32), calm 40⟩]

def sharedShelf : Host :=
  ((({ store := .relational {} } : Host).after sharedBegins).perform
    ⟨.start article.id [("share", .number sharedDouble)] "ada", calm 30⟩).2

def sharedWorld : World :=
  ((({} : World).after sharedBegins).perform
    ⟨.start article.id [("share", .number sharedDouble)] "ada", calm 30⟩).2

theorem article_readsBack : article.ReadsBack where
  words := by decide
  document := by
    refine Definition.within_toJson.mpr ?_
    simp [article, Definition.make, Transition.always]

theorem sharedShelf_reflects : sharedShelf.Reflects sharedWorld := by
  have measured : ∀ attempt ∈ sharedBegins, attempt.Within Moment.IsWhole := by
    simp only [sharedBegins, List.forall_mem_cons]
    exact ⟨calm_isWhole 10, calm_isWhole 20, List.forall_mem_nil _⟩
  have bounded : ∀ attempt ∈ sharedBegins, attempt.call.IsBounded := by
    simp only [sharedBegins, List.forall_mem_cons]
    exact ⟨trivial, trivial, List.forall_mem_nil _⟩
  have stores : ∀ attempt ∈ sharedBegins, attempt.call.ReadsBack := by
    simp only [sharedBegins, List.forall_mem_cons]
    exact ⟨article_readsBack, trivial, List.forall_mem_nil _⟩
  obtain ⟨begun, reached, back⟩ :=
    Host.Reflects.of_history measured bounded stores (by decide +kernel)
  have distinct : sharedWorld.drawn.Nodup := by decide +kernel
  exact begun.perform_start reached back (calm_isWhole 30) article.id _ "ada" distinct

theorem shared_article_reread {view : StatusView}
    (succeeded : (sharedShelf.perform ⟨.status (Uuid.ofNat 32), calm 40⟩).1 = .ok view) :
    view.target.data = [("share", .number sharedOther)] := by
  obtain ⟨database, stored, mirrors⟩ := sharedShelf_reflects.store
  obtain ⟨target, single, keyed, held⟩ : ∃ target, sharedWorld.records.instances = [target] ∧
      target.id = Uuid.ofNat 32 ∧ target.data = [("share", .number sharedDouble)] :=
    ⟨_, rfl, rfl, rfl⟩
  have rows := mirrors.instances
  rw [single] at rows
  obtain ⟨row, _, shown, none, alone⟩ := List.forall₂_cons_right_iff.mp rows
  cases none
  have read : row.read = .ok { target with data := [("share", .number sharedOther)] } := by
    refine shown.read_data ?_
    rw [held]
    exact decodeColumn_number "share" (by decide +kernel)
  have loaded : Database.loadInstance (Uuid.ofNat 32) database =
      (.ok (some { target with data := [("share", .number sharedOther)] }), database) := by
    refine mirrors.fetch_eq (Database.loadInstance_act _) ?_
    have same : row.id = Uuid.ofNat 32 := by
      rw [shown.1]
      exact keyed
    have found : [row].find? (fun row => row.id = Uuid.ofNat 32) = some row :=
      List.find?_cons_of_pos (decide_eq_true same)
    rw [alone, found, Option.mapM_some, read]
    rfl
  have told : ({ sharedShelf with asked := 0 }.serve (calm 40)
      (.store (.loadInstance (Uuid.ofNat 32)))).1 =
        .ok (some { target with data := [("share", .number sharedOther)] }) := by
    change (sharedShelf.store.answer .epoch (.loadInstance (Uuid.ofNat 32))).1 = _
    rw [stored]
    exact congrArg Prod.fst loaded
  rw [Host.status_shows told succeeded]

/-- Without regard to what is read back the stores do not agree. A relational store refuses the draft
of the annotated article, which records in memory activate, and it shows the shared double as
another one. -/
theorem stores_differ :
    (∀ attempt ∈ annotatedRounds ++ sharedRounds,
      attempt.Within Moment.IsWhole ∧ attempt.call.IsBounded) ∧
      (({ store := .memory {} } : Host).after annotatedRounds).drawn.Nodup ∧
      (({ store := .memory {} } : Host).after sharedRounds).drawn.Nodup ∧
      (({ store := .memory {} } : Host).results annotatedRounds).map (fun round => round.2.isOk) =
        [true, true] ∧
      (({ store := .relational {} } : Host).results annotatedRounds).map (fun round => round.2.isOk) =
        [true, false] ∧
      ({ store := .relational {} } : Host).results sharedRounds ≠
        ({ store := .memory {} } : Host).results sharedRounds := by
  refine ⟨?_, by decide +kernel, by decide +kernel, by decide +kernel, ?_, fun same => ?_⟩
  · simp only [annotatedRounds, sharedRounds, sharedBegins, List.cons_append, List.nil_append,
      List.forall_mem_cons]
    exact ⟨⟨calm_isWhole 10, trivial⟩, ⟨calm_isWhole 20, trivial⟩, ⟨calm_isWhole 10, trivial⟩,
      ⟨calm_isWhole 20, trivial⟩, ⟨calm_isWhole 30, trivial⟩, ⟨calm_isWhole 40, trivial⟩,
      List.forall_mem_nil _⟩
  · change [true, (((({ store := .relational {} } : Host).perform
      ⟨.define (annotatedArticle 122), calm 10⟩).2.perform
        ⟨.activate annotatedDraft.id, calm 20⟩).1).isOk] = _
    rw [annotated_article_refused]
    rfl
  · -- The last of the calls asks for the instance.
    have last := Option.some.inj (congrArg (·[3]?) same)
    have shown := eq_of_heq (Sigma.mk.inj last).2
    have reread : [("share", Json.number sharedDouble)] = [("share", .number sharedOther)] :=
      shared_article_reread shown
    cases reread

end Workflow
