import Workflow.Proofs.Retention

/-! What never changes again. A record that was stored stays stored with the fields that were fixed
when it was made, and a completed one stays as it is: writes go on from what is stored, and only
from what is still open. -/

namespace Workflow

structure Instance.Continues (old new : Instance) : Prop where
  id : new.id = old.id
  definitionId : new.definitionId = old.definitionId
  definitionVersion : new.definitionVersion = old.definitionVersion
  startedBy : new.startedBy = old.startedBy
  startedAt : new.startedAt = old.startedAt

structure Task.Continues (old new : Task) : Prop where
  id : new.id = old.id
  instanceId : new.instanceId = old.instanceId
  stepId : new.stepId = old.stepId
  assignee : new.assignee = old.assignee
  assignedRole : new.assignedRole = old.assignedRole
  priority : new.priority = old.priority
  dueAt : new.dueAt = old.dueAt
  createdAt : new.createdAt = old.createdAt

theorem Instance.Continues.refl (target : Instance) : target.Continues target :=
  ⟨rfl, rfl, rfl, rfl, rfl⟩

theorem Instance.Continues.trans {first middle last : Instance} (early : first.Continues middle)
    (late : middle.Continues last) : first.Continues last where
  id := late.id.trans early.id
  definitionId := late.definitionId.trans early.definitionId
  definitionVersion := late.definitionVersion.trans early.definitionVersion
  startedBy := late.startedBy.trans early.startedBy
  startedAt := late.startedAt.trans early.startedAt

theorem Task.Continues.refl (task : Task) : task.Continues task :=
  ⟨rfl, rfl, rfl, rfl, rfl, rfl, rfl, rfl⟩

theorem Task.Continues.trans {first middle last : Task} (early : first.Continues middle)
    (late : middle.Continues last) : first.Continues last where
  id := late.id.trans early.id
  instanceId := late.instanceId.trans early.instanceId
  stepId := late.stepId.trans early.stepId
  assignee := late.assignee.trans early.assignee
  assignedRole := late.assignedRole.trans early.assignedRole
  priority := late.priority.trans early.priority
  dueAt := late.dueAt.trans early.dueAt
  createdAt := late.createdAt.trans early.createdAt

theorem Instance.continues_withPending (target : Instance) (data : Json.Members)
    (steps : List String) (now : Timestamp) :
    target.Continues ({ target with data }.withPending steps now) := by
  unfold withPending
  split <;> exact ⟨rfl, rfl, rfl, rfl, rfl⟩

theorem Task.continues_complete (task : Task) (data : Json.Members) (principal : String)
    (now : Timestamp) : task.Continues (task.complete data principal now) :=
  ⟨rfl, rfl, rfl, rfl, rfl, rfl, rfl, rfl⟩

/-- What earlier records have in common with all later ones. -/
structure Endures (before after : MemoryStore) : Prop where
  instances : ∀ id old, before.instance? id = some old →
    ∃ new, after.instance? id = some new ∧ old.Continues new
  tasks : ∀ id old, before.task? id = some old →
    ∃ new, after.task? id = some new ∧ old.Continues new
  completedInstances : ∀ id old, before.instance? id = some old → old.status = .completed →
    after.instance? id = some old ∧ after.tasksOf id = before.tasksOf id
  completedTasks : ∀ id old, before.task? id = some old → old.status = .completed →
    after.task? id = some old

theorem Endures.of_eq {before after : MemoryStore} (instances : after.instances = before.instances)
    (tasks : after.tasks = before.tasks) : Endures before after where
  instances id old found := by
    rw [MemoryStore.instance?, instances]
    exact ⟨old, found, .refl old⟩
  tasks id old found := by
    rw [MemoryStore.task?, tasks]
    exact ⟨old, found, .refl old⟩
  completedInstances id old found _ := by
    rw [MemoryStore.instance?, instances, MemoryStore.tasksOf, tasks]
    exact ⟨found, rfl⟩
  completedTasks id old found _ := by
    rw [MemoryStore.task?, tasks]
    exact found

theorem Endures.trans {first middle last : MemoryStore} (early : Endures first middle)
    (late : Endures middle last) : Endures first last where
  instances id old found := by
    obtain ⟨new, stored, continues⟩ := early.instances id old found
    obtain ⟨newest, kept, further⟩ := late.instances id new stored
    exact ⟨newest, kept, continues.trans further⟩
  tasks id old found := by
    obtain ⟨new, stored, continues⟩ := early.tasks id old found
    obtain ⟨newest, kept, further⟩ := late.tasks id new stored
    exact ⟨newest, kept, continues.trans further⟩
  completedInstances id old found completed := by
    obtain ⟨stored, same⟩ := early.completedInstances id old found completed
    obtain ⟨kept, still⟩ := late.completedInstances id old stored completed
    exact ⟨kept, still.trans same⟩
  completedTasks id old found completed :=
    late.completedTasks id old (early.completedTasks id old found completed) completed

/-- Changes that go on from stored records, each of which is still open. -/
structure Carries (records : MemoryStore) (changes : ChangeSet) : Prop where
  confined : records.Confined changes
  target : ∀ old, records.instance? changes.target.id = some old →
    old.status = .running ∧ old.Continues changes.target
  tasks : ∀ task ∈ changes.tasks, ∀ old, records.task? task.id = some old →
    old.status = .pending ∧ old.Continues task

namespace Carries

variable {records : MemoryStore} {changes : ChangeSet}

theorem target_ne (carries : Carries records changes) {id : Uuid} {old : Instance}
    (found : records.instance? id = some old) (completed : old.status = .completed) :
    changes.target.id ≠ id := by
  intro same
  have running := (carries.target old (same ▸ found)).1
  cases running.symm.trans completed

theorem not_mem (carries : Carries records changes) {id : Uuid} {old : Task}
    (found : records.task? id = some old) (completed : old.status = .completed) :
    id ∉ changes.tasks.map (·.id) := by
  intro known
  obtain ⟨task, member, rfl⟩ := List.mem_map.mp known
  have pending := (carries.tasks task member old found).1
  cases pending.symm.trans completed

theorem endures (carries : Carries records changes) : Endures records (records.commit changes) where
  instances id old found := by
    rw [MemoryStore.instance?_commit]
    split
    next same => exact ⟨changes.target, rfl, (carries.target old (same ▸ found)).2⟩
    next => exact ⟨old, found, .refl old⟩
  tasks id old found := by
    obtain ⟨new, stored, written | same⟩ := MemoryStore.task?_commit changes found
    · have known : records.task? new.id = some old := MemoryStore.task?_id stored ▸ found
      exact ⟨new, stored, (carries.tasks new written old known).2⟩
    · exact ⟨new, stored, same ▸ .refl new⟩
  completedInstances id old found completed := by
    have other := carries.target_ne found completed
    refine ⟨?_, MemoryStore.tasksOf_commit_other carries.confined other⟩
    rw [MemoryStore.instance?_commit, if_neg other, found]
  completedTasks id old found completed := by
    rw [MemoryStore.task?_commit_other (carries.not_mem found completed), found]

end Carries

variable {permits : Moment → Prop} {records : MemoryStore}

theorem Beginning.carries {id : Uuid} {data : Json.Members} {startedBy : String}
    (begun : Beginning permits records id data startedBy)
    (fresh : Fresh records [begun.taskId, begun.id]) : Carries records begun.changes where
  confined := begun.confined fresh
  target _ found := nomatch (begun.unknown fresh).symm.trans found
  tasks task member old found := by
    rw [List.mem_singleton.mp member] at found
    have unused : records.task? begun.taskId = none :=
      find?_none_of_not_mem (fresh.tasks begun.taskId List.mem_cons_self)
    cases unused.symm.trans found

theorem Completion.carries {id : Uuid} {data : Json.Members} {principal : String}
    (done : Completion permits records id data principal) (fresh : Fresh records done.ids) :
    Carries records done.changes where
  confined := done.confined fresh
  target old found := by
    have housed := done.housed
    rw [← done.target_id, ← done.changes_id, found] at housed
    cases housed
    have running : done.target.status = .running := by
      cases status : done.target.status with
      | running => rfl
      | completed => simpa [Instance.isCompleted, status] using done.advances.running
    exact ⟨running, done.target.continues_withPending _ _ _⟩
  tasks := by
    refine done.forall_written ?_ ?_
    · intro old found
      have same : records.task? done.task.id = some old := found
      rw [done.task_id, done.found] at same
      cases same
      exact ⟨by simpa [Task.isPending] using done.advances.pending,
        done.task.continues_complete data principal done.now⟩
    · intro task member old found
      cases (find?_none_of_not_mem (done.created_new fresh member)).symm.trans found

theorem Effect.endures {α : Type} {call : EngineCall α} {value : α} {drawn : List Uuid}
    {after : MemoryStore} (effect : Effect permits records call value drawn after)
    (fresh : Fresh records drawn) : Endures records after := by
  cases effect with
  | read _ => exact .of_eq rfl rfl
  | defined _ _ _ => exact .of_eq rfl rfl
  | activated _ _ => exact .of_eq rfl rfl
  | begun begun => exact (begun.carries fresh).endures
  | completed done => exact (done.carries fresh).endures

namespace Reachable

variable {world : World} {attempts : List Attempt}

theorem endures (reached : Reachable permits world)
    (within : ∀ attempt ∈ attempts, attempt.Within permits)
    (fresh : (world.after attempts).drawn.Nodup) :
    Endures world.records (world.after attempts).records := by
  refine reached.keeps (Endures world.records) within fresh ?_ (.of_eq rfl rfl)
  intro records attempt value new after effect apart before
  exact before.trans (effect.endures apart)

end Reachable

end Workflow
