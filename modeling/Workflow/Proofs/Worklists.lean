import Workflow.Proofs.CompletionOutcome

/-! Where a principal has something to do. The list of the instances with pending tasks of a
principal is put together from a listing of tasks and one look at each instance; in a reachable world
every look finds a running instance, and the instances are in the order of their first such task. -/

namespace Workflow

open World

/-- The task waits for the principal to whom it is assigned. -/
def Task.isFor (principal : String) (task : Task) : Bool :=
  task.assignee = some principal && task.isPending

namespace MemoryStore

variable {records : MemoryStore} {principal : String}

/-- The place of the first task of an instance that waits for a principal, among all tasks in the
order of their creation. -/
def firstPlace (records : MemoryStore) (principal : String) (target : Uuid) : Nat :=
  records.tasks.findIdx fun task => task.isFor principal && task.instanceId == target

/-- The instances that the tasks waiting for a principal belong to, each at its first task. -/
def worklist (records : MemoryStore) (principal : String) : List Uuid :=
  ((records.tasks.filter (Task.isFor principal)).map (·.instanceId)).eraseDups

theorem assignedTasks_pending :
    records.assignedTasks principal .pending = records.tasks.filter (Task.isFor principal) := by
  unfold assignedTasks TaskFilter.pending TaskFilter.admits Task.isFor Task.isPending
  simp

theorem mem_worklist {id : Uuid} : id ∈ records.worklist principal ↔
    ∃ task ∈ records.tasks, task.isFor principal = true ∧ task.instanceId = id := by
  simp only [worklist, List.mem_eraseDups, List.mem_map, List.mem_filter, and_assoc]

end MemoryStore

/-- What is left of a list without repetitions is in the order of the first elements selected. -/
theorem eraseDups_ordered {α β : Type} [BEq β] [LawfulBEq β] (items : List α) (selects : α → Bool)
    (key : α → β) :
    ((items.filter selects).map key).eraseDups.Pairwise fun first second =>
      items.findIdx (fun item => selects item && key item == first) <
        items.findIdx fun item => selects item && key item == second := by
  induction items generalizing selects with
  | nil => exact .nil
  | cons item rest ih =>
    cases selected : selects item with
    | false =>
      rw [List.filter_cons_of_neg (by simp [selected])]
      refine (ih selects).imp fun less => ?_
      simpa [List.findIdx_cons, selected] using less
    | true =>
      -- The rest is searched for other keys only, which the first item is not selected for.
      let others (other : α) : Bool := selects other && !key other == key item
      have later : (((rest.filter selects).map key).filter fun other => !other == key item) =
          (rest.filter others).map key := by
        rw [List.filter_map, List.filter_filter]
        refine congrArg _ (List.filter_congr fun other _ => ?_)
        exact Bool.and_comm _ _
      rw [List.filter_cons_of_pos selected, List.map_cons, List.eraseDups_cons, later]
      have apart {wanted : β} (member : wanted ∈ ((rest.filter others).map key).eraseDups) :
          (item :: rest).findIdx (fun other => selects other && key other == wanted) =
            rest.findIdx (fun other => others other && key other == wanted) + 1 := by
        obtain ⟨known, kept, rfl⟩ := List.mem_map.mp (List.mem_eraseDups.mp member)
        have different : (key known == key item) = false := by
          simpa [others] using (Bool.and_eq_true_iff.mp (List.mem_filter.mp kept).2).2
        have alike (other : α) : (selects other && key other == key known) =
            (others other && key other == key known) := by
          by_cases same : key other = key known
          · simp [others, same, different]
          · simp [beq_eq_false_iff_ne.mpr same]
        rw [List.findIdx_cons, Bool.beq_comm (a := key item), different]
        simp only [Bool.and_false, cond_false, alike]
      refine List.pairwise_cons.mpr ⟨fun wanted member => ?_, ?_⟩
      · rw [apart member, List.findIdx_cons]
        simp [selected]
      · refine (ih others).imp_of_mem fun first second less => ?_
        rw [apart first, apart second]
        exact Nat.succ_lt_succ less

theorem World.Ends.stored {moments : Moments} {world : World} {α : Type}
    (healthy : ∀ n, (moments n).fault = none) (call : StoreCall α) :
    Ends moments (Operation.store call) world fun result after =>
      result = .ok (world.records.answer call).1 ∧ after.records = (world.records.answer call).2 := by
  apply Ends.attempt
  simp only [serve, answer, callStore, healthy]
  exact ⟨trivial, trivial⟩

variable {past : Moment → Prop} {moments : Moments} {world : World}

theorem loadInstances_finds (healthy : ∀ n, (moments n).fault = none) {ids : List Uuid}
    (known : ∀ id ∈ ids, (world.records.instance? id).isSome = true) :
    Ends moments (Engine.loadInstances ids) world fun result _ =>
      result = .ok (ids.filterMap world.records.instance?) := by
  induction ids generalizing world with
  | nil => exact Ends.pure rfl
  | cons id rest ih =>
    obtain ⟨here, others⟩ := List.forall_mem_cons.mp known
    obtain ⟨target, found⟩ := Option.isSome_iff_exists.mp here
    have loaded : Ends moments (Engine.loadInstance id) world fun result after =>
        result = .ok target ∧ after.records = world.records := by
      apply (Ends.stored healthy (.loadInstance id)).bind
      · rintro failure after ⟨impossible, -⟩
        cases impossible
      · rintro answer after ⟨same, records⟩
        cases same.trans (congrArg Except.ok found)
        exact Ends.pure ⟨rfl, records⟩
    apply loaded.bind
    · rintro failure after ⟨impossible, -⟩
      cases impossible
    rintro _ after ⟨same, records⟩
    cases same
    rw [← records] at others
    apply (ih others).bind
    · intro failure last impossible
      cases impossible
    · intro targets last listed
      cases listed
      refine Ends.pure ?_
      rw [List.filterMap_cons_some found, records]

/-- A list of instances in which a principal has something to do. -/
structure Lists (records : MemoryStore) (principal : String) (listed : List Instance) : Prop where
  once : (listed.map (·.id)).Nodup
  complete : ∀ target, target ∈ listed ↔ target ∈ records.instances ∧
    ∃ task ∈ records.tasks, task.isFor principal = true ∧ task.instanceId = target.id
  running : ∀ target ∈ listed, target.status = .running
  ordered : listed.Pairwise fun first second =>
    records.firstPlace principal first.id < records.firstPlace principal second.id

theorem Task.isPending_of_isFor {principal : String} {task : Task}
    (waits : task.isFor principal = true) : task.isPending = true :=
  (Bool.and_eq_true_iff.mp waits).2

namespace Sound

variable {records : MemoryStore}

theorem housed (sound : Sound past records) {task : Task} (stored : task ∈ records.tasks) :
    ∃ target, records.instance? task.instanceId = some target := by
  obtain ⟨target, _, _, _, _, housed, _⟩ := sound.placed task stored
  exact ⟨target, housed⟩

theorem worklist_known (sound : Sound past records) (principal : String) :
    ∀ id ∈ records.worklist principal, (records.instance? id).isSome = true := by
  intro id member
  obtain ⟨task, stored, _, rfl⟩ := MemoryStore.mem_worklist.mp member
  exact Option.isSome_iff_exists.mpr (sound.housed stored)

/-- The instances of the worklist are the ones in which a principal has something to do. -/
theorem lists (sound : Sound past records) (principal : String) :
    Lists records principal ((records.worklist principal).filterMap records.instance?) := by
  have ordered : ((records.worklist principal).filterMap records.instance?).Pairwise
      fun first second =>
        records.firstPlace principal first.id < records.firstPlace principal second.id := by
    refine List.pairwise_filterMap.mpr ?_
    refine (eraseDups_ordered records.tasks (Task.isFor principal) (·.instanceId)).imp ?_
    intro first second less target here other there
    rwa [MemoryStore.instance?_id here, MemoryStore.instance?_id there]
  refine ⟨?_, ?_, ?_, ordered⟩
  · refine List.pairwise_map.mpr (ordered.imp fun less same => ?_)
    rw [same] at less
    exact Nat.lt_irrefl _ less
  · intro target
    rw [List.mem_filterMap]
    constructor
    · rintro ⟨id, member, found⟩
      obtain ⟨task, stored, waits, rfl⟩ := MemoryStore.mem_worklist.mp member
      exact ⟨MemoryStore.mem_of_instance? found, task, stored, waits,
        (MemoryStore.instance?_id found).symm⟩
    · rintro ⟨present, task, stored, waits, same⟩
      exact ⟨target.id, MemoryStore.mem_worklist.mpr ⟨task, stored, waits, same⟩,
        find?_of_mem sound.instances present⟩
  · intro target member
    obtain ⟨id, listed, found⟩ := List.mem_filterMap.mp member
    obtain ⟨task, stored, waits, rfl⟩ := MemoryStore.mem_worklist.mp listed
    exact sound.running stored (Task.isPending_of_isFor waits) found

end Sound

theorem instancesFor_ends (sound : Sound past world.records)
    (healthy : ∀ n, (moments n).fault = none) (principal : String) :
    Ends moments (Engine.instancesFor principal) world fun result _ =>
      result = .ok ((world.records.worklist principal).filterMap world.records.instance?) := by
  apply (Ends.stored healthy (.assignedTasks principal .pending)).bind
  · rintro failure after ⟨impossible, -⟩
    cases impossible
  rintro tasks after ⟨same, records⟩
  have listed : tasks = world.records.tasks.filter (Task.isFor principal) :=
    (Except.ok.inj same).trans MemoryStore.assignedTasks_pending
  have records : after.records = world.records := records
  have known := sound.worklist_known principal
  rw [← records] at known
  have found := loadInstances_finds healthy known
  rw [records] at found
  rw [listed]
  exact found

/-- In a reachable world a principal is told of exactly the instances with a pending task of theirs,
each once and in the order of the first such task, and all of them are running. -/
theorem worklists_are_complete (reached : Reachable past world) (principal : String)
    (healthy : ∀ n, (moments n).fault = none) :
    ∃ listed, (world.perform ⟨.instancesFor principal, moments⟩).1 = .ok listed ∧
      Lists world.records principal listed := by
  have sound : Sound past { world with asked := 0 }.records := reached.sound.records
  exact ⟨_, instancesFor_ends sound healthy principal, sound.lists principal⟩

/-- A second article is begun before the first one goes on to two tasks, and a third one for
somebody else. -/
def articlesInHand : List Attempt :=
  articleBegins ++ [⟨.start article.id [] "ada", calm 50⟩, ⟨.start article.id [] "bob", calm 60⟩,
    ⟨.complete (Uuid.ofNat 33) [] "ada", calm 40⟩]

/-- The second article comes first, for the tasks of the first one are newer. -/
theorem articles_in_hand_listed :
    ∃ listed, ((({} : World).after articlesInHand).perform ⟨.instancesFor "ada", calm 70⟩).1 =
        .ok listed ∧ Lists (({} : World).after articlesInHand).records "ada" listed ∧
      listed.map (·.id) = [Uuid.ofNat 52, Uuid.ofNat 32] := by
  have reached : Reachable (fun _ => True) (({} : World).after articlesInHand) := by
    refine Reachable.empty.after articlesInHand ?_ (by decide)
    exact fun _ _ _ => trivial
  have told : ((({} : World).after articlesInHand).perform
      ⟨.instancesFor "ada", calm 70⟩).1.toOption.map (List.map (·.id)) =
        some [Uuid.ofNat 52, Uuid.ofNat 32] := by decide +kernel
  obtain ⟨listed, answered, lists⟩ :=
    @worklists_are_complete _ (calm 70) _ reached "ada" fun _ => rfl
  rw [answered] at told
  exact ⟨listed, answered, lists, Option.some.inj told⟩

end Workflow
