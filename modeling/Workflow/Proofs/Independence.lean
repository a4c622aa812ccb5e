import Workflow.Proofs.Replay

/-! Calls that concern different instances. Neither sees what the other one writes, so that they can
be exchanged; the order of all tasks may differ then, the order of the tasks of an instance does
not. -/

namespace Workflow

namespace MemoryStore

/-- Records with the same definitions and the same instances, each with the same tasks in the same
order. -/
structure Matches (records others : MemoryStore) : Prop where
  definitions : records.definitions = others.definitions
  instance? : ∀ id, records.instance? id = others.instance? id
  tasksOf : ∀ id, records.tasksOf id = others.tasksOf id

theorem Matches.refl (records : MemoryStore) : records.Matches records :=
  ⟨rfl, fun _ => rfl, fun _ => rfl⟩

variable {records : MemoryStore} {first last : ChangeSet}

theorem tasksOf_commit_behind (here : records.Confined last)
    (there : (records.commit first).Confined last) (confined : records.Confined first)
    (apart : first.target.id ≠ last.target.id) :
    ((records.commit first).commit last).tasksOf last.target.id =
      (records.commit last).tasksOf last.target.id := by
  rw [tasksOf_commit_own there, tasksOf_commit_other confined apart, tasksOf_commit_own here]

/-- Changes of different instances can be written in either order. -/
theorem commit_commit (early : records.Confined first) (late : (records.commit first).Confined last)
    (also : records.Confined last) (behind : (records.commit last).Confined first)
    (apart : first.target.id ≠ last.target.id) :
    ((records.commit first).commit last).Matches ((records.commit last).commit first) where
  definitions := by simp only [commit_definitions]
  instance? id := by
    simp only [instance?_commit]
    by_cases here : first.target.id = id
    · rw [if_pos here, if_neg fun there => apart (here.trans there.symm), if_pos here]
    · rw [if_neg here, if_neg here]
  tasksOf id := by
    by_cases here : first.target.id = id
    · subst here
      rw [tasksOf_commit_other late (Ne.symm apart),
        tasksOf_commit_behind early behind also (Ne.symm apart)]
    · rw [tasksOf_commit_other behind here]
      by_cases there : last.target.id = id
      · subst there
        rw [tasksOf_commit_behind also late early apart]
      · rw [tasksOf_commit_other late there, tasksOf_commit_other early here,
          tasksOf_commit_other also there]

end MemoryStore

def EngineCall.begun? {α : Type} : EngineCall α → α → Option Uuid
  | start .., id => some id
  | _, _ => none

theorem Writes.concerned {records : MemoryStore} {α : Type} {call : EngineCall α} {value : α}
    {ids : List Uuid} {changes : ChangeSet} (writes : Writes records call value ids changes) :
    (∃ id, call.task? = some id ∧ Houses records id changes.target.id) ∨
      call.begun? value = some changes.target.id := by
  cases writes with
  | begun begun => exact Or.inr rfl
  | completed done =>
    refine Or.inl ⟨_, rfl, done.task, done.found, ?_⟩
    rw [done.changes_id, done.target_id]

namespace World

/-- A call concerns the instance of the task that it is to complete, or the one that it begins. -/
def Concerns (world : World) (attempt : Attempt) (target : Uuid) : Prop :=
  (∃ id, attempt.call.task? = some id ∧ Houses world.records id target) ∨
    ∃ value, (world.perform attempt).1 = .ok value ∧ attempt.call.begun? value = some target

def Separate (world : World) (one two : Attempt) : Prop :=
  ∀ target, world.Concerns one target ∨ (world.perform two).2.Concerns one target →
    ¬ (world.Concerns two target ∨ (world.perform one).2.Concerns two target)

/-- Two calls have the same results in either order and leave the same behind. -/
structure Commutes (world : World) (one two : Attempt) : Prop where
  first : ((world.perform two).2.perform one).1 = (world.perform one).1
  second : ((world.perform one).2.perform two).1 = (world.perform two).1
  records : (world.after [one, two]).records.Matches (world.after [two, one]).records

/-- A call concerns one instance at most, and changes no definition, no other instance and no task of
another instance. -/
structure Confines (world : World) (attempt : Attempt) : Prop where
  single : ∀ target other, world.Concerns attempt target → world.Concerns attempt other →
    target = other
  definitions : (world.perform attempt).2.records.definitions = world.records.definitions
  others : ∀ target, ¬ world.Concerns attempt target →
    (world.perform attempt).2.records.instance? target = world.records.instance? target ∧
      (world.perform attempt).2.records.tasksOf target = world.records.tasksOf target

variable {permits : Moment → Prop} {world : World} {one two attempt : Attempt}

theorem Separate.symm (separate : world.Separate one two) : world.Separate two one :=
  fun target theirs ours => separate target ours theirs

theorem concerns_unique {target other : Uuid} (concerns : world.Concerns attempt target)
    (also : world.Concerns attempt other) : target = other := by
  obtain ⟨call, moments⟩ := attempt
  rcases concerns with ⟨id, same, houses⟩ | ⟨value, succeeded, begins⟩
  · rcases also with ⟨again, known, lives⟩ | ⟨_, _, begun⟩
    · cases same.symm.trans known
      exact houses.unique lives
    · cases call with
      | start _ _ _ => cases same
      | _ => cases begun
  · rcases also with ⟨again, known, _⟩ | ⟨answer, result, begun⟩
    · cases call with
      | start _ _ _ => cases known
      | _ => cases begins
    · cases succeeded.symm.trans result
      exact Option.some.inj (begins.symm.trans begun)

end World

namespace Yields

variable {permits : Moment → Prop} {world : World} {one two attempt : Attempt}
  {result : Except Failure attempt.Answer} {ids : List Uuid}

theorem concerns {changes : ChangeSet}
    (yields : Yields world.records attempt result ids (some changes)) :
    world.Concerns attempt changes.target.id := by
  obtain ⟨value, same, writes⟩ := yields.writes changes rfl
  exact writes.concerned.imp_right fun begins => ⟨value, yields.performed.1.trans same, begins⟩

theorem confined {changes : ChangeSet}
    (yields : Yields world.records attempt result ids (some changes)) (sound : world.Sound permits)
    (fresh : (ids ++ world.drawn).Nodup) : world.records.Confined changes := by
  obtain ⟨_, _, writes⟩ := yields.writes changes rfl
  exact (writes.carries (sound.accounted.fresh fresh)).confined

theorem confines {written : Option ChangeSet}
    (yields : Yields world.records attempt result ids written) (sound : world.Sound permits)
    (fresh : (ids ++ world.drawn).Nodup) : world.Confines attempt := by
  obtain ⟨_, _, stored⟩ := yields.performed
  refine ⟨fun _ _ => World.concerns_unique, ?_, fun target other => ?_⟩
  · rw [stored]
    cases written with
    | none => rfl
    | some changes => exact MemoryStore.commit_definitions changes
  · rw [stored]
    cases written with
    | none => exact ⟨rfl, rfl⟩
    | some changes =>
      have apart : changes.target.id ≠ target := fun same => other (same ▸ yields.concerns)
      exact ⟨(MemoryStore.instance?_commit _ _).trans (if_neg apart),
        MemoryStore.tasksOf_commit_other (yields.confined sound fresh) apart⟩

end Yields

section Pairs

variable {permits : Moment → Prop} {world : World} {one two : Attempt}
  {result : Except Failure one.Answer} {ids : List Uuid} {written : Option ChangeSet}

/-- To a call it makes no difference whether one that concerns a different instance has come before
it. -/
theorem World.Separate.alike (separate : world.Separate one two) (sound : world.Sound permits)
    (yields : Yields world.records one result ids written) (fresh : (ids ++ world.drawn).Nodup) :
    Alike two.call world.records (world.perform one).2.records := by
  obtain ⟨_, _, stored⟩ := yields.performed
  cases written with
  | none => exact stored ▸ .refl two.call world.records
  | some changes =>
    replace stored : (world.perform one).2.records = world.records.commit changes := stored
    have confined := yields.confined sound fresh
    have home (id target : Uuid) (same : two.call.task? = some id)
        (houses : Houses world.records id target) :
        Agrees id target world.records (world.records.commit changes) := by
      refine (Agrees.refl id target world.records).commit confined houses fun equal => ?_
      exact separate target (Or.inl (equal ▸ yields.concerns)) (Or.inl (Or.inl ⟨id, same, houses⟩))
    rw [stored]
    refine ⟨MemoryStore.commit_definitions changes, fun id same => ?_, home⟩
    cases found : world.records.task? id with
    | some task => exact found ▸ (home id task.instanceId same ⟨task, found, rfl⟩).task?
    | none =>
      cases later : (world.records.commit changes).task? id with
      | none => rfl
      | some task =>
        -- A task that the first call makes would belong to the instance that it concerns.
        rcases MemoryStore.mem_commit_tasks (MemoryStore.mem_of_task? later) with new | old
        · refine absurd (Or.inr (Or.inl ⟨id, same, ?_⟩))
            (separate changes.target.id (Or.inl yields.concerns))
          rw [stored]
          exact ⟨task, later, confined.own task new⟩
        · have known := find?_of_mem sound.records.tasks old
          rw [MemoryStore.task?_id later] at known
          cases found.symm.trans known

/-- What two calls write is the same in either order. -/
theorem World.Separate.matches (separate : world.Separate one two)
    (sound : world.Sound fun _ => True) {answer : Except Failure two.Answer} {drawn : List Uuid}
    {last : Option ChangeSet} (here : Yields world.records one result ids written)
    (there : Yields world.records two answer drawn last)
    (behind : Yields (world.perform one).2.records two answer drawn last)
    (ahead : Yields (world.perform two).2.records one result ids written)
    (fresh : (drawn ++ (ids ++ world.drawn)).Nodup) :
    ((world.records.write written).write last).Matches
      ((world.records.write last).write written) := by
  obtain ⟨_, firstDrawn, firstStored⟩ := here.performed
  obtain ⟨_, lastDrawn, lastStored⟩ := there.performed
  have swapped : (ids ++ (drawn ++ world.drawn)).Nodup :=
    List.perm_append_comm_assoc drawn ids world.drawn |>.nodup_iff.mp fresh
  have early : (ids ++ world.drawn).Nodup := (List.nodup_append.mp fresh).2.1
  have late : (drawn ++ world.drawn).Nodup := (List.nodup_append.mp swapped).2.1
  cases written with
  | none => exact .refl _
  | some first =>
    cases last with
    | none => exact .refl _
    | some last =>
      have apart : first.target.id ≠ last.target.id := by
        intro same
        exact separate _ (Or.inl here.concerns) (Or.inl (same ▸ there.concerns))
      have afterFirst := sound.perform one (fun _ => trivial) (firstDrawn ▸ early)
      have afterLast := sound.perform two (fun _ => trivial) (lastDrawn ▸ late)
      have lastBehind := behind.confined afterFirst (firstDrawn ▸ fresh)
      have firstBehind := ahead.confined afterLast (lastDrawn ▸ swapped)
      rw [firstStored] at lastBehind
      rw [lastStored] at firstBehind
      exact MemoryStore.commit_commit (here.confined sound early) lastBehind
        (there.confined sound late) firstBehind apart

end Pairs

/-- Starts and completions that concern different instances can be exchanged, and none of them
changes anything but its instance. -/
theorem separate_calls_commute {permits : Moment → Prop} {world : World}
    (reached : Reachable permits world) {one two : Attempt} (moves : one.call.Moves)
    (also : two.call.Moves) (fresh : (world.after [one, two]).drawn.Nodup)
    (separate : world.Separate one two) :
    world.Commutes one two ∧ world.Confines one ∧ world.Confines two := by
  have sound := (reached.mono fun _ _ => trivial : Reachable (fun _ => True) world).sound
  obtain ⟨result, ids, written, first⟩ := alike_yields moves world.records
  obtain ⟨answer, drawn, last, second⟩ := alike_yields also world.records
  have here := first world.records (.refl _ _)
  have there := second world.records (.refl _ _)
  obtain ⟨ran, grown, stored⟩ := here.performed
  obtain ⟨replied, added, kept⟩ := there.performed
  have early : (ids ++ world.drawn).Nodup := grown ▸ World.fresh_perform fresh
  have behind := second _ (separate.alike sound here early)
  have all : (world.after [one, two]).drawn = drawn ++ (ids ++ world.drawn) :=
    behind.performed.2.1.trans (congrArg (drawn ++ ·) grown)
  rw [all] at fresh
  have late : (drawn ++ world.drawn).Nodup :=
    fresh.sublist ((List.sublist_append_right ids world.drawn).append_left drawn)
  have ahead := first _ (separate.symm.alike sound there late)
  refine ⟨⟨ahead.performed.1.trans ran.symm, behind.performed.1.trans replied.symm, ?_⟩,
    here.confines sound early, there.confines sound late⟩
  have forwards : (world.after [one, two]).records = (world.records.write written).write last :=
    behind.performed.2.2.trans (congrArg (·.write last) stored)
  have backwards : (world.after [two, one]).records = (world.records.write last).write written :=
    ahead.performed.2.2.trans (congrArg (·.write written) kept)
  rw [forwards, backwards]
  exact separate.matches sound here there behind ahead fresh

theorem World.concerns_complete {world : World} {id target : Uuid} {data : Json.Members}
    {principal : String} {moments : Moments} :
    world.Concerns ⟨.complete id data principal, moments⟩ target ↔
      Houses world.records id target := by
  constructor
  · intro concerns
    rcases concerns with ⟨_, same, houses⟩ | ⟨_, _, impossible⟩
    · cases same
      exact houses
    · cases impossible
  · intro houses
    exact Or.inl ⟨id, rfl, houses⟩

def articlePair : World :=
  ({} : World).after (articleBegins ++ [⟨.start article.id [] "bob", calm 50⟩])

def firstWritten : Attempt :=
  ⟨.complete (Uuid.ofNat 33) [] "ada", calm 40⟩

def secondWritten : Attempt :=
  ⟨.complete (Uuid.ofNat 53) [] "bob", calm 70⟩

/-- Which article is written first shows in the order of all tasks and in nothing else. -/
theorem article_pair_commutes :
    (articlePair.after [firstWritten, secondWritten]).records.tasks.map (·.id) =
        [33, 53, 48, 49, 78, 79].map Uuid.ofNat ∧
      (articlePair.after [secondWritten, firstWritten]).records.tasks.map (·.id) =
        [33, 53, 78, 79, 48, 49].map Uuid.ofNat ∧
      articlePair.Commutes firstWritten secondWritten ∧ articlePair.Confines firstWritten ∧
      articlePair.Confines secondWritten := by
  have reached : Reachable (fun _ => True) articlePair :=
    Reachable.empty.after _ (fun _ _ _ => trivial) (by decide +kernel)
  have lives {records : MemoryStore} {id home target : Uuid}
      (stored : (records.task? id).map (·.instanceId) = some home)
      (houses : Houses records id target) : home = target := by
    obtain ⟨task, found, same⟩ := houses
    rw [found] at stored
    exact (Option.some.inj stored).symm.trans same
  have first {target : Uuid} (concerns : articlePair.Concerns firstWritten target ∨
      (articlePair.perform secondWritten).2.Concerns firstWritten target) :
      Uuid.ofNat 32 = target := by
    rcases concerns with now | later
    · exact lives (by decide +kernel) (World.concerns_complete.mp now)
    · exact lives (by decide +kernel) (World.concerns_complete.mp later)
  have second {target : Uuid} (concerns : articlePair.Concerns secondWritten target ∨
      (articlePair.perform firstWritten).2.Concerns secondWritten target) :
      Uuid.ofNat 52 = target := by
    rcases concerns with now | later
    · exact lives (by decide +kernel) (World.concerns_complete.mp now)
    · exact lives (by decide +kernel) (World.concerns_complete.mp later)
  have separate : articlePair.Separate firstWritten secondWritten := by
    intro target ours theirs
    have same := (first ours).trans (second theirs).symm
    revert same
    decide
  refine ⟨by decide +kernel, by decide +kernel, ?_⟩
  exact separate_calls_commute reached trivial trivial (by decide +kernel) separate

end Workflow
