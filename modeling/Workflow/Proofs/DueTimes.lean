import Workflow.Proofs.Branching
import Workflow.Timestamp.Text

/-! When new tasks are due. The seconds of a step become a signed word, then a span, and then a time;
a word and a span hold more seconds than any two times are apart, so that only the last of the three
conversions ever leaves a task without a due time. -/

namespace Workflow

open World

namespace Timestamp

/-- Nanoseconds since 1970, which put times that are not in a leap second in order. -/
def instant (time : Timestamp) : Int :=
  time.seconds * 1_000_000_000 + time.nanos

def last : Timestamp :=
  ⟨lastSecond, 999_999_999, by decide⟩

example : last.text = "+262142-12-31T23:59:59.999999999Z" := by decide +kernel

theorem nanos_lt {time : Timestamp} (ordinary : time.isLeap = false) :
    time.nanos < 1_000_000_000 := by
  simpa [isLeap] using ordinary

theorem instant_le_last {time : Timestamp} (ordinary : time.isLeap = false) (seconds : Nat) :
    time.instant + seconds * 1_000_000_000 ≤ last.instant ↔ time.seconds + seconds ≤ lastSecond := by
  have below := nanos_lt ordinary
  simp only [instant, last]
  omega

end Timestamp

theorem span_seconds {word : Nat} {span : Span}
    (made : (signedWord? word).bind Span.ofSeconds? = some span) : span.seconds = word := by
  obtain ⟨seconds, fits, made⟩ := Option.bind_eq_some_iff.mp made
  unfold signedWord? at fits
  unfold Span.ofSeconds? at made
  split at fits
  · split at made
    · cases fits
      cases made
      rfl
    · cases made
  · cases fits

/-- A span can be as long as any two times are apart. -/
theorem span_reaches {word : Nat} (near : (word : Int) ≤ Timestamp.lastSecond - Timestamp.firstSecond) :
    ∃ span, (signedWord? word).bind Span.ofSeconds? = some span := by
  unfold Timestamp.lastSecond Timestamp.firstSecond at near
  have fits : word < 0x8000000000000000 := by omega
  have bounded : (word : Int).natAbs * 1000 < 0x8000000000000000 := by omega
  exact ⟨⟨word, bounded⟩, by simp only [signedWord?, if_pos fits, Option.bind_some,
    Span.ofSeconds?, dif_pos bounded]⟩

variable {now : Timestamp} {step : Step}

/-- Outside leap seconds a task is due when the seconds of its step have passed, to the nanosecond,
if there is such a time. -/
theorem dueAt_eq_some (ordinary : now.isLeap = false) {seconds : Nat}
    (given : step.dueInSeconds = some seconds) {due : Timestamp} :
    step.dueAt now = some due ↔ due.seconds = now.seconds + seconds ∧ due.nanos = now.nanos := by
  rw [Step.dueAt, given, Option.bind_some, Option.bind_eq_some_iff]
  constructor
  · rintro ⟨span, made, reached⟩
    rw [Timestamp.add?_eq ordinary, span_seconds made] at reached
    exact Timestamp.make?_eq_some.mp reached
  · intro same
    have near : (seconds : Int) ≤ Timestamp.lastSecond - Timestamp.firstSecond := by
      have late := due.valid.2.1
      have early := now.valid.1
      omega
    obtain ⟨span, made⟩ := span_reaches near
    refine ⟨span, made, ?_⟩
    rw [Timestamp.add?_eq ordinary, span_seconds made]
    exact Timestamp.make?_eq_some.mpr same

theorem dueAt_isSome (ordinary : now.isLeap = false) {seconds : Nat}
    (given : step.dueInSeconds = some seconds) :
    (step.dueAt now).isSome = true ↔
      now.instant + seconds * 1_000_000_000 ≤ Timestamp.last.instant := by
  rw [Timestamp.instant_le_last ordinary, Option.isSome_iff_exists]
  simp only [dueAt_eq_some ordinary given]
  constructor
  · rintro ⟨due, same, _⟩
    rw [← same]
    exact due.valid.2.1
  · intro soon
    have early := now.valid.1
    have valid : Timestamp.Valid (now.seconds + seconds) now.nanos :=
      ⟨by omega, soon, Or.inl (Timestamp.nanos_lt ordinary)⟩
    exact ⟨⟨_, _, valid⟩, rfl, rfl⟩

/-- What is due some seconds from now: at that very time, if there is such a time. -/
structure DueAfter (now : Timestamp) (seconds : Nat) (due : Option Timestamp) : Prop where
  exact : ∀ time, due = some time →
    time.isLeap = false ∧ time.instant = now.instant + seconds * 1_000_000_000
  present : due.isSome = true ↔ now.instant + seconds * 1_000_000_000 ≤ Timestamp.last.instant
  absent : due = none ↔ Timestamp.last.instant < now.instant + seconds * 1_000_000_000

theorem dueAt_dueAfter (ordinary : now.isLeap = false) {seconds : Nat}
    (given : step.dueInSeconds = some seconds) : DueAfter now seconds (step.dueAt now) where
  exact time due := by
    obtain ⟨sameSeconds, sameNanos⟩ := (dueAt_eq_some ordinary given).mp due
    unfold Timestamp.isLeap Timestamp.instant at *
    rw [sameSeconds, sameNanos]
    exact ⟨ordinary, by omega⟩
  present := dueAt_isSome ordinary given
  absent := by
    rw [← Int.not_le, ← dueAt_isSome ordinary given, Option.not_isSome_iff_eq_none]

namespace DueAfter

variable {seconds more : Nat} {due other : Option Timestamp}

theorem not_before (after : DueAfter now seconds due) {time : Timestamp} (same : due = some time) :
    now.instant ≤ time.instant := by
  have exact := (after.exact time same).2
  omega

/-- With fewer seconds there is a due time as well, and it is not later. -/
theorem mono (soon : DueAfter now seconds due) (late : DueAfter now more other)
    (fewer : seconds ≤ more) {last : Timestamp} (same : other = some last) :
    ∃ first, due = some first ∧ first.instant ≤ last.instant := by
  have within := late.present.mp (by rw [same]; rfl)
  have sooner : now.instant + seconds * 1_000_000_000 ≤ Timestamp.last.instant := by omega
  obtain ⟨first, found⟩ := Option.isSome_iff_exists.mp (soon.present.mpr sooner)
  refine ⟨first, found, ?_⟩
  have here := (soon.exact first found).2
  have there := (late.exact last same).2
  omega

end DueAfter

/-- A task that is made for a step, whatever the directory answers on the way. -/
def Makes (target : Instance) (step : Step) (acting : String) (now : Timestamp) (task : Task) :
    Prop :=
  ∃ moments world, (run moments (Engine.createTask target step acting now).run world).1 = .ok task

theorem Makes.eq {target : Instance} {acting : String} {task : Task}
    (makes : Makes target step acting now task) :
    ∃ assignment, task = Task.make task.id target step assignment now := by
  obtain ⟨moments, world, made⟩ := makes
  have consults : Operation.Consults (fun _ => True) world.drawn _ _ :=
    createTask_consults target step acting now
  obtain ⟨_, _, told⟩ := @Operation.Consults.ends _ _ _ _ moments _ consults fun _ => trivial
  rw [made] at told
  obtain ⟨_, assignment, _, same⟩ := told
  exact ⟨assignment, same⟩

theorem Makes.due {target : Instance} {acting : String} {task : Task}
    (makes : Makes target step acting now task) :
    task.createdAt = now ∧ task.dueAt = step.dueAt now := by
  obtain ⟨assignment, same⟩ := makes.eq
  rw [same]
  exact ⟨rfl, rfl⟩

/-- A task that is made outside leap seconds is due exactly when the seconds of its step have passed,
if that time can be represented, and has no due time otherwise. No number of seconds keeps it from
being made; it is never due before it is made, nor later than it would be with more seconds. -/
theorem due_times_are_exact (ordinary : now.isLeap = false) (target : Instance) (step : Step)
    (acting : String) (seconds : Nat) :
    (∀ moments world, (∀ n, (moments n).Lists) → ∃ task,
      (run moments (Engine.createTask target { step with dueInSeconds := some seconds } acting
        now).run world).1 = .ok task) ∧
    ∀ task, Makes target { step with dueInSeconds := some seconds } acting now task →
      task.createdAt = now ∧ DueAfter now seconds task.dueAt ∧
      (∀ due, task.dueAt = some due → task.createdAt.instant ≤ due.instant) ∧
      ∀ more other, seconds ≤ more →
        Makes target { step with dueInSeconds := some more } acting now other →
        ∀ late, other.dueAt = some late →
          ∃ soon, task.dueAt = some soon ∧ soon.instant ≤ late.instant := by
  refine ⟨fun moments world lists => ?_, fun task makes => ?_⟩
  · obtain ⟨_, _, succeeds⟩ := @Operation.Consults.ends _ _ _ _ moments world
      (createTask_succeeds target { step with dueInSeconds := some seconds } acting now) lists
    exact succeeds
  obtain ⟨created, due⟩ := makes.due
  have after : DueAfter now seconds task.dueAt := due ▸ dueAt_dueAfter ordinary rfl
  refine ⟨created, after, fun time same => created ▸ after.not_before same, ?_⟩
  intro more other fewer also late same
  have later : DueAfter now more other.dueAt := also.due.2 ▸ dueAt_dueAfter ordinary rfl
  exact after.mono later fewer same

/-- An article that is due at the last second of all is due then, and one second more is too many. -/
theorem article_due_at_last : Timestamp.epoch.isLeap = false ∧ ∃ task,
    (run (calm 40) (Engine.createTask circulated
      { id := "write", kind := .task, dueInSeconds := some 8210266876799 } "ada" .epoch).run {}).1 =
        .ok task ∧
    DueAfter .epoch 8210266876799 task.dueAt ∧ task.dueAt.isSome = true ∧
    ∃ other, Makes circulated
        { id := "write", kind := .task, dueInSeconds := some 8210266876800 } "ada" .epoch other ∧
      DueAfter .epoch 8210266876800 other.dueAt ∧ other.dueAt = none := by
  have exact (seconds : Nat) := @due_times_are_exact .epoch rfl circulated
    { id := "write", kind := .task } "ada" seconds
  obtain ⟨task, made⟩ := (exact 8210266876799).1 (calm 40) {} fun _ _ => ⟨_, rfl⟩
  obtain ⟨other, also⟩ := (exact 8210266876800).1 (calm 40) {} fun _ _ => ⟨_, rfl⟩
  have within := ((exact 8210266876799).2 task ⟨_, _, made⟩).2.1
  have beyond := ((exact 8210266876800).2 other ⟨_, _, also⟩).2.1
  exact ⟨rfl, task, made, within, within.present.mpr (by decide), other, ⟨_, _, also⟩, beyond,
    beyond.absent.mpr (by decide)⟩

end Workflow
