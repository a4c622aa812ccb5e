import Workflow.Proofs.Announcements
import Workflow.Proofs.Rollback

/-! What becomes of messages makes no difference. Whoever runs the same calls at moments that differ
in nothing else gets the same results and the same records, whatever the store is and however the
calls run beside each other. The attempts to tell somebody are the same as well: a call that fails
makes none, and one that succeeds makes one for each new task that has an assignee. -/

namespace Workflow

namespace Request

def IsTelling {α : Type} : Request α → Prop
  | notify _ => True
  | _ => False

variable {α : Type} {operation : Request α}

theorem IsQuiet.other (quiet : operation.IsQuiet) : ¬ operation.IsTelling := by
  cases operation with
  | notify _ => exact quiet.elim
  | _ => exact not_false

theorem GivesBack.other (gives : operation.GivesBack) : ¬ operation.IsTelling := by
  cases operation with
  | leave _ | release _ => exact not_false
  | _ => exact gives.elim

end Request

namespace Program

/-- A program that goes on in the same way whatever becomes of its messages. -/
inductive Heedless {α : Type} : Program α → Prop where
  | done (result : α) : Heedless (.done result)
  | notify (assignments : List TaskAssignment) {rest : Program α} (resume : Heedless rest) :
      Heedless (.request (.notify assignments) fun _ => rest)
  | request {β : Type} {operation : Request β} {next : β → Program α}
      (other : ¬ operation.IsTelling) (resume : ∀ answer, Heedless (next answer)) :
      Heedless (.request operation next)

variable {α : Type} {program : Program α}

theorem Tells.heedless {result : α} {told : List TaskAssignment}
    (tells : program.Tells result told) : program.Heedless := by
  induction tells with
  | done => exact .done _
  | back gives _ ih => exact .request gives.other ih
  | notify now _ ih => exact .notify now ih

theorem Announces.heedless {call : EngineCall α} {program : Program (Except Failure α)}
    (announces : program.Announces call) : program.Heedless := by
  induction announces with
  | failed failure => exact .done _
  | silent value _ => exact .done _
  | request quiet _ _ ih => exact .request quiet.other ih
  | commit failed tells _ ih =>
    refine .request not_false fun answer => ?_
    cases answer with
    | error failure => exact ih failure
    | ok _ => exact tells.heedless

theorem Heedless.resume {β : Type} {operation : Request β} {next : β → Program α}
    (heedless : (Program.request operation next).Heedless) (answer : β) : (next answer).Heedless := by
  cases heedless with
  | notify _ rest => exact rest
  | request _ rest => exact rest answer

end Program

theorem call_heedless {α : Type} (call : EngineCall α) : call.operation.run.Heedless :=
  (call_announces call).heedless

def Moment.heard (moment : Moment) : Moment :=
  { moment with delivery := fun _ => .ok () }

def Attempt.heard (attempt : Attempt) : Attempt :=
  { attempt with moments := fun n => (attempt.moments n).heard }

namespace Host

variable {α : Type} {moments : Moments} {host : Host}

theorem serve_heard {operation : Request α} (other : ¬ operation.IsTelling) :
    host.serve (fun n => (moments n).heard) operation = host.serve moments operation := by
  cases operation with
  | notify _ => exact absurd trivial other
  | _ => rfl

theorem run_heard {program : Program α} (heedless : program.Heedless) :
    run (fun n => (moments n).heard) program host = run moments program host := by
  induction heedless generalizing host with
  | done result => rfl
  | notify assignments _ ih => exact ih
  | request other _ ih => rw [run, run, serve_heard other, ih]

theorem perform_heard (attempt : Attempt) : host.perform attempt.heard = host.perform attempt :=
  run_heard (call_heedless attempt.call)

theorem after_heard (attempts : List Attempt) :
    host.after (attempts.map Attempt.heard) = host.after attempts := by
  induction attempts generalizing host with
  | nil => rfl
  | cons attempt rest ih =>
    change (host.perform attempt.heard).2.after _ = (host.perform attempt).2.after rest
    rw [perform_heard]
    exact ih

theorem results_heard (attempts : List Attempt) :
    host.results (attempts.map Attempt.heard) =
      (host.results attempts).map fun served => ⟨served.1.heard, served.2⟩ := by
  induction attempts generalizing host with
  | nil => rfl
  | cons attempt rest ih =>
    rw [List.map_cons, results, perform_heard, ih]
    rfl

theorem sent_serve {operation : Request α} (other : ¬ operation.IsTelling) :
    (host.serve moments operation).2.sent = host.sent := by
  cases operation with
  | store call =>
    simp only [serve, answer, callStore]
    split <;> rfl
  | notify _ => exact absurd trivial other
  | _ => rfl

/-- What follows the writing leaves the store alone. -/
theorem run_tells {program : Program α} {result : α} {told : List TaskAssignment}
    (tells : program.Tells result told) :
    (run moments program host).1 = result ∧
      (run moments program host).2.store = host.store ∧
      (run moments program host).2.sent = host.sent ++ told := by
  induction tells generalizing host with
  | done => exact ⟨rfl, rfl, (List.append_nil _).symm⟩
  | @back _ _ operation _ gives _ ih =>
    have same : (host.serve moments operation).2.store = host.store := by
      cases operation with
      | leave _ | release _ => rfl
      | _ => exact gives.elim
    obtain ⟨ended, store, sent⟩ := @ih (host.serve moments operation).1
      (host.serve moments operation).2
    refine ⟨ended, store.trans same, sent.trans ?_⟩
    rw [sent_serve gives.other]
  | @notify _ now _ _ ih =>
    obtain ⟨ended, store, sent⟩ := @ih (host.serve moments (.notify now)).2
    exact ⟨ended, store, sent.trans (List.append_assoc _ _ _)⟩

/-- All that has become of a store is that some changes were committed to what it held. -/
def Wrote (before after : Host) (changes : ChangeSet) : Prop :=
  ∃ (store : Store) (now : Timestamp), store.contents = before.store.contents ∧
    store.answer now (.commit changes) = (.ok (), after.store)

theorem serve_commit {changes : ChangeSet}
    (served : (host.serve moments (.store (.commit changes))).1 = .ok ()) :
    host.Wrote (host.serve moments (.store (.commit changes))).2 changes := by
  simp only [serve, answer, callStore] at served ⊢
  cases fault : (moments host.asked).fault with
  | some failure =>
    rw [fault] at served
    cases served
  | none =>
    simp only [fault] at served ⊢
    exact ⟨host.store, _, rfl, Prod.ext served rfl⟩

inductive Ended (call : EngineCall α) (before : Host) : Except Failure α → Host → Prop where
  | failed {failure : Failure} {after : Host} (sent : after.sent = before.sent) :
      Ended call before (.error failure) after
  | silent {value : α} {after : Host} (rests : ¬ call.Moves) (sent : after.sent = before.sent) :
      Ended call before (.ok value) after
  | told {value : α} {after : Host} {changes : ChangeSet} {created : List Task}
      (makes : call.Makes value changes created) (wrote : before.Wrote after changes)
      (sent : after.sent = before.sent ++ assignments created) : Ended call before (.ok value) after

/-- What came before a call without a trace is no part of how it has ended. -/
theorem Ended.earlier {call : EngineCall α} {before middle after : Host} {result : Except Failure α}
    (ended : Ended call middle result after) (kept : call.Moves → before.store.Keeps middle.store)
    (same : middle.sent = before.sent) : Ended call before result after := by
  cases ended with
  | failed sent => exact .failed (sent.trans same)
  | silent rests sent => exact .silent rests (sent.trans same)
  | told makes wrote sent =>
    obtain ⟨store, now, held, committed⟩ := wrote
    have contents := held.trans (kept makes.moves).contents
    exact .told makes ⟨store, now, contents, committed⟩ (same ▸ sent)

theorem run_announces {call : EngineCall α} {program : Program (Except Failure α)}
    (announces : program.Announces call) :
    Ended call host (run moments program host).1 (run moments program host).2 := by
  induction announces generalizing host with
  | failed failure => exact .failed rfl
  | silent value rests => exact .silent rests rfl
  | request quiet plain _ ih =>
    refine (ih _).earlier (fun moves => ?_) (sent_serve quiet.other)
    exact (serve_spared ((plain moves).spares _)).1
  | @commit changes _ _ _ _ tells makes ih =>
    have same := @sent_serve _ moments host (.store (.commit changes)) not_false
    rw [run]
    cases served : (host.serve moments (.store (.commit changes))).1 with
    | error failure =>
      have spares : (Request.store (.commit changes)).Spares
          (host.serve moments (.store (.commit changes))).1 := served ▸ trivial
      exact (ih failure).earlier (fun _ => (serve_spared spares).1) same
    | ok _ =>
      obtain ⟨ended, store, sent⟩ := run_tells tells
      obtain ⟨before, now, held, committed⟩ := serve_commit served
      rw [ended]
      exact .told makes ⟨before, now, held, store ▸ committed⟩ (same ▸ sent)

/-- Whom a call tells of what. One that succeeds writes its changes and tells every assignee of the
tasks that are new in them. It tells nobody when it fails, or is of a kind that moves no instance
on. -/
structure Announced (host : Host) (attempt : Attempt) : Prop where
  told : ∀ value, (host.perform attempt).1 = .ok value → attempt.call.Moves →
    ∃ changes created messages, attempt.call.Makes value changes created ∧
      host.Wrote (host.perform attempt).2 changes ∧
      (host.perform attempt).2.sent = host.sent ++ messages ∧ Inform messages created
  failed : ∀ failure, (host.perform attempt).1 = .error failure →
    (host.perform attempt).2.sent = host.sent
  rests : ¬ attempt.call.Moves → (host.perform attempt).2.sent = host.sent

theorem announced (host : Host) (attempt : Attempt) : host.Announced attempt := by
  have begun := @run_announces _ attempt.moments { host with asked := 0 } _ _
    (call_announces attempt.call)
  have ended : Ended attempt.call host (host.perform attempt).1 (host.perform attempt).2 :=
    begun.earlier (fun _ => .refl _) rfl
  refine ⟨fun value succeeded moves => ?_, fun failure failed => ?_, fun rests => ?_⟩
  · rw [succeeded] at ended
    cases ended with
    | silent rests _ => exact absurd moves rests
    | told makes wrote sent => exact ⟨_, _, _, makes, wrote, sent, inform_iff.mpr rfl⟩
  · rw [failed] at ended
    cases ended with
    | failed sent => exact sent
  · generalize (host.perform attempt).1 = result at ended
    cases ended with
    | failed sent | silent _ sent => exact sent
    | told makes _ _ => exact absurd makes.moves rests

end Host

theorem World.serve_heard {α : Type} {moments : Moments} {world : World} {operation : Request α}
    (other : ¬ operation.IsTelling) :
    world.serve (fun n => (moments n).heard) operation = world.serve moments operation := by
  cases operation with
  | notify _ => exact absurd trivial other
  | _ => rfl

def Client.heard {attempt : Attempt} (client : Client attempt) : Client attempt.heard :=
  { client with }

namespace System

variable {attempts : Nat → Attempt} {system : System attempts}

def heard (system : System attempts) : System fun i => (attempts i).heard :=
  { system with clients := fun i => (system.clients i).heard }

theorem heard_update (clients : (i : Nat) → Client (attempts i)) (i : Nat)
    (client : Client (attempts i)) :
    (fun j => (Function.update clients i client j).heard) =
      Function.update (fun j => (clients j).heard) i client.heard :=
  funext (Function.apply_update (fun _ => Client.heard) clients i client)

theorem heard_served {i : Nat} {β : Type} {operation : Request β}
    {next : β → Program (Except Failure (attempts i).Answer)}
    (heedless : (Program.request operation next).Heedless) {world view : World} {answer : β}
    (served : world.serve (attempts i).moments operation = (answer, view)) :
    ∃ told, world.serve (attempts i).heard.moments operation = (told, view) ∧
      next told = next answer := by
  cases heedless with
  | notify assignments _ =>
    cases served
    exact ⟨_, rfl, rfl⟩
  | request other _ => exact ⟨answer, (World.serve_heard other).trans served, rfl⟩

theorem heard_step (heedless : ∀ i, (system.clients i).rest.Heedless) (i : Nat) :
    (system.step i).heard = system.heard.step i := by
  cases rest : (system.clients i).rest with
  | done result =>
    have same : (system.heard.clients i).rest = .done result := rest
    rw [step_done rest, step_done same]
  | request operation next =>
    have same : (system.heard.clients i).rest = .request operation next := rest
    cases free : operation.isBlocked i system.locks with
    | true =>
      rw [step_blocked rest free, step_blocked same free]
      rfl
    | false =>
      cases served : ((system.clients i).view system.records).serve (attempts i).moments
        operation with | mk answer view =>
      obtain ⟨told, heard, alike⟩ := heard_served (rest ▸ heedless i) served
      have written : operation.writes ((attempts i).heard.moments (system.heard.clients i).asked) =
          operation.writes ((attempts i).moments (system.clients i).asked) := by
        cases operation with
        | store call => cases call <;> rfl
        | _ => rfl
      rw [step_served rest free served, step_served same free heard, alike, written, System.heard,
        heard_update]
      rfl

theorem heedless_step (heedless : ∀ i, (system.clients i).rest.Heedless) (i j : Nat) :
    ((system.step i).clients j).rest.Heedless := by
  by_cases same : j = i
  · subst same
    have now := heedless j
    cases rest : (system.clients j).rest with
    | done result =>
      rw [step_done rest]
      exact now
    | request operation next =>
      cases free : operation.isBlocked j system.locks with
      | true =>
        rw [step_blocked rest free]
        exact now
      | false =>
        rw [clients_served rest free rfl]
        exact Program.Heedless.resume (rest ▸ now) _
  · rw [system.clients_step_other same]
    exact heedless j

theorem heard_run (heedless : ∀ i, (system.clients i).rest.Heedless) (schedule : List Nat) :
    (system.run schedule).heard = system.heard.run schedule := by
  induction schedule generalizing system with
  | nil => rfl
  | cons i rest ih =>
    have step := heard_step heedless i
    exact (ih (heedless_step heedless i)).trans (congrArg (fun system => system.run rest) step)

end System

/-- Whatever becomes of each message, calls return and store the same, one after another over a store
of either kind or at once over records in memory. They try to tell the assignees of the tasks that
they have made, once each, and nobody when they fail. -/
theorem deliveries_make_no_difference {permits : Moment → Prop} {initial : World}
    (reached : Reachable permits initial) {attempts : Nat → Attempt} {schedule : List Nat}
    (distinct : ((System.begin attempts initial.records).run schedule).Distinct initial.drawn) :
    (System.begin (fun i => (attempts i).heard) initial.records).run schedule =
        ((System.begin attempts initial.records).run schedule).heard ∧
      ((System.begin attempts initial.records).run schedule).Announced ∧
      ∀ (host : Host) (calls : List Attempt),
        host.results (calls.map Attempt.heard) =
            (host.results calls).map (fun served => ⟨served.1.heard, served.2⟩) ∧
          host.after (calls.map Attempt.heard) = host.after calls ∧
          ∀ call, (host.after calls).Announced call := by
  have start := System.Orderly.begin reached.sound reached.fresh attempts
  obtain ⟨last, _⟩ := start.run distinct
  have begun (i : Nat) : ((System.begin attempts initial.records).clients i).rest.Heedless :=
    call_heedless (attempts i).call
  have same : (System.begin (fun i => (attempts i).heard) initial.records).run schedule =
      ((System.begin attempts initial.records).run schedule).heard :=
    (System.heard_run begun schedule).symm
  have announced := last.announced distinct (start.telling_run distinct (.begin attempts _))
  exact ⟨same, announced, fun host calls =>
    ⟨Host.results_heard calls, Host.after_heard calls, (host.after calls).announced⟩⟩

/-- An article that is to be printed within the hour once it is written. -/
def urgentArticle : Definition :=
  .make (Uuid.ofNat 1) "article" "1" "write" [
    { id := "write", kind := .task, transitions := [.always "fork"] },
    { id := "fork", kind := .gateway, transitions := [.always "review", .always "print"] },
    { id := "review", kind := .approval, assign := some { role := some "editor" },
      transitions := [.always "end"] },
    { id := "print", kind := .task, priority := .urgent, dueInSeconds := some 3600,
      transitions := [.always "end"] },
    { id := "end", kind := .finish }]

def urgentBegins : List Attempt := [
  ⟨.define urgentArticle, calm 10⟩,
  ⟨.activate urgentArticle.id, calm 20⟩,
  ⟨.start urgentArticle.id [] "ada", calm 30⟩]

/-- Moments at which nobody is an editor and no message arrives: those to Ada take too long, and
others are refused. -/
def unheard (first : Nat) : Moments := fun n =>
  { calm first n with
    holders := fun _ => .ok []
    delivery := fun assignment =>
      .error (if assignment.principal = "ada" then .timedOut 2000 else .notConnected "refused") }

/-- The article is written, twice over, while others begin with it. -/
def articleRush : Nat → Attempt
  | 0 => ⟨.complete (Uuid.ofNat 33) [] "ada", unheard 100⟩
  | 1 => ⟨.complete (Uuid.ofNat 33) [] "ada", unheard 200⟩
  | n + 2 => ⟨.start urgentArticle.id [] "bob", unheard (300 + 100 * n)⟩

def articleHush : System articleRush :=
  (System.begin articleRush (({} : World).after urgentBegins).records).run
    ((List.range 60).map (· % 3))

/-- Of the two who write the article only the first succeeds. The review that she makes is nobody's,
so that she tries to tell only who prints it, which is herself. -/
theorem article_hush_makes_no_difference :
    (articleHush.written = [2, 0] ∧
      (articleHush.records.tasks.map fun task => (task.id, task.stepId, task.assignee)) = [
        (Uuid.ofNat 33, "write", some "ada"), (Uuid.ofNat 303, "write", some "bob"),
        (Uuid.ofNat 108, "review", none), (Uuid.ofNat 109, "print", some "ada")] ∧
      (List.range 3).map (fun i => (articleHush.clients i).sent) = [
        [{ taskId := Uuid.ofNat 109, instanceId := Uuid.ofNat 32, stepId := "print"
           principal := "ada", priority := .urgent, dueAt := some ⟨3600, 0, by decide⟩ }],
        [],
        [{ taskId := Uuid.ofNat 303, instanceId := Uuid.ofNat 302, stepId := "write"
           principal := "bob", priority := .normal, dueAt := none }]]) ∧
      (System.begin (fun i => (articleRush i).heard)
          (({} : World).after urgentBegins).records).run ((List.range 60).map (· % 3)) =
        articleHush.heard ∧
      articleHush.Announced ∧
      (({ store := .relational {} } : Host).after urgentBegins).Announced (articleRush 2) := by
  have reached : Reachable (fun _ => True) (({} : World).after urgentBegins) :=
    Reachable.empty.after urgentBegins (fun _ _ _ => trivial) (by decide +kernel)
  have distinct : articleHush.Distinct (({} : World).after urgentBegins).drawn :=
    @System.Distinct.of_busy _ _ _ _ [0, 1, 2] (by decide +kernel) (by decide +kernel)
  obtain ⟨same, announced, served⟩ := deliveries_make_no_difference reached distinct
  obtain ⟨_, _, tells⟩ := served { store := .relational {} } urgentBegins
  exact ⟨by decide +kernel, same, announced, tells (articleRush 2)⟩

end Workflow
