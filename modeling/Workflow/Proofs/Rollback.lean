import Workflow.Proofs.Portability

/-! Calls that fail. A call that writes does so with one last call of the store and cannot fail once
that has succeeded, so that a failure leaves no trace: nothing is stored or sent, and whatever is
called next comes to the same as if the failed call had not been made. -/

namespace Workflow

def StoreCall.Spares {α : Type} : StoreCall α → α → Prop
  | saveDefinition _, _ | saveInstance _, _ | saveTask _, _ | commit _, _ => False
  | transition .., changed => changed = false
  | _, _ => True

def Request.Spares {α : Type} : Request α → α → Prop
  | store call, .ok value => call.Spares value
  | notify _, _ => False
  | _, _ => True

theorem Request.IsPlain.spares {α : Type} {operation : Request α} (plain : operation.IsPlain)
    (answer : α) : operation.Spares answer := by
  cases operation with
  | store call =>
    cases answer with
    | error failure => trivial
    | ok value =>
      cases call with
      | saveDefinition _ | transition _ _ _ | saveInstance _ | saveTask _ | commit _ =>
        exact plain.1.elim
      | _ => trivial
  | notify _ => exact plain.elim
  | _ => trivial

namespace Program

/-- A program that can fail only as long as nothing was written or sent. -/
inductive Atomic {α : Type} : Program (Except Failure α) → Prop where
  | done (result : Except Failure α) : Atomic (.done result)
  | request {β : Type} {operation : Request β} {next : β → Program (Except Failure α)}
      (spared : ∀ answer, operation.Spares answer → Atomic (next answer))
      (struck : ∀ answer, ¬ operation.Spares answer → ∃ value, (next answer).Closes (.ok value)) :
      Atomic (.request operation next)

variable {α β : Type}

theorem Uses.atomic_bind {program : Program α} {next : α → Program (Except Failure β)}
    (plain : program.Uses Request.IsPlain) (atomic : ∀ result, (next result).Atomic) :
    (program.bind next).Atomic := by
  induction program with
  | done result => exact atomic result
  | request operation rest ih =>
    refine .request (fun answer _ => ih answer (plain.2 answer)) fun answer struck => ?_
    exact absurd (plain.1.spares answer) struck

theorem Uses.atomic {program : Program (Except Failure α)}
    (plain : program.Uses Request.IsPlain) : program.Atomic := by
  rw [← program.bind_done]
  exact plain.atomic_bind .done

/-- The call of the store that writes is the last that can fail. -/
theorem Atomic.last {call : StoreCall β} {next : Except Failure β → Program (Except Failure α)}
    (failed : ∀ failure, (next (.error failure)).Atomic)
    (spared : ∀ value, call.Spares value → (next (.ok value)).Atomic)
    (struck : ∀ value, ¬ call.Spares value → ∃ result, (next (.ok value)).Closes (.ok result)) :
    Atomic (.request (.store call) next) := by
  refine .request (fun answer spares => ?_) fun answer wrote => ?_
  · cases answer with
    | error failure => exact failed failure
    | ok value => exact spared value spares
  · cases answer with
    | error failure => exact absurd trivial wrote
    | ok value => exact struck value wrote

end Program

open Program

theorem define_atomic (definition : Definition) : (Engine.define definition).run.Atomic := by
  rw [Engine.define_eq]
  refine Uses.atomic_bind (prepareDraft_plain definition) fun prepared => ?_
  cases prepared with
  | error failure => exact .done _
  | ok draft =>
    exact .last (fun _ => .done _) (fun _ impossible => impossible.elim) fun _ _ => ⟨_, .done⟩

theorem activate_atomic (id : Uuid) : (Engine.activate id).run.Atomic := by
  rw [Engine.activate_eq]
  refine Uses.atomic_bind (checkDraft_plain id) fun checked => ?_
  cases checked with
  | error failure => exact .done _
  | ok _ =>
    refine .last (fun _ => .done _) (fun changed kept => ?_) fun changed wrote => ?_
    · cases kept
      exact .done _
    · cases changed with
      | false => exact absurd rfl wrote
      | true => exact ⟨_, .done⟩

theorem start_atomic (id : Uuid) (data : Json.Members) (startedBy : String) :
    (Engine.start id data startedBy).run.Atomic := by
  rw [Engine.start_run]
  refine Uses.atomic_bind (prepareStart_plain id data startedBy) fun prepared => ?_
  cases prepared with
  | error failure => exact .done _
  | ok changes =>
    refine .last (fun _ => .done _) (fun _ impossible => impossible.elim) fun _ _ => ?_
    exact ⟨_, .request trivial fun _ => .done⟩

theorem settle_atomic (target : Uuid) (prepared : Except Failure ChangeSet) :
    (Engine.settle target prepared).Atomic := by
  have gives (failure : Failure) : (Engine.finish target (.error failure)).run.Atomic :=
    Uses.atomic ⟨trivial, fun _ => ⟨trivial, fun _ => trivial⟩⟩
  cases prepared with
  | error failure => exact gives failure
  | ok changes =>
    refine .last gives (fun _ impossible => impossible.elim) fun _ _ => ?_
    obtain ⟨_, same, _, value, closes⟩ := (Engine.settle_commits target).commits changes
    cases same
    exact ⟨value, closes⟩

theorem complete_atomic (id : Uuid) (data : Json.Members) (principal : String) :
    (Engine.complete id data principal).run.Atomic := by
  obtain ⟨next, begins, failed, missing, found⟩ := Engine.complete_run id data principal
  rw [begins]
  refine .last (fun failure => ?_) (fun located _ => ?_) fun _ wrote => absurd trivial wrote
  · rw [failed]
    exact .done _
  · cases located with
    | none =>
      rw [missing]
      exact .done _
    | some task =>
      rw [found]
      refine .request (fun _ _ => ?_) fun _ wrote => absurd trivial wrote
      exact Uses.atomic_bind (prepare_plain id data principal) (settle_atomic task.instanceId)

theorem call_atomic {α : Type} (call : EngineCall α) : call.operation.run.Atomic := by
  cases call with
  | define definition => exact define_atomic definition
  | activate id => exact activate_atomic id
  | start id data startedBy => exact start_atomic id data startedBy
  | complete id data principal => exact complete_atomic id data principal
  | status id => exact Uses.atomic (status_plain id)
  | instancesFor principal => exact Uses.atomic (instancesFor_plain principal)
  | tasksFor principal filter =>
    exact .last (fun _ => .done _) (fun _ _ => .done _) fun _ wrote => absurd trivial wrote

namespace Store

/-- What a store holds, with its tasks in their order. -/
def contents : Store → MemoryStore ⊕ Tables
  | .memory records => .inl records
  | .relational database => .inr { database.tables with
      tasks := (Database.inOrder database.tables.tasks).map (TaskRow.renumber fun _ => 0) }

/-- A store that still holds the same. Numbers may have been taken in between. -/
inductive Keeps : Store → Store → Prop where
  | memory (records : MemoryStore) : Keeps (.memory records) (.memory records)
  | relational {first second : Database} (tables : second.tables = first.tables)
      (later : first.nextSeq ≤ second.nextSeq) : Keeps (.relational first) (.relational second)

theorem Keeps.refl (store : Store) : Keeps store store := by
  cases store with
  | memory records => exact .memory records
  | relational database => exact .relational rfl (Nat.le_refl _)

theorem Keeps.trans {first middle last : Store} (early : Keeps first middle)
    (late : Keeps middle last) : Keeps first last := by
  cases early with
  | memory records => exact late
  | relational tables later =>
    cases late with
    | relational same last => exact .relational (same.trans tables) (later.trans last)

theorem Keeps.contents {first second : Store} (keeps : Keeps first second) :
    second.contents = first.contents := by
  cases keeps with
  | memory records => rfl
  | relational tables _ => simp only [Store.contents, tables]

variable {store : Store} {now : Timestamp} {α : Type} {call : StoreCall α}

theorem keeps_of_tables {database : Database}
    (same : (database.answer now call).2.tables = database.tables) :
    Keeps (.relational database) ((relational database).answer now call).2 :=
  .relational same ((Database.query_tame now call).climbs database)

theorem answer_reverts {failure : Failure} (failed : (store.answer now call).1 = .error failure) :
    Keeps store (store.answer now call).2 := by
  cases store with
  | memory records => cases failed
  | relational database => exact keeps_of_tables (Database.answer_reverts failed)

theorem answer_reads (reads : call.IsRead) : Keeps store (store.answer now call).2 := by
  cases store with
  | memory records =>
    cases call with
    | saveDefinition _ | transition _ _ _ | saveInstance _ | saveTask _ | commit _ =>
      exact reads.elim
    | _ => exact .memory records
  | relational database => exact keeps_of_tables (Database.answer_reads reads now database)

theorem transition_spared {id : Uuid} {source target : DefinitionStatus}
    (kept : (store.answer now (.transition id source target)).1 = .ok false) :
    Keeps store (store.answer now (.transition id source target)).2 := by
  cases store with
  | memory records =>
    replace kept : (records.transition id source target).1 = false := Except.ok.inj kept
    have same : (records.transition id source target).2 = records := by
      unfold MemoryStore.transition at kept ⊢
      cases found : records.definition? id with
      | none => rfl
      | some definition =>
        simp only [found] at kept ⊢
        split at kept
        · cases kept
        next different => rw [if_neg different]
    change Keeps _ (.memory (records.transition id source target).2)
    rw [same]
    exact .memory records
  | relational database =>
    refine keeps_of_tables ?_
    replace kept : (Database.transition id source target database).1 = .ok false := kept
    change (Database.transition id source target database).2.tables = _
    rw [Database.transition_act, Database.act] at kept ⊢
    cases struck : (Database.strike Statement.updateDefinitionStatus database.faults).1 with
    | some error => rfl
    | none =>
      simp only [struck, Except.ok.injEq] at kept ⊢
      have same : database.tables.definitions.map (fun row =>
          if (row.id = id && row.status = Named.name source) = true then
            { row with status := Named.name target } else row) = database.tables.definitions :=
        (List.map_congr_left fun row member => if_neg (List.any_eq_false.mp kept row member)).trans
          (List.map_id' _)
      rw [same]

theorem answer_spared {value : α} (told : (store.answer now call).1 = .ok value)
    (spares : call.Spares value) : Keeps store (store.answer now call).2 := by
  cases call with
  | saveDefinition _ | saveInstance _ | saveTask _ | commit _ => exact spares.elim
  | transition id source target =>
    cases spares
    exact transition_spared told
  | _ => exact answer_reads trivial

end Store

namespace Host

variable {moments : Moments} {host : Host} {α β : Type}

theorem serve_spared {operation : Request β} (spared : operation.Spares (host.serve moments operation).1) :
    host.store.Keeps (host.serve moments operation).2.store ∧
      (host.serve moments operation).2.sent = host.sent := by
  cases operation with
  | store call =>
    simp only [serve, answer, callStore] at spared ⊢
    cases fault : (moments host.asked).fault with
    | some failure => exact ⟨.refl _, rfl⟩
    | none =>
      simp only [fault] at spared ⊢
      refine ⟨?_, trivial⟩
      cases told : (host.store.answer (moments host.asked).now call).1 with
      | error failure => exact Store.answer_reverts told
      | ok value =>
        rw [told] at spared
        exact Store.answer_spared told spared
  | notify _ => exact spared.elim
  | _ => exact ⟨.refl _, rfl⟩

theorem run_closes {program : Program α} {result : α} (closes : program.Closes result) :
    (run moments program host).1 = result := by
  induction closes generalizing host with
  | done => rfl
  | request _ _ ih => exact ih _

theorem run_atomic {program : Program (Except Failure α)} (atomic : program.Atomic)
    {failure : Failure} (failed : (run moments program host).1 = .error failure) :
    host.store.Keeps (run moments program host).2.store ∧
      (run moments program host).2.sent = host.sent := by
  induction atomic generalizing host with
  | done result => exact ⟨.refl _, rfl⟩
  | @request β operation next spared struck ih =>
    rw [run] at failed ⊢
    by_cases spares : operation.Spares (host.serve moments operation).1
    · obtain ⟨kept, sent⟩ := ih _ spares failed
      obtain ⟨first, told⟩ := serve_spared spares
      exact ⟨first.trans kept, sent.trans told⟩
    · obtain ⟨value, closes⟩ := struck _ spares
      rw [run_closes closes] at failed
      cases failed

end Host

namespace Store

def heal : Store → Store
  | .memory records => .memory records
  | .relational database => .relational { database with faults := [] }

def Numbered : Store → Prop
  | .memory _ => True
  | .relational database => database.Numbered

theorem Numbered.answer {store : Store} (numbered : store.Numbered) {α : Type} (now : Timestamp)
    (call : StoreCall α) : (store.answer now call).2.Numbered := by
  cases store with
  | memory records => trivial
  | relational database => exact (Database.query_tame now call).numbered database numbered

inductive Renumbers (number : Nat → Nat) : Store → Store → Prop where
  | memory (records : MemoryStore) : Renumbers number (.memory records) (.memory records)
  | relational {first second : Database} (renumbers : first.Renumbers number second) :
      Renumbers number (.relational first) (.relational second)

variable {number : Nat → Nat} {first second : Store}

theorem Renumbers.answer {α : Type} (renumbers : Renumbers number first second)
    (grows : StrictMono number) (now : Timestamp) (call : StoreCall α) :
    (second.answer now call).1 = (first.answer now call).1 ∧
      Renumbers number (first.answer now call).2 (second.answer now call).2 := by
  cases renumbers with
  | memory records => exact ⟨rfl, .memory _⟩
  | @relational database other renumbers =>
    obtain ⟨told, after⟩ := (Database.query_tame now call).alike number grows database other renumbers
    exact ⟨told, .relational after⟩

theorem Renumbers.contents (renumbers : Renumbers number first second)
    (grows : StrictMono number) : second.contents = first.contents := by
  cases renumbers with
  | memory records => rfl
  | relational renumbers =>
    simp only [Store.contents, renumbers.tables, Tables.renumber, inOrder_renumber grows,
      List.map_map]
    rfl

/-- Numbers that were taken in vain are passed over by those that come later. -/
theorem Keeps.renumbers (keeps : Keeps first second) (numbered : first.Numbered) :
    ∃ number, StrictMono number ∧ Renumbers number first.heal second.heal := by
  cases keeps with
  | memory records => exact ⟨id, strictMono_id, .memory records⟩
  | @relational database other tables later =>
    let number (seq : Nat) : Nat :=
      if seq < database.nextSeq then seq else seq + (other.nextSeq - database.nextSeq)
    refine ⟨number, fun seq next below => ?_, .relational ⟨?_, fun n => ?_, rfl⟩⟩
    · simp only [number]
      split <;> split <;> omega
    · have same : database.tables.tasks.map (TaskRow.renumber number) = database.tables.tasks := by
        refine (List.map_congr_left fun row member => ?_).trans (List.map_id' _)
        simp only [TaskRow.renumber, number, if_pos (numbered row member)]
      rw [Tables.renumber, same]
      exact tables
    · simp only [number]
      split <;> omega

end Store

namespace Host

def heal (host : Host) : Host :=
  { host with store := host.store.heal }

structure Renumbers (number : Nat → Nat) (first second : Host) : Prop where
  store : first.store.Renumbers number second.store
  asked : second.asked = first.asked
  sent : second.sent = first.sent

variable {number : Nat → Nat} {moments : Moments} {first second : Host} {α : Type}

theorem Renumbers.serve (renumbers : first.Renumbers number second) (grows : StrictMono number)
    (operation : Request α) :
    (second.serve moments operation).1 = (first.serve moments operation).1 ∧
      (first.serve moments operation).2.Renumbers number (second.serve moments operation).2 := by
  obtain ⟨store, asked, sent⟩ := renumbers
  have later : second.asked + 1 = first.asked + 1 := congrArg (· + 1) asked
  cases operation with
  | store call =>
    simp only [Host.serve, Host.answer, Host.callStore, asked]
    cases (moments first.asked).fault with
    | some failure => exact ⟨rfl, store, rfl, sent⟩
    | none =>
      obtain ⟨told, after⟩ := store.answer grows (moments first.asked).now call
      exact ⟨told, after, rfl, sent⟩
  | notify assignments =>
    simp only [Host.serve, Host.answer, asked]
    exact ⟨trivial, store, rfl, congrArg (· ++ assignments) sent⟩
  | acquire _ | leave _ | release _ => exact ⟨rfl, store, later, sent⟩
  | _ =>
    simp only [Host.serve, Host.answer, asked]
    exact ⟨trivial, store, rfl, sent⟩

theorem Renumbers.run {program : Program α} (renumbers : first.Renumbers number second)
    (grows : StrictMono number) :
    (run moments program second).1 = (run moments program first).1 ∧
      (run moments program first).2.Renumbers number (run moments program second).2 := by
  induction program generalizing first second with
  | done result => exact ⟨rfl, renumbers⟩
  | request operation next ih =>
    obtain ⟨told, after⟩ : (second.serve moments operation).1 = _ ∧ _ :=
      renumbers.serve grows operation
    rw [run, run, told]
    exact ih _ after

/-- Whatever a host serves, its store gives tasks the numbers that it takes for them. -/
theorem numbered_run {host : Host} {program : Program α} (numbered : host.store.Numbered) :
    (run moments program host).2.store.Numbered := by
  induction program generalizing host with
  | done result => exact numbered
  | request operation next ih =>
    refine ih _ ?_
    cases operation with
    | store call =>
      simp only [Host.serve, Host.answer, Host.callStore]
      cases (moments host.asked).fault with
      | some failure => exact numbered
      | none => exact numbered.answer (moments host.asked).now call
    | _ => exact numbered

theorem numbered_after {host : Host} (numbered : host.store.Numbered) (attempts : List Attempt) :
    (host.after attempts).store.Numbered := by
  induction attempts generalizing host with
  | nil => exact numbered
  | cons attempt rest ih =>
    have first : (host.perform attempt).2.store.Numbered := numbered_run numbered
    exact ih first

end Host

theorem Host.Reflects.heal_eq {host : Host} {world : World} (reflects : host.Reflects world) :
    host.heal = host := by
  obtain ⟨database, stored, mirrors⟩ := reflects.store
  have healthy : { database with faults := [] } = database := by
    rw [← mirrors.faults]
  rw [heal, stored, Store.heal, healthy, ← stored]

/-- A call that fails leaves what is stored and what was sent as it was. Once the store is healthy,
a call that follows has the result and the effects that it would have had without the failed one. -/
theorem failures_leave_no_trace {host : Host} {attempt : Attempt} {failure : Failure}
    (failed : (host.perform attempt).1 = .error failure) :
    (host.perform attempt).2.store.contents = host.store.contents ∧
      (host.perform attempt).2.sent = host.sent ∧
      (host.store.Numbered → ∀ again : Attempt,
        ((host.perform attempt).2.heal.perform again).1 = (host.heal.perform again).1 ∧
          ((host.perform attempt).2.heal.perform again).2.store.contents =
            (host.heal.perform again).2.store.contents ∧
          ((host.perform attempt).2.heal.perform again).2.sent =
            (host.heal.perform again).2.sent) := by
  obtain ⟨kept, sent⟩ := Host.run_atomic (call_atomic attempt.call) failed
  refine ⟨kept.contents, sent, fun numbered again => ?_⟩
  obtain ⟨number, grows, renumbers⟩ := kept.renumbers numbered
  have before : Host.Renumbers number { host.heal with asked := 0 }
      { (host.perform attempt).2.heal with asked := 0 } := ⟨renumbers, rfl, sent⟩
  obtain ⟨told, after⟩ := before.run grows
  exact ⟨told, after.store.contents grows, after.sent⟩

def articleRows : Host :=
  Host.after { store := .relational {} } articleBegins

/-- The first task of the article is completed, where the store may not answer some request. -/
def articleWrites (unanswered : Option Nat) : Attempt :=
  ⟨.complete (Uuid.ofNat 33) [] "ada", fun n =>
    { calm 40 n with fault := if unanswered = some n then some .timedOut else none }⟩

instance {α : Type} (failure : Failure) : (result : Except Failure α) →
    Decidable (result = .error failure)
  | .ok _ => isFalse nofun
  | .error other => decidable_of_iff (other = failure) ⟨congrArg _, Except.error.inj⟩

theorem articleWrites_reflected {unanswered : Option Nat}
    (fresh : ((({} : World).after articleBegins).perform (articleWrites unanswered)).2.drawn.Nodup) :
    articleRows.heal = articleRows ∧ (articleRows.perform (articleWrites unanswered)).1 =
        ((({} : World).after articleBegins).perform (articleWrites unanswered)).1 ∧
      (articleRows.perform (articleWrites unanswered)).2.sent =
        ((({} : World).after articleBegins).perform (articleWrites unanswered)).2.sent := by
  have measured : ∀ attempt ∈ articleBegins, attempt.Within Moment.IsWhole := by
    simp only [articleBegins, List.forall_mem_cons]
    exact ⟨calm_isWhole 10, calm_isWhole 20, calm_isWhole 30, List.forall_mem_nil _⟩
  have bounded : ∀ attempt ∈ articleBegins, attempt.call.IsBounded := by
    simp only [articleBegins, List.forall_mem_cons]
    exact ⟨trivial, trivial, trivial, List.forall_mem_nil _⟩
  have stores : ∀ attempt ∈ articleBegins, attempt.call.ReadsBack := by
    simp only [articleBegins, List.forall_mem_cons]
    exact ⟨article_readsBack, trivial, Json.empty_readsBack, List.forall_mem_nil _⟩
  obtain ⟨rows, reached, back⟩ :=
    Host.Reflects.of_history measured bounded stores (by decide +kernel)
  have within : (articleWrites unanswered).Within Moment.IsWhole := calm_isWhole 40
  obtain ⟨told, after⟩ := rows.perform reached back within trivial Json.empty_readsBack fresh
  exact ⟨rows.heal_eq, told, after.sent⟩

/-- A completion that times out when it is to be written succeeds when it is repeated, and notifies
of two more tasks. -/
theorem article_recovers :
    (articleRows.perform (articleWrites (some 10))).1 = .error .timedOut ∧
      (articleRows.perform (articleWrites (some 10))).2.store.contents =
        articleRows.store.contents ∧
      ((articleRows.perform (articleWrites (some 10))).2.heal.perform
          (articleWrites none)).2.store.contents =
        (articleRows.heal.perform (articleWrites none)).2.store.contents ∧
      (articleRows.heal.perform (articleWrites none)).2.sent.length = 3 := by
  have failed : (articleRows.perform (articleWrites (some 10))).1 = .error .timedOut := by
    rw [(articleWrites_reflected (by decide +kernel)).2.1]
    decide +kernel
  have numbered : articleRows.store.Numbered :=
    @Host.numbered_after { store := .relational {} } (List.forall_mem_nil _) articleBegins
  obtain ⟨kept, _, healthy⟩ := failures_leave_no_trace failed
  refine ⟨failed, kept, (healthy numbered (articleWrites none)).2.1, ?_⟩
  obtain ⟨healthy, _, sent⟩ := @articleWrites_reflected none (by decide +kernel)
  rw [healthy, sent]
  decide +kernel

end Workflow
