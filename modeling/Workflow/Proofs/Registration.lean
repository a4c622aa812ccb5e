import Mathlib.Data.List.Infix
import Mathlib.Data.List.Nodup
import Workflow.Proofs.Interleaving
import Workflow.Proofs.Reading

/-! Calls that store definitions or make them active, under way at once. A definition is stored some
requests after it was found to be new, so that definitions with one name or one identifier are kept
apart only where the calls that store them take turns. -/

namespace Workflow

def Definition.fullName (definition : Definition) : String × String :=
  (definition.name, definition.version)

/-- Definitions of which a store has room for one. -/
def Definition.Rivals (first second : Definition) : Prop :=
  first.id = second.id ∨ first.fullName = second.fullName

namespace EngineCall

def Registers {α : Type} : EngineCall α → Prop
  | define _ | activate _ => True
  | _ => False

def draft? {α : Type} : EngineCall α → Option Definition
  | define definition => some definition
  | _ => none

end EngineCall

namespace MemoryStore

variable {records after : MemoryStore}

def names (records : MemoryStore) : List (String × String) :=
  records.definitions.map Definition.fullName

def ids (records : MemoryStore) : List Uuid :=
  records.definitions.map (·.id)

theorem named?_eq_none {definition : Definition} :
    records.named? definition.name definition.version = none ↔
      definition.fullName ∉ records.names := by
  simp [named?, names, Definition.fullName]

theorem definition?_eq_none {id : Uuid} : records.definition? id = none ↔ id ∉ records.ids := by
  simp [definition?, ids]

structure Apart (records : MemoryStore) : Prop where
  names : records.names.Nodup
  ids : records.ids.Nodup

/-- Definitions that are stored still are, as they were or made active. -/
def Retained (records after : MemoryStore) : Prop :=
  ∀ definition ∈ records.definitions, definition ∈ after.definitions ∨
    definition.status = .draft ∧ { definition with status := .active } ∈ after.definitions

theorem Retained.refl (records : MemoryStore) : Retained records records :=
  fun _ member => Or.inl member

theorem Retained.trans {middle : MemoryStore} (early : Retained records middle)
    (late : Retained middle after) : Retained records after := by
  intro definition member
  rcases early definition member with kept | ⟨draft, moved⟩
  · exact late definition kept
  · rcases late _ moved with kept | ⟨impossible, _⟩
    · exact Or.inr ⟨draft, kept⟩
    · cases impossible

/-- What one request makes of the definitions: it leaves them, makes one active or adds one that is
new. -/
inductive Registers (records : MemoryStore) : Option Definition → MemoryStore → Prop where
  | leaves : Registers records none records
  | activates (id : Uuid) : Registers records none (records.transition id .draft .active).2
  | adds {draft : Definition} (unnamed : draft.fullName ∉ records.names)
      (unknown : draft.id ∉ records.ids) :
      Registers records (some draft) (records.saveDefinition draft)

theorem saveDefinition_new {draft : Definition} (unknown : draft.id ∉ records.ids) :
    (records.saveDefinition draft).definitions = records.definitions ++ [draft] :=
  upsert_new unknown

theorem transition_definitions (id : Uuid) (source target : DefinitionStatus) :
    (records.transition id source target).2.definitions = records.definitions ∨
      ∃ before definition after, records.definitions = before ++ definition :: after ∧
        definition.status = source ∧ (records.transition id source target).2.definitions =
          before ++ { definition with status := target } :: after := by
  unfold transition
  cases found : records.definition? id with
  | none => exact Or.inl rfl
  | some definition =>
    simp only
    split
    next same =>
      have known : records.definitions.find? (fun other =>
          other.id = { definition with status := target }.id) = some definition := by
        rw [definition?_id found]
        exact found
      obtain ⟨before, after, shape, written⟩ := upsert_known known
      exact Or.inr ⟨before, definition, after, shape, same, written⟩
    next => exact Or.inl rfl

namespace Registers

variable {added : Option Definition}

private theorem map_eq {κ : Type} {key : Definition → κ} (registers : records.Registers added after)
    (same : ∀ definition status, key { definition with status } = key definition) :
    after.definitions.map key = records.definitions.map key ++ (added.map key).toList := by
  cases registers with
  | leaves => exact (List.append_nil _).symm
  | activates id =>
    rcases records.transition_definitions id .draft .active with
      kept | ⟨before, definition, after, shape, _, moved⟩
    · rw [kept]
      exact (List.append_nil _).symm
    · rw [moved, shape, List.map_append, List.map_append, List.map_cons, List.map_cons, same]
      exact (List.append_nil _).symm
  | adds _ unknown =>
    rw [saveDefinition_new unknown, List.map_append]
    rfl

theorem names_eq (registers : records.Registers added after) :
    after.names = records.names ++ (added.map Definition.fullName).toList :=
  registers.map_eq fun _ _ => rfl

theorem ids_eq (registers : records.Registers added after) :
    after.ids = records.ids ++ (added.map (·.id)).toList :=
  registers.map_eq fun _ _ => rfl

private theorem not_mem_map {κ : Type} {key : Definition → κ} {value : κ}
    (registers : records.Registers added after)
    (same : ∀ definition status, key { definition with status } = key definition)
    (new : value ∉ records.definitions.map key) (other : ∀ draft, added = some draft → key draft ≠ value) :
    value ∉ after.definitions.map key := by
  rw [registers.map_eq same]
  intro member
  rcases List.mem_append.mp member with known | own
  · exact new known
  · obtain ⟨draft, here, mine⟩ := Option.map_eq_some_iff.mp (Option.mem_toList.mp own)
    exact other draft here mine

theorem not_mem_names (registers : records.Registers added after) {name : String × String}
    (new : name ∉ records.names) (other : ∀ draft, added = some draft → draft.fullName ≠ name) :
    name ∉ after.names :=
  registers.not_mem_map (fun _ _ => rfl) new other

theorem not_mem_ids (registers : records.Registers added after) {id : Uuid}
    (new : id ∉ records.ids) (other : ∀ draft, added = some draft → draft.id ≠ id) :
    id ∉ after.ids :=
  registers.not_mem_map (fun _ _ => rfl) new other

theorem names_mono (registers : records.Registers added after) {name : String × String}
    (member : name ∈ records.names) : name ∈ after.names := by
  rw [registers.names_eq]
  exact List.mem_append_left _ member

theorem apart (registers : records.Registers added after) (apart : records.Apart) : after.Apart := by
  refine ⟨?_, ?_⟩
  · rw [registers.names_eq]
    cases registers with
    | adds unnamed _ => exact List.nodup_append_comm.mp (List.nodup_cons.mpr ⟨unnamed, apart.names⟩)
    | _ => exact (List.append_nil _).symm ▸ apart.names
  · rw [registers.ids_eq]
    cases registers with
    | adds _ unknown => exact List.nodup_append_comm.mp (List.nodup_cons.mpr ⟨unknown, apart.ids⟩)
    | _ => exact (List.append_nil _).symm ▸ apart.ids

theorem retained (registers : records.Registers added after) : records.Retained after := by
  intro definition member
  cases registers with
  | leaves => exact Or.inl member
  | adds _ unknown =>
    rw [saveDefinition_new unknown]
    exact Or.inl (List.mem_append_left _ member)
  | activates id =>
    rcases records.transition_definitions id .draft .active with
      kept | ⟨before, one, after, shape, draft, moved⟩
    · rw [kept]
      exact Or.inl member
    · rw [moved]
      rw [shape] at member
      rcases List.mem_append.mp member with early | late
      · exact Or.inl (List.mem_append_left _ early)
      · rcases List.mem_cons.mp late with same | late
        · subst same
          exact Or.inr ⟨draft, List.mem_append_right _ List.mem_cons_self⟩
        · exact Or.inl (List.mem_append_right _ (List.mem_cons_of_mem _ late))

end Registers

end MemoryStore

/-- How far the call that stores a definition has come: it has found out nothing yet, or that the
name is new, or that the identifier is new as well, or it has stored the definition. -/
inductive Registration where
  | begun | unnamed | unknown | stored

def Registration.Holds (records : MemoryStore) (definition : Definition) : Registration → Prop
  | begun => True
  | unnamed => definition.fullName ∉ records.names
  | unknown => definition.fullName ∉ records.names ∧ definition.id ∉ records.ids
  | stored => definition.fullName ∈ records.names

def Request.Activates {α : Type} : Request α → Prop
  | store (.transition _ source target) => source = .draft ∧ target = .active
  | operation => operation.IsPlain

namespace Program

variable {α : Type}

inductive Drafts (definition : Definition) : Registration → Program (Except Failure α) → Prop where
  | failed {phase : Registration} (failure : Failure) :
      Drafts definition phase (.done (.error failure))
  | stored (value : α) : Drafts definition .stored (.done (.ok value))
  | find {next : Except Failure (Option Definition) → Program (Except Failure α)}
      (failed : ∀ failure, Drafts definition .begun (next (.error failure)))
      (taken : ∀ other, Drafts definition .begun (next (.ok (some other))))
      (free : Drafts definition .unnamed (next (.ok none))) :
      Drafts definition .begun
        (.request (.store (.findDefinition definition.name definition.version)) next)
  | load {next : Except Failure (Option Definition) → Program (Except Failure α)}
      (failed : ∀ failure, Drafts definition .begun (next (.error failure)))
      (taken : ∀ other, Drafts definition .begun (next (.ok (some other))))
      (free : Drafts definition .unknown (next (.ok none))) :
      Drafts definition .unnamed (.request (.store (.loadDefinition definition.id)) next)
  | now {next : Timestamp → Program (Except Failure α)}
      (resume : ∀ now, Drafts definition .unknown (next now)) :
      Drafts definition .unknown (.request .now next)
  | save {draft : Definition} {next : Except Failure Unit → Program (Except Failure α)}
      (name : draft.fullName = definition.fullName) (id : draft.id = definition.id)
      (failed : ∀ failure, Drafts definition .begun (next (.error failure)))
      (saved : Drafts definition .stored (next (.ok ()))) :
      Drafts definition .unknown (.request (.store (.saveDefinition draft)) next)

end Program

theorem define_drafts (definition : Definition) :
    (Engine.define definition).run.Drafts definition .begun := by
  unfold Engine.define
  cases valid : definition.validate.isOk with
  | false =>
    simp only [valid]
    exact .failed _
  | true =>
    simp only [valid]
    refine .find (fun _ => .failed _) (fun _ => .failed _) ?_
    refine .load (fun _ => .failed _) (fun _ => .failed _) ?_
    exact .now fun now => .save rfl rfl (fun _ => .failed _) (.stored _)

theorem activate_activates (id : Uuid) : (Engine.activate id).run.Uses Request.Activates := by
  have plain : Operation.Plain (Engine.checkDraft id) := checkDraft_plain id
  rw [Engine.activate_eq]
  refine (plain.mono fun operation plain => ?_).bind fun checked => ?_
  · cases operation with
    | store call =>
      cases call with
      | transition _ _ _ => exact plain.1.elim
      | _ => exact plain
    | _ => exact plain
  · cases checked with
    | error failure => trivial
    | ok _ =>
      refine ⟨⟨rfl, rfl⟩, fun changed => ?_⟩
      cases changed with
      | error failure => trivial
      | ok moved =>
        cases moved with
        | true => trivial
        | false => trivial

theorem Request.Activates.registers {α : Type} {operation : Request α}
    (activates : operation.Activates) (moments : Moments) (world : World) :
    world.records.Registers none (world.serve moments operation).2.records := by
  cases operation with
  | store call =>
    simp only [World.serve, World.answer, World.callStore]
    cases (moments world.asked).fault with
    | some failure => exact .leaves
    | none =>
      cases call with
      | transition id source target =>
        obtain ⟨rfl, rfl⟩ := activates
        exact .activates id
      | saveDefinition _ | saveInstance _ | saveTask _ | commit _ => exact activates.1.elim
      | _ => exact .leaves
  | _ => exact .leaves

namespace Client

variable {attempt : Attempt}

def isBusy (client : Client attempt) : Bool :=
  decide (0 < client.asked) && !client.rest.isDone

def Succeeds (client : Client attempt) : Prop :=
  ∃ value, client.rest = .done (.ok value)

inductive Registering (records : MemoryStore) (client : Client attempt) : Prop where
  | activating (other : attempt.call.draft? = none) (uses : client.rest.Uses Request.Activates) :
      Registering records client
  | drafting {definition : Definition} {phase : Registration}
      (defines : attempt.call.draft? = some definition)
      (drafts : client.rest.Drafts definition phase) (holds : phase.Holds records definition)
      (begun : phase = .begun ∨ 0 < client.asked) : Registering records client

theorem begin_registering (registers : attempt.call.Registers) (records : MemoryStore) :
    (begin attempt).Registering records := by
  obtain ⟨call, moments⟩ := attempt
  cases call with
  | define definition => exact .drafting rfl (define_drafts definition) trivial (Or.inl rfl)
  | activate id => exact .activating rfl (activate_activates id)
  | _ => exact registers.elim

theorem begin_not_succeeds {definition : Definition}
    (defines : attempt.call.draft? = some definition) : ¬ (begin attempt).Succeeds := by
  intro succeeds
  obtain ⟨call, moments⟩ := attempt
  cases call with
  | define definition =>
    obtain ⟨value, rest⟩ := succeeds
    have drafts := define_drafts definition
    have ended : (Engine.define definition).run = .done (.ok value) := rest
    rw [ended] at drafts
    cases drafts
  | _ => cases defines

variable {client : Client attempt} {records after : MemoryStore} {added : Option Definition}

theorem Registering.stored (stage : client.Registering records) {definition : Definition}
    (defines : attempt.call.draft? = some definition) (succeeds : client.Succeeds) :
    definition.fullName ∈ records.names := by
  obtain ⟨value, rest⟩ := succeeds
  cases stage with
  | activating other _ => cases other.symm.trans defines
  | drafting same drafts holds _ =>
    cases same.symm.trans defines
    rw [rest] at drafts
    cases drafts
    exact holds

/-- A call is not concerned by what another one adds, unless they are rivals under way at once. -/
theorem Registering.frame (stage : client.Registering records)
    (registers : records.Registers added after)
    (apart : client.isBusy = true → ∀ definition, attempt.call.draft? = some definition →
      ∀ draft, added = some draft → ¬ definition.Rivals draft) : client.Registering after := by
  cases stage with
  | activating other uses => exact .activating other uses
  | @drafting definition phase defines drafts holds begun =>
    cases rest : client.rest with
    | done result =>
      have ended := drafts
      rw [rest] at ended
      cases ended with
      | failed failure =>
        have failed : client.rest.Drafts definition .begun := rest ▸ .failed failure
        exact .drafting defines failed trivial (Or.inl rfl)
      | stored value => exact .drafting defines drafts (registers.names_mono holds) begun
    | request operation next =>
      have different (asked : 0 < client.asked) : ∀ draft, added = some draft →
          ¬ definition.Rivals draft := by
        refine apart ?_ definition defines
        simp [isBusy, asked, rest, Program.isDone]
      have unnamed (asked : 0 < client.asked) (new : definition.fullName ∉ records.names) :
          definition.fullName ∉ after.names :=
        registers.not_mem_names new fun draft adds same =>
          different asked draft adds (Or.inr same.symm)
      refine .drafting defines drafts ?_ begun
      cases phase with
      | begun => trivial
      | stored => exact registers.names_mono holds
      | unnamed => exact unnamed (begun.resolve_left nofun) holds
      | unknown =>
        have asked := begun.resolve_left nofun
        refine ⟨unnamed asked holds.1, ?_⟩
        exact registers.not_mem_ids holds.2 fun draft adds same =>
          different asked draft adds (Or.inl same.symm)

/-- What a request of a call does: only a call under way adds a definition, which is its own, and a
call returns with success where the name of its definition was new. -/
structure Registered (client : Client attempt) (records : MemoryStore) (next : Client attempt)
    (added : Option Definition) (after : MemoryStore) : Prop where
  registers : records.Registers added after
  stage : next.Registering after
  own : ∀ draft, added = some draft → client.isBusy = true ∧ ∃ definition,
    attempt.call.draft? = some definition ∧ draft.fullName = definition.fullName ∧
      draft.id = definition.id
  first : ∀ definition, attempt.call.draft? = some definition → next.Succeeds →
    definition.fullName ∉ records.names

theorem Registered.goes_on {definition : Definition} {phase : Registration}
    {rest : Program (Except Failure attempt.Answer)} {view : World}
    (defines : attempt.call.draft? = some definition) (drafts : rest.Drafts definition phase)
    (holds : phase.Holds records definition) (early : phase ≠ .stored) (asked : 0 < view.asked) :
    client.Registered records (client.resume rest view) none records where
  registers := .leaves
  stage := .drafting defines drafts holds (Or.inr asked)
  own _ impossible := nomatch impossible
  first _ _ succeeds := by
    obtain ⟨value, ended⟩ := succeeds
    have same : rest = .done (.ok value) := ended
    rw [same] at drafts
    cases drafts
    exact absurd rfl early

theorem serve_store {β : Type} (client : Client attempt) (records : MemoryStore)
    (call : StoreCall β) :
    (client.view records).serve attempt.moments (.store call) =
      match (attempt.moments client.asked).fault with
      | some failure =>
        (.error failure, { client.view records with asked := client.asked + 1 })
      | none => (.ok (records.answer call).1,
          { client.view (records.answer call).2 with asked := client.asked + 1 }) := by
  cases fault : (attempt.moments client.asked).fault with
  | some failure => simp only [World.serve, World.answer, World.callStore, view, fault]
  | none => simp only [World.serve, World.answer, World.callStore, view, fault]

theorem Registered.of_store {definition : Definition} {β : Type} {call : StoreCall β}
    {next : Except Failure β → Program (Except Failure attempt.Answer)}
    (defines : attempt.call.draft? = some definition) {answer : Except Failure β} {view : World}
    (served : (client.view records).serve attempt.moments (.store call) = (answer, view))
    (failed : ∀ failure, (next (.error failure)).Drafts definition .begun)
    (through : ∀ view : World, 0 < view.asked → ∃ added, client.Registered records
      (client.resume (next (.ok (records.answer call).1)) view) added (records.answer call).2) :
    ∃ added, client.Registered records (client.resume (next answer) view) added view.records := by
  rw [serve_store] at served
  cases fault : (attempt.moments client.asked).fault with
  | some failure =>
    rw [fault] at served
    cases served
    exact ⟨none, .goes_on defines (failed failure) trivial nofun (Nat.succ_pos _)⟩
  | none =>
    rw [fault] at served
    cases served
    exact through _ (Nat.succ_pos _)

/-- A call under way that stores a definition which it has found to be new. -/
theorem Registered.saves {definition draft : Definition}
    {rest : Program (Except Failure attempt.Answer)} {view : World}
    (defines : attempt.call.draft? = some definition) (busy : client.isBusy = true)
    (holds : Registration.unknown.Holds records definition)
    (name : draft.fullName = definition.fullName) (id : draft.id = definition.id)
    (saved : rest.Drafts definition .stored) (asked : 0 < view.asked) :
    client.Registered records (client.resume rest view) (some draft)
      (records.saveDefinition draft) := by
  have adds : records.Registers (some draft) (records.saveDefinition draft) :=
    .adds (name ▸ holds.1) (id ▸ holds.2)
  refine ⟨adds, .drafting defines saved ?_ (Or.inr asked), ?_, ?_⟩
  · change definition.fullName ∈ (records.saveDefinition draft).names
    rw [← name, adds.names_eq]
    exact List.mem_append_right _ List.mem_cons_self
  · intro other same
    cases same
    exact ⟨busy, definition, defines, name, id⟩
  · intro other same _
    cases same.symm.trans defines
    exact holds.1

theorem Registering.served (stage : client.Registering records) {β : Type} {operation : Request β}
    {next : β → Program (Except Failure attempt.Answer)}
    (asks : client.rest = .request operation next) {answer : β} {view : World}
    (served : (client.view records).serve attempt.moments operation = (answer, view)) :
    ∃ added, client.Registered records (client.resume (next answer) view) added view.records := by
  cases stage with
  | activating other uses =>
    rw [asks] at uses
    have registers := uses.1.registers attempt.moments (client.view records)
    rw [served] at registers
    refine ⟨none, registers, .activating other (uses.2 answer),
      fun draft impossible => ?_, fun definition defines => ?_⟩
    · cases impossible
    · cases other.symm.trans defines
  | @drafting definition phase defines drafts holds begun =>
    rw [asks] at drafts
    cases drafts with
    | now resume =>
      cases served
      exact ⟨none, .goes_on defines (resume _) holds (by simp) (Nat.succ_pos _)⟩
    | find failed taken free =>
      refine Registered.of_store defines served failed fun view asked => ⟨none, ?_⟩
      simp only [MemoryStore.answer]
      cases found : records.named? definition.name definition.version with
      | some other => exact .goes_on defines (taken other) trivial (by simp) asked
      | none =>
        have new : definition.fullName ∉ records.names := MemoryStore.named?_eq_none.mp found
        exact .goes_on defines free new (by simp) asked
    | load failed taken free =>
      refine Registered.of_store defines served failed fun view asked => ⟨none, ?_⟩
      simp only [MemoryStore.answer]
      cases found : records.definition? definition.id with
      | some other => exact .goes_on defines (taken other) trivial (by simp) asked
      | none =>
        have new : definition.id ∉ records.ids := MemoryStore.definition?_eq_none.mp found
        exact .goes_on defines free ⟨holds, new⟩ (by simp) asked
    | @save draft _ name id failed saved =>
      refine Registered.of_store defines served failed fun view asked => ⟨some draft, ?_⟩
      have before := begun.resolve_left (by simp)
      have busy : client.isBusy = true := by simp [isBusy, before, asks, Program.isDone]
      exact .saves defines busy holds name id saved asked

end Client

namespace System

variable {attempts : Nat → Attempt} {system : System attempts}

/-- Calls that store rivals are not under way at once. -/
def InTurn (system : System attempts) : Prop :=
  ∀ i j first second, i ≠ j → (attempts i).call.draft? = some first →
    (attempts j).call.draft? = some second → first.Rivals second →
      ¬ ((system.clients i).isBusy = true ∧ (system.clients j).isBusy = true)

/-- Of calls that store definitions with one name and version at most one has succeeded. -/
def Exclusive (system : System attempts) : Prop :=
  ∀ i j first second, i ≠ j → (attempts i).call.draft? = some first →
    (attempts j).call.draft? = some second → first.fullName = second.fullName →
      ¬ ((system.clients i).Succeeds ∧ (system.clients j).Succeeds)

structure Registry (system : System attempts) : Prop where
  apart : system.records.Apart
  exclusive : system.Exclusive
  stages : ∀ i, (system.clients i).Registering system.records

theorem Registry.serves (registry : system.Registry) (inTurn : system.InTurn) {i : Nat}
    {client : Client (attempts i)} {added : Option Definition} {records : MemoryStore}
    (registered : (system.clients i).Registered system.records client added records)
    {locks : LockTable Nat} {written : List Nat} :
    { records, locks, clients := Function.update system.clients i client, written :
      System attempts }.Registry where
  apart := registered.registers.apart registry.apart
  exclusive k l first second different defines other same both := by
    -- The call that returns with success is not the one that had the name before.
    have apart (j : Nat) (mine theirs : Definition) (named : mine.fullName = theirs.fullName)
        (own : (attempts i).call.draft? = some mine) (foreign : (attempts j).call.draft? = some theirs)
        (returns : client.Succeeds) (returned : (system.clients j).Succeeds) : False :=
      registered.first mine own returns (named ▸ (registry.stages j).stored foreign returned)
    obtain ⟨here, there⟩ := both
    by_cases early : k = i
    · subst early
      simp only [Function.update_self, Function.update_of_ne (Ne.symm different)] at here there
      exact apart l first second same defines other here there
    by_cases late : l = i
    · subst late
      simp only [Function.update_self, Function.update_of_ne different] at here there
      exact apart k second first same.symm other defines there here
    simp only [Function.update_of_ne early, Function.update_of_ne late] at here there
    exact registry.exclusive k l first second different defines other same ⟨here, there⟩
  stages := by
    refine (Function.forall_update_iff system.clients fun _ other =>
      other.Registering records).mpr ⟨registered.stage, fun j different => ?_⟩
    refine (registry.stages j).frame registered.registers ?_
    intro busy definition defines draft adds rivals
    obtain ⟨under, own, mine, name, id⟩ := registered.own draft adds
    refine inTurn j i definition own different defines mine ?_ ⟨busy, under⟩
    rw [Definition.Rivals, ← id, ← name]
    exact rivals

theorem Registry.step (registry : system.Registry) (inTurn : system.InTurn) (i : Nat) :
    (system.step i).Registry ∧ system.records.Retained (system.step i).records := by
  cases rest : (system.clients i).rest with
  | done result =>
    rw [step_done rest]
    exact ⟨registry, .refl _⟩
  | request operation next =>
    cases free : operation.isBlocked i system.locks with
    | true =>
      rw [step_blocked rest free]
      exact ⟨⟨registry.apart, registry.exclusive, registry.stages⟩, .refl _⟩
    | false =>
      generalize served :
        ((system.clients i).view system.records).serve (attempts i).moments operation = reply
      obtain ⟨answer, view⟩ := reply
      rw [step_served rest free served]
      obtain ⟨added, registered⟩ := (registry.stages i).served rest served
      exact ⟨registry.serves inTurn registered, registered.registers.retained⟩

theorem Registry.run {schedule : List Nat} (registry : system.Registry)
    (inTurn : ∀ before after, schedule = before ++ after → (system.run before).InTurn) :
    (system.run schedule).Registry ∧ system.records.Retained (system.run schedule).records := by
  induction schedule generalizing system with
  | nil => exact ⟨registry, .refl _⟩
  | cons i rest ih =>
    obtain ⟨next, kept⟩ := registry.step (inTurn [] (i :: rest) rfl) i
    obtain ⟨last, retained⟩ := ih next fun before after split =>
      inTurn (i :: before) after (congrArg (i :: ·) split)
    exact ⟨last, kept.trans retained⟩

end System

variable {attempts : Nat → Attempt} {records : MemoryStore}

/-- Whatever the order in which the steps of the calls are taken, as long as calls that store
definitions with one name and version or with one identifier take turns, definitions are kept apart,
at most one of these calls succeeds, and what is stored stays. -/
theorem registrations_in_turn (apart : records.Apart) (registers : ∀ i, (attempts i).call.Registers)
    (schedule : List Nat)
    (inTurn : ∀ before after, schedule = before ++ after →
      ((System.begin attempts records).run before).InTurn) :
    ((System.begin attempts records).run schedule).records.Apart ∧
      ((System.begin attempts records).run schedule).Exclusive ∧
      ∀ before after, schedule = before ++ after →
        ((System.begin attempts records).run before).records.Retained
          ((System.begin attempts records).run schedule).records := by
  have start : (System.begin attempts records).Registry := by
    refine ⟨apart, ?_, fun i => Client.begin_registering (registers i) records⟩
    exact fun i _ _ _ _ defines _ _ both => Client.begin_not_succeeds defines both.1
  obtain ⟨registry, _⟩ := start.run inTurn
  refine ⟨registry.apart, registry.exclusive, fun before after split => ?_⟩
  subst split
  obtain ⟨middle, _⟩ := @System.Registry.run _ _ before start fun first rest split =>
    inTurn first (rest ++ after) (by rw [split, List.append_assoc])
  rw [System.run_append]
  refine (middle.run fun first rest split => ?_).2
  rw [← System.run_append]
  exact inTurn (before ++ first) rest (by rw [split, List.append_assoc])

/-- An article, another one with its name and version, another definition with its identifier, and
any number of attempts to make it active. -/
def articleEditions : Nat → Attempt
  | 0 => ⟨.define article, calm 10⟩
  | 1 => ⟨.define { article with id := Uuid.ofNat 2 }, calm 20⟩
  | 2 => ⟨.define { article with name := "report" }, calm 30⟩
  | _ + 3 => ⟨.activate article.id, calm 40⟩

def articleEdited (schedule : List Nat) : System articleEditions :=
  (System.begin articleEditions {}).run schedule

/-- One edition after the other is defined, of which the first is stored. -/
theorem article_editions_in_turn :
    (articleEdited [0, 0, 0, 0, 3, 3, 1, 2, 2]).records.Apart ∧
      (articleEdited [0, 0, 0, 0, 3, 3, 1, 2, 2]).Exclusive ∧
      (articleEdited [0, 0, 0, 0, 3, 3, 1, 2, 2]).records.ids = [article.id] := by
  have registers (i : Nat) : (articleEditions i).call.Registers := by
    match i with
    | 0 | 1 | 2 | _ + 3 => trivial
  have turns : ∀ before ∈ [0, 0, 0, 0, 3, 3, 1, 2, 2].inits, ∀ i < 3, ∀ j < 3, i ≠ j →
      ¬ (((articleEdited before).clients i).isBusy = true ∧
        ((articleEdited before).clients j).isBusy = true) := by
    decide +kernel
  have few {i : Nat} {definition : Definition}
      (defines : (articleEditions i).call.draft? = some definition) : i < 3 := by
    match i with
    | 0 | 1 | 2 => decide
    | _ + 3 => cases defines
  have empty : MemoryStore.Apart {} := ⟨List.nodup_nil, List.nodup_nil⟩
  obtain ⟨apart, exclusive, _⟩ := registrations_in_turn empty registers
    [0, 0, 0, 0, 3, 3, 1, 2, 2] fun before after split i j first second different defines other _ =>
      turns before ((List.mem_inits before _).mpr ⟨after, split.symm⟩) i (few defines) j (few other)
        different
  exact ⟨apart, exclusive, by decide +kernel⟩

/-- Where the three look for the name and the identifier before one of them is stored, two editions
with one name and version are stored with success, and the active one is replaced by the third. -/
theorem racing_editions_collide :
    ¬ (articleEdited [0, 0, 1, 1, 2, 2, 0, 0, 3, 3, 1, 1]).records.Apart ∧
      ¬ (articleEdited [0, 0, 1, 1, 2, 2, 0, 0, 3, 3, 1, 1]).Exclusive ∧
      ¬ (articleEdited [0, 0, 1, 1, 2, 2, 0, 0, 3, 3, 1, 1]).records.Retained
        (articleEdited [0, 0, 1, 1, 2, 2, 0, 0, 3, 3, 1, 1, 2, 2]).records := by
  refine ⟨fun apart => ?_, fun exclusive => ?_, fun retained => ?_⟩
  · have twice : ¬ (articleEdited [0, 0, 1, 1, 2, 2, 0, 0, 3, 3, 1, 1]).records.names.Nodup := by
      decide +kernel
    exact twice apart.names
  · exact exclusive 0 1 _ _ (by decide) rfl rfl rfl ⟨⟨_, rfl⟩, ⟨_, rfl⟩⟩
  · have active : (article.id, DefinitionStatus.active) ∈
        (articleEdited [0, 0, 1, 1, 2, 2, 0, 0, 3, 3, 1, 1]).records.definitions.map
          fun definition => (definition.id, definition.status) := by decide +kernel
    have gone : (article.id, DefinitionStatus.active) ∉
        (articleEdited [0, 0, 1, 1, 2, 2, 0, 0, 3, 3, 1, 1, 2, 2]).records.definitions.map
          fun definition => (definition.id, definition.status) := by decide +kernel
    obtain ⟨definition, member, same⟩ := List.mem_map.mp active
    rcases retained definition member with kept | ⟨draft, _⟩
    · exact gone (List.mem_map.mpr ⟨definition, kept, same⟩)
    · cases draft.symm.trans (congrArg Prod.snd same)

end Workflow
