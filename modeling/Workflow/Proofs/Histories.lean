import Workflow.Proofs.EngineCalls

/-! Histories of calls, one after another over records in memory. Failing calls belong to them as
much as successful ones; the identifiers that are drawn in a history are all different. -/

namespace Workflow

/-- A call with the moments of its requests. -/
structure Attempt where
  {Answer : Type}
  call : EngineCall Answer
  moments : Moments

namespace World

def perform (world : World) (attempt : Attempt) : Except Failure attempt.Answer × World :=
  run attempt.moments attempt.call.operation.run { world with asked := 0 }

def after (world : World) (attempts : List Attempt) : World :=
  attempts.foldl (fun world attempt => (world.perform attempt).2) world

end World

def Attempt.Within (attempt : Attempt) (permits : Moment → Prop) : Prop :=
  ∀ n, permits (attempt.moments n)

/-- The worlds that calls lead to from no records at all. -/
inductive Reachable (permits : Moment → Prop) : World → Prop where
  | empty : Reachable permits {}
  | perform {world : World} (reached : Reachable permits world) (attempt : Attempt)
      (within : attempt.Within permits) (fresh : (world.perform attempt).2.drawn.Nodup) :
      Reachable permits (world.perform attempt).2

namespace World

variable {permits : Moment → Prop}

/-- What a call does does not depend on how many requests others have made. -/
theorem perform_serves (world : World) (attempt : Attempt) (within : attempt.Within permits) :
    Serves permits world attempt.call (world.perform attempt).1 (world.perform attempt).2 := by
  have ends : Ends attempt.moments attempt.call.operation { world with asked := 0 } _ :=
    call_serves within attempt.call
  exact ends

theorem perform_start (world : World) (id : Uuid) (data : Json.Members) (startedBy : String)
    {moments : Moments} (within : ∀ n, permits (moments n)) :
    Begins permits world id data startedBy (world.perform ⟨.start id data startedBy, moments⟩).1
      (world.perform ⟨.start id data startedBy, moments⟩).2 := by
  have ends : Ends moments (Engine.start id data startedBy) { world with asked := 0 } _ :=
    start_ends within id data startedBy
  exact ends

theorem perform_complete (world : World) (id : Uuid) (data : Json.Members) (principal : String)
    {moments : Moments} (within : ∀ n, permits (moments n)) :
    Completes permits world id data principal
      (world.perform ⟨.complete id data principal, moments⟩).1
      (world.perform ⟨.complete id data principal, moments⟩).2 := by
  have ends : Ends moments (Engine.complete id data principal) { world with asked := 0 } _ :=
    complete_ends within id data principal
  exact ends

theorem drawn_perform (world : World) (attempt : Attempt) :
    ∃ drawn, (world.perform attempt).2.drawn = drawn ++ world.drawn := by
  obtain ⟨drawn, grown⟩ := @drawn_grows attempt.moments { world with asked := 0 } _
    attempt.call.operation.run
  exact ⟨drawn, grown⟩

variable {world : World}

theorem after_append (first last : List Attempt) :
    world.after (first ++ last) = (world.after first).after last :=
  List.foldl_append

theorem drawn_after (attempts : List Attempt) :
    ∃ drawn, (world.after attempts).drawn = drawn ++ world.drawn := by
  induction attempts generalizing world with
  | nil => exact ⟨[], rfl⟩
  | cons attempt rest ih =>
    obtain ⟨later, grown⟩ := @ih (world.perform attempt).2
    obtain ⟨first, start⟩ := world.drawn_perform attempt
    exact ⟨later ++ first, by rw [after, List.foldl_cons, ← after, grown, start, List.append_assoc]⟩

theorem fresh_perform {attempt : Attempt} {rest : List Attempt}
    (fresh : (world.after (attempt :: rest)).drawn.Nodup) :
    (world.perform attempt).2.drawn.Nodup := by
  obtain ⟨later, grown⟩ := (world.perform attempt).2.drawn_after rest
  have all : ((world.perform attempt).2.after rest).drawn.Nodup := fresh
  rw [grown] at all
  exact (List.nodup_append.mp all).2.1

theorem fresh_append {before after : List Attempt}
    (fresh : (world.after (before ++ after)).drawn.Nodup) : (world.after before).drawn.Nodup := by
  obtain ⟨later, grown⟩ := (world.after before).drawn_after after
  rw [after_append, grown] at fresh
  exact (List.nodup_append.mp fresh).2.1

end World

namespace Reachable

variable {permits : Moment → Prop} {world : World}

theorem fresh (reached : Reachable permits world) : world.drawn.Nodup := by
  cases reached with
  | empty => exact List.nodup_nil
  | perform _ _ _ fresh => exact fresh

theorem after (reached : Reachable permits world) (attempts : List Attempt)
    (within : ∀ attempt ∈ attempts, attempt.Within permits)
    (fresh : (world.after attempts).drawn.Nodup) : Reachable permits (world.after attempts) := by
  induction attempts generalizing world with
  | nil => exact reached
  | cons attempt rest ih =>
    have first := within attempt List.mem_cons_self
    refine ih (.perform reached attempt first (World.fresh_perform fresh)) ?_ fresh
    intro other member
    exact within other (List.mem_cons_of_mem _ member)

theorem mono {wider : Moment → Prop} (reached : Reachable permits world)
    (implies : ∀ moment, permits moment → wider moment) : Reachable wider world := by
  induction reached with
  | empty => exact .empty
  | perform _ attempt within fresh ih =>
    exact .perform ih attempt (fun n => implies _ (within n)) fresh

end Reachable

def article : Definition :=
  .make (Uuid.ofNat 1) "article" "1" "write" [
    { id := "write", kind := .task, transitions := [.always "fork"] },
    { id := "fork", kind := .gateway, transitions := [.always "review", .always "print"] },
    { id := "review", kind := .approval, assign := some { role := some "editor" },
      transitions := [.always "end"] },
    { id := "print", kind := .task, transitions := [.always "end"] },
    { id := "end", kind := .finish }]

/-- Moments of a directory in which every role is held by one principal, without failures; the
identifiers are numbered from a given number on. -/
def calm (first : Nat) : Moments := fun n =>
  { holders := fun _ => .ok ["ada"]
    hasRole := fun principal _ => .ok (principal = "ada")
    now := .epoch
    freshId := Uuid.ofNat (first + n) }

def articleBegins : List Attempt := [
  ⟨.define article, calm 10⟩,
  ⟨.activate article.id, calm 20⟩,
  ⟨.start article.id [] "ada", calm 30⟩]

/-- The first task of the article is completed as well, so that two follow. -/
def articleForks : List Attempt :=
  articleBegins ++ [⟨.complete (Uuid.ofNat 33) [] "ada", calm 40⟩]

theorem article_forks {permits : Moment → Prop} (within : ∀ first n, permits (calm first n)) :
    Reachable permits (({} : World).after articleForks) := by
  refine Reachable.empty.after articleForks ?_ (by decide)
  intro attempt member n
  simp only [articleForks, articleBegins, List.cons_append, List.nil_append, List.mem_cons,
    List.not_mem_nil, or_false] at member
  rcases member with rfl | rfl | rfl | rfl
  all_goals exact within _ n

end Workflow
