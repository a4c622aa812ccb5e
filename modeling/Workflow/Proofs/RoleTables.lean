import Workflow.Proofs.Directories
import Workflow.Proofs.Indifference

/-! Tables of roles. However a table is put together, it says the same of a principal whether it is
asked for the holders of a role, for the roles of the principal or for both; so the task of a role is
given to somebody who may complete it, if there is anybody. -/

namespace Workflow

open World

section Texts

variable {text other : String} {texts : List String}

theorem below_all (less : text < other) (above : ∀ one ∈ texts, other < one) :
    ∀ one ∈ other :: texts, text < one :=
  List.forall_mem_cons.mpr ⟨less, fun one member => String.lt_trans less (above one member)⟩

theorem mem_insertText : other ∈ insertText text texts ↔ other = text ∨ other ∈ texts := by
  induction texts with
  | nil => simp only [insertText, List.mem_cons]
  | cons first rest ih =>
    unfold insertText
    split
    · exact List.mem_cons
    split
    next same => simp only [same, List.mem_cons, or_self_left]
    next => rw [List.mem_cons, ih, List.mem_cons, or_left_comm]

theorem insertText_ordered (ordered : texts.Pairwise (· < ·)) :
    (insertText text texts).Pairwise (· < ·) := by
  induction texts with
  | nil => exact List.pairwise_singleton _ _
  | cons first rest ih =>
    obtain ⟨above, later⟩ := List.pairwise_cons.mp ordered
    unfold insertText
    split
    next less =>
      exact List.pairwise_cons.mpr ⟨below_all less above, ordered⟩
    next least =>
      split
      · exact ordered
      next different =>
        have less : first < text := Std.lt_of_le_of_ne (String.not_lt.mp least) (Ne.symm different)
        refine List.pairwise_cons.mpr ⟨fun one member => ?_, ih later⟩
        rcases mem_insertText.mp member with rfl | old
        · exact less
        · exact above one old

end Texts

namespace Directory

section Members

variable {principal : String} {principals members : List String}

theorem mem_addAll :
    principal ∈ addAll principals members ↔ principal ∈ principals ∨ principal ∈ members := by
  induction principals generalizing members with
  | nil => simp only [addAll, List.foldl_nil, List.not_mem_nil, false_or]
  | cons first rest ih =>
    have later := @ih (insertText first members)
    rw [mem_insertText] at later
    rw [addAll, List.foldl_cons, List.mem_cons, or_assoc, or_left_comm]
    exact later

theorem addAll_ordered (ordered : members.Pairwise (· < ·)) :
    (addAll principals members).Pairwise (· < ·) := by
  induction principals generalizing members with
  | nil => exact ordered
  | cons first rest ih => exact ih (insertText_ordered ordered)

end Members

section Tables

variable {role asked : String} {update : List String → List String}
  {table : List (String × List String)}

theorem mem_change {entry : String × List String} (member : entry ∈ change role update table) :
    entry ∈ table ∨ entry.1 = role ∧ (entry.2 = update [] ∨ ∃ old, (role, old) ∈ table ∧
      entry.2 = update old) := by
  induction table with
  | nil =>
    rw [List.mem_singleton.mp member]
    exact Or.inr ⟨rfl, Or.inl rfl⟩
  | cons first rest ih =>
    obtain ⟨other, principals⟩ := first
    unfold change at member
    split at member
    · rcases List.mem_cons.mp member with rfl | old
      · exact Or.inr ⟨rfl, Or.inl rfl⟩
      · exact Or.inl old
    split at member
    next same =>
      subst same
      rcases List.mem_cons.mp member with rfl | old
      · exact Or.inr ⟨rfl, Or.inr ⟨principals, List.mem_cons_self, rfl⟩⟩
      · exact Or.inl (List.mem_cons_of_mem _ old)
    · rcases List.mem_cons.mp member with rfl | later
      · exact Or.inl List.mem_cons_self
      · refine (ih later).imp (List.mem_cons_of_mem _) (And.imp_right (Or.imp_right ?_))
        rintro ⟨old, here, same⟩
        exact ⟨old, List.mem_cons_of_mem _ here, same⟩

theorem change_ordered (ordered : (table.map Prod.fst).Pairwise (· < ·)) :
    ((change role update table).map Prod.fst).Pairwise (· < ·) := by
  induction table with
  | nil => exact List.pairwise_singleton _ _
  | cons first rest ih =>
    obtain ⟨other, principals⟩ := first
    obtain ⟨above, later⟩ := List.pairwise_cons.mp ordered
    unfold change
    split
    next less =>
      exact List.pairwise_cons.mpr ⟨below_all less above, ordered⟩
    next least =>
      split
      · exact ordered
      next different =>
        have less : other < role := Std.lt_of_le_of_ne (String.not_lt.mp least) (Ne.symm different)
        refine List.pairwise_cons.mpr ⟨fun one member => ?_, ih later⟩
        obtain ⟨entry, here, rfl⟩ := List.mem_map.mp member
        rcases mem_change here with old | ⟨same, _⟩
        · exact above _ (List.mem_map.mpr ⟨entry, old, rfl⟩)
        · exact same ▸ less

theorem lookup_cons_if {members : List String} {rest : List (String × List String)} :
    List.lookup asked ((role, members) :: rest) =
      if asked = role then some members else List.lookup asked rest := by
  by_cases same : asked = role
  · rw [same, List.lookup_cons_self, if_pos rfl]
  · rw [List.lookup_cons, beq_false_of_ne same, if_neg same]

theorem lookup_eq_none (above : ∀ other ∈ table.map Prod.fst, role < other) :
    table.lookup role = none := by
  refine List.lookup_eq_none_iff.mpr fun entry member => bne_iff_ne.mpr fun same => ?_
  have less := above entry.1 (List.mem_map.mpr ⟨entry, member, rfl⟩)
  exact String.lt_irrefl _ (same ▸ less)

theorem lookup_eq_some (ordered : (table.map Prod.fst).Pairwise (· < ·)) {members : List String} :
    table.lookup role = some members ↔ (role, members) ∈ table := by
  induction table with
  | nil => exact ⟨nofun, nofun⟩
  | cons first rest ih =>
    obtain ⟨other, principals⟩ := first
    obtain ⟨above, later⟩ := List.pairwise_cons.mp ordered
    rw [lookup_cons_if, List.mem_cons, Prod.mk.injEq]
    split
    next same =>
      subst same
      have absent : (role, members) ∉ rest := fun member =>
        String.lt_irrefl _ (above _ (List.mem_map.mpr ⟨_, member, rfl⟩))
      simp only [absent, or_false, true_and, Option.some.injEq, eq_comm]
    next different => simp only [different, false_and, false_or, ih later]

/-- In a table in order only the entry of the role changes, or it is added. -/
theorem lookup_change (ordered : (table.map Prod.fst).Pairwise (· < ·)) :
    (change role update table).lookup asked =
      if asked = role then some (update ((table.lookup role).getD [])) else table.lookup asked := by
  induction table with
  | nil => exact lookup_cons_if
  | cons first rest ih =>
    obtain ⟨other, principals⟩ := first
    obtain ⟨above, later⟩ := List.pairwise_cons.mp ordered
    unfold change
    split
    next less =>
      have absent : List.lookup role ((other, principals) :: rest) = none :=
        lookup_eq_none (below_all less above)
      rw [absent, lookup_cons_if, Option.getD_none]
    split
    next same =>
      subst same
      simp only [lookup_cons_if, if_true, Option.getD_some]
      split <;> rfl
    next different =>
      simp only [lookup_cons_if, ih later, if_neg different]
      split
      next same => rw [if_neg (fun equal => different (equal.symm.trans same))]
      next => rfl

structure InOrder (table : List (String × List String)) : Prop where
  roles : (table.map Prod.fst).Pairwise (· < ·)
  members : ∀ entry ∈ table, entry.2.Pairwise (· < ·)

theorem InOrder.nil : InOrder [] :=
  ⟨.nil, fun _ none => nomatch none⟩

theorem InOrder.change (ordered : InOrder table)
    (keeps : ∀ {members : List String}, members.Pairwise (· < ·) →
      (update members).Pairwise (· < ·)) :
    InOrder (change role update table) where
  roles := change_ordered ordered.roles
  members entry member := by
    rcases mem_change member with old | ⟨_, new | ⟨members, here, changed⟩⟩
    · exact ordered.members entry old
    · exact new ▸ keeps .nil
    · exact changed ▸ keeps (ordered.members _ here)

theorem foldl_change (ordered : InOrder table) (entries : List (String × List String)) :
    InOrder (entries.foldl
        (fun roles entry => Directory.change entry.1 (fun _ => addAll entry.2 []) roles) table) ∧
      ∀ asked, List.lookup asked (entries.foldl
          (fun roles entry => Directory.change entry.1 (fun _ => addAll entry.2 []) roles) table) =
        ((entries.reverse.lookup asked).map (addAll · [])).or (table.lookup asked) := by
  induction entries generalizing table with
  | nil => exact ⟨ordered, fun _ => rfl⟩
  | cons first rest ih =>
    have changed : InOrder (Directory.change first.1 (fun _ => addAll first.2 []) table) :=
      ordered.change fun _ => addAll_ordered .nil
    obtain ⟨kept, found⟩ := ih changed
    refine ⟨kept, fun asked => ?_⟩
    rw [List.foldl_cons, found, List.reverse_cons, List.lookup_append, lookup_change ordered.roles]
    cases rest.reverse.lookup asked with
    | some members => rfl
    | none =>
      obtain ⟨role, members⟩ := first
      rw [lookup_cons_if]
      split <;> rfl

end Tables

/-- A directory that has been put together from a table of roles, or from nothing, by adding
principals to roles, with what has been granted to whom by then. -/
inductive Built : Directory → (String → String → Prop) → Prop where
  | empty : Built {} fun _ _ => False
  | table (entries : List (String × List String)) : Built (ofTable entries) fun principal role =>
      ∃ members, entries.reverse.lookup role = some members ∧ principal ∈ members
  | withRole {directory : Directory} {grants : String → String → Prop}
      (built : Built directory grants) (role : String) (principals : List String) :
      Built (directory.withRole role principals) fun principal other =>
        other = role ∧ principal ∈ principals ∨ grants principal other
  | grant {directory : Directory} {grants : String → String → Prop}
      (built : Built directory grants) (role principal : String) :
      Built (directory.grant role principal) fun one other =>
        other = role ∧ one = principal ∨ grants one other

structure Shows (directory : Directory) (grants : String → String → Prop) : Prop where
  ordered : InOrder directory.roles
  granted : ∀ principal role, principal ∈ directory.holders role ↔ grants principal role

variable {directory : Directory} {grants : String → String → Prop} {principal role : String}

theorem Shows.withRole (shows : directory.Shows grants) (role : String) (principals : List String) :
    (directory.withRole role principals).Shows fun principal other =>
      other = role ∧ principal ∈ principals ∨ grants principal other where
  ordered := shows.ordered.change addAll_ordered
  granted principal other := by
    rw [← shows.granted, holders, Directory.withRole, lookup_change shows.ordered.roles]
    split
    next same => simp only [Option.getD_some, mem_addAll, same, true_and, holders]
    next different => simp only [different, false_and, false_or, holders]

theorem Built.shows (built : directory.Built grants) : directory.Shows grants := by
  induction built with
  | empty => exact ⟨.nil, fun _ _ => by simp [holders]⟩
  | table entries =>
    obtain ⟨ordered, found⟩ := foldl_change .nil entries
    refine ⟨ordered, fun principal role => ?_⟩
    rw [holders, ofTable, found]
    cases entries.reverse.lookup role with
    | none => simp
    | some members => simp [mem_addAll]
  | withRole _ role principals shows => exact shows.withRole role principals
  | grant _ role principal shows =>
    have shows := shows.withRole role [principal]
    simp only [List.mem_singleton] at shows
    exact shows

theorem Shows.mem_rolesOf (shows : directory.Shows grants) :
    role ∈ directory.rolesOf principal ↔ grants principal role := by
  rw [← shows.granted, rolesOf, List.mem_map, holders]
  constructor
  · rintro ⟨⟨_, members⟩, member, rfl⟩
    obtain ⟨here, held⟩ := List.mem_filter.mp member
    rw [(lookup_eq_some shows.ordered.roles).mpr here]
    exact List.contains_iff_mem.mp held
  · intro held
    cases found : directory.roles.lookup role with
    | none => rw [found] at held; cases held
    | some members =>
      rw [found] at held
      refine ⟨(role, members), List.mem_filter.mpr ⟨?_, List.contains_iff_mem.mpr held⟩, rfl⟩
      exact (lookup_eq_some shows.ordered.roles).mp found

theorem hasRole_iff : directory.hasRole principal role = true ↔ principal ∈ directory.holders role :=
  List.contains_iff_mem

theorem Shows.holders_ordered (shows : directory.Shows grants) (role : String) :
    (directory.holders role).Pairwise (· < ·) := by
  rw [holders]
  cases found : directory.roles.lookup role with
  | none => exact .nil
  | some members =>
    exact shows.ordered.members _ ((lookup_eq_some shows.ordered.roles).mp found)

def Serves (directory : Directory) : Moment → Prop :=
  Served directory.holders directory.hasRole

/-- A task of a role is for its least holder, if it has one, and for all its holders to complete. -/
structure Assigns (directory : Directory) (role : String) (task : Task) : Prop where
  assigned : task.assignedRole = some role
  least : ∀ principal, task.assignee = some principal ↔
    principal ∈ directory.holders role ∧ ∀ other ∈ directory.holders role, principal ≤ other
  vacant : task.assignee = none ↔ directory.holders role = []
  admits : ∀ principal moments world, (∀ n, directory.Serves (moments n)) →
    (run moments (Engine.authorize task principal).run world).1 =
      if principal ∈ directory.holders role then .ok () else .error (.notAllowed principal task.id)

theorem assigns_of_least {task : Task} (assigned : task.assignedRole = some role)
    (owned : task.assignee = Workflow.least (directory.holders role)) :
    directory.Assigns role task where
  assigned
  least principal := by rw [owned, least_eq_some]
  vacant := by rw [owned, least_eq_none]
  admits principal moments world serves := by
    have authorized : Authorized directory.hasRole task principal ↔
        principal ∈ directory.holders role := by
      simp only [Authorized, Entitled, assigned, owned, least_eq_some, Option.some.injEq,
        exists_eq_left', hasRole_iff, reduceCtorEq, and_false, or_false]
      exact or_iff_right_of_imp And.left
    obtain ⟨holder, passed⟩ | ⟨stranger, refused⟩ :=
      @authorize_served _ _ moments world serves task principal
    · rw [passed, if_pos (authorized.mp holder)]
    · rw [refused, if_neg (mt authorized.mpr stranger)]

end Directory

def Step.LeavesTo (step : Step) (data : Json.Members) (role : String) : Prop :=
  ∃ rule, step.assign = some rule ∧ rule.direct? data = none ∧ rule.role.bind nonEmpty = some role

/-- A task for a step that is left to a role is a task of that role. -/
theorem createTask_assigns {directory : Directory} {role : String} {target : Instance} {step : Step}
    (leaves : step.LeavesTo target.data role) (acting : String) (now : Timestamp) {moments : Moments}
    {world : World} (serves : ∀ n, directory.Serves (moments n)) : ∃ task,
      (run moments (Engine.createTask target step acting now).run world).1 = .ok task ∧
        directory.Assigns role task := by
  obtain ⟨rule, ruled, unnamed, named⟩ := leaves
  obtain ⟨id, made⟩ := @createTask_served _ _ moments world serves target step acting now
  refine ⟨_, made, Directory.assigns_of_least ?_ ?_⟩
  · simp only [Task.make, AssignmentRule.assignment, ruled, unnamed, named]
  · simp only [Task.make, AssignmentRule.assignment, ruled, unnamed, named]

/-- The same principals, in whatever order and however often each of them. -/
def SameMembers (listed others : List String) : Prop :=
  ∀ principal, principal ∈ listed ↔ principal ∈ others

theorem resolve_role {rule : AssignmentRule} {data : Json.Members} {role : String}
    (unnamed : rule.direct? data = none) (named : rule.role.bind nonEmpty = some role)
    (acting : String) (moments : Moments) (world : World) :
    (run moments (AssignmentRule.resolve (some rule) data acting).run world).1 =
      ((moments world.asked).holders role).map fun holders =>
        { principal := least holders, role := some role } := by
  have asked : Ends moments (Operation.attempt (.holders role)) world fun result _ =>
      result = (moments world.asked).holders role := Ends.attempt rfl
  have resolves : Ends moments (AssignmentRule.resolve (some rule) data acting) world
      fun result _ => result = ((moments world.asked).holders role).map fun holders =>
        { principal := least holders, role := some role } := by
    simp only [AssignmentRule.resolve, unnamed, named]
    refine asked.bind (fun failure _ told => ?_) fun holders _ told => ?_
    · rw [← told]
      rfl
    · rw [← told]
      exact Ends.pure rfl
  exact resolves

/-- What a rule resolves to does not depend on the order in which holders are listed, nor on how
often each of them is. -/
theorem resolve_alike {first second : Moments} {world : World}
    (alike : ∀ n role, Accord SameMembers ((first n).holders role) ((second n).holders role))
    (rule : Option AssignmentRule) (data : Json.Members) (acting : String) :
    (run first (AssignmentRule.resolve rule data acting).run world).1 =
      (run second (AssignmentRule.resolve rule data acting).run world).1 := by
  cases rule with
  | none => rfl
  | some rule =>
    cases direct : rule.direct? data with
    | some principal =>
      simp only [AssignmentRule.resolve, direct]
      rfl
    | none =>
      cases named : rule.role.bind nonEmpty with
      | none =>
        simp only [AssignmentRule.resolve, direct, named]
        rfl
      | some role =>
        have answers := alike world.asked role
        rw [resolve_role direct named, resolve_role direct named]
        generalize (first world.asked).holders role = listed at answers ⊢
        generalize (second world.asked).holders role = others at answers ⊢
        cases answers with
        | ok same => simp only [Except.map, least_congr same]
        | error failure => rfl

/-- All views of a table of roles agree with what has been granted, each with the holders of a role in
order. A task of a step that is left to a role is for the least holder of the role, and exactly the
holders may complete it. Whatever directory is asked, it makes no difference in which order it lists
the holders, nor whether it repeats them. -/
theorem role_views_agree {directory : Directory} {grants : String → String → Prop}
    (built : directory.Built grants) (role : String) :
    (directory.holders role).Pairwise (· < ·) ∧
    (∀ principal, (principal ∈ directory.holders role ↔ grants principal role) ∧
      (directory.hasRole principal role = true ↔ grants principal role) ∧
      (role ∈ directory.rolesOf principal ↔ grants principal role)) ∧
    (∀ target step acting now moments world, step.LeavesTo target.data role →
      (∀ n, directory.Serves (moments n)) → ∃ task,
        (run moments (Engine.createTask target step acting now).run world).1 = .ok task ∧
          directory.Assigns role task) ∧
    ∀ rule data acting first second world,
      (∀ n asked, Accord SameMembers ((first n).holders asked) ((second n).holders asked)) →
        (run first (AssignmentRule.resolve rule data acting).run world).1 =
          (run second (AssignmentRule.resolve rule data acting).run world).1 := by
  have shows := built.shows
  refine ⟨shows.holders_ordered role, fun principal => ?_, ?_, ?_⟩
  · have granted := shows.granted principal role
    exact ⟨granted, Directory.hasRole_iff.trans granted, shows.mem_rolesOf⟩
  · exact fun target step acting now moments world leaves serves =>
      createTask_assigns leaves acting now serves
  · exact fun rule data acting first second world alike => resolve_alike alike rule data acting

/-- Two editors of an article, one of them twice, with a third who is made one later, and no clerk. -/
def articleRoles : Directory :=
  ((Directory.ofTable [("editor", ["eve", "bob", "eve"]), ("clerk", [])]).withRole "editor"
    ["bob"]).grant "editor" "ada"

def articleDesk : Moments := fun n =>
  { calm 40 n with
    holders := fun role => .ok (articleRoles.holders role)
    hasRole := fun principal role => .ok (articleRoles.hasRole principal role) }

/-- The same, but that holders are listed from the last one on, and then once more. -/
def untidyDesk : Moments := fun n =>
  { articleDesk n with
    holders := fun role =>
      .ok ((articleRoles.holders role).reverse ++ articleRoles.holders role) }

def roleStep (role : String) : Step :=
  { id := "review", kind := .approval, assign := some { role := some role } }

/-- The editor who comes first gets the review, and a task for a clerk is for nobody. -/
theorem article_roles_agree : ∃ grants, articleRoles.Built grants ∧
    articleRoles.holders "editor" = ["ada", "bob", "eve"] ∧
    articleRoles.holders "clerk" = [] ∧
    (∀ role ∈ ["editor", "clerk"], ∃ task,
      (run articleDesk (Engine.createTask circulated (roleStep role) "dan" .epoch).run {}).1 =
          .ok task ∧ articleRoles.Assigns role task) ∧
    (run articleDesk (AssignmentRule.resolve (roleStep "editor").assign [] "dan").run {}).1 =
      (run untidyDesk (AssignmentRule.resolve (roleStep "editor").assign [] "dan").run {}).1 := by
  have built : articleRoles.Built _ :=
    ((Directory.Built.table _).withRole "editor" ["bob"]).grant "editor" "ada"
  have serves (n : Nat) : articleRoles.Serves (articleDesk n) := ⟨fun _ => rfl, fun _ _ => rfl⟩
  have made (role : String) := (role_views_agree built role).2.2.1 circulated (roleStep role) "dan"
    .epoch articleDesk {}
  refine ⟨_, built, by decide +kernel, by decide +kernel, ?_, ?_⟩
  · refine List.forall_mem_cons.mpr ⟨?_, List.forall_mem_singleton.mpr ?_⟩
    · exact made "editor" ⟨_, rfl, rfl, rfl⟩ serves
    · exact made "clerk" ⟨_, rfl, rfl, rfl⟩ serves
  · refine (role_views_agree built "editor").2.2.2 _ _ _ articleDesk untidyDesk {} fun n role => ?_
    refine .ok fun principal => ?_
    rw [List.mem_append, List.mem_reverse, or_self]

end Workflow
