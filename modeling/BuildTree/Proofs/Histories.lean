import BuildTree.Proofs.LiveEntries

/-!
# Histories of a context

A context answers requests.  The entry of a name is asked for, and created if there is none and the
request says so; or an entry that an earlier request returned is completed.  A history keeps what
the requests returned, and what was created and completed, in order.

    run n rs      what the requests `rs` did to a fresh context of session `n`
    created ds    the entries that the deeds `ds` created
    opened ds     those of them that no later deed completed        (mem_opened)
-/

namespace BuildTree

/-! ## Algorithm -/

/-- The number of an entry in its session. -/
def EventId.seq : EventId → Nat
  | .entry _ q => q
  | _ => 0

namespace Execution

/-- What an entry is looked up by. -/
def Entry.key (e : Entry) : EntryKind × Nat × String := (e.kind, e.thread, e.name)

inductive Request where
  /-- The entry of a kind and a name on a thread, created if `create` says so and there is none.
  `project` is the owner of a new task. -/
  | get (kind : EntryKind) (thread : Nat) (project : Option String) (name : String) (create : Bool)
  /-- The end of the entry that an earlier request returned, told by the number of that request. -/
  | complete (step : Nat)
  deriving DecidableEq, Repr

inductive Deed where
  | created (e : Entry)
  | completed (e : Entry)
  deriving DecidableEq, Repr

def Deed.created? : Deed → Option Entry
  | .created e => some e
  | .completed _ => none

/-- The entries that were created, in order. -/
def created (ds : List Deed) : List Entry := ds.filterMap Deed.created?

/-- The entries that were created and not completed since, in order of creation. -/
def opened : List Deed → List Entry
  | [] => []
  | .created e :: ds => if .completed e ∈ ds then opened ds else e :: opened ds
  | .completed _ :: ds => opened ds

namespace Context

/-- The entry of a kind and a name on a thread, created when there is none. -/
def acquire (c : Context) (kind : EntryKind) (thread : Nat) (project : Option String)
    (name : String) : Context × Entry :=
  match kind with
  | .project => c.openProject thread name
  | .task => c.openTask thread project name
  | .node => c.openNode thread name

/-- The entry of a kind and a name on a thread, if there is one or one may be created. -/
def get (c : Context) (kind : EntryKind) (thread : Nat) (project : Option String) (name : String)
    (create : Bool) : Context × Option Entry :=
  if create then
    let (c', e) := c.acquire kind thread project name
    (c', some e)
  else (c, c.find? kind thread name)

/-- What a new entry of a context hangs under: the session, or a live project or task of its
thread with a smaller number.  A project hangs under the session only, a task under no task. -/
inductive Hangs (c : Context) (e : Entry) : Prop
  | session (h : e.parent = c.sessionParent)
  | project {p} (hkind : e.kind ≠ .project) (hlive : p ∈ c.live) (hthread : p.thread = e.thread)
      (hseq : p.id.seq < e.id.seq) (hp : p.kind = .project) (h : e.parent = ⟨.project, p.id⟩)
  | task {p} (hkind : e.kind = .node) (hlive : p ∈ c.live) (hthread : p.thread = e.thread)
      (hseq : p.id.seq < e.id.seq) (hp : p.kind = .task) (h : e.parent = ⟨.task, p.id⟩)

end Context

/-- What requests did to a fresh context. -/
structure History where
  context : Context
  /-- What each request returned. -/
  returned : List (Option Entry) := []
  deeds : List Deed := []
  deriving DecidableEq, Repr

namespace History

def start (session : Nat) : History := { context := .fresh session }

/-- The entry that the request of a number returned. -/
def answer? (h : History) (step : Nat) : Option Entry := (h.returned[step]?).join

def request (h : History) : Request → History
  | .get kind thread project name create =>
    let (context, answer) := h.context.get kind thread project name create
    { context
      returned := h.returned ++ [answer]
      deeds := if (h.context.find? kind thread name).isNone then
          h.deeds ++ answer.toList.map .created
        else h.deeds }
  | .complete step =>
    match h.answer? step with
    | none => { h with returned := h.returned ++ [none] }
    | some e =>
      { context := h.context.complete e
        returned := h.returned ++ [none]
        deeds := h.deeds ++ [.completed e] }

def run (session : Nat) (rs : List Request) : History := rs.foldl request (start session)

/-- A request creates an entry, and returns it. -/
def Creates (h : History) (r : Request) (e : Entry) : Prop :=
  (h.request r).deeds = h.deeds ++ [.created e] ∧
    (h.request r).returned = h.returned ++ [some e]

end History

/-! ## What was created and not completed -/

section
variable {ds ds' : List Deed} {e x : Entry}

@[simp] theorem created_append : created (ds ++ ds') = created ds ++ created ds' :=
  List.filterMap_append

@[simp] theorem created_created : created [.created e] = [e] := rfl

@[simp] theorem created_completed : created [.completed e] = [] := rfl

theorem opened_sublist (ds : List Deed) : (opened ds).Sublist (created ds) := by
  induction ds with
  | nil => exact List.Sublist.refl _
  | cons d ds ih =>
    cases d with
    | completed y => exact ih
    | created y =>
      rw [opened]
      split
      · exact ih.cons y
      · exact ih.cons_cons y

theorem opened_concat_created (ds : List Deed) (e : Entry) :
    opened (ds ++ [.created e]) = opened ds ++ [e] := by
  induction ds with
  | nil => rfl
  | cons d ds ih =>
    cases d with
    | completed y => exact ih
    | created y =>
      have hmem : .completed y ∈ ds ++ [.created e] ↔ .completed y ∈ ds := by simp
      simp only [List.cons_append, opened, hmem, ih]
      split <;> rfl

theorem opened_concat_completed (ds : List Deed) (e : Entry) :
    opened (ds ++ [.completed e]) = (opened ds).filter (· ≠ e) := by
  induction ds with
  | nil => rfl
  | cons d ds ih =>
    cases d with
    | completed y => exact ih
    | created y =>
      have hmem : .completed y ∈ ds ++ [.completed e] ↔ .completed y ∈ ds ∨ y = e := by simp
      simp only [List.cons_append, opened, hmem, ih]
      by_cases hds : .completed y ∈ ds
      · simp [hds]
      · by_cases hye : y = e
        · subst hye
          simp [hds]
        · simp [hds, hye]

/-- An entry is open if no deed after its creation completed it. -/
theorem mem_opened :
    e ∈ opened ds ↔ ∃ pre post, ds = pre ++ .created e :: post ∧ .completed e ∉ post := by
  induction ds with
  | nil => simp [opened]
  | cons d ds ih =>
    constructor
    · intro h
      have hrest : e ∈ opened ds →
          ∃ pre post, d :: ds = pre ++ .created e :: post ∧ .completed e ∉ post := by
        intro he
        obtain ⟨pre, post, rfl, hpost⟩ := ih.1 he
        exact ⟨d :: pre, post, rfl, hpost⟩
      cases d with
      | completed y => exact hrest h
      | created y =>
        rw [opened] at h
        split at h
        · exact hrest h
        · next hy =>
          rcases List.mem_cons.1 h with rfl | h
          · exact ⟨[], ds, rfl, hy⟩
          · exact hrest h
    · rintro ⟨pre, post, hds, hpost⟩
      cases pre with
      | nil =>
        obtain ⟨rfl, rfl⟩ := List.cons.inj hds
        rw [opened, if_neg hpost]
        exact List.mem_cons_self
      | cons d' pre =>
        obtain ⟨rfl, rfl⟩ := List.cons.inj hds
        have he := ih.2 ⟨pre, post, rfl, hpost⟩
        cases d with
        | completed y => exact he
        | created y =>
          rw [opened]
          split
          · exact he
          · exact List.mem_cons_of_mem _ he

end

/-! ## Requests -/

namespace Context

variable {c : Context} {e : Entry} {kind : EntryKind} {thread : Nat} {project : Option String}
  {name : String} {create : Bool}

/-- What a new entry hangs under. -/
def parentOf (c : Context) (kind : EntryKind) (thread : Nat) (project : Option String) : Parent :=
  match kind with
  | .project => c.sessionParent
  | .task => c.taskParent thread project
  | .node => c.nodeParent thread

/-- The projects begun when an entry is new. -/
def begunWith (c : Context) (kind : EntryKind) (name : String) : List String :=
  match kind with
  | .project => c.begun ++ [normalizeProject name]
  | _ => c.begun

theorem begunWith_of_ne (h : kind ≠ .project) : c.begunWith kind name = c.begun := by
  cases kind with
  | project => exact absurd rfl h
  | _ => rfl

/-- A context with a new entry, and the entry. -/
def make (c : Context) (kind : EntryKind) (thread : Nat) (project : Option String) (name : String) :
    Context × Entry :=
  let x := c.create kind thread name (c.parentOf kind thread project)
  ({ x.1 with begun := c.begunWith kind name }, x.2)

theorem acquire_of_found (h : c.find? kind thread name = some e) :
    c.acquire kind thread project name = (c, e) := by
  cases kind with
  | project =>
    simp only [acquire, openProject, project?, h]
  | task => simp only [acquire, openTask, task?, h]
  | node => simp only [acquire, openNode, node?, h]

theorem acquire_of_absent (h : c.find? kind thread name = none) :
    c.acquire kind thread project name = c.make kind thread project name := by
  cases kind with
  | project => simp only [acquire, openProject, project?, h]; rfl
  | task => simp only [acquire, openTask, task?, h]; rfl
  | node => simp only [acquire, openNode, node?, h]; rfl

/-- A new entry hangs under what is live already, so under a smaller number. -/
theorem hangs_create (hlt : ∀ e ∈ c.live, e.id.seq < c.nextSeq) (kind : EntryKind) (thread : Nat)
    (project : Option String) (name : String) :
    c.Hangs (c.create kind thread name (c.parentOf kind thread project)).2 := by
  cases kind with
  | project => exact .session rfl
  | task =>
    simp only [parentOf, taskParent]
    split
    · next p hp =>
      obtain ⟨owner, -, howner⟩ := Option.bind_eq_some_iff.1 hp
      obtain ⟨hlive, hthread, hkind, -⟩ := find?_eq_some howner
      exact .project (by simp [create]) hlive hthread (hlt p hlive) hkind rfl
    · exact .session rfl
  | node =>
    simp only [parentOf, nodeParent]
    split
    · next p hp =>
      obtain ⟨hlive, hthread, hkind⟩ := innermostWith?_eq_some hp
      exact .task rfl hlive hthread (hlt p hlive) (by simpa using hkind) rfl
    · split
      · next p hp =>
        obtain ⟨hlive, hthread, hkind⟩ := innermostWith?_eq_some hp
        exact .project (by simp [create]) hlive hthread (hlt p hlive) (by simpa using hkind) rfl
      · exact .session rfl

end Context

end Execution

end BuildTree
