import BuildTree.Proofs.Script
import BuildTree.Proofs.Snapshots

/-!
# The tree of a script, message by message

A tracker that gets the messages of a script emits its walk.  Between any two messages the snapshot
of the tracker is one of four, and every message leads from one to the next.

    between       no project runs
    inProject     the project alone is live
    inTask        the project and its task
    inNode        those two, the node of the downloads, and under it what is still being fetched
-/

namespace BuildTree

open Execution Spy Events

/-! ## Algorithm -/

namespace Tracker

open Script

def projectEntry (a n p : Nat) (name : Word) : Entry :=
  ⟨.project, name.text, a, .entry n p, ⟨.session, .session n⟩⟩

def taskEntry (a n p q : Nat) (goal : Word) : Entry :=
  ⟨.task, goal.text, a, .entry n q, ⟨.project, .entry n p⟩⟩

def nodeEntry (a n q : Nat) (name : String) : Entry :=
  ⟨.node, name, a, .entry n (q + 1), ⟨.task, .entry n q⟩⟩

/-- Between two projects of session `n`, before entry `q`; `f` says whether one has failed. -/
def between (n q : Nat) (f : Bool) : Snapshot := ⟨n, q, [], [], f, false⟩

/-- In project `p`, between two of its tasks. -/
def inProject (a n p : Nat) (project : Word) (q : Nat) (f : Bool) : Snapshot :=
  ⟨n, q, [projectEntry a n p project], [], f, false⟩

/-- In task `q` of project `p`, which has fetched nothing. -/
def inTask (a n p : Nat) (project : Word) (q : Nat) (goal : Word) (f : Bool) : Snapshot :=
  ⟨n, q + 1, [projectEntry a n p project, taskEntry a n p q goal], [], f, false⟩

/-- In task `q` of project `p`, with the node of its downloads. -/
def inNode (a n p : Nat) (project : Word) (q : Nat) (goal : Word) (node : String)
    (ds : List Download) (f : Bool) : Snapshot :=
  ⟨n, q + 2, [projectEntry a n p project, taskEntry a n p q goal, nodeEntry a n q node], ds, f,
    false⟩

/-! ## Lemmas -/

/-! ### One message -/

section
variable {o : Options} {a n p q : Nat} {f : Bool} {ds : List Download} {node : EventId}
  {project goal : Word}

theorem param?_eq {m : Message} {key : String} {w : Script.Word} (h : m.value? key = some w.text) :
    m.param? key = some w.text := by
  simp [Message.param?, h, Option.filter, w.ne_empty, w.ne_null]

theorem leads_startProject (ho : o.BuiltIn) (p : Project) :
    Leads o (between n q f) [p.start a] [.started (.entry n q) (some (.session n)) 0 p.name.text]
      (inProject a n q p.name (q + 1) f) := by
  refine leads_of_operation ho (Tracker.startProject · (p.start a)) (fun _ _ => rfl)
    fun t now ht => ?_
  obtain ⟨hsession, hnext, hlive, hdownloads, hfailed, hended⟩ := Snapshot.mk.inj ht
  have hid : (p.start a).param? "id" = some p.name.text := param?_eq rfl
  have hproject : t.context.project? (p.start a).thread p.name.text = none := by
    simp [Context.project?, Context.find?, Context.innermostWith?, Context.onThread, hlive]
  simp only [startProject, Emits.events_bind, Emits.value_bind, Message.events_required,
    Message.value_required, hid, Context.openProject, hproject]
  simp [Context.create, Context.sessionParent, Context.sessionId, Entry.started, snapshot,
    inProject, projectEntry, Project.start, *]

theorem leads_startTask (ho : o.BuiltIn) (t : Task) :
    Leads o (inProject a n p project q f) [t.start a project]
      [.started (.entry n q) (some (.entry n p)) 0 t.goal.text]
      (inTask a n p project q t.goal f) := by
  refine leads_of_operation ho (Tracker.startTask · (t.start a project)) (fun _ _ => rfl)
    fun tracker now ht => ?_
  obtain ⟨hsession, hnext, hlive, hdownloads, hfailed, hended⟩ := Snapshot.mk.inj ht
  have hid : (t.start a project).param? "id" = some project.text := param?_eq rfl
  have hgoal : (t.start a project).param? "goal" = some t.goal.text := param?_eq rfl
  have htask : tracker.context.task? (t.start a project).thread t.goal.text = none := by
    simp [Context.task?, Context.find?, Context.innermostWith?, Context.onThread, hlive,
      projectEntry]
  have hproject : tracker.context.project? (t.start a project).thread project.text =
      some (projectEntry a n p project) := by
    simp [Context.project?, Context.find?, Context.innermostWith?, Context.onThread, hlive,
      projectEntry, Task.start]
  simp only [startTask, Emits.events_bind, Emits.value_bind, Message.events_required,
    Message.value_required, hid, hgoal, Context.openTask, htask, Context.taskParent,
    Option.bind_some, hproject]
  simp [Context.create, Entry.started, snapshot, inTask, projectEntry, taskEntry, Task.start, *]

/-- The first artifact that a task fetches opens the node of its downloads. -/
theorem leads_firstDownload (ho : o.BuiltIn) (coord : Word) :
    Leads o (inTask a n p project q goal f)
      [⟨a, .artifactDownloading, [("artifactCoord", coord.text)]⟩]
      [.started (.entry n (q + 1)) (some (.entry n q)) 0 o.downloadNode,
        .started (.download coord.text) (some (.entry n (q + 1))) 0 coord.text]
      (inNode a n p project q goal o.downloadNode [⟨coord.text, .entry n (q + 1)⟩] f) := by
  refine leads_of_operation ho (fun t => t.startDownload o _) (fun _ _ => rfl) fun t now ht => ?_
  obtain ⟨hsession, hnext, hlive, hdownloads, hfailed, hended⟩ := Snapshot.mk.inj ht
  have hcoord : Message.param? ⟨a, .artifactDownloading, [("artifactCoord", coord.text)]⟩
      "artifactCoord" = some coord.text := param?_eq rfl
  have hidle : t.isDownloading coord.text = false := by
    simp [isDownloading, download?, hdownloads]
  have hnode : t.context.node? a o.downloadNode = none := by
    simp [Context.node?, Context.find?, Context.innermostWith?, Context.onThread, hlive,
      projectEntry, taskEntry]
  have hparent : t.context.nodeParent a = ⟨.task, .entry n q⟩ := by
    simp [Context.nodeParent, Context.innermostWith?, Context.onThread, hlive, projectEntry,
      taskEntry]
  simp only [startDownload, hcoord, hidle, Context.openNode, hnode, hparent]
  simp [Context.create, Entry.started, Download.started, snapshot, inNode, nodeEntry, *]

theorem leads_download (ho : o.BuiltIn) (coord : Word) (hds : ∀ d ∈ ds, d.coord ≠ coord.text) :
    Leads o (inNode a n p project q goal o.downloadNode ds f)
      [⟨a, .artifactDownloading, [("artifactCoord", coord.text)]⟩]
      [.started (.download coord.text) (some (.entry n (q + 1))) 0 coord.text]
      (inNode a n p project q goal o.downloadNode (ds ++ [⟨coord.text, .entry n (q + 1)⟩]) f) := by
  refine leads_of_operation ho (fun t => t.startDownload o _) (fun _ _ => rfl) fun t now ht => ?_
  obtain ⟨hsession, hnext, hlive, hdownloads, hfailed, hended⟩ := Snapshot.mk.inj ht
  have hcoord : Message.param? ⟨a, .artifactDownloading, [("artifactCoord", coord.text)]⟩
      "artifactCoord" = some coord.text := param?_eq rfl
  have hidle : t.isDownloading coord.text = false := by
    simpa [isDownloading, download?, hdownloads] using hds
  have hnode : t.context.node? a o.downloadNode = some (nodeEntry a n q o.downloadNode) := by
    simp [Context.node?, Context.find?, Context.innermostWith?, Context.onThread, hlive,
      projectEntry, taskEntry, nodeEntry]
  simp only [startDownload, hcoord, hidle, Context.openNode, hnode]
  simp [Download.started, snapshot, inNode, nodeEntry, *]

/-- An artifact that is resolved, or fails, is no longer fetched. -/
theorem leads_resolve (ho : o.BuiltIn) {live : List Entry} {coord : Word} {m : Message}
    {outcome : Outcome} (hkind : m.kind = .artifactResolved)
    (hcoord : m.param? "artifactCoord" = some coord.text)
    (houtcome : (m.param? "error").elim .success .failure = outcome)
    (hds : ∀ d ∈ ds, d.coord ≠ coord.text) :
    Leads o ⟨n, q, live, ds ++ [⟨coord.text, node⟩], f, false⟩ [m]
      [Fetch.finished node coord.text outcome] ⟨n, q, live, ds, f, false⟩ := by
  refine leads_of_operation ho (fun t => t.finishDownload o m) (fun t now => ?_) fun t now ht => ?_
  · rw [apply, hkind]
  obtain ⟨hsession, hnext, hlive, hdownloads, hfailed, hended⟩ := Snapshot.mk.inj ht
  have hfound : t.download? coord.text = some ⟨coord.text, node⟩ := by
    rw [download?, hdownloads, List.find?_append, List.find?_eq_none.2 (by simpa using hds)]
    simp
  have hrest : t.downloads.filter (·.coord != coord.text) = ds := by
    rw [hdownloads, List.filter_append, List.filter_eq_self.2 (by simpa using hds)]
    simp
  simp only [finishDownload, hcoord, Option.bind_some, hfound, hrest, houtcome]
  simp [Download.finished, Fetch.finished, snapshot, *]

/-- How an artifact that is being fetched ends by itself, if it does. -/
theorem leads_resolution (ho : o.BuiltIn) {live : List Entry} (a : Nat) (x : Fetch)
    (hds : ∀ d ∈ ds, d.coord ≠ x.coord.text) :
    Leads o ⟨n, q, live, ds ++ [⟨x.coord.text, node⟩], f, false⟩
      (x.resolution.messages a x.coord)
      (x.resolution.outcome?.toList.map (Fetch.finished node x.coord.text))
      ⟨n, q, live, ds ++ unresolved node [x], f, false⟩ := by
  obtain ⟨coord, resolution⟩ := x
  cases resolution with
  | resolved =>
    have hstep : Leads o ⟨n, q, live, ds ++ [⟨coord.text, node⟩], f, false⟩
        [⟨a, .artifactResolved, [("artifactCoord", coord.text)]⟩]
        [Fetch.finished node coord.text .success] ⟨n, q, live, ds, f, false⟩ :=
      leads_resolve ho rfl (param?_eq rfl) rfl hds
    simpa [unresolved, pending, Resolution.outcome?, Resolution.messages] using hstep
  | failed e =>
    have hstep : Leads o ⟨n, q, live, ds ++ [⟨coord.text, node⟩], f, false⟩
        [⟨a, .artifactResolved, [("artifactCoord", coord.text), ("error", e.text)]⟩]
        [Fetch.finished node coord.text (.failure e.text)] ⟨n, q, live, ds, f, false⟩ :=
      leads_resolve ho rfl (param?_eq rfl) (by rw [param?_eq (w := e) rfl]; rfl) hds
    simpa [unresolved, pending, Resolution.outcome?, Resolution.messages] using hstep
  | unresolved => exact Leads.nil

/-! ### Downloads and tasks -/

theorem unresolved_cons (x : Fetch) (xs : List Fetch) :
    unresolved node (x :: xs) = unresolved node [x] ++ unresolved node xs := by
  simp only [unresolved, pending, ← List.map_append, ← List.filter_append]
  rfl

theorem coords_unresolved_sublist (xs : List Fetch) :
    ((unresolved node xs).map (·.coord)).Sublist (xs.map (·.coord.text)) := by
  have hcoords : (unresolved node xs).map (·.coord) = pending xs := by
    rw [unresolved, List.map_map]
    exact List.map_id _
  rw [hcoords]
  exact List.filter_sublist.map _

/-- The first artifact of a task. -/
theorem leads_firstFetch (ho : o.BuiltIn) (x : Fetch) :
    Leads o (inTask a n p project q goal f) (x.messages a)
      (.started (.entry n (q + 1)) (some (.entry n q)) 0 o.downloadNode :: x.walk (.entry n (q + 1)))
      (inNode a n p project q goal o.downloadNode
        (unresolved (.entry n (q + 1)) [x]) f) := by
  have hend : ∀ d ∈ ([] : List Download), d.coord ≠ x.coord.text := fun _ hd =>
    absurd hd List.not_mem_nil
  exact (leads_firstDownload ho x.coord).cons (leads_resolution ho a x hend)

theorem leads_fetch (ho : o.BuiltIn) (x : Fetch) (hds : ∀ d ∈ ds, d.coord ≠ x.coord.text) :
    Leads o (inNode a n p project q goal o.downloadNode ds f) (x.messages a)
      (x.walk (.entry n (q + 1)))
      (inNode a n p project q goal o.downloadNode
        (ds ++ unresolved (.entry n (q + 1)) [x]) f) :=
  (leads_download ho x.coord hds).cons (leads_resolution ho a x hds)

/-- What a task fetches, once its node is there. -/
theorem leads_fetches (ho : o.BuiltIn) (xs : List Fetch)
    (hxs : (ds.map (·.coord) ++ xs.map (·.coord.text)).Nodup) :
    Leads o (inNode a n p project q goal o.downloadNode ds f) (xs.flatMap (·.messages a))
      (xs.flatMap (·.walk (.entry n (q + 1))))
      (inNode a n p project q goal o.downloadNode
        (ds ++ unresolved (.entry n (q + 1)) xs) f) := by
  induction xs generalizing ds with
  | nil => simpa [unresolved, pending] using Leads.nil
  | cons x xs ih =>
    have hds : ∀ d ∈ ds, d.coord ≠ x.coord.text := fun d hd =>
      (List.nodup_append.1 hxs).2.2 _ (List.mem_map_of_mem hd) _ List.mem_cons_self
    have hnodup : ((ds ++ unresolved (.entry n (q + 1)) [x]).map (·.coord) ++
        xs.map (·.coord.text)).Nodup := by
      refine hxs.sublist ?_
      rw [List.map_append, List.append_assoc]
      exact (List.Sublist.refl _).append
        ((coords_unresolved_sublist [x]).append (List.Sublist.refl _))
    have hrest := ih hnodup
    rw [List.append_assoc, ← unresolved_cons] at hrest
    exact (leads_fetch ho x hds).append hrest

/-! ### The ends of tasks and projects -/

theorem does_closeDownloads_of_closed (o : Options) (a : Nat) {x : Snapshot}
    (hx : ∀ e ∈ x.live, e.kind ≠ .node) : Does x (fun t now => t.closeDownloads o a now) [] x := by
  intro t now ht
  have hnode : t.context.node? a o.downloadNode = none := by
    have hlive : t.context.live = x.live := congrArg Snapshot.live ht
    simp only [Context.node?, Context.find?, Context.innermostWith?, Context.onThread, hlive,
      List.find?_eq_none, List.mem_reverse, List.mem_filter]
    intro e he
    simp [hx e he.1]
  simp only [closeDownloads, hnode]
  exact ⟨rfl, ht⟩

theorem sorted_unresolved (xs : List Fetch) :
    Download.sorted (unresolved node xs) =
      ((pending xs).mergeSort fun a b => a ≤ b).map (⟨·, node⟩) :=
  (List.map_mergeSort (f := fun coord => (⟨coord, node⟩ : Download)) fun _ _ _ _ => rfl).symm

/-- The node of a task closes, and before it what is still being fetched. -/
theorem does_closeDownloads (o : Options) (hpq : p < q) (xs : List Fetch) :
    Does (inNode a n p project q goal o.downloadNode (unresolved (.entry n (q + 1)) xs) f)
      (fun t now => t.closeDownloads o a now)
      (((pending xs).mergeSort fun a b => a ≤ b).map (Fetch.finished (.entry n (q + 1)) · .unknown) ++
        [.finished (.entry n (q + 1)) (some (.entry n q)) 0 o.downloadNode .success])
      ⟨n, q + 2, [projectEntry a n p project, taskEntry a n p q goal], [], f, false⟩ := by
  intro t now ht
  obtain ⟨hsession, hnext, hlive, hdownloads, hfailed, hended⟩ := Snapshot.mk.inj ht
  have hnode : t.context.node? a o.downloadNode = some (nodeEntry a n q o.downloadNode) := by
    simp [Context.node?, Context.find?, Context.innermostWith?, Context.onThread, hlive,
      projectEntry, taskEntry, nodeEntry]
  have hall : t.downloads.filter (·.node == (nodeEntry a n q o.downloadNode).id) =
      unresolved (.entry n (q + 1)) xs := by
    rw [hdownloads, List.filter_eq_self]
    simp [unresolved, nodeEntry]
  have hnone : t.downloads.filter (·.node != (nodeEntry a n q o.downloadNode).id) = [] := by
    rw [hdownloads, List.filter_eq_nil_iff]
    simp [unresolved, nodeEntry]
  have hrest : t.context.complete (nodeEntry a n q o.downloadNode) =
      { t.context with live := [projectEntry a n p project, taskEntry a n p q goal] } := by
    have hne : p ≠ q + 1 := by omega
    simp [Context.complete, hlive, projectEntry, taskEntry, nodeEntry, hne]
  have houtline : ∀ cs : List String, outline ((cs.map fun coord => (⟨coord, .entry n (q + 1)⟩ :
      Download)).map (·.finished now .unknown)) =
        cs.map (Fetch.finished (.entry n (q + 1)) · .unknown) := by
    intro cs
    induction cs with
    | nil => rfl
    | cons c cs ih =>
      rw [List.map_cons, List.map_cons, List.map_cons, ← ih]
      rfl
  simp only [closeDownloads, hnode, Download.abandon, Emits.events_bind, Emits.value_bind, Emits.events_event,
    Emits.events_pure, Emits.value_pure, List.append_nil, hall, hnone, hrest, sorted_unresolved,
    outline_append, houtline]
  refine ⟨rfl, ?_⟩
  simp [snapshot, *]

theorem does_finishTask {m : Message} {r : Nat} (hpq : p < q) (hthread : m.thread = a)
    (hgoal : m.param? "goal" = some goal.text) :
    Does ⟨n, r, [projectEntry a n p project, taskEntry a n p q goal], [], f, false⟩
      (fun t now => t.finishTask m now)
      [.finished (.entry n q) (some (.entry n p)) 0 goal.text m.outcome]
      (inProject a n p project r f) := by
  intro t now ht
  obtain ⟨hsession, hnext, hlive, hdownloads, hfailed, hended⟩ := Snapshot.mk.inj ht
  have htask : t.context.task? a goal.text = some (taskEntry a n p q goal) := by
    simp [Context.task?, Context.find?, Context.innermostWith?, Context.onThread, hlive,
      projectEntry, taskEntry]
  have hrest : t.context.complete (taskEntry a n p q goal) =
      { t.context with live := [projectEntry a n p project] } := by
    have hne : p ≠ q := Nat.ne_of_lt hpq
    simp [Context.complete, hlive, projectEntry, taskEntry, hne]
  simp only [finishTask, Emits.events_bind, Emits.value_bind, Message.events_required,
    Message.value_required, hgoal, hthread, htask, finishEntry, hrest, List.nil_append]
  refine ⟨rfl, ?_⟩
  simp [snapshot, inProject, *]

theorem does_finishProject {m : Message} (hthread : m.thread = a)
    (hid : m.param? "id" = some project.text) :
    Does (inProject a n p project q f) (fun t now => t.finishProject m now)
      [.finished (.entry n p) (some (.session n)) 0 project.text m.outcome] (between n q f) := by
  intro t now ht
  obtain ⟨hsession, hnext, hlive, hdownloads, hfailed, hended⟩ := Snapshot.mk.inj ht
  have hproject : t.context.project? a project.text = some (projectEntry a n p project) := by
    simp [Context.project?, Context.find?, Context.innermostWith?, Context.onThread, hlive,
      projectEntry]
  have hrest : t.context.complete (projectEntry a n p project) = { t.context with live := [] } := by
    simp [Context.complete, hlive, projectEntry]
  simp only [finishProject, Emits.events_bind, Emits.value_bind, Message.events_required,
    Message.value_required, hid, hthread, hproject, finishEntry, hrest, List.nil_append]
  refine ⟨rfl, ?_⟩
  simp [snapshot, between, *]

/-! ### Tasks -/

theorem thread_finishTask (t : Task) : (t.finish a project).thread = a := by
  unfold Task.finish
  split <;> rfl

theorem goal_finishTask (t : Task) : (t.finish a project).param? "goal" = some t.goal.text := by
  unfold Task.finish
  split <;> exact param?_eq rfl

theorem outcome_finishTask (t : Task) : (t.finish a project).outcome = t.ending.outcome := by
  unfold Task.finish
  cases t.ending with
  | failed e =>
    rw [Message.outcome, param?_eq (w := e) rfl]
    rfl
  | _ => rfl

/-- The end of a task, once it is said what happens to its downloads. -/
theorem leads_finishTask (ho : o.BuiltIn) {x : Snapshot} {es : List Event} {r : Nat} (t : Task)
    (hpq : p < q)
    (hclose : Does x (fun t now => t.closeDownloads o a now) es
      ⟨n, r, [projectEntry a n p project, taskEntry a n p q t.goal], [], f, false⟩) :
    Leads o x [t.finish a project]
      (es ++ [.finished (.entry n q) (some (.entry n p)) 0 t.goal.text t.ending.outcome])
      (inProject a n p project r f) := by
  have hfinish : Does ⟨n, r, [projectEntry a n p project, taskEntry a n p q t.goal], [], f, false⟩
      (fun tracker now => tracker.finishTask (t.finish a project) now)
      [.finished (.entry n q) (some (.entry n p)) 0 t.goal.text (t.finish a project).outcome]
      (inProject a n p project r f) :=
    does_finishTask hpq (thread_finishTask t) (goal_finishTask t)
  rw [outcome_finishTask] at hfinish
  refine leads_of_operation ho _ (fun _ _ => ?_) (hclose.bind hfinish)
  unfold Task.finish
  cases t.ending <;> rfl

/-- All that a task fetches. -/
theorem leads_fetchAll (ho : o.BuiltIn) (x : Fetch) (xs : List Fetch)
    (hdistinct : ((x :: xs).map (·.coord.text)).Nodup) :
    Leads o (inTask a n p project q goal f) ((x :: xs).flatMap (·.messages a))
      (.started (.entry n (q + 1)) (some (.entry n q)) 0 o.downloadNode ::
        (x :: xs).flatMap (·.walk (.entry n (q + 1))))
      (inNode a n p project q goal o.downloadNode (unresolved (.entry n (q + 1)) (x :: xs)) f) := by
  have hnodup : ((unresolved (.entry n (q + 1)) [x]).map (·.coord) ++
      xs.map (·.coord.text)).Nodup :=
    hdistinct.sublist ((coords_unresolved_sublist [x]).append (List.Sublist.refl _))
  rw [unresolved_cons]
  exact (leads_firstFetch ho x).append (leads_fetches ho xs hnodup)

/-- A task, with all that it fetches. -/
theorem leads_task (ho : o.BuiltIn) (hpq : p < q) (t : Task) :
    Leads o (inProject a n p project q f) (t.messages a project)
      (t.walk o.downloadNode n q (.entry n p)) (inProject a n p project (q + t.size) f) := by
  obtain ⟨goal, ending, fetches, hdistinct⟩ := t
  have hstart : Leads o (inProject a n p project q f) _ _ (inTask a n p project q goal f) :=
    leads_startTask ho ⟨goal, ending, fetches, hdistinct⟩
  cases fetches with
  | nil =>
    have hnode : ∀ e ∈ (inTask a n p project q goal f).live, e.kind ≠ .node := by
      simp [inTask, projectEntry, taskEntry]
    have hend := leads_finishTask ho ⟨goal, ending, [], hdistinct⟩ hpq
      (does_closeDownloads_of_closed o a hnode)
    exact hstart.cons hend
  | cons x xs =>
    have hend : Leads o (inNode a n p project q goal o.downloadNode
        (unresolved (.entry n (q + 1)) (x :: xs)) f) _ _ _ :=
      leads_finishTask ho ⟨goal, ending, x :: xs, hdistinct⟩ hpq
        (does_closeDownloads o hpq (x :: xs))
    have hall := hstart.cons ((leads_fetchAll ho x xs hdistinct).append hend)
    simpa [Task.messages, Task.size, Task.walk, walkFetches, around] using hall

theorem leads_tasks (ho : o.BuiltIn) (hpq : p < q) (ts : List Task) :
    Leads o (inProject a n p project q f) (ts.flatMap (·.messages a project))
      (walkTasks o.downloadNode n (.entry n p) q ts)
      (inProject a n p project (q + ts.foldr (·.size + ·) 0) f) := by
  induction ts generalizing q with
  | nil => exact Leads.nil
  | cons t ts ih =>
    have hrest := ih (Nat.lt_of_lt_of_le hpq (Nat.le_add_right q t.size))
    rw [Nat.add_assoc] at hrest
    exact (leads_task ho hpq t).append hrest

/-! ### Projects -/

/-- The end of a project; whether one has failed is kept. -/
theorem leads_finishProject (ho : o.BuiltIn) (x : Project) :
    Leads o (inProject a n p x.name q f) [x.finish a]
      [.finished (.entry n p) (some (.session n)) 0 x.name.text x.outcome]
      (between n q (f || x.failure.isSome)) := by
  obtain ⟨name, failure, tasks⟩ := x
  have hclose : Does (inProject a n p name q f) (fun t now => t.closeDownloads o a now) []
      (inProject a n p name q f) := by
    refine does_closeDownloads_of_closed o a ?_
    simp [inProject, projectEntry]
  cases failure with
  | none =>
    have hfinish : Does (inProject a n p name q f)
        (fun t now => t.finishProject ⟨a, .projectSucceeded, [("id", name.text)]⟩ now)
        [.finished (.entry n p) (some (.session n)) 0 name.text .success] (between n q f) :=
      does_finishProject rfl (param?_eq rfl)
    rw [Option.isSome_none, Bool.or_false]
    exact leads_of_operation ho _ (fun _ _ => rfl) (hclose.bind hfinish)
  | some e =>
    let m : Message := ⟨a, .projectFailed, [("id", name.text), ("error", e.text)]⟩
    have houtcome : m.outcome = .failure e.text := by
      rw [Message.outcome, param?_eq (w := e) rfl]
      rfl
    have hfinish : Does (inProject a n p name q f)
        (fun t now => ({ t with context := t.context.markFailed } : Tracker).finishProject m now)
        [.finished (.entry n p) (some (.session n)) 0 name.text m.outcome] (between n q true) := by
      intro t now ht
      obtain ⟨hsession, hnext, hlive, hdownloads, hfailed, hended⟩ := Snapshot.mk.inj ht
      refine does_finishProject rfl (param?_eq rfl) _ now ?_
      simp [snapshot, Context.markFailed, inProject, m, *]
    rw [houtcome] at hfinish
    rw [Option.isSome_some, Bool.or_true]
    exact leads_of_operation ho _ (fun _ _ => rfl) (hclose.bind hfinish)

theorem leads_project (ho : o.BuiltIn) (x : Project) :
    Leads o (between n q f) (x.messages a) (x.walk o.downloadNode n q)
      (between n (q + x.size) (f || x.failure.isSome)) := by
  have htasks : Leads o (inProject a n q x.name (q + 1) f) _ _ _ :=
    leads_tasks ho (Nat.lt_add_one q) x.tasks
  have hall := (leads_startProject ho x).cons (htasks.append (leads_finishProject ho x))
  rw [Nat.add_right_comm] at hall
  exact hall

/-- A tracker that gets the messages of a script emits its walk. -/
theorem leads_messages (ho : o.BuiltIn) (xs : List Project) :
    Leads o (between n q f) (messages a xs) (walkProjects o.downloadNode n q xs)
      (between n (q + xs.foldr (·.size + ·) 0) (f || xs.any (·.failure.isSome))) := by
  induction xs generalizing q f with
  | nil =>
    rw [List.any_nil, Bool.or_false]
    exact Leads.nil
  | cons x xs ih =>
    rw [List.any_cons, ← Bool.or_assoc, List.foldr_cons, ← Nat.add_assoc]
    exact (leads_project ho x).append ih

/-- The end of the session, after the last project. -/
theorem leads_endSession (ho : o.BuiltIn) :
    Leads o (between n q f) [ending a]
      [.finished (.session n) none 0 o.sessionName
        (if f then .failure "one or more projects failed" else .success)]
      ⟨n, q, [], [], f, true⟩ := by
  refine leads_of_operation ho (fun t now => t.endSession o now) (fun _ _ => rfl) fun t now ht => ?_
  obtain ⟨hsession, hnext, hlive, hdownloads, hfailed, hended⟩ := Snapshot.mk.inj ht
  simp [endSession, sessionFinished, Context.sessionId, Context.markEnded, snapshot, *]

end

end Tracker

end BuildTree
