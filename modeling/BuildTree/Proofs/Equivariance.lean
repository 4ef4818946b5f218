import BuildTree.Proofs.Workers

/-!
# The number of a session is a name

A tracker compares ids, keeps them and uses them as parents, but it never looks at the number of the
session in them, nor at the time.  So under another session number, and at another time, a tracker
does what it did before, with the new number in all its ids and the new time in all its events.

    apply of the renumbered tracker = apply of the tracker, renumbered       (mirrors_apply)
-/

namespace BuildTree

open Execution Spy Events

/-! ## Algorithm -/

namespace Event

/-- The same event at another time. -/
def retime (now : Nat) : Event → Event
  | .started i parent _ name => .started i parent now name
  | .finished i parent _ name outcome => .finished i parent now name outcome
  | e => e

/-- The time of a start or a finish. -/
def time? : Event → Option Nat
  | .started _ _ time _ => some time
  | .finished _ _ time _ _ => some time
  | _ => none

end Event

def Execution.Context.renumber (r : Renumbering) (c : Context) : Context :=
  { c with session := r.session c.session, live := c.live.map (·.renumber r) }

def Tracker.renumber (r : Renumbering) (t : Tracker) : Tracker :=
  ⟨t.context.renumber r, t.downloads.map (·.renumber r)⟩

/-- Only sessions get new numbers, and their entries keep theirs. -/
def Renumbering.KeepsEntries (r : Renumbering) : Prop := ∀ q, r.entry q = q

/-- What one step emits and what becomes of its value is, in a second step, the same under new
numbers and at another time. -/
structure Emits.Mirrors {α β : Type} (r : Renumbering) (later : Nat) (f : α → β) (x : Emits α)
    (y : Emits β) : Prop where
  value : y.value = f x.value
  events : y.events = x.events.map fun e => (e.renumber r).retime later

/-! ## Lemmas -/

section
variable {α β γ δ : Type} {r : Renumbering} {now later : Nat} {f : α → β} {g : γ → δ} {x : Emits α}
  {y : Emits β} {e : Event}

namespace Emits.Mirrors

theorem pure (a : α) : Mirrors r later f (Pure.pure a) (Pure.pure (f a)) := ⟨rfl, rfl⟩

theorem bind {k : α → Emits γ} {l : β → Emits δ} (h : Mirrors r later f x y)
    (hk : Mirrors r later g (k x.value) (l (f x.value))) : Mirrors r later g (x >>= k) (y >>= l) := by
  refine ⟨?_, ?_⟩
  · rw [value_bind, value_bind, h.value, hk.value]
  · rw [events_bind, events_bind, h.value, h.events, hk.events, List.map_append]

theorem map {k : α → γ} {l : β → δ} (h : Mirrors r later f x y) (hk : l (f x.value) = g (k x.value)) :
    Mirrors r later g (k <$> x) (l <$> y) := by
  refine ⟨?_, ?_⟩
  · rw [value_map, value_map, h.value, hk]
  · rw [events_map, events_map, h.events]

theorem event (e : Event) : Mirrors r later id (event e) (event ((e.renumber r).retime later)) :=
  ⟨rfl, rfl⟩

theorem note (n : Note) : Mirrors r later id (note n) (note n) := ⟨rfl, rfl⟩

/-- A step that emits nothing. -/
theorem silent (hx : x.events = []) : Mirrors r later id x x := ⟨rfl, by rw [hx]; rfl⟩

end Emits.Mirrors

end

/-! ## Contexts -/

namespace Execution.Context

variable {r : Renumbering} (c : Context) (t : Nat) (name : String)

@[simp] theorem sessionParent_renumber : (c.renumber r).sessionParent = c.sessionParent.renumber r :=
  rfl

theorem onThread_renumber : (c.renumber r).onThread t = (c.onThread t).map (·.renumber r) := by
  simp [onThread, renumber, List.filter_map, Function.comp_def]

theorem innermostWith?_renumber {p : Entry → Bool} (hp : ∀ e : Entry, p (e.renumber r) = p e) :
    (c.renumber r).innermostWith? t p = (c.innermostWith? t p).map (·.renumber r) := by
  have hpred : (p ∘ fun e : Entry => e.renumber r) = p := funext hp
  rw [innermostWith?, onThread_renumber, ← List.map_reverse, List.find?_map, hpred]
  rfl

@[simp] theorem find?_renumber (kind : EntryKind) :
    (c.renumber r).find? kind t name = (c.find? kind t name).map (·.renumber r) :=
  c.innermostWith?_renumber t fun _ => rfl

@[simp] theorem project?_renumber :
    (c.renumber r).project? t name = (c.project? t name).map (·.renumber r) :=
  c.find?_renumber t name .project

@[simp] theorem task?_renumber :
    (c.renumber r).task? t name = (c.task? t name).map (·.renumber r) :=
  c.find?_renumber t name .task

@[simp] theorem node?_renumber :
    (c.renumber r).node? t name = (c.node? t name).map (·.renumber r) :=
  c.find?_renumber t name .node

theorem create_renumber (hr : r.KeepsEntries) (kind : EntryKind) (p : Parent) :
    (c.renumber r).create kind t name (p.renumber r) =
      ((c.create kind t name p).1.renumber r, (c.create kind t name p).2.renumber r) := by
  have hid : EventId.entry (r.session c.session) c.nextSeq =
      (EventId.entry c.session c.nextSeq).renumber r := by rw [EventId.renumber, hr]
  simp [create, renumber, Entry.renumber, hid]

theorem taskParent_renumber (project : Option String) :
    (c.renumber r).taskParent t project = (c.taskParent t project).renumber r := by
  have hproject : project.bind ((c.renumber r).project? t) =
      (project.bind (c.project? t)).map (·.renumber r) := by
    cases project with
    | none => rfl
    | some owner => exact c.project?_renumber t owner
  unfold taskParent
  rw [hproject]
  cases project.bind (c.project? t) <;> rfl

theorem nodeParent_renumber : (c.renumber r).nodeParent t = (c.nodeParent t).renumber r := by
  unfold nodeParent
  rw [c.innermostWith?_renumber t (p := (·.kind == .task)) fun _ => rfl,
    c.innermostWith?_renumber t (p := (·.kind == .project)) fun _ => rfl]
  cases c.innermostWith? t (·.kind == .task) with
  | some e => rfl
  | none => cases c.innermostWith? t (·.kind == .project) <;> rfl

theorem openProject_renumber (hr : r.KeepsEntries) :
    (c.renumber r).openProject t name =
      ((c.openProject t name).1.renumber r, (c.openProject t name).2.renumber r) := by
  unfold openProject
  rw [project?_renumber]
  cases c.project? t name with
  | some e => rfl
  | none =>
    simp only [Option.map_none, sessionParent_renumber, c.create_renumber t name hr]
    rfl

theorem openTask_renumber (hr : r.KeepsEntries) (project : Option String) :
    (c.renumber r).openTask t project name =
      ((c.openTask t project name).1.renumber r, (c.openTask t project name).2.renumber r) := by
  unfold openTask
  rw [task?_renumber, taskParent_renumber]
  cases c.task? t name with
  | some e => rfl
  | none => exact c.create_renumber t name hr .task _

theorem openNode_renumber (hr : r.KeepsEntries) :
    (c.renumber r).openNode t name =
      ((c.openNode t name).1.renumber r, (c.openNode t name).2.renumber r) := by
  unfold openNode
  rw [node?_renumber, nodeParent_renumber]
  cases c.node? t name with
  | some e => rfl
  | none => exact c.create_renumber t name hr .node _

theorem complete_renumber (e : Entry) :
    (c.renumber r).complete (e.renumber r) = (c.complete e).renumber r := by
  have hid : ∀ x : Entry, ((x.renumber r).id == (e.renumber r).id) = (x.id == e.id) := fun x => by
    rw [Bool.eq_iff_iff, beq_iff_eq, beq_iff_eq]
    exact EventId.renumber_inj
  simp only [complete, renumber, List.filter_map, Function.comp_def, thread_renumber, hid]

theorem liveOfLastThread_renumber :
    (c.renumber r).liveOfLastThread = c.liveOfLastThread.map (·.renumber r) := by
  have hlast : (c.renumber r).lastThread = c.lastThread := rfl
  unfold liveOfLastThread
  rw [hlast]
  cases c.lastThread with
  | none => rfl
  | some t => simp only [onThread_renumber, List.map_reverse]

theorem currentId_renumber : (c.renumber r).currentId = c.currentId.renumber r := by
  unfold currentId
  rw [liveOfLastThread_renumber]
  cases c.liveOfLastThread <;> rfl

theorem liveReversed_renumber :
    (c.renumber r).liveReversed = c.liveReversed.map (·.renumber r) := by
  unfold liveReversed
  rw [show (c.renumber r).live = c.live.map (·.renumber r) from rfl, ← List.map_reverse]
  exact (List.map_mergeSort (f := fun e : Entry => e.renumber r) fun _ _ _ _ => rfl).symm

theorem foldl_complete_renumber (es : List Entry) :
    (es.map (·.renumber r)).foldl complete (c.renumber r) = (es.foldl complete c).renumber r := by
  induction es generalizing c with
  | nil => rfl
  | cons e es ih => rw [List.map_cons, List.foldl_cons, complete_renumber, ih, List.foldl_cons]

end Execution.Context

/-! ## Trackers -/

namespace Tracker

open Emits

variable {o : Options} {r : Renumbering} {m : Message} {now later : Nat} (t : Tracker)

theorem mirrors_messages {α : Type} {x y : Emits α} {f : Diagnostic → Severity × Option Position}
    (ds : List Diagnostic) (parent : EventId) (hv : y.value = x.value)
    (hx : x.events = ds.map fun d => Diagnostic.toEvent parent (f d).1 d.message (f d).2)
    (hy : y.events = ds.map fun d =>
      Diagnostic.toEvent (parent.renumber r) (f d).1 d.message (f d).2) :
    Mirrors r later id x y := by
  refine ⟨hv, ?_⟩
  rw [hx, hy, List.map_map]
  rfl

/-- An operation that needs a field, and does nothing without it. -/
theorem mirrors_named (key : String) {k l : String → Emits Tracker}
    (h : ∀ name, Mirrors r later (·.renumber r) (k name) (l name)) :
    Mirrors r later (·.renumber r)
      (do match ← m.required key with
          | none => pure t
          | some name => k name)
      (do match ← m.required key with
          | none => pure (t.renumber r)
          | some name => l name) := by
  refine (Mirrors.silent (m.events_required key)).bind ?_
  rw [Message.value_required]
  cases m.param? key with
  | none => exact .pure t
  | some name => exact h name

theorem mirrors_offer {ms : List ErrorMatcher} (hms : ∀ m ∈ ms, m = .compilationFailure)
    (c c' : Context) (parent : EventId) (kind : Kind) (error : String) :
    Mirrors r later id (ErrorMatcher.offer c parent kind error ms)
      (ErrorMatcher.offer c' (parent.renumber r) kind error ms) := by
  induction ms with
  | nil => exact .pure false
  | cons m ms ih =>
    have hrest := ih fun m' hm' => hms m' (List.mem_cons_of_mem _ hm')
    have hm := hms m List.mem_cons_self
    subst hm
    have hblock : Mirrors r later id (Block.tryConsume parent error)
        (Block.tryConsume (parent.renumber r) error) :=
      mirrors_messages (f := fun d => (.error, some d.position)) _ parent rfl rfl rfl
    unfold ErrorMatcher.offer
    split
    · refine Mirrors.bind hblock ?_
      simp only [id]
      split
      · exact .pure true
      · exact hrest
    · exact hrest

theorem mirrors_reportError (ho : o.BuiltIn) :
    Mirrors r later id (t.reportError o m) ((t.renumber r).reportError o m) := by
  have hparent : (((t.renumber r).context.innermostExecution? m.thread).map (·.id)).getD
        (t.renumber r).context.currentId =
      (((t.context.innermostExecution? m.thread).map (·.id)).getD t.context.currentId).renumber r := by
    have hfound : (t.renumber r).context.innermostExecution? m.thread =
        (t.context.innermostExecution? m.thread).map (·.renumber r) :=
      t.context.innermostWith?_renumber m.thread fun _ => rfl
    have hcurrent : (t.renumber r).context.currentId = t.context.currentId.renumber r :=
      t.context.currentId_renumber
    rw [hfound, hcurrent]
    cases t.context.innermostExecution? m.thread <;> rfl
  unfold reportError
  split
  · exact .pure ()
  · rw [hparent]
    exact (mirrors_offer ho _ _ _ m.kind _).bind (.pure ())

theorem mirrors_endSession :
    Mirrors r later (·.renumber r) (t.endSession o now) ((t.renumber r).endSession o later) :=
  (Mirrors.event _).bind (.pure _)

/-! ## Starting -/

theorem mirrors_startProject (hr : r.KeepsEntries) :
    Mirrors r later (·.renumber r) (t.startProject m now) ((t.renumber r).startProject m later) := by
  refine t.mirrors_named "id" fun name => ?_
  have hopen : (t.renumber r).context.openProject m.thread name = _ :=
    t.context.openProject_renumber m.thread name hr
  rw [hopen]
  exact (Mirrors.event _).bind (.pure _)

theorem mirrors_startTask (hr : r.KeepsEntries) :
    Mirrors r later (·.renumber r) (t.startTask m now) ((t.renumber r).startTask m later) := by
  refine t.mirrors_named "goal" fun goal => ?_
  have hopen : (t.renumber r).context.openTask m.thread (m.param? "id") goal = _ :=
    t.context.openTask_renumber m.thread goal hr (m.param? "id")
  rw [hopen]
  exact (Mirrors.event _).bind (.pure _)

theorem download?_renumber (coord : String) :
    (t.renumber r).download? coord = (t.download? coord).map (·.renumber r) := by
  rw [download?, show (t.renumber r).downloads = t.downloads.map (·.renumber r) from rfl,
    List.find?_map]
  rfl

theorem mirrors_startDownload (hr : r.KeepsEntries) :
    Mirrors r later (·.renumber r) (t.startDownload o m now)
      ((t.renumber r).startDownload o m later) := by
  unfold startDownload
  split
  · exact .pure t
  · next coord _ =>
    have hidle : (t.renumber r).isDownloading coord = t.isDownloading coord := by
      simp [isDownloading, download?_renumber]
    have hopen : (t.renumber r).context.openNode m.thread o.downloadNode = _ :=
      t.context.openNode_renumber m.thread o.downloadNode hr
    have hnode : ((t.renumber r).context.node? m.thread o.downloadNode).isNone =
        (t.context.node? m.thread o.downloadNode).isNone := by
      rw [show (t.renumber r).context = t.context.renumber r from rfl]
      simp
    rw [hidle, hnode, hopen]
    split
    · exact .pure t
    · have hend : ∀ (c : Context) (d : Download), Mirrors r later (·.renumber r)
          (do .event (d.started now); pure (⟨c, t.downloads ++ [d]⟩ : Tracker))
          (do .event ((d.renumber r).started later)
              pure ⟨c.renumber r, (t.renumber r).downloads ++ [d.renumber r]⟩) := by
        intro c d
        refine (Mirrors.event _).bind ⟨?_, rfl⟩
        simp [renumber]
      obtain ⟨c, node⟩ := t.context.openNode m.thread o.downloadNode
      dsimp only
      split
      · exact (Mirrors.event (node.started now)).bind (hend c ⟨coord, node.id⟩)
      · exact hend c ⟨coord, node.id⟩

/-! ## Finishing -/

theorem mirrors_finishEntry (name : String) (entry : Option Entry) :
    Mirrors r later (·.renumber r) (t.finishEntry m now name entry)
      ((t.renumber r).finishEntry m later name (entry.map (·.renumber r))) := by
  cases entry with
  | none => exact ⟨rfl, rfl⟩
  | some e =>
    refine ⟨?_, rfl⟩
    have hcomplete : (t.renumber r).context.complete (e.renumber r) = _ :=
      t.context.complete_renumber e
    simp only [Option.map_some, finishEntry, hcomplete]
    rfl

theorem mirrors_finishTask :
    Mirrors r later (·.renumber r) (t.finishTask m now) ((t.renumber r).finishTask m later) := by
  refine t.mirrors_named "goal" fun goal => ?_
  have hfound : (t.renumber r).context.task? m.thread goal = _ :=
    t.context.task?_renumber m.thread goal
  rw [hfound]
  exact t.mirrors_finishEntry goal _

theorem mirrors_finishProject :
    Mirrors r later (·.renumber r) (t.finishProject m now) ((t.renumber r).finishProject m later) := by
  refine t.mirrors_named "id" fun name => ?_
  have hfound : (t.renumber r).context.project? m.thread name = _ :=
    t.context.project?_renumber m.thread name
  rw [hfound]
  exact t.mirrors_finishEntry name _

/-! ## Downloads -/

theorem mirrors_abandon (ds : List Download) (why : String → Note) :
    Mirrors r later id (Download.abandon ds now why)
      (Download.abandon (ds.map (·.renumber r)) later why) := by
  refine ⟨rfl, ?_⟩
  simp only [Download.abandon, sorted_renumber, List.map_map]
  rfl

theorem mirrors_closeDownloads (thread : Nat) :
    Mirrors r later (·.renumber r) (t.closeDownloads o thread now)
      ((t.renumber r).closeDownloads o thread later) := by
  have hfound : (t.renumber r).context.node? thread o.downloadNode = _ :=
    t.context.node?_renumber thread o.downloadNode
  unfold closeDownloads
  rw [hfound]
  cases t.context.node? thread o.downloadNode with
  | none => exact .pure t
  | some node =>
    have hunder : (t.renumber r).downloads.filter (·.node == (node.renumber r).id) =
        (t.downloads.filter (·.node == node.id)).map (·.renumber r) := by
      rw [renumber, List.filter_map, Function.comp_def, node_renumber_beq]
    have hrest : (t.renumber r).downloads.filter (·.node != (node.renumber r).id) =
        (t.downloads.filter (·.node != node.id)).map (·.renumber r) := by
      have hbne : (fun d : Download => (d.renumber r).node != (node.renumber r).id) =
          fun d => d.node != node.id :=
        funext fun d => congrArg (! ·) (congrFun node_renumber_beq d)
      rw [renumber, List.filter_map, Function.comp_def, hbne]
    have hcomplete : (t.renumber r).context.complete (node.renumber r) = _ :=
      t.context.complete_renumber node
    simp only [Option.map_some, hunder, hrest, hcomplete]
    exact (mirrors_abandon _ _).bind ((Mirrors.event _).bind (.pure _))

theorem failureParent_renumber (thread : Nat) :
    (t.renumber r).failureParent o thread = (t.failureParent o thread).renumber r := by
  have hnode : (t.renumber r).context.node? thread o.downloadNode = _ :=
    t.context.node?_renumber thread o.downloadNode
  have hinnermost : (t.renumber r).context.innermost? thread = _ :=
    t.context.innermostWith?_renumber thread fun _ => rfl
  have hcurrent : (t.renumber r).context.currentId = _ := t.context.currentId_renumber
  unfold failureParent
  rw [hnode, hinnermost, hcurrent, ← Option.map_or]
  cases h : (t.context.node? thread o.downloadNode).or (t.context.innermost? thread) with
  | none => rw [Context.innermost?] at h; rw [h]; rfl
  | some e => rw [Context.innermost?] at h; rw [h]; rfl

theorem mirrors_finishDownload :
    Mirrors r later (·.renumber r) (t.finishDownload o m now)
      ((t.renumber r).finishDownload o m later) := by
  have hfound : (m.param? "artifactCoord").bind (t.renumber r).download? =
      ((m.param? "artifactCoord").bind t.download?).map (·.renumber r) := by
    cases m.param? "artifactCoord" with
    | none => rfl
    | some coord => exact t.download?_renumber coord
  unfold finishDownload
  dsimp only
  rw [hfound, failureParent_renumber]
  cases (m.param? "artifactCoord").bind t.download? with
  | some d =>
    refine ⟨?_, rfl⟩
    simp only [Option.map_some, renumber, List.filter_map, Function.comp_def]
    rfl
  | none =>
    cases m.param? "error" with
    | none => exact .pure t
    | some error => exact ⟨rfl, rfl⟩

theorem mirrors_abandonAll :
    Mirrors r later (·.renumber r) (t.abandonAll now) ((t.renumber r).abandonAll later) :=
  (mirrors_abandon t.downloads .downloadUnresolved).bind (.pure _)

/-! ## Messages -/

theorem mirrors_apply (hr : r.KeepsEntries) (ho : o.BuiltIn) :
    Mirrors r later (·.renumber r) (t.apply o m now) ((t.renumber r).apply o m later) := by
  have hclose : Mirrors r later (·.renumber r) (t.closeDownloads o m.thread now)
      ((t.renumber r).closeDownloads o m.thread later) := t.mirrors_closeDownloads m.thread
  refine (Mirrors.note _).bind ((t.mirrors_reportError ho).bind ?_)
  cases m.kind with
  | sessionStarted => exact .pure _
  | sessionEnded => exact t.mirrors_endSession
  | projectStarted => exact t.mirrors_startProject hr
  | mojoStarted => exact t.mirrors_startTask hr
  | mojoSucceeded | mojoFailed | mojoSkipped => exact hclose.bind (mirrors_finishTask _)
  | projectSucceeded => exact hclose.bind (mirrors_finishProject _)
  | projectFailed =>
    exact hclose.bind (mirrors_finishProject { (t.closeDownloads o m.thread now).value with
      context := (t.closeDownloads o m.thread now).value.context.markFailed })
  | projectSkipped => exact t.mirrors_finishProject
  | artifactDownloading => exact t.mirrors_startDownload hr
  | artifactResolved => exact t.mirrors_finishDownload

theorem mirrors_processLine (hr : r.KeepsEntries) (ho : o.BuiltIn) (raw : String) :
    Mirrors r later (Prod.map id (·.renumber r)) (t.processLine o raw now)
      ((t.renumber r).processLine o raw later) := by
  unfold processLine
  split
  · exact ⟨rfl, rfl⟩
  · exact (t.mirrors_apply hr ho).bind (.pure _)

end Tracker

end BuildTree
