import BuildTree.Proofs.BuiltIn
import BuildTree.Proofs.Histories

/-!
# What a message can do

Once its error was reported, a message does one thing to a tracker (`Act`), and only one that closes
the downloads of its thread does that, or marks the session as failed, before the one thing.  An act
says what the message asked for and what was found, and all that it emits and changes.

    t.apply o m now = ⟨t', (t.reportError o m).events ++ es, _⟩   →   Acts o m now t es t'
    R of every act, R transitive                                  →   R of acts      (Acts.fold)

What holds of all messages is proved by the cases of an act.
-/

namespace BuildTree

open Execution Spy

/-! ## Algorithm -/

namespace Spy.Message

/-- Whether a message ends a task or a project. -/
def completes (m : Message) : Bool :=
  match m.kind with
  | .mojoSucceeded | .mojoFailed | .mojoSkipped => true
  | .projectSucceeded | .projectFailed | .projectSkipped => true
  | _ => false

/-- Whether a message closes the downloads of its thread first. -/
def closesDownloads (m : Message) : Bool := m.completes && m.kind != .projectSkipped

/-- The entry that a message asks for: its kind, the project that a task is of, and its name. -/
inductive Asks (m : Message) : EntryKind → Option String → String → Prop
  | project {name} (hm : m.kind = .projectStarted) (hname : m.param? "id" = some name) :
      Asks m .project none name
  | task {goal} (hm : m.kind = .mojoStarted) (hgoal : m.param? "goal" = some goal) :
      Asks m .task (m.param? "id") goal

end Spy.Message

namespace Tracker

/-- One thing that a message does. -/
inductive Act (o : Options) (m : Message) (now : Nat) (t : Tracker) : List Event → Tracker → Prop
  | rests : Act o m now t [] t
  | announces (hm : m.kind = .sessionStarted) :
      Act o m now t [] { t with context := t.context.announce m.announced }
  | ends (outcome) (hm : m.kind = .sessionEnded) :
      Act o m now t [sessionFinished o t.context now outcome]
        { t with context := t.context.markEnded }
  | fails (hm : m.kind = .projectFailed) :
      Act o m now t [] { t with context := t.context.markFailed }
  /-- The entry that was asked for is made. -/
  | starts {kind project name c e} (hm : m.Asks kind project name)
      (hnew : t.context.find? kind m.thread name = none)
      (hmake : t.context.make kind m.thread project name = (c, e)) :
      Act o m now t [e.started now] { t with context := c }
  /-- The entry that was asked for runs already. -/
  | restarts {kind project name e} (hm : m.Asks kind project name)
      (hfound : t.context.find? kind m.thread name = some e) : Act o m now t [e.started now] t
  | finishes {kind name e} (hm : m.completes = true) (hkind : kind ≠ .node)
      (hfound : t.context.find? kind m.thread name = some e) :
      Act o m now t [e.finished now m.outcome] { t with context := t.context.complete e }
  /-- The download node finishes, and before it the downloads under it. -/
  | closes {node} (hm : m.closesDownloads = true)
      (hnode : t.context.node? m.thread o.downloadNode = some node) :
      Act o m now t
        ((Download.sorted (t.downloads.filter (·.node == node.id))).map (·.finished now .unknown) ++
          [node.finished now .success])
        ⟨t.context.complete node, t.downloads.filter (·.node != node.id)⟩
  | fetches {coord node} (hm : m.kind = .artifactDownloading)
      (hcoord : m.param? "artifactCoord" = some coord) (hidle : t.isDownloading coord = false)
      (hnode : t.context.node? m.thread o.downloadNode = some node) :
      Act o m now t [Download.started ⟨coord, node.id⟩ now]
        { t with downloads := t.downloads ++ [⟨coord, node.id⟩] }
  /-- The node that groups the downloads is made for the first of them. -/
  | groups {coord c node} (hm : m.kind = .artifactDownloading)
      (hcoord : m.param? "artifactCoord" = some coord) (hidle : t.isDownloading coord = false)
      (hnew : t.context.find? .node m.thread o.downloadNode = none)
      (hmake : t.context.make .node m.thread none o.downloadNode = (c, node)) :
      Act o m now t [node.started now, Download.started ⟨coord, node.id⟩ now]
        ⟨c, t.downloads ++ [⟨coord, node.id⟩]⟩
  | resolves {coord d} (outcome) (hm : m.kind = .artifactResolved)
      (hcoord : m.param? "artifactCoord" = some coord) (hd : t.download? coord = some d) :
      Act o m now t [d.finished now outcome]
        { t with downloads := t.downloads.filter (·.coord != d.coord) }
  /-- The error of an artifact that is not being fetched. -/
  | complains {parent} (error) (hm : m.kind = .artifactResolved)
      (hparent : parent = t.failureParent o m.thread) :
      Act o m now t [.started (.named error) (some parent) now error,
        .finished (.named error) (some parent) now error (.failure error)] t

/-- The acts of a message.  Only one that closes downloads does more than one thing. -/
inductive Acts (o : Options) (m : Message) (now : Nat) : Tracker → List Event → Tracker → Prop
  | one {t es t'} (h : Act o m now t es t') : Acts o m now t es t'
  | more {t es t₁ fs t'} (hm : m.closesDownloads = true) (h : Act o m now t es t₁)
      (hs : Acts o m now t₁ fs t') : Acts o m now t (es ++ fs) t'

end Tracker

/-! ## Lemmas -/

namespace Spy.Message

@[simp] theorem value_required (m : Message) (key : String) :
    (m.required key).value = m.param? key := by
  unfold required
  split <;> simp [*]

@[simp] theorem events_required (m : Message) (key : String) : (m.required key).events = [] := by
  unfold required
  split <;> rfl

variable {m : Message} {kind : EntryKind} {project : Option String} {name : String}

/-- A message that asks for an entry closes nothing. -/
theorem Asks.closesDownloads (h : m.Asks kind project name) : m.closesDownloads = false := by
  cases h <;> simp [Message.closesDownloads, completes, *]

theorem closesDownloads_of_fetch (hm : m.kind = .artifactDownloading) :
    m.closesDownloads = false := by
  simp [Message.closesDownloads, completes, hm]

end Spy.Message

namespace Tracker

variable {o : Options} {t t' : Tracker} {m : Message} {now : Nat} {es : List Event}
  {kind : EntryKind} {project : Option String} {name : String}

/-- What every act does and what goes over from one to the next, acts do. -/
theorem Acts.fold {R : Tracker → List Event → Tracker → Prop}
    (hact : ∀ {t es t'}, Act o m now t es t' → R t es t')
    (htrans : ∀ {t es t₁ fs t'}, R t es t₁ → R t₁ fs t' → R t (es ++ fs) t')
    (h : Acts o m now t es t') : R t es t' := by
  induction h with
  | one h => exact hact h
  | more hm h _ ih => exact htrans (hact h) ih

/-- Closing emits nothing but finishes, and not of the root. -/
theorem finished_of_mem_closes {ds : List Download} {node : Entry} {e : Event}
    (he : e ∈ ds.map (·.finished now .unknown) ++ [node.finished now .success]) :
    ∃ i p name outcome, e = .finished i (some p) now name outcome := by
  rcases List.mem_append.1 he with he | he
  · obtain ⟨d, -, rfl⟩ := List.mem_map.1 he
    exact ⟨_, _, _, _, rfl⟩
  · exact ⟨_, _, _, _, List.mem_singleton.1 he⟩

/-! ### Operations -/

theorem act_acquire (hm : m.Asks kind project name) :
    let x := t.context.acquire kind m.thread project name
    Act o m now t [x.2.started now] { t with context := x.1 } := by
  cases hfound : t.context.find? kind m.thread name with
  | none => exact .starts hm hfound (Context.acquire_of_absent hfound).symm
  | some e =>
    rw [Context.acquire_of_found hfound]
    exact .restarts hm hfound

theorem act_startProject (hm : m.kind = .projectStarted) :
    Act o m now t (t.startProject m now).events (t.startProject m now).value := by
  simp only [startProject, Emits.events_bind, Emits.value_bind, Message.events_required,
    Message.value_required, List.nil_append]
  cases hname : m.param? "id" with
  | none => exact .rests
  | some name => exact act_acquire (.project hm hname)

theorem act_startTask (hm : m.kind = .mojoStarted) :
    Act o m now t (t.startTask m now).events (t.startTask m now).value := by
  simp only [startTask, Emits.events_bind, Emits.value_bind, Message.events_required,
    Message.value_required, List.nil_append]
  cases hgoal : m.param? "goal" with
  | none => exact .rests
  | some goal => exact act_acquire (.task hm hgoal)

theorem act_finishEntry (hm : m.completes = true) (kind : EntryKind) (hkind : kind ≠ .node)
    (name : String) :
    Act o m now t (t.finishEntry m now name (t.context.find? kind m.thread name)).events
      (t.finishEntry m now name (t.context.find? kind m.thread name)).value := by
  cases hfound : t.context.find? kind m.thread name with
  | none => exact .rests
  | some e => exact .finishes hm hkind hfound

theorem act_finishTask (hm : m.completes = true) :
    Act o m now t (t.finishTask m now).events (t.finishTask m now).value := by
  simp only [finishTask, Emits.events_bind, Emits.value_bind, Message.events_required,
    Message.value_required, List.nil_append]
  cases m.param? "goal" with
  | none => exact .rests
  | some goal => exact act_finishEntry hm .task (by decide) goal

theorem act_finishProject (hm : m.completes = true) :
    Act o m now t (t.finishProject m now).events (t.finishProject m now).value := by
  simp only [finishProject, Emits.events_bind, Emits.value_bind, Message.events_required,
    Message.value_required, List.nil_append]
  cases m.param? "id" with
  | none => exact .rests
  | some name => exact act_finishEntry hm .project (by decide) name

theorem act_closeDownloads (hm : m.closesDownloads = true) :
    Act o m now t (t.closeDownloads o m.thread now).events
      (t.closeDownloads o m.thread now).value := by
  unfold Tracker.closeDownloads
  split
  · exact .rests
  · next node hnode => exact .closes hm hnode

theorem act_startDownload (hm : m.kind = .artifactDownloading) :
    Act o m now t (t.startDownload o m now).events (t.startDownload o m now).value := by
  unfold startDownload
  split
  · exact .rests
  · next coord hcoord =>
    split
    · exact .rests
    · next hidle =>
      have hidle : t.isDownloading coord = false := by simpa using hidle
      cases hnode : t.context.node? m.thread o.downloadNode with
      | none =>
        simp only [Option.isNone_none, if_true]
        exact .groups hm hcoord hidle hnode (Context.acquire_of_absent hnode).symm
      | some node =>
        simp only [Context.openNode, hnode]
        exact .fetches hm hcoord hidle hnode

theorem act_finishDownload (hm : m.kind = .artifactResolved) :
    Act o m now t (t.finishDownload o m now).events (t.finishDownload o m now).value := by
  unfold finishDownload
  dsimp only
  split
  · next d hd =>
    obtain ⟨coord, hcoord, hd⟩ := Option.bind_eq_some_iff.1 hd
    exact .resolves _ hm hcoord hd
  · split
    · exact .rests
    · next error herror => exact .complains error hm rfl

/-! ### Messages -/

/-- Behind what the error matchers say come the acts of a message. -/
theorem acts_apply (o : Options) (t : Tracker) (m : Message) (now : Nat) :
    ∃ es, (t.apply o m now).events = (t.reportError o m).events ++ es ∧
      Acts o m now t es (t.apply o m now).value := by
  unfold apply
  simp only [Emits.events_bind, Emits.value_bind, Emits.events_note, List.nil_append]
  refine ⟨_, rfl, ?_⟩
  have hcompletes : m.closesDownloads = true → m.completes = true := fun h =>
    (Bool.and_eq_true_iff.1 h).1
  cases hkind : m.kind with
  | sessionStarted => exact .one (.announces hkind)
  | sessionEnded => exact .one (.ends _ hkind)
  | projectStarted => exact .one (act_startProject hkind)
  | mojoStarted => exact .one (act_startTask hkind)
  | artifactDownloading => exact .one (act_startDownload hkind)
  | artifactResolved => exact .one (act_finishDownload hkind)
  | projectSkipped => exact .one (act_finishProject (by simp [Message.completes, hkind]))
  | mojoSucceeded | mojoFailed | mojoSkipped =>
    have hcloses : m.closesDownloads = true := by
      simp [Message.closesDownloads, Message.completes, hkind]
    exact .more hcloses (act_closeDownloads hcloses) (.one (act_finishTask (hcompletes hcloses)))
  | projectSucceeded =>
    have hcloses : m.closesDownloads = true := by
      simp [Message.closesDownloads, Message.completes, hkind]
    exact .more hcloses (act_closeDownloads hcloses) (.one (act_finishProject (hcompletes hcloses)))
  | projectFailed =>
    have hcloses : m.closesDownloads = true := by
      simp [Message.closesDownloads, Message.completes, hkind]
    let closed := (t.closeDownloads o m.thread now).value
    let failed : Tracker := { closed with context := closed.context.markFailed }
    have hfinish : Acts o m now failed (failed.finishProject m now).events
        (failed.finishProject m now).value := .one (act_finishProject (hcompletes hcloses))
    have hfails := Acts.more hcloses (Act.fails hkind) hfinish
    exact .more hcloses (act_closeDownloads hcloses) hfails

end Tracker

end BuildTree
