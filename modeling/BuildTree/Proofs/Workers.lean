import BuildTree.Proofs.Renumbering

/-!
# What one thread has of a tracker

The tracker is one for all threads, but every message works on what its own thread has of it: the
live entries of the thread, and the open downloads of the artifacts that belong to it.  So two
trackers that agree on what a thread has do the same for a message of that thread, up to the times
and to the numbers of the entries (`agree_apply`).

    Seen r owner a s t                s and t agree on what thread a has, up to the numbers
    Agree r owner a s t es fs s' t'   from s to s' and from t to t' thread a sees the same happen

`owner` says which thread an artifact belongs to.  The numbers are handed out by one counter for
all threads, hence the renumbering.
-/

namespace BuildTree

open Execution Spy Events

/-! ## Algorithm -/

/-- The artifact that a message starts or finishes a download of. -/
def Spy.Message.artifact? (m : Message) : Option String :=
  match m.kind with
  | .artifactDownloading | .artifactResolved => m.param? "artifactCoord"
  | _ => none

namespace Tracker

/-- The open downloads of the artifacts that belong to a thread. -/
def fetching (t : Tracker) (owner : String → Nat) (a : Nat) : List Download :=
  t.downloads.filter (owner ·.coord == a)

/-- Two trackers agree on what a thread has, up to the numbers. -/
structure Seen (r : Renumbering) (owner : String → Nat) (a : Nat) (s t : Tracker) : Prop where
  session : t.context.session = r.session s.context.session
  live : t.context.onThread a = (s.context.onThread a).map (·.renumber r)
  fetching : t.fetching owner a = (s.fetching owner a).map (·.renumber r)

/-- A download hangs under an entry of the thread that its artifact belongs to. -/
def Owned (owner : String → Nat) (t : Tracker) : Prop :=
  ∀ d ∈ t.downloads, ∀ e ∈ t.context.live, e.id = d.node → e.thread = owner d.coord

/-- From `s` to `s'` and from `t` to `t'` the same is shown and the same changes, as far as a thread
is concerned, and an entry is created in both or in none. -/
structure Agree (r : Renumbering) (owner : String → Nat) (a : Nat) (s t : Tracker)
    (es fs : List Event) (s' t' : Tracker) : Prop where
  seen : Seen r owner a s' t'
  events : trace fs = (trace es).map (·.renumber r)
  numbers : s'.context.nextSeq = s.context.nextSeq ∧ t'.context.nextSeq = t.context.nextSeq ∨
    s'.context.nextSeq = s.context.nextSeq + 1 ∧ t'.context.nextSeq = t.context.nextSeq + 1

end Tracker

namespace Tracker

section
variable {o : Options} {r : Renumbering} {owner : String → Nat} {a b : Nat} {s t t₁ t' : Tracker}
  {m : Message} {now later : Nat} {e : Entry} {c : String}

/-! ## Look-ups -/

theorem Seen.innermostWith? (h : Seen r owner a s t) {p : Entry → Bool}
    (hp : ∀ e : Entry, p (e.renumber r) = p e) :
    t.context.innermostWith? a p = (s.context.innermostWith? a p).map (·.renumber r) := by
  have hpred : (p ∘ fun e : Entry => e.renumber r) = p := funext hp
  rw [Context.innermostWith?, h.live, ← List.map_reverse, List.find?_map, hpred]
  rfl

theorem Seen.find? (h : Seen r owner a s t) (kind : EntryKind) (name : String) :
    t.context.find? kind a name = (s.context.find? kind a name).map (·.renumber r) :=
  h.innermostWith? fun _ => rfl

theorem Seen.project? (h : Seen r owner a s t) (name : String) :
    t.context.project? a name = (s.context.project? a name).map (·.renumber r) :=
  h.find? .project name

theorem Seen.task? (h : Seen r owner a s t) (goal : String) :
    t.context.task? a goal = (s.context.task? a goal).map (·.renumber r) :=
  h.find? .task goal

theorem Seen.node? (h : Seen r owner a s t) (name : String) :
    t.context.node? a name = (s.context.node? a name).map (·.renumber r) :=
  h.find? .node name

/-- A download is looked for among those of the thread that its artifact belongs to. -/
theorem download?_eq (hc : owner c = a) :
    t.download? c = (t.fetching owner a).find? (·.coord == c) := by
  rw [fetching, List.find?_filter, download?]
  congr 1
  funext d
  by_cases hd : d.coord = c
  · simp [hd, hc]
  · simp [hd]

theorem Seen.download? (h : Seen r owner a s t) (hc : owner c = a) :
    t.download? c = (s.download? c).map (·.renumber r) := by
  rw [download?_eq hc, download?_eq hc, h.fetching, List.find?_map]
  rfl

theorem Seen.sessionParent (h : Seen r owner a s t) :
    t.context.sessionParent = s.context.sessionParent.renumber r := by
  rw [Context.sessionParent, Context.sessionId, h.session]
  rfl

theorem Seen.taskParent (h : Seen r owner a s t) (project : Option String) :
    t.context.taskParent a project = (s.context.taskParent a project).renumber r := by
  have hproject : project.bind (t.context.project? a) =
      (project.bind (s.context.project? a)).map (·.renumber r) := by
    cases project with
    | none => rfl
    | some name => exact h.project? name
  unfold Context.taskParent
  rw [hproject]
  cases project.bind (s.context.project? a) with
  | none => exact h.sessionParent
  | some p => rfl

theorem Seen.nodeParent (h : Seen r owner a s t) :
    t.context.nodeParent a = (s.context.nodeParent a).renumber r := by
  unfold Context.nodeParent
  rw [h.innermostWith? (p := (·.kind == .task)) fun _ => rfl,
    h.innermostWith? (p := (·.kind == .project)) fun _ => rfl]
  cases s.context.innermostWith? a (·.kind == .task) with
  | some e => rfl
  | none =>
    cases s.context.innermostWith? a (·.kind == .project) with
    | some e => rfl
    | none => exact h.sessionParent

/-! ## Changes -/

/-- What the entries and the downloads of the thread depend on. -/
theorem Seen.of_eq (h : Seen r owner a s t) {s' : Tracker}
    (hsession : s'.context.session = s.context.session) (hlive : s'.context.live = s.context.live)
    (hdownloads : s'.downloads = s.downloads)
    (hsession' : t'.context.session = t.context.session) (hlive' : t'.context.live = t.context.live)
    (hdownloads' : t'.downloads = t.downloads) : Seen r owner a s' t' := by
  refine ⟨?_, ?_, ?_⟩
  · rw [hsession, hsession', h.session]
  · rw [Context.onThread, Context.onThread, hlive, hlive']
    exact h.live
  · rw [Tracker.fetching, Tracker.fetching, hdownloads, hdownloads']
    exact h.fetching

theorem Seen.markFailed (h : Seen r owner a s t) :
    Seen r owner a { s with context := s.context.markFailed }
      { t with context := t.context.markFailed } := h.of_eq rfl rfl rfl rfl rfl rfl

theorem Seen.create (h : Seen r owner a s t) (kind : EntryKind) (name : String) {p p' : Parent}
    (hp : p' = p.renumber r) (hnext : t.context.nextSeq = r.entry s.context.nextSeq) :
    (t.context.create kind a name p').2 = (s.context.create kind a name p).2.renumber r ∧
    Seen r owner a { s with context := (s.context.create kind a name p).1 }
      { t with context := (t.context.create kind a name p').1 } := by
  have hentry : (t.context.create kind a name p').2 =
      (s.context.create kind a name p).2.renumber r := by
    simp only [Context.create, Entry.renumber, EventId.renumber, h.session, hnext, hp]
  refine ⟨hentry, h.session, ?_, h.fetching⟩
  simp only [Context.onThread_create, if_true, hentry, h.live, List.map_append, List.map_cons,
    List.map_nil]

theorem Seen.complete (h : Seen r owner a s t) (e : Entry) :
    Seen r owner a { s with context := s.context.complete e }
      { t with context := t.context.complete (e.renumber r) } := by
  refine ⟨h.session, ?_, h.fetching⟩
  simp only [Context.onThread_complete, h.live, List.filter_map]
  congr 2
  funext x
  have hid : (x.id.renumber r == e.id.renumber r) = (x.id == e.id) := by
    rw [Bool.eq_iff_iff, beq_iff_eq, beq_iff_eq, EventId.renumber_inj]
  simp only [Function.comp, thread_renumber, id_renumber, hid]

theorem Seen.filter_downloads (h : Seen r owner a s t) {p q : Download → Bool}
    (hpq : ∀ d : Download, q (d.renumber r) = p d) :
    Seen r owner a { s with downloads := s.downloads.filter p }
      { t with downloads := t.downloads.filter q } := by
  have hcomm : ∀ (u : Tracker) (f : Download → Bool),
      ({ u with downloads := u.downloads.filter f } : Tracker).fetching owner a =
        (u.fetching owner a).filter f := by
    intro u f
    simp only [Tracker.fetching, List.filter_filter, Bool.and_comm]
  refine ⟨h.session, h.live, ?_⟩
  rw [hcomm, hcomm, h.fetching, List.filter_map]
  congr 2
  exact funext hpq

/-- Nothing happens. -/
theorem Seen.agree (h : Seen r owner a s t) : Agree r owner a s t [] [] s t :=
  ⟨h, rfl, Or.inl ⟨rfl, rfl⟩⟩

/-! ## Starting -/

theorem agree_startProject (h : Seen r owner m.thread s t)
    (hnew : (t.startProject m later).value.context.nextSeq ≠ t.context.nextSeq →
      t.context.nextSeq = r.entry s.context.nextSeq) :
    Agree r owner m.thread s t (s.startProject m now).events (t.startProject m later).events
      (s.startProject m now).value (t.startProject m later).value := by
  simp only [startProject, Emits.events_bind, Emits.value_bind, Message.events_required,
    Message.value_required, List.nil_append] at hnew ⊢
  cases hid : m.param? "id" with
  | none => exact h.agree
  | some name =>
    simp only [hid, Context.openProject, h.project? name] at hnew ⊢
    cases hs : s.context.project? m.thread name with
    | some e => exact ⟨h, trace_of_untimed_eq rfl, Or.inl ⟨rfl, rfl⟩⟩
    | none =>
      simp only [hs, Option.map_none] at hnew ⊢
      obtain ⟨hentry, hseen⟩ := h.create .project name h.sessionParent
        (hnew (Nat.succ_ne_self _))
      refine ⟨hseen.of_eq rfl rfl rfl rfl rfl rfl, trace_of_untimed_eq ?_, Or.inr ⟨rfl, rfl⟩⟩
      rw [hentry]
      rfl

theorem agree_startTask (h : Seen r owner m.thread s t)
    (hnew : (t.startTask m later).value.context.nextSeq ≠ t.context.nextSeq →
      t.context.nextSeq = r.entry s.context.nextSeq) :
    Agree r owner m.thread s t (s.startTask m now).events (t.startTask m later).events
      (s.startTask m now).value (t.startTask m later).value := by
  simp only [startTask, Emits.events_bind, Emits.value_bind, Message.events_required,
    Message.value_required, List.nil_append] at hnew ⊢
  cases hgoal : m.param? "goal" with
  | none => exact h.agree
  | some goal =>
    simp only [hgoal, Context.openTask, h.task? goal] at hnew ⊢
    cases hs : s.context.task? m.thread goal with
    | some e => exact ⟨h, trace_of_untimed_eq rfl, Or.inl ⟨rfl, rfl⟩⟩
    | none =>
      simp only [hs, Option.map_none] at hnew ⊢
      obtain ⟨hentry, hseen⟩ := h.create .task goal (h.taskParent (m.param? "id"))
        (hnew (Nat.succ_ne_self _))
      refine ⟨hseen, trace_of_untimed_eq ?_, Or.inr ⟨rfl, rfl⟩⟩
      rw [hentry]
      rfl

/-- A download starts in both under the node of the thread. -/
theorem Seen.fetch (h : Seen r owner a s t) (hc : owner c = a) (i : EventId) :
    Seen r owner a { s with downloads := s.downloads ++ [⟨c, i⟩] }
      { t with downloads := t.downloads ++ [⟨c, i.renumber r⟩] } := by
  refine ⟨h.session, h.live, ?_⟩
  simp only [Tracker.fetching, List.filter_append, List.map_append]
  rw [show t.downloads.filter _ = _ from h.fetching]
  simp [hc, Download.renumber, Tracker.fetching]

theorem agree_startDownload (h : Seen r owner m.thread s t)
    (hc : ∀ c, m.param? "artifactCoord" = some c → owner c = m.thread)
    (hnew : (t.startDownload o m later).value.context.nextSeq ≠ t.context.nextSeq →
      t.context.nextSeq = r.entry s.context.nextSeq) :
    Agree r owner m.thread s t (s.startDownload o m now).events (t.startDownload o m later).events
      (s.startDownload o m now).value (t.startDownload o m later).value := by
  unfold startDownload at hnew ⊢
  cases hcoord : m.param? "artifactCoord" with
  | none => exact h.agree
  | some c =>
    have hown := hc c hcoord
    have hopen : t.isDownloading c = s.isDownloading c := by
      simp [isDownloading, h.download? hown]
    simp only [hcoord, hopen, Context.openNode, h.node?] at hnew ⊢
    split
    · exact h.agree
    · next hidle =>
      rw [if_neg hidle] at hnew
      cases hs : s.context.node? m.thread o.downloadNode with
      | some e => exact ⟨h.fetch hown e.id, trace_of_untimed_eq rfl, Or.inl ⟨rfl, rfl⟩⟩
      | none =>
        simp only [hs, Option.map_none] at hnew ⊢
        obtain ⟨hentry, hseen⟩ := h.create .node o.downloadNode h.nodeParent
          (hnew (Nat.succ_ne_self _))
        refine ⟨?_, trace_of_untimed_eq ?_, Or.inr ⟨rfl, rfl⟩⟩
        · rw [hentry]
          exact hseen.fetch hown _
        · rw [hentry]
          rfl

/-! ## Finishing -/

theorem agree_finishEntry (h : Seen r owner a s t) (name : String) (entry : Option Entry) :
    Agree r owner a s t (s.finishEntry m now name entry).events
      (t.finishEntry m later name (entry.map (·.renumber r))).events
      (s.finishEntry m now name entry).value
      (t.finishEntry m later name (entry.map (·.renumber r))).value := by
  cases entry with
  | none => exact h.agree
  | some e => exact ⟨h.complete e, trace_of_untimed_eq rfl, Or.inl ⟨rfl, rfl⟩⟩

theorem agree_finishTask (h : Seen r owner m.thread s t) (now later : Nat) :
    Agree r owner m.thread s t (s.finishTask m now).events (t.finishTask m later).events
      (s.finishTask m now).value (t.finishTask m later).value := by
  simp only [finishTask, Emits.events_bind, Emits.value_bind, Message.events_required,
    Message.value_required, List.nil_append]
  cases m.param? "goal" with
  | none => exact h.agree
  | some goal =>
    simp only [h.task? goal]
    exact agree_finishEntry h goal _

theorem agree_finishProject (h : Seen r owner m.thread s t) (now later : Nat) :
    Agree r owner m.thread s t (s.finishProject m now).events (t.finishProject m later).events
      (s.finishProject m now).value (t.finishProject m later).value := by
  simp only [finishProject, Emits.events_bind, Emits.value_bind, Message.events_required,
    Message.value_required, List.nil_append]
  cases m.param? "id" with
  | none => exact h.agree
  | some name =>
    simp only [h.project? name]
    exact agree_finishEntry h name _

theorem agree_finishDownload (h : Seen r owner m.thread s t)
    (hc : ∀ c, m.param? "artifactCoord" = some c → owner c = m.thread) :
    Agree r owner m.thread s t (s.finishDownload o m now).events (t.finishDownload o m later).events
      (s.finishDownload o m now).value (t.finishDownload o m later).value := by
  have hfound : (m.param? "artifactCoord").bind t.download? =
      ((m.param? "artifactCoord").bind s.download?).map (·.renumber r) := by
    cases hcoord : m.param? "artifactCoord" with
    | none => rfl
    | some c => exact h.download? (hc c hcoord)
  unfold finishDownload
  dsimp only
  rw [hfound]
  cases (m.param? "artifactCoord").bind s.download? with
  | some d => exact ⟨h.filter_downloads fun _ => rfl, trace_of_untimed_eq rfl, Or.inl ⟨rfl, rfl⟩⟩
  | none =>
    cases m.param? "error" with
    | none => exact h.agree
    | some error =>
      -- the failure of a resolution is neither an entry nor the download that it names
      have hnamed : ∀ parent time, trace [.started (.named error) parent time error,
          .finished (.named error) parent time error (.failure error)] = [] := by
        intro parent time
        have := EventId.named_ne_download error
        simp [trace, Event.isTracked, EventId.isEntry, this]
      refine ⟨h, ?_, Or.inl ⟨rfl, rfl⟩⟩
      simp only [Option.map_none, hnamed, List.map_nil]

/-! ## Downloads that a thread leaves open -/

/-- The downloads under an entry are of the thread of the entry. -/
theorem Owned.filter_node (h : Owned owner t) (he : e ∈ t.context.live) :
    t.downloads.filter (·.node == e.id) = (t.fetching owner e.thread).filter (·.node == e.id) := by
  rw [fetching, List.filter_filter]
  refine List.filter_congr fun d hd => ?_
  by_cases hnode : d.node = e.id
  · simp [hnode, h d hd e he hnode.symm]
  · simp [hnode]

theorem sorted_renumber (ds : List Download) :
    Download.sorted (ds.map (·.renumber r)) = (Download.sorted ds).map (·.renumber r) :=
  (List.map_mergeSort (f := fun d : Download => d.renumber r) fun _ _ _ _ => rfl).symm

theorem node_renumber_beq : (fun d : Download => (d.renumber r).node == (e.renumber r).id) =
    fun d => d.node == e.id := by
  funext d
  rw [Bool.eq_iff_iff, beq_iff_eq, beq_iff_eq]
  exact EventId.renumber_inj

theorem nextSeq_closeDownloads (o : Options) (t : Tracker) (a now : Nat) :
    (t.closeDownloads o a now).value.context.nextSeq = t.context.nextSeq := by
  unfold closeDownloads
  split <;> rfl

theorem agree_closeDownloads (h : Seen r owner a s t) (hs : Owned owner s) (ht : Owned owner t)
    (o : Options) (now later : Nat) :
    Agree r owner a s t (s.closeDownloads o a now).events (t.closeDownloads o a later).events
      (s.closeDownloads o a now).value (t.closeDownloads o a later).value := by
  have hnode := h.node? o.downloadNode
  unfold closeDownloads
  cases hfound : s.context.node? a o.downloadNode with
  | none =>
    simp only [hnode, hfound, Option.map_none]
    exact h.agree
  | some node =>
    rw [hfound] at hnode
    obtain ⟨hlive, hthread, -, -⟩ := Context.find?_eq_some hfound
    obtain ⟨hlive', hthread', -, -⟩ := Context.find?_eq_some hnode
    have hunder : t.downloads.filter (·.node == (node.renumber r).id) =
        (s.downloads.filter (·.node == node.id)).map (·.renumber r) := by
      rw [hs.filter_node hlive, ht.filter_node hlive', hthread, hthread', h.fetching,
        List.filter_map, Function.comp_def, node_renumber_beq]
    have hseen := (h.complete node).filter_downloads
      (p := (·.node != node.id)) (q := (·.node != (node.renumber r).id))
      fun d => congrArg (! ·) (congrFun node_renumber_beq d)
    simp only [hnode, Option.map_some]
    refine ⟨hseen, trace_of_untimed_eq ?_, Or.inl ⟨rfl, rfl⟩⟩
    simp only [Download.abandon, Emits.events_bind, Emits.events_event, Emits.events_pure,
      List.append_nil, hunder, sorted_renumber, List.map_append, List.map_map]
    rfl

/-- Downloads close before what comes next. -/
theorem Agree.after {s₁ : Tracker} {es es' fs fs' : List Event} {s' : Tracker}
    (h : Agree r owner a s t es fs s₁ t₁) (hs : s₁.context.nextSeq = s.context.nextSeq)
    (ht : t₁.context.nextSeq = t.context.nextSeq) (h' : Agree r owner a s₁ t₁ es' fs' s' t') :
    Agree r owner a s t (es ++ es') (fs ++ fs') s' t' := by
  refine ⟨h'.seen, ?_, ?_⟩
  · rw [trace_append, trace_append, List.map_append, h.events, h'.events]
  · rw [← hs, ← ht]
    exact h'.numbers

/-! ## Messages -/

/-- Two trackers that agree on what a thread has do the same for a message of that thread. -/
theorem agree_apply (ho : o.BuiltIn) (h : Seen r owner m.thread s t) (hs : Owned owner s)
    (ht : Owned owner t) (hc : ∀ c, m.artifact? = some c → owner c = m.thread) (now later : Nat)
    (hnew : (t.apply o m later).value.context.nextSeq ≠ t.context.nextSeq →
      t.context.nextSeq = r.entry s.context.nextSeq) :
    Agree r owner m.thread s t (s.apply o m now).events (t.apply o m later).events
      (s.apply o m now).value (t.apply o m later).value := by
  have hreport : ∀ u : Tracker, trace (u.reportError o m).events = [] := fun u =>
    trace_of_lifecycle_nil (lifecycle_reportError u m ho)
  have hstep : ∀ {es fs : List Event} {s' t' : Tracker}, Agree r owner m.thread s t es fs s' t' →
      Agree r owner m.thread s t ((s.reportError o m).events ++ es)
        ((t.reportError o m).events ++ fs) s' t' := by
    rintro es fs s' t' ⟨hseen, hevents, hnumbers⟩
    exact ⟨hseen, by simpa [hreport] using hevents, hnumbers⟩
  have hclose := agree_closeDownloads h hs ht o now later
  have hnext := fun (u : Tracker) (time : Nat) => nextSeq_closeDownloads o u m.thread time
  unfold Message.artifact? at hc
  unfold apply at hnew ⊢
  simp only [Emits.events_bind, Emits.value_bind, Emits.events_note, List.nil_append] at hnew ⊢
  refine hstep ?_
  cases hkind : m.kind with
  | sessionStarted => exact ⟨h.of_eq rfl rfl rfl rfl rfl rfl, rfl, Or.inl ⟨rfl, rfl⟩⟩
  | sessionEnded => exact ⟨h.of_eq rfl rfl rfl rfl rfl rfl, rfl, Or.inl ⟨rfl, rfl⟩⟩
  | projectStarted => exact agree_startProject h (by simpa only [hkind] using hnew)
  | mojoStarted => exact agree_startTask h (by simpa only [hkind] using hnew)
  | projectSkipped => exact agree_finishProject h now later
  | artifactDownloading =>
    exact agree_startDownload h (by simpa only [hkind] using hc) (by simpa only [hkind] using hnew)
  | artifactResolved => exact agree_finishDownload h (by simpa only [hkind] using hc)
  | mojoSucceeded | mojoFailed | mojoSkipped =>
    exact hclose.after (hnext s now) (hnext t later) (agree_finishTask hclose.seen now later)
  | projectSucceeded =>
    exact hclose.after (hnext s now) (hnext t later) (agree_finishProject hclose.seen now later)
  | projectFailed =>
    have hfinish := agree_finishProject hclose.seen.markFailed now later
    exact hclose.after (hnext s now) (hnext t later) ⟨hfinish.seen, hfinish.events, hfinish.numbers⟩

end

end Tracker

end BuildTree
