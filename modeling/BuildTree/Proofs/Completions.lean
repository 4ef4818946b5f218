import BuildTree.Proofs.TrackerMoves

/-!
# Completions of what does not run

A message that ends a task or a project names it.  Where nothing of that name runs on the thread
of the message nothing finishes; but what a completion does before it looks for the entry happens
all the same.

    task ended, project ended   the download node of the thread closes, if it is open
    project failed              the session is marked as failed

A skipped project does neither, so it changes nothing.  What is left of "no entry, no effect" is
an equivalence (`apply_absent_idle_iff`).
-/

namespace BuildTree

open Execution Spy

/-! ## Algorithm -/

namespace Spy.Message

/-- The entry that a message ends: the one of its name that runs on its thread. -/
def completed? (m : Message) (c : Context) : Option Entry :=
  match m.kind with
  | .mojoSucceeded | .mojoFailed | .mojoSkipped => (m.param? "goal").bind (c.task? m.thread)
  | .projectSucceeded | .projectFailed | .projectSkipped =>
    (m.param? "id").bind (c.project? m.thread)
  | _ => none

end Spy.Message

namespace Tracker

/-- What a tracker becomes from a fresh one on, by messages and by the end of the output. -/
inductive Reachable (o : Options) : Tracker → Prop
  | fresh (session) : Reachable o (.fresh session)
  | apply {t} (h : Reachable o t) (m now) : Reachable o (t.apply o m now).value
  | abandonAll {t} (h : Reachable o t) (now) : Reachable o (t.abandonAll now).value

/-- The downloads of its thread, as a completion leaves them. -/
def closeFirst (o : Options) (t : Tracker) (m : Message) (now : Nat) : Emits Tracker :=
  if m.closesDownloads then t.closeDownloads o m.thread now else pure t

/-- What a completion does before it looks for its entry. -/
def beforeCompletion (o : Options) (t : Tracker) (m : Message) (now : Nat) : Emits Tracker :=
  (fun t => if m.kind = .projectFailed then { t with context := t.context.markFailed } else t) <$>
    t.closeFirst o m now

/-! ## Lemmas -/

variable {o : Options} {t : Tracker} {m : Message} {now : Nat}

/-- An entry that was looked for in vain is not found after something else completed. -/
theorem find?_complete_eq_none {c : Context} {kind : EntryKind} {thread : Nat} {name : String}
    (h : c.find? kind thread name = none) (e : Entry) :
    (c.complete e).find? kind thread name = none := by
  simp only [Context.find?, Context.innermostWith?, List.find?_eq_none, List.mem_reverse,
    Context.onThread_complete, List.mem_filter] at h ⊢
  exact fun x hx => h x hx.1

theorem find?_closeDownloads_eq_none {kind : EntryKind} {thread : Nat} {name : String}
    (h : t.context.find? kind thread name = none) (o : Options) (now : Nat) :
    (t.closeDownloads o m.thread now).value.context.find? kind thread name = none := by
  unfold closeDownloads
  split
  · exact h
  · exact find?_complete_eq_none h _

theorem finishTask_absent (h : (m.param? "goal").bind (t.context.task? m.thread) = none)
    (now : Nat) :
    (t.finishTask m now).value = t ∧ (t.finishTask m now).events = [] := by
  simp only [finishTask, Emits.value_bind, Emits.events_bind, Message.value_required,
    Message.events_required, List.nil_append]
  cases hgoal : m.param? "goal" with
  | none => exact ⟨rfl, rfl⟩
  | some goal =>
    have hnone : t.context.task? m.thread goal = none := by simpa [hgoal] using h
    simp only [hnone, finishEntry, and_self]

theorem finishProject_absent (h : (m.param? "id").bind (t.context.project? m.thread) = none)
    (now : Nat) :
    (t.finishProject m now).value = t ∧ (t.finishProject m now).events = [] := by
  simp only [finishProject, Emits.value_bind, Emits.events_bind, Message.value_required,
    Message.events_required, List.nil_append]
  cases hid : m.param? "id" with
  | none => exact ⟨rfl, rfl⟩
  | some name =>
    have hnone : t.context.project? m.thread name = none := by simpa [hid] using h
    simp only [hnone, finishEntry, and_self]

theorem bind_find?_eq_none {name : Option String} {c c' : Context} {kind : EntryKind} {thread : Nat}
    (hc : ∀ n, c.find? kind thread n = none → c'.find? kind thread n = none)
    (h : name.bind (c.find? kind thread) = none) : name.bind (c'.find? kind thread) = none := by
  cases name with
  | none => rfl
  | some n => exact hc n h

theorem events_reportError_of_no_matchers (ho : o.errorMatchers = []) :
    (t.reportError o m).events = [] := by
  unfold reportError
  split
  · rfl
  · rw [ho]
    rfl

/-- A completion that finds no entry does what comes before the look-up, and no more. -/
theorem apply_absent (ho : o.errorMatchers = []) (hm : m.completes = true)
    (habsent : m.completed? t.context = none) (now : Nat) :
    (t.apply o m now).value = (t.beforeCompletion o m now).value ∧
    (t.apply o m now).events = (t.beforeCompletion o m now).events := by
  have hclosed : ∀ {name : Option String} {kind : EntryKind},
      name.bind (t.context.find? kind m.thread) = none →
      name.bind ((t.closeDownloads o m.thread now).value.context.find? kind m.thread) = none :=
    fun h => bind_find?_eq_none (fun _ hn => find?_closeDownloads_eq_none hn o now) h
  unfold apply beforeCompletion closeFirst Message.closesDownloads
  simp only [Emits.value_bind, Emits.events_bind, Emits.events_note, List.nil_append,
    events_reportError_of_no_matchers ho, hm, Bool.true_and]
  cases hkind : m.kind with
  | mojoSucceeded | mojoFailed | mojoSkipped =>
    simp only [Message.completed?, hkind] at habsent
    obtain ⟨hvalue, hevents⟩ := finishTask_absent (hclosed habsent) now
    simp [hvalue, hevents]
  | projectSucceeded =>
    simp only [Message.completed?, hkind] at habsent
    obtain ⟨hvalue, hevents⟩ := finishProject_absent (hclosed habsent) now
    simp [hvalue, hevents]
  | projectFailed =>
    simp only [Message.completed?, hkind] at habsent
    obtain ⟨hvalue, hevents⟩ := finishProject_absent
      (t := { (t.closeDownloads o m.thread now).value with
        context := (t.closeDownloads o m.thread now).value.context.markFailed })
      (hclosed habsent) now
    simp [hvalue, hevents]
  | projectSkipped =>
    simp only [Message.completed?, hkind] at habsent
    obtain ⟨hvalue, hevents⟩ := finishProject_absent habsent now
    simp [hvalue, hevents]
  | _ => simp [Message.completes, hkind] at hm

theorem closeDownloads_of_closed {thread : Nat}
    (h : t.context.node? thread o.downloadNode = none) :
    t.closeDownloads o thread now = pure t := by
  unfold closeDownloads
  rw [h]

/-- Closing an open download node emits its finish at least. -/
theorem events_closeDownloads_eq_nil_iff {thread : Nat} :
    (t.closeDownloads o thread now).events = [] ↔
      t.context.node? thread o.downloadNode = none := by
  constructor
  · intro h
    unfold closeDownloads at h
    split at h
    · assumption
    · simp at h
  · intro h
    rw [closeDownloads_of_closed h]
    rfl

theorem markFailed_eq_self_iff {c : Context} : c.markFailed = c ↔ c.failed = true := by
  constructor
  · intro h
    rw [← h]
    rfl
  · intro h
    rw [Context.markFailed, ← h]

theorem beforeCompletion_idle_iff :
    (t.beforeCompletion o m now).events = [] ∧ (t.beforeCompletion o m now).value = t ↔
      (m.closesDownloads = true → t.context.node? m.thread o.downloadNode = none) ∧
      (m.kind = .projectFailed → t.context.failed = true) := by
  have hclosed : (t.closeFirst o m now).events = [] ↔
      (m.closesDownloads = true → t.context.node? m.thread o.downloadNode = none) := by
    cases h : m.closesDownloads with
    | true => simp [closeFirst, h, events_closeDownloads_eq_nil_iff]
    | false => simp [closeFirst, h]
  rw [beforeCompletion, Emits.events_map, Emits.value_map, hclosed]
  refine and_congr_right fun hnode => ?_
  have hsame : t.closeFirst o m now = pure t := by
    unfold closeFirst
    split
    · next h => exact closeDownloads_of_closed (hnode h)
    · rfl
  rw [hsame, Emits.value_pure]
  by_cases hkind : m.kind = .projectFailed
  · obtain ⟨context, downloads⟩ := t
    simp [hkind, markFailed_eq_self_iff]
  · simp [hkind]

/-! ## Top theorems -/

/-- A completion of something that does not run does what comes before its look-up: it closes the
downloads of the thread, unless it skips a project, and it marks the session as failed if it fails
a project.  So it has no effect at all exactly if no download node is open there and the session is
marked already, as far as they matter to it. -/
theorem apply_absent_idle_iff (sessionName downloadNode : String) (t : Tracker) {m : Message}
    (hm : m.completes = true) (habsent : m.completed? t.context = none) (now : Nat) :
    let o : Options := ⟨sessionName, downloadNode, []⟩
    let x := t.apply o m now
    x.value = (t.beforeCompletion o m now).value ∧
    x.events = (t.beforeCompletion o m now).events ∧
    (x.events = [] ∧ x.value = t ↔
      (m.closesDownloads = true → t.context.node? m.thread downloadNode = none) ∧
      (m.kind = .projectFailed → t.context.failed = true)) := by
  intro o x
  obtain ⟨hvalue, hevents⟩ := apply_absent (o := o) rfl hm habsent now
  refine ⟨hvalue, hevents, ?_⟩
  rw [show x.value = _ from hvalue, show x.events = _ from hevents]
  exact beforeCompletion_idle_iff

/-- A goal that never started fails while a download is open on its thread. -/
theorem apply_absent_idle_iff_download :
    let o : Options := ⟨"build", "Downloading dependencies", []⟩
    let t := ((fresh 1).apply o ⟨0, .artifactDownloading, [("artifactCoord", "g:a:1")]⟩ 0).value
    let m : Message := ⟨0, .mojoFailed, [("id", "app"), ("goal", "test"), ("error", "no")]⟩
    let x := t.apply o m 1
    (m.completes = true ∧ m.completed? t.context = none) ∧
    x.value = (t.beforeCompletion o m 1).value ∧
    x.events = (t.beforeCompletion o m 1).events ∧
    (x.events = [] ∧ x.value = t ↔
      (m.closesDownloads = true → t.context.node? 0 "Downloading dependencies" = none) ∧
      (m.kind = .projectFailed → t.context.failed = true)) := by
  intro o t m x
  have hm : m.completes = true := rfl
  have habsent : m.completed? t.context = none := by decide +kernel
  exact ⟨⟨hm, habsent⟩, apply_absent_idle_iff "build" "Downloading dependencies" t hm habsent 1⟩

/-- "Nothing runs, so nothing happens" fails: the download that is open on the thread finishes,
and its node with it. -/
theorem not_idle_of_absent :
    ¬ ∀ (o : Options) (t : Tracker) (m : Message) (now : Nat), o.errorMatchers = [] →
      Reachable o t → m.completes = true → m.completed? t.context = none →
      (t.apply o m now).events = [] ∧ (t.apply o m now).value = t := by
  intro h
  let o : Options := ⟨"build", "Downloading dependencies", []⟩
  let download : Message := ⟨0, .artifactDownloading, [("artifactCoord", "g:a:1")]⟩
  let m : Message := ⟨0, .mojoFailed, [("id", "app"), ("goal", "test"), ("error", "no")]⟩
  have hreachable : Reachable o ((fresh 1).apply o download 0).value :=
    (Reachable.fresh 1).apply _ 0
  have hidle := (h o _ m 1 rfl hreachable rfl (by decide +kernel)).1
  have hevents : (((fresh 1).apply o download 0).value.apply o m 1).events =
      [.finished (.named "downloadg:a:1") (some (.entry 1 1)) 1 "g:a:1" .unknown,
        .finished (.entry 1 1) (some (.session 1)) 1 "Downloading dependencies" .success] := by
    decide +kernel
  rw [hevents] at hidle
  cases hidle

end Tracker

end BuildTree
