import BuildTree.Proofs.Lifecycle
import BuildTree.Proofs.Observers

/-!
# Entries that start again

A message that starts a project or a task asks for the entry of that name, and starts what it gets.
If the entry runs already it starts again, with the same id (`restarted?`).  Nothing else starts an
entry twice: what is created has a new number, and the node of the downloads starts only when it is
created.

    a message that finds its entry    its one start or finish is the start of that entry
    any other message                 no entry starts, or the one with the next number  (StartsNew)
    no id starts twice in a run       iff no turn finds the entry that it starts
-/

namespace BuildTree

open Execution Spy

/-! ## Algorithm -/

/-- The id of an entry that an event starts. -/
def Event.entryStart? : Event → Option EventId
  | .started (.entry s q) .. => some (.entry s q)
  | _ => none

/-- The entries that start in a stream, one id for every start. -/
def Events.entryStarts (es : List Event) : List EventId := es.filterMap Event.entryStart?

/-- The entry that a message starts again: the one of its name that runs on its thread. -/
def Spy.Message.restarted? (m : Message) (c : Context) : Option Entry :=
  match m.kind with
  | .projectStarted => (m.param? "id").bind (c.project? m.thread)
  | .mojoStarted => (m.param? "goal").bind (c.task? m.thread)
  | _ => none

/-- Whether the line of a turn starts an entry again. -/
def Session.Turn.restarts (t : Session.Turn) : Bool :=
  t.session.phase == .active && isSpyLine t.raw &&
    match decode t.raw with
    | .ok m => (m.restarted? t.session.context).isSome
    | .error _ => false

/-- What starts in a tracker is new: no entry, or the one with the next number. -/
def Tracker.StartsNew (t : Tracker) (es : List Event) : Prop :=
  Events.entryStarts es = [] ∨
    Events.entryStarts es = [.entry t.context.session t.context.nextSeq]

/-! ## Lemmas -/

open Events

section
variable {es fs : List Event} {s q : Nat}

@[simp] theorem entryStarts_append : entryStarts (es ++ fs) = entryStarts es ++ entryStarts fs :=
  List.filterMap_append

theorem entryStarts_eq_nil (h : ∀ e ∈ es, e.entryStart? = none) : entryStarts es = [] :=
  List.filterMap_eq_nil_iff.2 h

/-- Only starts and finishes matter. -/
theorem entryStarts_lifecycle (es : List Event) : entryStarts (lifecycle es) = entryStarts es := by
  rw [entryStarts, entryStarts, lifecycle, List.filterMap_filter]
  congr 1
  funext e
  cases e <;> rfl

/-- An entry that has started in a stream is one of its starts. -/
theorem mem_entryStarts_of_isOpen (h : isOpen es (.entry s q) = true) :
    .entry s q ∈ entryStarts es := by
  rw [isOpen, Bool.and_eq_true, List.any_eq_true] at h
  obtain ⟨⟨e, he, hstart⟩, -⟩ := h
  obtain ⟨hmem, hid⟩ := List.mem_filter.1 he
  refine List.mem_filterMap.2 ⟨e, hmem, ?_⟩
  cases e with
  | started i p time name =>
    have hi : i = .entry s q := by simpa [Event.id?] using hid
    rw [hi, Event.entryStart?]
  | _ => cases hstart

theorem history_ne_nil_of_mem_entryStarts (h : .entry s q ∈ entryStarts es) :
    history es (.entry s q) ≠ [] := by
  obtain ⟨e, he, hstart⟩ := List.mem_filterMap.1 h
  refine List.ne_nil_of_mem (a := e) (List.mem_filter.2 ⟨he, ?_⟩)
  unfold Event.entryStart? at hstart
  split at hstart
  · rw [← Option.some.inj hstart]
    simp [Event.id?]
  · cases hstart

end

/-! ## One message -/

namespace Tracker

variable {o : Options} {t t' : Tracker} {m : Message} {now : Nat}

theorem startProject_restarts {e : Entry}
    (h : (m.param? "id").bind (t.context.project? m.thread) = some e) (now : Nat) :
    e ∈ t.context.live ∧ (t.startProject m now).events = [e.started now] := by
  obtain ⟨name, hid, hname⟩ := Option.bind_eq_some_iff.1 h
  refine ⟨(Context.find?_eq_some hname).1, ?_⟩
  simp [startProject, hid, Context.openProject, hname]

theorem startTask_restarts {e : Entry}
    (h : (m.param? "goal").bind (t.context.task? m.thread) = some e) (now : Nat) :
    e ∈ t.context.live ∧ (t.startTask m now).events = [e.started now] := by
  obtain ⟨name, hgoal, hname⟩ := Option.bind_eq_some_iff.1 h
  refine ⟨(Context.find?_eq_some hname).1, ?_⟩
  simp [startTask, hgoal, Context.openTask, hname]

/-- A message that asks for an entry and finds it starts it again. -/
theorem restarted?_of_found {kind : EntryKind} {project : Option String} {name : String} {e : Entry}
    (hm : m.Asks kind project name) (hfound : t.context.find? kind m.thread name = some e) :
    m.restarted? t.context = some e := by
  cases hm with
  | project hm hname => simpa [Message.restarted?, hm, hname, Context.project?] using hfound
  | task hm hgoal => simpa [Message.restarted?, hm, hgoal, Context.task?] using hfound

theorem restarted?_of_closes (hm : m.closesDownloads = true) (c : Context) :
    m.restarted? c = none := by
  unfold Message.restarted?
  split
  · next hkind => simp [Message.closesDownloads, Message.completes, hkind] at hm
  · next hkind => simp [Message.closesDownloads, Message.completes, hkind] at hm
  · rfl

theorem entryStarts_make {kind : EntryKind} {thread : Nat} {project : Option String}
    {name : String} {c : Context} {e : Entry}
    (hmake : t.context.make kind thread project name = (c, e)) (now : Nat) :
    entryStarts [e.started now] = [.entry t.context.session t.context.nextSeq] := by
  obtain ⟨-, rfl⟩ := Prod.mk.inj hmake
  rfl

/-- A message that closes downloads asks for no entry, so that it starts none. -/
theorem Act.entryStarts_cases {es : List Event} (h : Act o m now t es t')
    (habsent : m.restarted? t.context = none) :
    entryStarts es = [] ∨ m.closesDownloads = false ∧
      entryStarts es = [.entry t.context.session t.context.nextSeq] := by
  cases h with
  | starts hm hnew hmake => exact Or.inr ⟨hm.closesDownloads, entryStarts_make hmake now⟩
  | groups hm hcoord hidle hnew hmake =>
    exact Or.inr ⟨Message.closesDownloads_of_fetch hm, entryStarts_make hmake now⟩
  | restarts hm hfound =>
    rw [restarted?_of_found hm hfound] at habsent
    cases habsent
  | closes hm hnode =>
    refine Or.inl (entryStarts_eq_nil fun e he => ?_)
    obtain ⟨i, p, name, outcome, rfl⟩ := finished_of_mem_closes he
    rfl
  | _ => exact Or.inl rfl

/-- A message that finds the entry it starts reports the start of that entry again, and that is all
it starts or finishes. -/
theorem apply_restarts (ho : o.BuiltIn) {e : Entry} (h : m.restarted? t.context = some e)
    (now : Nat) :
    e ∈ t.context.live ∧ lifecycle (t.apply o m now).events = [e.started now] := by
  unfold Message.restarted? at h
  unfold apply
  simp only [Emits.events_bind, Emits.events_note, List.nil_append, lifecycle_append,
    lifecycle_reportError t m ho]
  split at h
  · next hkind =>
    obtain ⟨hlive, hevents⟩ := startProject_restarts h now
    rw [hkind]
    exact ⟨hlive, congrArg lifecycle hevents⟩
  · next hkind =>
    obtain ⟨hlive, hevents⟩ := startTask_restarts h now
    rw [hkind]
    exact ⟨hlive, congrArg lifecycle hevents⟩
  · cases h

theorem Acts.startsNew {es : List Event} (h : Acts o m now t es t')
    (habsent : m.restarted? t.context = none) : t.StartsNew es := by
  cases hm : m.closesDownloads with
  | false =>
    cases h with
    | one h => exact (h.entryStarts_cases habsent).imp_right And.right
    | more hm' => simp [hm] at hm'
  | true =>
    refine Or.inl (h.fold (R := fun _ es _ => entryStarts es = []) (fun {t es t'} h => ?_) ?_)
    · exact (h.entryStarts_cases (restarted?_of_closes hm t.context)).resolve_right (by simp [hm])
    · intro t es t₁ fs t' hes hfs
      rw [entryStarts_append, hes, hfs]
      rfl

theorem startsNew_apply (ho : o.BuiltIn) (h : m.restarted? t.context = none) (now : Nat) :
    t.StartsNew (t.apply o m now).events := by
  have hreport : entryStarts (t.reportError o m).events = [] := by
    rw [← entryStarts_lifecycle, lifecycle_reportError t m ho]
    rfl
  obtain ⟨es, hevents, hacts⟩ := acts_apply o t m now
  rw [hevents, StartsNew, entryStarts_append, hreport, List.nil_append]
  exact hacts.startsNew h

end Tracker

/-! ## One line -/

namespace Session

variable {o : Setup} {s : Session} {raw : String} {cursor : Cursor} {now : Nat}

/-- A session that heeds the mark of its end emits messages only. -/
theorem lifecycle_heed (hm : ∀ m ∈ s.matchers, m.IsBuiltIn) : lifecycle s.heed.events = [] := by
  unfold heed
  split
  · rw [Emits.events_bind, Emits.events_note, List.nil_append]
    exact (silent_finalize (s := { s with phase := .ended }) hm).events
  · rfl

/-- What a line of the spy channel starts and finishes is what its message does. -/
theorem lifecycle_spyLine (hm : ∀ m ∈ s.matchers, m.IsBuiltIn) {m : Message}
    (hdecode : decode raw = .ok m) :
    lifecycle (s.spyLine o raw now).events =
      lifecycle (s.tracker.apply o.toOptions m now).events := by
  have hheed := lifecycle_heed
    (s := { s with tracker := (s.tracker.processLine o.toOptions raw now).value.2 }) hm
  rw [spyLine_eq, Emits.events_bind, lifecycle_append, hheed, List.append_nil,
    Tracker.processLine, hdecode]
  simp

theorem lifecycle_spyLine_of_error (hm : ∀ m ∈ s.matchers, m.IsBuiltIn) {err : DecodeError}
    (hdecode : decode raw = .error err) : lifecycle (s.spyLine o raw now).events = [] := by
  have hheed := lifecycle_heed
    (s := { s with tracker := (s.tracker.processLine o.toOptions raw now).value.2 }) hm
  rw [spyLine_eq, Emits.events_bind, lifecycle_append, hheed, List.append_nil,
    Tracker.processLine, hdecode]
  rfl

/-- What is live has started. -/
theorem mem_entryStarts_of_live {n : Nat} {es : List Event} {t : Tracker} {p : Tracker.Options}
    (htold : Told p n es t) {e : Entry} (he : e ∈ t.context.live) : e.id ∈ entryStarts es := by
  obtain ⟨q, -, hid⟩ := htold.valid.numbered.issued e he
  have hopen := isOpen_of_opened (htold.recorded.live e he)
  rw [hid] at hopen ⊢
  exact mem_entryStarts_of_isOpen hopen

theorem Turn.parse_restarts (ho : o.BuiltIn) {t : Turn} (hm : ∀ m ∈ t.session.matchers, m.IsBuiltIn)
    (h : t.restarts = true) :
    ∃ e ∈ t.session.context.live,
      lifecycle (t.parse o).events = [e.started (o.clock t.session.ticks)] := by
  simp only [restarts, Bool.and_eq_true, beq_iff_eq] at h
  obtain ⟨⟨hphase, hspy⟩, hline⟩ := h
  cases hdecode : decode t.raw with
  | error err => simp [hdecode] at hline
  | ok m =>
    rw [hdecode] at hline
    obtain ⟨e, he⟩ := Option.isSome_iff_exists.1 hline
    obtain ⟨hlive, hevents⟩ := Tracker.apply_restarts (o := o.toOptions)
      (t := t.session.tracker) ho he (o.clock t.session.ticks)
    refine ⟨e, hlive, ?_⟩
    rw [Turn.parse, parseLine_spy hphase hspy, Emits.events_map,
      lifecycle_spyLine (s := t.session.ticked) hm hdecode]
    exact hevents

theorem Turn.startsNew_parse (ho : o.BuiltIn) {t : Turn}
    (hm : ∀ m ∈ t.session.matchers, m.IsBuiltIn) (h : t.restarts = false) :
    t.session.tracker.StartsNew (t.parse o).events := by
  have hnone : ∀ {es}, lifecycle es = [] → t.session.tracker.StartsNew es := by
    intro es hes
    left
    rw [← entryStarts_lifecycle, hes]
    rfl
  rw [Turn.parse]
  cases hphase : t.session.phase with
  | ended =>
    rw [parseLine_late hphase, Emits.events_map, lateLine_eq]
    split
    · exact Or.inl rfl
    · exact Or.inl rfl
  | active =>
    cases hspy : isSpyLine t.raw with
    | false =>
      have hsilent := silent_parseLine (o := o) hm hphase hspy t.cursor
      exact hnone (by simpa using hsilent.events)
    | true =>
      rw [parseLine_spy hphase hspy, Emits.events_map]
      cases hdecode : decode t.raw with
      | error err => exact hnone (lifecycle_spyLine_of_error (s := t.session.ticked) hm hdecode)
      | ok m =>
        have habsent : m.restarted? t.session.context = none := by
          simpa [restarts, hphase, hspy, hdecode] using h
        have hnew := Tracker.startsNew_apply (o := o.toOptions) (t := t.session.tracker) ho habsent
          (o.clock t.session.ticks)
        rw [Tracker.StartsNew, ← entryStarts_lifecycle] at hnew ⊢
        rw [lifecycle_spyLine (s := t.session.ticked) hm hdecode]
        exact hnew

/-- After one turn the starts are of different entries still, unless it starts an entry again. -/
theorem Turn.nodup_entryStarts_parse (ho : o.BuiltIn) {t : Turn}
    (hm : ∀ m ∈ t.session.matchers, m.IsBuiltIn) {n : Nat} {es : List Event}
    (htold : Told o.toOptions n es t.session.tracker) (hes : (entryStarts es).Nodup) :
    (entryStarts (es ++ (t.parse o).events)).Nodup ↔ t.restarts = false := by
  rw [entryStarts_append, List.nodup_append]
  cases hrestarts : t.restarts with
  | true =>
    obtain ⟨e, he, hstart⟩ := Turn.parse_restarts ho hm hrestarts
    have hbefore := mem_entryStarts_of_live htold he
    obtain ⟨q, -, hid⟩ := htold.valid.numbered.issued e he
    have hagain : e.id ∈ entryStarts (t.parse o).events := by
      rw [← entryStarts_lifecycle, hstart, hid]
      simp [entryStarts, Entry.started, Event.entryStart?, hid]
    exact iff_of_false (fun hnodup => hnodup.2.2 _ hbefore _ hagain rfl) (by decide)
  | false =>
    refine iff_of_true ?_ rfl
    rcases Turn.startsNew_parse ho hm hrestarts with hnone | hone
    · rw [hnone]
      exact ⟨hes, List.nodup_nil, fun _ _ _ hj => absurd hj List.not_mem_nil⟩
    · rw [hone]
      refine ⟨hes, List.nodup_singleton _, fun i hi j hj hij => ?_⟩
      rw [List.mem_singleton.1 hj] at hij
      subst hij
      -- the number is new, so nothing was said about it before
      exact history_ne_nil_of_mem_entryStarts hi (htold.recorded.fresh _ (Nat.le_refl _))

/-! ## All lines -/

/-- As long as no turn starts an entry again, the starts of the stream are of different entries;
with the first that does they no longer are. -/
theorem nodup_entryStarts_lineCalls (hs : s.Sound o) (ho : o.BuiltIn) {n : Nat} {es : List Event}
    (htold : Told o.toOptions n es s.tracker) (hes : (entryStarts es).Nodup)
    (ls : List (String × Cursor)) :
    (entryStarts (es ++ (s.calls o (lineCalls ls)).events)).Nodup ↔
      ∀ t ∈ s.turns o ls, t.restarts = false := by
  induction ls generalizing s es with
  | nil => simpa [turns, lineCalls] using hes
  | cons l ls ih =>
    let t : Turn := ⟨s, l.1, l.2⟩
    let x := s.call o (.line l.1 l.2)
    have htold' : Told o.toOptions n (es ++ x.events) x.value.tracker :=
      (moves_call (K := fun _ => True) hs ho (.line l.1 l.2) fun _ _ => trivial).keep
        (fun h hm => h.move hm) htold
    have hturn : (entryStarts (es ++ x.events)).Nodup ↔ t.restarts = false := by
      rw [show x.events = (t.parse o).events from Emits.events_map ..]
      exact t.nodup_entryStarts_parse ho hs.matchers htold hes
    have hturns : s.turns o (l :: ls) = t :: x.value.turns o ls := rfl
    have hcalls : es ++ (s.calls o (lineCalls (l :: ls))).events =
        es ++ x.events ++ (x.value.calls o (lineCalls ls)).events := by
      rw [lineCalls, List.map_cons, events_calls_cons, List.append_assoc]
      rfl
    rw [hturns, List.forall_mem_cons, hcalls, ← hturn]
    refine ⟨fun hnodup => ?_, fun h => (ih (hs.call ho _) htold' h.1).2 h.2⟩
    have hfirst : (entryStarts (es ++ x.events)).Nodup := by
      rw [entryStarts_append] at hnodup
      exact hnodup.of_append_left
    exact ⟨hfirst, (ih (hs.call ho _) htold' hfirst).1 hnodup⟩

theorem entryStarts_flush : entryStarts (s.flush o now).events = [] := by
  refine entryStarts_eq_nil fun e he => ?_
  rw [events_flush, List.mem_append, List.mem_append] at he
  rcases he with he | he | he
  · obtain ⟨d, -, rfl⟩ := List.mem_map.1 he
    rfl
  · obtain ⟨x, -, rfl⟩ := List.mem_map.1 he
    rfl
  · split at he
    · cases he
    · rw [List.mem_singleton.1 he]
      rfl

/-- The end of the output starts nothing. -/
theorem entryStarts_finish (hm : ∀ m ∈ s.matchers, m.IsBuiltIn) (hfin : s.finished = false) :
    entryStarts (s.finish o).events = [] := by
  obtain ⟨summary, hsummary, hes⟩ := events_finish (o := o) hm hfin
  rw [hes, entryStarts_append, entryStarts_flush, List.append_nil, ← entryStarts_lifecycle,
    lifecycle_of_messages hsummary]
  rfl

/-! ## Top theorems -/

/-- In a whole run no entry starts more than once exactly if no turn starts an entry again.  A turn
that does finds the project or the task of its name running on the thread, and reports the start of
that entry once more, under the same parent and with the same name. -/
theorem run_starts_once_iff (settings : Settings) (clock : Nat → Nat) (n : Nat)
    (lines : List String) :
    let o := Setup.ofSettings settings clock
    let s := start settings (.fresh n)
    ((entryStarts (s.run o lines).events).Nodup ↔
      ∀ t ∈ s.runTurns o lines, t.restarts = false) ∧
    ∀ t ∈ s.runTurns o lines, t.restarts = true →
      ∃ e ∈ t.session.context.live,
        lifecycle (t.parse o).events = [e.started (clock t.session.ticks)] := by
  intro o s
  have ho : o.BuiltIn := Setup.builtIn_ofSettings settings clock
  have hm := builtIn_start settings (.fresh n)
  refine ⟨?_, fun t ht h => Turn.parse_restarts ho (builtIn_turns hm _ t ht) h⟩
  have hlines := nodup_entryStarts_lineCalls (sound_start settings o n) ho
    (told_calls settings clock n []) List.nodup_nil (s.handed o (.ofLines lines))
  have hend : entryStarts (((s.calls o (lineCalls (s.handed o (.ofLines lines)))).value.calls o
      [.finish]).events) = [] := by
    rw [events_calls_cons, entryStarts_append, calls]
    exact (List.append_nil _).trans
      (entryStarts_finish (isBuiltIn_calls hm _) (finished_lineCalls ..))
  rw [run_eq_calls, runCalls, calls_append, Emits.events_bind, entryStarts_append, hend,
    List.append_nil]
  exact hlines

/-- A project that is started twice: its entry starts twice and finishes once. -/
theorem not_starts_once_restarted :
    ¬ ∀ (settings : Settings) (clock : Nat → Nat) (n : Nat) (lines : List String),
      (entryStarts ((start settings (.fresh n)).run (.ofSettings settings clock) lines).events).Nodup
    := by
  intro h
  have hnodup := h {} (fun _ => 0) 1
    ["[IJ]-0-[IJ]-ProjectStarted-[IJ]-id=app", "[IJ]-0-[IJ]-ProjectStarted-[IJ]-id=app"]
  have hstarts : entryStarts ((start {} (.fresh 1)).run (.ofSettings {} fun _ => 0)
      ["[IJ]-0-[IJ]-ProjectStarted-[IJ]-id=app",
        "[IJ]-0-[IJ]-ProjectStarted-[IJ]-id=app"]).events = [.entry 1 1, .entry 1 1] := by
    decide +kernel
  rw [hstarts] at hnodup
  simp at hnodup

end Session

end BuildTree
