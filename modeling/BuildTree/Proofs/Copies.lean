import BuildTree.Proofs.Depths
import BuildTree.Proofs.Observers
import Mathlib.Data.List.Chain

/-!
# Copies of an output line

A plain line is passed on to every live entry of the thread that created last, innermost first, and
a view is to show the first copy and no further one.  It takes an output for a further copy if the
text is that of the one before it and the depth is smaller.  That tells copies apart exactly if
every target is less deep than the one before it (`Ascends`).  Entries that hang one under the
other are; siblings on one thread are not, and their line is shown again.

    the first copy shown, no further one   ↔   the targets ascend          (firstOnly_shown_iff)
    the output seen last, nothing since    has the depth of the last target    (Echoed)
-/

namespace BuildTree

open Execution Spy Events

/-! ## Algorithm -/

def Event.isOutput : Event → Bool
  | .output .. => true
  | _ => false

namespace TreeView

/-- The text of an output as a view compares and shows it. -/
def stripped (text : String) : String :=
  String.ofList (Text.dropEndWhile (· == '\n') text.toList)

/-- Whether each of some nodes is less deep than the one before it. -/
def Ascends (v : TreeView) (ids : List EventId) : Prop :=
  (ids.map fun i => v.depthOf (some i)).IsChain (· > ·)

/-- Whether the first of some copies is shown and no further one. -/
def firstOnly : List (Option String) → Bool
  | some _ :: rest => rest.all Option.isNone
  | _ => false

end TreeView

/-- No output is emitted, and unless something starts or finishes an output would be passed on to
the same ids as before. -/
structure Tracker.Still (t : Tracker) (es : List Event) (t' : Tracker) : Prop where
  outputs : es.filter Event.isOutput = []
  targets : lifecycle es = [] →
    Session.forwardTargets t'.context = Session.forwardTargets t.context

namespace Session

/-- The output that a view still remembers has the depth of the last of the ids that an output would
be passed on to now. -/
def Echoed (v : TreeView) (c : Context) : Prop :=
  ∀ text depth, v.lastOutput = some (text, depth) →
    ∃ i, (forwardTargets c).getLast? = some i ∧ v.depthOf (some i) = depth

/-- Whether the line of a turn is a plain line of a session that runs. -/
def Turn.forwards (t : Turn) : Bool :=
  t.session.phase == .active && !isSpyLine t.raw && !Line.isBlank t.raw

end Session

/-! ## Lemmas -/

namespace TreeView

variable {v : TreeView} {text : String} {i j : EventId} {ids : List EventId} {es : List Event}
  {d : Nat}

theorem shown_cons (v : TreeView) (e : Event) (es : List Event) :
    v.shown (e :: es) = (v.render e).1 :: (v.render e).2.shown es := rfl

theorem render_output (hv : v.showOutput = true) (i : EventId) (text : String) :
    v.render (.output i text) =
      (if v.isCopy (stripped text) (v.depthOf (some i)) then none
        else some (indent (v.depthOf (some i) + 1) ++ v.paint .dimmed (stripped text)),
        { v with lastOutput := some (stripped text, v.depthOf (some i)) }) := by
  simp only [render, hv, if_true]
  rfl

/-- Copies leave of a view what it had, and of themselves the last. -/
theorem after_copies (hv : v.showOutput = true) (hj : ids.getLast? = some j) :
    v.after (ids.map (.output · text)) =
      { v with lastOutput := some (stripped text, v.depthOf (some j)) } := by
  induction ids generalizing v with
  | nil => cases hj
  | cons i ids ih =>
    rw [List.map_cons, after_cons, render_output hv]
    cases ids with
    | nil =>
      cases hj
      rfl
    | cons k ids =>
      rw [List.getLast?_cons_cons] at hj
      exact ih hv hj

/-- Copies are all hidden behind one of a depth exactly if each is less deep than the one before. -/
theorem all_isNone_shown_iff (hv : v.showOutput = true)
    (hlast : v.lastOutput = some (stripped text, d)) :
    (v.shown (ids.map (.output · text))).all Option.isNone = true ↔
      (d :: ids.map fun i => v.depthOf (some i)).IsChain (· > ·) := by
  induction ids generalizing v d with
  | nil => simp [shown, renderAll]
  | cons i ids ih =>
    have hcopy : v.isCopy (stripped text) (v.depthOf (some i)) = true ↔ v.depthOf (some i) < d := by
      simp [isCopy, hlast]
    have hrest := ih (v := { v with lastOutput := some (stripped text, v.depthOf (some i)) }) hv rfl
    rw [List.map_cons, shown_cons, render_output hv, List.all_cons, Bool.and_eq_true, hrest,
      List.map_cons, List.isChain_cons_cons, gt_iff_lt, ← hcopy]
    refine and_congr_left fun _ => ?_
    cases v.isCopy (stripped text) (v.depthOf (some i)) <;> simp

/-- The last of some ascending nodes is no deeper than the first. -/
theorem Ascends.last_le (h : v.Ascends (i :: ids)) (hj : (i :: ids).getLast? = some j) :
    v.depthOf (some j) ≤ v.depthOf (some i) := by
  rw [Ascends, List.map_cons, List.isChain_iff_pairwise, List.pairwise_cons] at h
  rcases List.mem_cons.1 (List.mem_of_getLast? hj) with rfl | hmem
  · exact Nat.le_refl _
  · exact Nat.le_of_lt (h.1 _ (List.mem_map_of_mem hmem))

/-- The first copy is shown and no further one, exactly if the targets ascend.  A line of the same
text before it was passed on to the same targets, so the first copy is not taken for one of its. -/
theorem firstOnly_shown_iff (hv : v.showOutput = true) (hids : ids ≠ [])
    (hlast : ∀ text' depth, v.lastOutput = some (text', depth) →
      ∃ j, ids.getLast? = some j ∧ v.depthOf (some j) = depth) :
    firstOnly (v.shown (ids.map (.output · text))) = true ↔ v.Ascends ids := by
  obtain ⟨i, ids, rfl⟩ := List.exists_cons_of_ne_nil hids
  rw [List.map_cons, shown_cons, render_output hv]
  by_cases hcopy : v.isCopy (stripped text) (v.depthOf (some i)) = true
  · rw [if_pos hcopy]
    refine ⟨fun h => (by cases h), fun hasc => ?_⟩
    obtain ⟨text', depth, hsome⟩ : ∃ text' depth, v.lastOutput = some (text', depth) := by
      cases hl : v.lastOutput with
      | none => simp [isCopy, hl] at hcopy
      | some p => exact ⟨p.1, p.2, rfl⟩
    obtain ⟨j, hj, rfl⟩ := hlast text' depth hsome
    have hdeeper : v.depthOf (some i) < v.depthOf (some j) := by
      simp only [isCopy, hsome, Bool.and_eq_true, decide_eq_true_eq] at hcopy
      exact hcopy.2
    exact absurd (hasc.last_le hj) (Nat.not_le_of_lt hdeeper)
  · rw [if_neg hcopy, firstOnly]
    exact all_isNone_shown_iff (v := { v with lastOutput := some (stripped text, _) }) hv rfl

theorem lastOutput_after_of_none (hes : es.filter Event.isOutput = []) (hv : v.lastOutput = none) :
    (v.after es).lastOutput = none := by
  induction es generalizing v with
  | nil => exact hv
  | cons e es ih =>
    rw [after_cons]
    cases e with
    | output => simp [Event.isOutput] at hes
    | started => exact ih (by simpa [Event.isOutput] using hes) rfl
    | finished => exact ih (by simpa [Event.isOutput] using hes) rfl
    | message => exact ih (by simpa [Event.isOutput] using hes) hv

/-- Without outputs a view forgets the last one as soon as something starts or finishes, and stays
as it is until then. -/
theorem after_of_no_output (hes : es.filter Event.isOutput = []) :
    (lifecycle es = [] ∧ v.after es = v) ∨ (v.after es).lastOutput = none := by
  induction es with
  | nil => exact Or.inl ⟨rfl, rfl⟩
  | cons e es ih =>
    rw [after_cons]
    cases e with
    | output => simp [Event.isOutput] at hes
    | message => exact ih (by simpa [Event.isOutput] using hes)
    | started =>
      exact Or.inr (lastOutput_after_of_none (by simpa [Event.isOutput] using hes) rfl)
    | finished =>
      exact Or.inr (lastOutput_after_of_none (by simpa [Event.isOutput] using hes) rfl)

end TreeView

/-! ## Trackers -/

theorem Events.outputs_of_messages {es : List Event} {p : EventId} (h : ∀ e ∈ es, e.IsMessage p) :
    es.filter Event.isOutput = [] :=
  filter_of_messages (fun _ _ _ _ => rfl) h

namespace Tracker

variable {o : Options} {t t₁ t' : Tracker} {m : Message} {now : Nat} {es fs : List Event}

theorem still_refl (t : Tracker) : Still t [] t := ⟨rfl, fun _ => rfl⟩

theorem Still.trans (h : Still t es t₁) (h' : Still t₁ fs t') : Still t (es ++ fs) t' := by
  refine ⟨by simp [h.outputs, h'.outputs], fun hnone => ?_⟩
  rw [lifecycle_append, List.append_eq_nil_iff] at hnone
  exact (h'.targets hnone.2).trans (h.targets hnone.1)

/-- Something starts or finishes. -/
theorem Still.of_lifecycle (hout : es.filter Event.isOutput = []) (h : lifecycle es ≠ []) :
    Still t es t' := ⟨hout, fun hnone => absurd hnone h⟩

theorem Act.still (h : Act o m now t es t') : Still t es t' := by
  cases h with
  | rests => exact still_refl t
  | announces | fails => exact ⟨rfl, fun _ => rfl⟩
  | closes hm hnode =>
    refine .of_lifecycle (List.filter_eq_nil_iff.2 fun e he => ?_) ?_
    · obtain ⟨i, p, name, outcome, rfl⟩ := finished_of_mem_closes he
      simp [Event.isOutput]
    · simp [Entry.finished, lifecycle, Event.isLifecycle, Event.id?]
  | _ => exact .of_lifecycle rfl (List.cons_ne_nil _ _)

theorem still_apply (t : Tracker) (m : Message) (now : Nat) (ho : o.BuiltIn) :
    Still t (t.apply o m now).events (t.apply o m now).value := by
  obtain ⟨es, hevents, hacts⟩ := acts_apply o t m now
  obtain ⟨p, -, hmessages⟩ := messages_reportError (t := t) (m := m) ho
  have hreport : Still t (t.reportError o m).events t :=
    ⟨outputs_of_messages hmessages, fun _ => rfl⟩
  rw [hevents]
  exact hreport.trans (hacts.fold Act.still .trans)

theorem still_processLine (t : Tracker) (now : Nat) (ho : o.BuiltIn) (raw : String) :
    Still t (t.processLine o raw now).events (t.processLine o raw now).value.2 := by
  unfold processLine
  cases decode raw with
  | error e => exact still_refl t
  | ok m =>
    rw [Emits.events_bind, Emits.events_pure, List.append_nil]
    exact still_apply t m now ho

end Tracker

namespace Session

variable {o : Setup} {s : Session} {v : TreeView} {c c' : Context} {es : List Event} {raw : String}

/-! ## Targets -/

theorem forwardTargets_ne_nil (c : Context) : forwardTargets c ≠ [] := by
  unfold forwardTargets
  split
  · exact List.cons_ne_nil _ _
  · next h => simpa using h

theorem getLast?_forwardTargets (c : Context) : ∃ i, (forwardTargets c).getLast? = some i :=
  ⟨_, List.getLast?_eq_some_getLast (forwardTargets_ne_nil c)⟩

/-- Targets that hang one under the other ascend. -/
theorem ascends_forwardTargets (h : v.Layered c)
    (hc : c.liveOfLastThread.IsChain (fun e e' => e.parent.id = e'.id)) :
    v.Ascends (forwardTargets c) := by
  unfold forwardTargets
  cases hlive : c.liveOfLastThread with
  | nil => exact List.IsChain.singleton _
  | cons e es =>
    rw [hlive] at hc
    dsimp only
    rw [TreeView.Ascends, List.isChain_map, List.isChain_map]
    refine hc.imp_of_mem_imp fun x y hx _ hxy => ?_
    have hx : x ∈ c.live := Context.mem_liveOfLastThread (hlive ▸ hx)
    rw [gt_iff_lt, ← hxy]
    exact h.below x hx

/-! ## One line -/

/-- Events without an output. -/
theorem Echoed.quiet (h : Echoed v c) (hes : es.filter Event.isOutput = [])
    (htargets : lifecycle es = [] → forwardTargets c' = forwardTargets c) :
    Echoed (v.after es) c' := by
  rcases TreeView.after_of_no_output (v := v) hes with ⟨hnone, hsame⟩ | hnone
  · rw [hsame]
    unfold Echoed
    rwa [htargets hnone]
  · intro text depth hlast
    rw [hnone] at hlast
    cases hlast

/-- The copies of a line that is passed on. -/
theorem Echoed.forward (hv : v.showOutput = true) (c : Context) (raw : String) :
    Echoed (v.after (forward c raw).events) c := by
  obtain ⟨i, hi⟩ := getLast?_forwardTargets c
  intro text depth hlast
  rw [Session.forward, TreeView.after_copies hv hi] at hlast ⊢
  obtain ⟨-, rfl⟩ := Prod.mk.inj (Option.some.inj hlast)
  exact ⟨i, hi, TreeView.depthOf_congr rfl _⟩

theorem outputs_finalize (hm : ∀ m ∈ s.matchers, m.IsBuiltIn) :
    s.finalize.events.filter Event.isOutput = [] :=
  outputs_of_messages (messages_finalize hm)

/-- A line of the spy channel does to the targets what the tracker does. -/
theorem still_spyLine (hm : ∀ m ∈ s.matchers, m.IsBuiltIn) (ho : o.BuiltIn) (raw : String)
    (now : Nat) :
    s.tracker.Still (s.spyLine o raw now).events (s.spyLine o raw now).value.tracker := by
  obtain ⟨hout, htargets⟩ := s.tracker.still_processLine now ho raw
  have hheed : ∀ {s : Session}, (∀ m ∈ s.matchers, m.IsBuiltIn) →
      s.heed.events.filter Event.isOutput = [] := by
    intro s hm
    unfold heed
    split
    · exact outputs_finalize (s := { s with phase := .ended }) hm
    · rfl
  refine ⟨?_, fun h => ?_⟩
  · rw [spyLine_eq, Emits.events_bind, List.filter_append, hout, List.nil_append]
    exact hheed hm
  · rw [spyLine_eq, Emits.events_bind, lifecycle_append, List.append_eq_nil_iff] at h
    rw [tracker_spyLine]
    exact htargets h.1

/-- What a line that is not passed on does, to the outputs and to the targets. -/
theorem still_parseLine (hm : ∀ m ∈ s.matchers, m.IsBuiltIn) (ho : o.BuiltIn) (raw : String)
    (cursor : Cursor) (h : Turn.forwards ⟨s, raw, cursor⟩ = false) :
    s.tracker.Still (s.parseLine o raw cursor).events
      (s.parseLine o raw cursor).value.2.1.tracker := by
  rcases parseLine_cases o s raw cursor with
    ⟨-, hl⟩ | ⟨-, -, hl⟩ | ⟨-, -, -, hl⟩ | ⟨hp, hspy, hblank, -⟩
  · rw [hl, lateLine_eq]
    split
    · exact .of_lifecycle rfl (List.cons_ne_nil _ _)
    · exact ⟨rfl, fun _ => rfl⟩
  · rw [hl]
    have hstill := still_spyLine (s := s.ticked) hm ho raw (o.clock s.ticks)
    rwa [Emits.events_map, Emits.value_map]
  · rw [hl]
    exact ⟨rfl, fun _ => rfl⟩
  · simp [Turn.forwards, hp, hspy, hblank] at h

/-- A line that is passed on emits the copies first, and then no output. -/
theorem parseLine_forwards (hm : ∀ m ∈ s.matchers, m.IsBuiltIn) (ho : o.forward = true)
    (raw : String) (cursor : Cursor) (h : Turn.forwards ⟨s, raw, cursor⟩ = true) :
    ∃ said, (s.parseLine o raw cursor).events = (forward s.context raw).events ++ said ∧
      said.filter Event.isOutput = [] ∧ lifecycle said = [] ∧
      (s.parseLine o raw cursor).value.2.1.tracker = s.tracker := by
  simp only [Turn.forwards, Bool.and_eq_true, beq_iff_eq, Bool.not_eq_true'] at h
  obtain ⟨⟨hp, hspy⟩, hblank⟩ := h
  have hsaid := LineMatcher.messages_offer hm s.context s.context.currentId (Line.classify raw)
    cursor
  rw [parseLine_plain hp hspy hblank]
  refine ⟨(s.ticked.offerLine raw cursor).events, ?_, outputs_of_messages hsaid,
    lifecycle_of_messages hsaid, tracker_plainLine ..⟩
  rw [events_plainLine, if_pos ho]
  rfl

theorem Echoed.parseLine (hm : ∀ m ∈ s.matchers, m.IsBuiltIn) (ho : o.BuiltIn)
    (hf : o.forward = true) (hv : v.showOutput = true) (h : Echoed v s.context) (raw : String)
    (cursor : Cursor) :
    Echoed (v.after (s.parseLine o raw cursor).events)
      (s.parseLine o raw cursor).value.2.1.context := by
  cases hforwards : Turn.forwards ⟨s, raw, cursor⟩ with
  | false =>
    obtain ⟨hout, htargets⟩ := still_parseLine hm ho raw cursor hforwards
    exact h.quiet hout htargets
  | true =>
    obtain ⟨said, hes, hout, -, htracker⟩ := parseLine_forwards hm hf raw cursor hforwards
    have hcontext : (s.parseLine o raw cursor).value.2.1.context = s.context :=
      congrArg Tracker.context htracker
    rw [hes, TreeView.after_append, hcontext]
    exact (Echoed.forward hv s.context raw).quiet hout fun _ => rfl

/-! ## All lines -/

theorem echoed_lineCalls (hm : ∀ m ∈ s.matchers, m.IsBuiltIn) (ho : o.BuiltIn)
    (hf : o.forward = true) (hv : v.showOutput = true) (h : Echoed v s.context)
    (ls : List (String × Cursor)) :
    Echoed (v.after (s.calls o (lineCalls ls)).events)
      (s.calls o (lineCalls ls)).value.context := by
  induction ls generalizing s v with
  | nil => exact h
  | cons l ls ih =>
    have hline := h.parseLine hm ho hf hv l.1 l.2
    have hrest := ih (isBuiltIn_call hm (.line l.1 l.2)) (by simpa using hv) hline
    simpa [lineCalls, call] using hrest

/-- The turns before one turn are the calls that lead to its session. -/
theorem exists_calls_of_turns {ls : List (String × Cursor)} {before later : List Turn} {t : Turn}
    (h : s.turns o ls = before ++ t :: later) :
    ∃ ks, (s.calls o (lineCalls ks)).value = t.session ∧
      (s.calls o (lineCalls ks)).events = before.flatMap fun t => (t.parse o).events := by
  induction before generalizing s ls with
  | nil =>
    cases ls with
    | nil => cases h
    | cons l ls =>
      rw [turns, List.nil_append] at h
      obtain ⟨rfl, -⟩ := List.cons.inj h
      exact ⟨[], rfl, rfl⟩
  | cons b before ih =>
    cases ls with
    | nil => cases h
    | cons l ls =>
      obtain ⟨rfl, hrest⟩ := List.cons.inj h
      obtain ⟨ks, hvalue, hevents⟩ := ih hrest
      refine ⟨l :: ks, hvalue, ?_⟩
      rw [List.flatMap_cons, ← hevents]
      simp [lineCalls, call, Turn.parse]

/-! ## Top theorems -/

/-- A run that passes lines on emits outputs for the plain lines only, the copies of a line for its
targets in front of what the matchers say.  A view shows the first copy of a line and no further
one exactly if the targets ascend in it, as they do if every live entry of the thread hangs under
the next. -/
theorem run_firstOnly_iff (settings : Settings) (clock : Nat → Nat) (n : Nat) (lines : List String)
    (color : Bool) :
    let r := { settings with forwardOutput := true }
    let o := Setup.ofSettings r clock
    let s := start r (.fresh n)
    let turns := s.runTurns o lines
    (s.run o lines).events = turns.flatMap (fun t => (t.parse o).events) ++
      ((s.parseAll o (.ofLines lines)).value.finish o).events ∧
    ∀ before t later, turns = before ++ t :: later →
      let view := TreeView.after { showOutput := true, color }
        (before.flatMap fun t => (t.parse o).events)
      let c := t.session.context
      let copies := (forward c t.raw).events
      if t.forwards then
        (∃ said, (t.parse o).events = copies ++ said ∧ said.filter Event.isOutput = []) ∧
        (TreeView.firstOnly (view.shown copies) = true ↔ view.Ascends (forwardTargets c)) ∧
        (c.liveOfLastThread.IsChain (fun e e' => e.parent.id = e'.id) →
          view.Ascends (forwardTargets c))
      else (t.parse o).events.filter Event.isOutput = [] := by
  intro r o s turns
  refine ⟨events_run o s lines, fun before t later hturns => ?_⟩
  intro view c copies
  have hm := builtIn_turns (o := o) (builtIn_start r (.fresh n)) (s.handed o (.ofLines lines)) t
    (by rw [show s.turns o _ = _ from hturns]; simp)
  have ho : o.BuiltIn := Setup.builtIn_ofSettings r clock
  split
  · next hforwards =>
    obtain ⟨ks, hvalue, hevents⟩ := exists_calls_of_turns hturns
    have hlayered : TreeView.Layered _ (s.calls o (lineCalls ks)).value.context :=
      layered_calls r clock n (lineCalls ks) { showOutput := true, color }
    have hechoed := echoed_lineCalls (s := s) (o := o) (v := { showOutput := true, color })
      (builtIn_start r _) ho rfl rfl (fun _ _ hlast => (by cases hlast)) ks
    rw [hvalue, hevents] at hlayered hechoed
    obtain ⟨said, hes, hout, -, -⟩ := parseLine_forwards (o := o) hm rfl t.raw t.cursor
      hforwards
    refine ⟨⟨said, hes, hout⟩, ?_, ?_⟩
    · exact TreeView.firstOnly_shown_iff (by simp [view]) (forwardTargets_ne_nil c) hechoed
    · exact ascends_forwardTargets hlayered
  · next hforwards =>
    exact (still_parseLine (o := o) hm ho t.raw t.cursor (by simpa using hforwards)).outputs

/-- The node of the downloads and the goal after it both hang under the project.  The goal is not
deeper, so the line is shown for both. -/
theorem not_firstOnly_siblings :
    let lines := ["[IJ]-0-[IJ]-ProjectStarted-[IJ]-id=app",
      "[IJ]-0-[IJ]-ArtifactDownloading-[IJ]-artifactCoord=g:a:1",
      "[IJ]-0-[IJ]-MojoStarted-[IJ]-id=app-[IJ]-goal=compile", "building"]
    let o := Setup.ofSettings {} fun _ => 0
    let turns := (start {} (.fresh 1)).runTurns o lines
    ¬ ∀ before t later, turns = before ++ t :: later → t.forwards = true →
      let view := TreeView.after { showOutput := true, color := false }
        (before.flatMap fun t => (t.parse o).events)
      TreeView.firstOnly (view.shown (forward t.session.context t.raw).events) = true := by
  intro lines o turns h
  let view := TreeView.after { showOutput := true, color := false }
    ((turns.take 3).flatMap fun t => (t.parse o).events)
  have hlast : (turns.drop 3).map (fun t =>
      (t.forwards, view.shown (forward t.session.context t.raw).events)) =
        [(true, [some "      building", some "      building", none])] := by decide +kernel
  obtain ⟨t, ht, hshown⟩ := List.map_eq_singleton_iff.1 hlast
  have hturns : turns = turns.take 3 ++ t :: [] := by rw [← ht, List.take_append_drop]
  have hfirst := h (turns.take 3) t [] hturns (congrArg Prod.fst hshown)
  have hcopies : view.shown (forward t.session.context t.raw).events =
      [some "      building", some "      building", none] := congrArg Prod.snd hshown
  dsimp only at hfirst
  rw [hcopies] at hfirst
  cases hfirst

end Session

end BuildTree
