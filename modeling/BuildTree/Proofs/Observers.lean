import BuildTree.Proofs.Encoding
import BuildTree.Proofs.Turns
import Mathlib.Data.List.TakeWhile

/-!
# Observers

Forwarding, line matchers and error matchers watch a build: they emit outputs and messages, and
the matchers read ahead.  None of them reaches the tree.  Two sessions that watch differently, and
get their lines differently, go through the same trackers and phases (`Alike`) and emit the same
starts and finishes.

    a plain line             no start and no finish, and tracker and phase stay   (silent_parseLine)
    a line, two sessions     the same starts and finishes, and alike again        (same_parseLine)
    pulled or pushed         what a turn folds in is plain, so it may be missing  (same_pull)
-/

namespace BuildTree

open Execution Spy

/-! ## Algorithm -/

/-- The starts and finishes of a stream. -/
def Events.lifecycle (es : List Event) : List Event := es.filter Event.isLifecycle

/-- A line of the spy channel that redraws itself: behind a carriage return it shows another text
than the one it is read for. -/
def Spy.redraws (raw : String) : Bool := isSpyLine raw && (Line.body raw).toList.contains '\r'

/-- Two options that differ in the error matchers only, and have none of the host. -/
structure Tracker.Options.Agree (o o' : Tracker.Options) : Prop where
  sessionName : o'.sessionName = o.sessionName
  downloadNode : o'.downloadNode = o.downloadNode
  builtIn : o.BuiltIn
  builtIn' : o'.BuiltIn

namespace Session

/-- How a session gets its lines: from a cursor that the matchers may read ahead through, or one by
one with nothing to read ahead. -/
inductive Mode where
  | pull | push
  deriving DecidableEq, Repr

/-- Lines that are handed over one by one. -/
def pushed (lines : List String) : List Call := lineCalls (lines.map fun raw => (raw, .empty))

/-- A whole session in one of the modes. -/
def drive (o : Setup) (s : Session) (lines : List String) : Mode → Emits Session
  | .pull => s.run o lines
  | .push => s.calls o (pushed lines ++ [.finish])

/-- Two setups that differ in what watches only, with the clock standing still. -/
structure Setup.Agree (now : Nat) (o o' : Setup) : Prop extends
    Tracker.Options.Agree o.toOptions o'.toOptions where
  clock : ∀ k, o.clock k = now
  clock' : ∀ k, o'.clock k = now

/-- Two sessions with the same tracker in the same phase. -/
structure Alike (s s' : Session) : Prop where
  tracker : s'.tracker = s.tracker
  phase : s'.phase = s.phase
  finished : s'.finished = s.finished

/-- Two steps with the same starts and finishes, to sessions that are alike. -/
structure Same (x y : Emits Session) : Prop where
  value : Alike x.value y.value
  events : Events.lifecycle y.events = Events.lifecycle x.events

/-- A step without starts and finishes, to a session that is alike. -/
structure Silent (s : Session) (x : Emits Session) : Prop where
  value : Alike s x.value
  events : Events.lifecycle x.events = []

end Session

/-! ## Lemmas -/

open Events

section
variable {es fs : List Event} {p : EventId} {raw : String}

@[simp] theorem lifecycle_append : lifecycle (es ++ fs) = lifecycle es ++ lifecycle fs :=
  List.filter_append ..

theorem lifecycle_of_messages (h : ∀ e ∈ es, e.IsMessage p) : lifecycle es = [] :=
  filter_of_messages (fun _ _ _ _ => rfl) h

/-- A line of the spy channel shows its mark, so it continues no diagnostic, unless it redraws
itself. -/
theorem not_follows_of_isSpyLine (hspy : isSpyLine raw = true) (h : redraws raw = false)
    (level : Option Level) : Line.follows level raw = false := by
  obtain ⟨rest, hrest⟩ := Option.isSome_iff_exists.1 hspy
  have hchomp : Text.chomp raw.toList = lineMark ++ Text.chomp rest := by
    rw [Text.eq_append_of_after? hrest, chomp_lineMark]
  have hreturn : ∀ c ∈ (Text.chomp raw.toList).reverse, (c != '\r') = true := by
    simpa [redraws, hspy, Line.body, List.forall_mem_ne'] using h
  have hshown : Line.shownChars raw.toList = lineMark ++ Text.chomp rest := by
    rw [Line.shownChars, List.takeWhile_eq_self_iff.2 hreturn, List.reverse_reverse, hchomp]
  have hclass : Line.classify raw = ⟨none, String.ofList (lineMark ++ Text.chomp rest)⟩ := by
    rw [Line.classify, hshown]
    rfl
  have hbracket : Text.isBlank '[' = false := by decide
  simp [Line.follows, hclass, Line.continues, lineMark, Text.startsBlank, hbracket]

end

/-! ## Trackers -/

namespace Tracker

variable {o o' : Options} (t : Tracker) (m : Message) (now : Nat)

theorem lifecycle_reportError (ho : o.BuiltIn) : lifecycle (t.reportError o m).events = [] := by
  obtain ⟨p, -, hmessages⟩ := messages_reportError (t := t) (m := m) ho
  exact lifecycle_of_messages hmessages

/-- The error matchers have no part in what becomes of a tracker. -/
theorem apply_agree (h : o.Agree o') :
    (t.apply o' m now).value = (t.apply o m now).value ∧
    lifecycle (t.apply o' m now).events = lifecycle (t.apply o m now).events := by
  have hreport := lifecycle_reportError t m h.builtIn
  have hreport' := lifecycle_reportError t m h.builtIn'
  obtain ⟨name, node, errorMatchers⟩ := o
  obtain ⟨name', node', errorMatchers'⟩ := o'
  obtain ⟨rfl, rfl, -, -⟩ := h
  unfold apply
  simp only [Emits.value_bind, Emits.events_bind, Emits.events_note, List.nil_append,
    lifecycle_append, hreport, hreport']
  cases m.kind <;> exact ⟨rfl, rfl⟩

theorem processLine_agree (h : o.Agree o') (raw : String) :
    (t.processLine o' raw now).value = (t.processLine o raw now).value ∧
    lifecycle (t.processLine o' raw now).events = lifecycle (t.processLine o raw now).events := by
  unfold processLine
  cases decode raw with
  | error e => exact ⟨rfl, rfl⟩
  | ok m =>
    obtain ⟨hv, he⟩ := t.apply_agree m now h
    simp only [Emits.value_bind, Emits.events_bind, Emits.events_pure, List.append_nil]
    exact ⟨by rw [hv], he⟩

end Tracker

namespace Session

variable {now : Nat} {o o' : Setup} {s s' s'' : Session} {x y z : Emits Session} {raw : String}
  {cursor cursor' : Cursor}

/-! ## Relating steps -/

theorem Alike.refl (s : Session) : Alike s s := ⟨rfl, rfl, rfl⟩

theorem Alike.symm (h : Alike s s') : Alike s' s :=
  ⟨h.tracker.symm, h.phase.symm, h.finished.symm⟩

theorem Alike.trans (h : Alike s s') (h' : Alike s' s'') : Alike s s'' :=
  ⟨h'.tracker.trans h.tracker, h'.phase.trans h.phase, h'.finished.trans h.finished⟩

theorem Same.symm (h : Same x y) : Same y x := ⟨h.value.symm, h.events.symm⟩

theorem Same.trans (h : Same x y) (h' : Same y z) : Same x z :=
  ⟨h.value.trans h'.value, h'.events.trans h.events⟩

theorem Same.bind {f g : Session → Emits Session} (h : Same x y)
    (hfg : Same (f x.value) (g y.value)) : Same (x >>= f) (y >>= g) := by
  refine ⟨hfg.value, ?_⟩
  rw [Emits.events_bind, Emits.events_bind, lifecycle_append, lifecycle_append, h.events,
    hfg.events]

theorem Same.of_silent (h : Alike s s') (hx : Silent s x) (hy : Silent s' y) : Same x y :=
  ⟨(hx.value.symm.trans h).trans hy.value, hy.events.trans hx.events.symm⟩

/-- A silent step that only the second session takes. -/
theorem Same.skip {f : Session → Emits Session} (h : Same x y)
    (hf : Silent y.value (f y.value)) : Same x (y >>= f) := by
  refine ⟨h.value.trans hf.value, ?_⟩
  rw [Emits.events_bind, lifecycle_append, hf.events, List.append_nil, h.events]

theorem Silent.bind {f : Session → Emits Session} (hx : Silent s x)
    (hf : Silent x.value (f x.value)) : Silent s (x >>= f) := by
  refine ⟨hx.value.trans hf.value, ?_⟩
  rw [Emits.events_bind, lifecycle_append, hx.events, hf.events, List.nil_append]

/-! ## One line -/

theorem silent_finalize (hm : ∀ m ∈ s.matchers, m.IsBuiltIn) : Silent s s.finalize where
  value := by
    unfold finalize
    split
    · exact .refl s
    · exact ⟨rfl, rfl, rfl⟩
  events := lifecycle_of_messages (messages_finalize hm)

/-- A plain line changes nothing of the tree, whoever looks at it. -/
theorem silent_parseLine (hm : ∀ m ∈ s.matchers, m.IsBuiltIn) (hp : s.phase = .active)
    (hspy : isSpyLine raw = false) (cursor : Cursor) :
    Silent s ((·.2.1) <$> s.parseLine o raw cursor) := by
  by_cases hblank : Line.isBlank raw = true
  · rw [parseLine_blank hp hblank]
    exact ⟨⟨rfl, rfl, rfl⟩, rfl⟩
  · rw [parseLine_plain hp hspy (by simpa using hblank)]
    refine ⟨?_, ?_⟩
    · rw [Emits.value_map, value_plainLine]
      exact ⟨rfl, rfl, rfl⟩
    · have hforward : lifecycle (if o.forward then (forward s.ticked.context raw).events else []) =
          [] := by
        split
        · exact filter_forward (fun _ _ => rfl) _ raw
        · rfl
      rw [Emits.events_map, events_plainLine, lifecycle_append, hforward, List.nil_append]
      exact lifecycle_of_messages (LineMatcher.messages_offer hm _ _ _ _)

theorem same_lateLine (ha : Setup.Agree now o o') (hs : Alike s s') (raw : String) :
    Same (s.lateLine o raw now) (s'.lateLine o' raw now) := by
  obtain ⟨tracker, matchers, phase, finalized, finished, ticks⟩ := s
  obtain ⟨tracker', matchers', phase', finalized', finished', ticks'⟩ := s'
  obtain ⟨rfl, rfl, rfl⟩ := hs
  have hcounts : countsLate ⟨tracker', matchers', phase', finalized', finished', ticks'⟩ raw =
    countsLate ⟨tracker', matchers, phase', finalized, finished', ticks⟩ raw := rfl
  rw [lateLine_eq, lateLine_eq, hcounts, Tracker.sessionFinished, Tracker.sessionFinished,
    ha.sessionName]
  split
  · exact ⟨⟨rfl, rfl, rfl⟩, rfl⟩
  · exact ⟨⟨rfl, rfl, rfl⟩, rfl⟩

theorem same_heed (hs : Alike s s') (hm : ∀ m ∈ s.matchers, m.IsBuiltIn)
    (hm' : ∀ m ∈ s'.matchers, m.IsBuiltIn) : Same s.heed s'.heed := by
  have hcontext : s'.context = s.context := congrArg Tracker.context hs.tracker
  rw [heed, heed, hcontext]
  split
  · have hended : Alike { s with phase := .ended } { s' with phase := .ended } :=
      ⟨hs.tracker, rfl, hs.finished⟩
    have hsame := Same.of_silent hended (silent_finalize hm) (silent_finalize hm')
    exact ⟨hsame.value, hsame.events⟩
  · exact ⟨hs, rfl⟩

theorem same_spyLine (ha : Setup.Agree now o o') (hs : Alike s s')
    (hm : ∀ m ∈ s.matchers, m.IsBuiltIn) (hm' : ∀ m ∈ s'.matchers, m.IsBuiltIn) (raw : String) :
    Same (s.spyLine o raw now) (s'.spyLine o' raw now) := by
  obtain ⟨hv, he⟩ := s.tracker.processLine_agree now ha.toAgree raw
  have htracker : Alike { s with tracker := (s.tracker.processLine o.toOptions raw now).value.2 }
      { s' with tracker := (s'.tracker.processLine o'.toOptions raw now).value.2 } :=
    ⟨by rw [hs.tracker, hv], hs.phase, hs.finished⟩
  have hheed := same_heed htracker hm hm'
  rw [spyLine_eq, spyLine_eq]
  refine ⟨hheed.value, ?_⟩
  rw [Emits.events_bind, Emits.events_bind, lifecycle_append, lifecycle_append, hheed.events,
    hs.tracker, he]

/-- Sessions that are alike stay so over one line, whatever comes behind it. -/
theorem same_parseLine (ha : Setup.Agree now o o') (hs : Alike s s')
    (hm : ∀ m ∈ s.matchers, m.IsBuiltIn) (hm' : ∀ m ∈ s'.matchers, m.IsBuiltIn) (raw : String)
    (cursor cursor' : Cursor) :
    Same ((·.2.1) <$> s.parseLine o raw cursor) ((·.2.1) <$> s'.parseLine o' raw cursor') := by
  have hticked : Alike s.ticked s'.ticked := ⟨hs.tracker, hs.phase, hs.finished⟩
  cases hp : s.phase with
  | ended =>
    rw [parseLine_late hp, parseLine_late (hs.phase.trans hp), session_map, session_map, ha.clock,
      ha.clock']
    exact same_lateLine ha hticked raw
  | active =>
    cases hspy : isSpyLine raw with
    | true =>
      rw [parseLine_spy hp hspy, parseLine_spy (hs.phase.trans hp) hspy, session_map, session_map,
        ha.clock, ha.clock']
      exact same_spyLine ha hticked hm hm' raw
    | false =>
      exact .of_silent hs (silent_parseLine hm hp hspy cursor)
        (silent_parseLine hm' (hs.phase.trans hp) hspy cursor')

/-! ## The end of the output -/

theorem same_flush (ha : Setup.Agree now o o') (hs : Alike s s') :
    Same (s.flush o now) (s'.flush o' now) := by
  obtain ⟨tracker, matchers, phase, finalized, finished, ticks⟩ := s
  obtain ⟨tracker', matchers', phase', finalized', finished', ticks'⟩ := s'
  obtain ⟨rfl, rfl, rfl⟩ := hs
  refine ⟨?_, ?_⟩
  · rw [value_flush, value_flush]
    exact ⟨rfl, rfl, rfl⟩
  · simp only [events_flush, Tracker.sessionFinished, ha.sessionName]
    rfl

theorem same_finish (ha : Setup.Agree now o o') (hs : Alike s s')
    (hm : ∀ m ∈ s.matchers, m.IsBuiltIn) (hm' : ∀ m ∈ s'.matchers, m.IsBuiltIn) :
    Same (s.finish o) (s'.finish o') := by
  by_cases hfin : s.finished = true
  · rw [finish_of_finished hfin, finish_of_finished (hs.finished.trans hfin)]
    exact ⟨hs, rfl⟩
  · have hfin : s.finished = false := by simpa using hfin
    have hover : Alike { s with finished := true, ticks := s.ticks + 1 }
        { s' with finished := true, ticks := s'.ticks + 1 } := ⟨hs.tracker, hs.phase, rfl⟩
    have htold := Same.of_silent hover (silent_finalize hm) (silent_finalize hm')
    rw [finish_eq hfin, finish_eq (hs.finished.trans hfin), ha.clock, ha.clock']
    exact htold.bind (same_flush ha htold.value)

/-! ## All lines -/

/-- Plain lines that are handed over one by one change nothing of the tree. -/
theorem silent_pushed (hm : ∀ m ∈ s.matchers, m.IsBuiltIn) (hp : s.phase = .active)
    {lines : List String} (h : ∀ raw ∈ lines, isSpyLine raw = false) :
    Silent s (s.calls o (pushed lines)) := by
  induction lines generalizing s with
  | nil => exact ⟨.refl s, rfl⟩
  | cons raw lines ih =>
    have hline := silent_parseLine (o := o) hm hp (h raw List.mem_cons_self) .empty
    refine hline.bind (ih (isBuiltIn_call hm (.line raw .empty)) (hline.value.phase.trans hp) ?_)
    exact fun raw' hraw' => h raw' (List.mem_cons_of_mem _ hraw')

/-- The lines that a turn folds in are plain, and the session goes on. -/
theorem plain_folded {t : Turn} (hm : ∀ m ∈ t.session.matchers, m.IsBuiltIn)
    (h : ∀ raw ∈ t.cursor.pending, redraws raw = false) :
    t.folded o = [] ∨ (t.parse o).value.2.1.phase = .active ∧
      ∀ raw ∈ t.folded o, isSpyLine raw = false := by
  rcases (t.takes o hm).2 with hnil | ⟨hp, hspy, hfollows, -⟩
  · exact Or.inl hnil
  · have hline := silent_parseLine (o := o) hm hp hspy t.cursor
    refine Or.inr ⟨hline.value.phase.trans hp, fun raw hraw => ?_⟩
    by_contra hspy'
    have hredraws := h raw (List.mem_of_mem_take hraw)
    have hnot := not_follows_of_isSpyLine (by simpa using hspy') hredraws
      (Line.classify t.raw).level
    rw [hfollows raw hraw] at hnot
    cases hnot

theorem calls_pushed (o : Setup) (s : Session) (raw : String) (folded left : List String) :
    s.calls o (pushed (raw :: (folded ++ left))) =
      (s.call o (.line raw .empty) >>= fun s => s.calls o (pushed folded)) >>= fun s =>
        s.calls o (pushed left) := by
  have hpushed : pushed (raw :: (folded ++ left)) =
      .line raw .empty :: (pushed folded ++ pushed left) := by
    simp [pushed, lineCalls]
  rw [hpushed, bind_assoc, calls]
  simp only [calls_append]

/-- A session that pulls its lines and one that has them pushed: when a turn of the first is over,
the second goes on to the lines that the turn folded in, and they change nothing. -/
theorem same_pull (ha : Setup.Agree now o o') (hm : ∀ m ∈ s.matchers, m.IsBuiltIn)
    (cursor : Cursor) (h : ∀ raw ∈ cursor.pending, redraws raw = false) :
    ∀ {s' : Session}, Alike s s' → (∀ m ∈ s'.matchers, m.IsBuiltIn) →
      Same (s.calls o (lineCalls (s.handed o cursor)))
        (s'.calls o' (pushed cursor.pending)) := by
  fun_induction handed o s cursor with
  | case1 s cursor hend =>
    intro s' hs hm'
    rw [Cursor.next?_eq_none_iff.1 hend]
    exact ⟨hs, rfl⟩
  | case2 s cursor raw rest hnext x ih =>
    intro s' hs hm'
    have hpending := (Cursor.pending_of_next? hnext).1
    have hbehind : ∀ raw' ∈ rest.pending, redraws raw' = false := fun raw' hraw' =>
      h raw' (hpending ▸ List.mem_cons_of_mem _ hraw')
    have htakes := (Turn.takes o (t := ⟨s, raw, rest⟩) hm).1
    have hplain := plain_folded (o := o) (t := ⟨s, raw, rest⟩) hm hbehind
    generalize Turn.folded o ⟨s, raw, rest⟩ = folded at htakes hplain
    change rest.pending = folded ++ x.value.2.2.pending at htakes
    have hline : Same (s.call o (.line raw rest)) (s'.call o' (.line raw .empty)) :=
      same_parseLine ha hs hm hm' raw rest .empty
    have hm₁' := isBuiltIn_call (o := o') hm' (.line raw .empty)
    have hskip : Silent (s'.call o' (.line raw .empty)).value
        ((s'.call o' (.line raw .empty)).value.calls o' (pushed folded)) := by
      rcases hplain with rfl | ⟨hp, hspy⟩
      · exact ⟨.refl _, rfl⟩
      · exact silent_pushed hm₁' (hline.value.phase.trans hp) hspy
    have hturn := hline.skip (f := fun s' => s'.calls o' (pushed folded)) hskip
    have hrest := ih (isBuiltIn_call hm (.line raw rest))
      (fun raw' hraw' => hbehind raw' (htakes ▸ List.mem_append_right _ hraw')) hturn.value
      (isBuiltIn_calls hm₁' (pushed folded))
    rw [hpending, htakes, calls_pushed]
    exact hturn.bind hrest

theorem same_drive (ha : Setup.Agree now o o') (hs : Alike s s')
    (hm : ∀ m ∈ s.matchers, m.IsBuiltIn) (hm' : ∀ m ∈ s'.matchers, m.IsBuiltIn)
    {lines : List String} (h : ∀ raw ∈ lines, redraws raw = false) :
    Same (drive o s lines .pull) (drive o' s' lines .push) := by
  have hlines := same_pull ha hm (.ofLines lines) h hs hm'
  have hend := same_finish ha hlines.value (isBuiltIn_calls hm _) (isBuiltIn_calls hm' _)
  rw [drive, drive, run_eq_calls, runCalls, calls_append, calls_append]
  simp only [calls, call, bind_pure]
  exact hlines.bind hend

/-! ## Top theorems -/

/-- What watches a session does not change its tree: two fresh sessions with the same names and the
same standing clock emit the same starts and finishes and end up with the same context, whatever
they forward, whichever matchers are on, and however they get their lines. -/
theorem drive_unobserved {settings settings' : Settings}
    (hsession : settings'.sessionName = settings.sessionName)
    (hnode : settings'.downloadNodeName = settings.downloadNodeName) (mode mode' : Mode)
    (n now : Nat) {lines : List String} (h : ∀ raw ∈ lines, redraws raw = false) :
    let x := drive (.ofSettings settings fun _ => now) (start settings (.fresh n)) lines mode
    let x' := drive (.ofSettings settings' fun _ => now) (start settings' (.fresh n)) lines mode'
    lifecycle x'.events = lifecycle x.events ∧ x'.value.context = x.value.context := by
  intro x x'
  have agree : ∀ {r r' : Settings}, r'.sessionName = r.sessionName →
      r'.downloadNodeName = r.downloadNodeName →
      Setup.Agree now (.ofSettings r fun _ => now) (.ofSettings r' fun _ => now) :=
    fun hr hr' => ⟨⟨hr, hr', Setup.builtIn_ofSettings _ _, Setup.builtIn_ofSettings _ _⟩,
      fun _ => rfl, fun _ => rfl⟩
  have across : ∀ {r r' : Settings}, r'.sessionName = r.sessionName →
      r'.downloadNodeName = r.downloadNodeName →
      Same (drive (.ofSettings r fun _ => now) (start r (.fresh n)) lines .pull)
        (drive (.ofSettings r' fun _ => now) (start r' (.fresh n)) lines .push) := by
    intro r r' hr hr'
    have hfresh : Alike (start r (.fresh n)) (start r' (.fresh n)) := ⟨rfl, rfl, rfl⟩
    exact same_drive (agree hr hr') hfresh (builtIn_start r _) (builtIn_start r' _) h
  -- the first session, pulling, is the same as both sessions in both modes
  have hx : Same (drive (.ofSettings settings fun _ => now) (start settings (.fresh n)) lines .pull)
      x := by
    cases mode with
    | pull => exact ⟨.refl _, rfl⟩
    | push => exact across rfl rfl
  have hx' : Same (drive (.ofSettings settings fun _ => now) (start settings (.fresh n)) lines .pull)
      x' := by
    cases mode' with
    | pull => exact (across hsession hnode).trans (across rfl rfl).symm
    | push => exact across hsession hnode
  have hsame := hx.symm.trans hx'
  exact ⟨hsame.events, congrArg Tracker.context hsame.value.tracker⟩

/-- A diagnostic with a continuation line: the first session folds that line in and forwards it to
nobody, the second gets it as a line of its own and looks at none of the two. -/
theorem drive_unobserved_diagnostic :
    let lines := ["[IJ]-0-[IJ]-ProjectStarted-[IJ]-id=app\r\n", "[ERROR] A.java:[3,1] wrong type\n",
      "[ERROR]   found: int\n", "[IJ]-0-[IJ]-ProjectFailed-[IJ]-id=app-[IJ]-error=no\n"]
    let plain : Settings := { forwardOutput := false, matchers := ⟨false, false, false⟩ }
    let x := drive (.ofSettings {} fun _ => 5) (start {} (.fresh 1)) lines .pull
    let x' := drive (.ofSettings plain fun _ => 5) (start plain (.fresh 1)) lines .push
    (plain.sessionName = "build" ∧ plain.downloadNodeName = "Downloading dependencies") ∧
    (∀ raw ∈ lines, redraws raw = false) ∧
    lifecycle x'.events = lifecycle x.events ∧ x'.value.context = x.value.context := by
  intro lines plain x x'
  have hlines : ∀ raw ∈ lines, redraws raw = false := by decide
  have hnames : plain.sessionName = "build" ∧ plain.downloadNodeName = "Downloading dependencies" :=
    ⟨rfl, rfl⟩
  exact ⟨hnames, hlines, drive_unobserved hnames.1 hnames.2 .pull .push 1 5 hlines⟩

end Session

end BuildTree
