import BuildTree.Proofs.Restarts
import BuildTree.Proofs.Traversal
import BuildTree.Proofs.Verdict

/-!
# Scripts replayed

A session that reads the lines of a script reports its tree.  Every line is read back as the message
that it was written for, so the starts and finishes of the run are those of the tracker, and after
the end of the session nothing is open that would still finish.

    decode m.line = .ok m                              for the messages of a script
    outline of the run = walkProjects, then the finish of the session   (run_script)
-/

namespace BuildTree

open Execution Spy Events

/-! ## Algorithm -/

namespace Script

/-- The keys of the fields in a script. -/
def keys : List String := ["id", "goal", "artifactCoord", "error"]

/-- A message of a script: on its thread, not the end of the session, and with words for values. -/
structure Spoken (a : Nat) (m : Message) : Prop where
  thread : m.thread = a
  kind : m.kind ≠ .sessionEnded
  fields : ∀ f ∈ m.fields, f.1 ∈ keys ∧ ∃ w : Word, f.2 = w.text

/-- The lines of a build on one thread, with the end of the session. -/
def lines (a : Nat) (ps : List Project) : List String :=
  (messages a ps).map (·.line) ++ [(ending a).line]

end Script

/-! ## Lines of a script -/

namespace Script

variable {a : Nat} {m : Message}

theorem plain_of_mem_keys : ∀ key ∈ keys, '=' ∉ key.toList ∧ ¬ markCore <:+: key.toList := by
  decide

theorem Spoken.decode_line (h : Spoken a m) (ha : a < threadBound) : decode m.line = .ok m := by
  obtain ⟨rfl, -, hfields⟩ := h
  refine decode_encode m.kind ha (fun f hf => ?_) fun f hf hreturn => ?_
  · obtain ⟨hkey, w, hw⟩ := hfields f hf
    obtain ⟨hsign, hmark⟩ := plain_of_mem_keys f.1 hkey
    exact ⟨hsign, hw ▸ w.no_sign, hmark, hw ▸ w.no_mark, hw ▸ w.no_lineFeedMark⟩
  · obtain ⟨-, w, hw⟩ := hfields f (List.mem_of_getLast? hf)
    exact w.no_carriageReturn (hw ▸ List.mem_of_getLast? hreturn)

theorem spoken_words {kind : Kind} (hkind : kind ≠ .sessionEnded) (fields : List (String × Word))
    (hkeys : ∀ f ∈ fields, f.1 ∈ keys) :
    Spoken a ⟨a, kind, fields.map fun f => (f.1, f.2.text)⟩ := by
  refine ⟨rfl, hkind, fun f hf => ?_⟩
  obtain ⟨x, hx, rfl⟩ := List.mem_map.1 hf
  exact ⟨hkeys x hx, x.2, rfl⟩

theorem spoken_fetch (x : Fetch) : ∀ m ∈ x.messages a, Spoken a m := by
  obtain ⟨coord, resolution⟩ := x
  refine List.forall_mem_cons.2 ⟨?_, ?_⟩
  · exact spoken_words (by decide) [("artifactCoord", coord)] (by simp [keys])
  cases resolution with
  | resolved =>
    refine List.forall_mem_singleton.2 ?_
    exact spoken_words (by decide) [("artifactCoord", coord)] (by simp [keys])
  | failed e =>
    refine List.forall_mem_singleton.2 ?_
    exact spoken_words (by decide) [("artifactCoord", coord), ("error", e)] (by simp [keys])
  | unresolved => exact fun m hm => absurd hm List.not_mem_nil

theorem spoken_task (project : Word) (t : Task) : ∀ m ∈ t.messages a project, Spoken a m := by
  refine List.forall_mem_cons.2 ⟨?_, List.forall_mem_append.2 ⟨fun m hm => ?_,
    List.forall_mem_singleton.2 ?_⟩⟩
  · exact spoken_words (by decide) [("id", project), ("goal", t.goal)] (by simp [keys])
  · obtain ⟨x, -, hx⟩ := List.mem_flatMap.1 hm
    exact spoken_fetch x m hx
  · unfold Task.finish
    cases t.ending with
    | failed e =>
      exact spoken_words (by decide) [("id", project), ("goal", t.goal), ("error", e)]
        (by simp [keys])
    | _ => exact spoken_words (by decide) [("id", project), ("goal", t.goal)] (by simp [keys])

theorem spoken_project (x : Project) : ∀ m ∈ x.messages a, Spoken a m := by
  refine List.forall_mem_cons.2 ⟨?_, List.forall_mem_append.2 ⟨fun m hm => ?_,
    List.forall_mem_singleton.2 ?_⟩⟩
  · exact spoken_words (by decide) [("id", x.name)] (by simp [keys])
  · obtain ⟨t, -, ht⟩ := List.mem_flatMap.1 hm
    exact spoken_task x.name t m ht
  · unfold Project.finish
    cases x.failure with
    | none => exact spoken_words (by decide) [("id", x.name)] (by simp [keys])
    | some e => exact spoken_words (by decide) [("id", x.name), ("error", e)] (by simp [keys])

theorem spoken_messages (ps : List Project) : ∀ m ∈ messages a ps, Spoken a m := by
  intro m hm
  obtain ⟨x, -, hx⟩ := List.mem_flatMap.1 hm
  exact spoken_project x m hx

end Script

/-! ## Lines of messages -/

namespace Session

variable {o : Setup} {s : Session} {failed : Bool} {raw : String} {m : Message} {cursor : Cursor}

/-- A line of the spy channel takes no other line. -/
theorem cursor_parseLine_spy (hspy : isSpyLine raw = true) (cursor : Cursor) :
    (s.parseLine o raw cursor).value.2.2 = cursor := by
  cases hphase : s.phase with
  | active => rw [parseLine_spy hphase hspy, Emits.value_map]
  | ended => rw [parseLine_late hphase, Emits.value_map]

theorem handed_spy (h : ∀ raw ∈ cursor.pending, isSpyLine raw = true) :
    (s.handed o cursor).map (·.1) = cursor.pending := by
  fun_induction handed o s cursor with
  | case1 s cursor hnext => exact (Cursor.next?_eq_none_iff.1 hnext).symm
  | case2 s cursor raw rest hnext x ih =>
    obtain ⟨hpending, -⟩ := Cursor.pending_of_next? hnext
    rw [hpending] at h ⊢
    obtain ⟨hspy, hrest⟩ := List.forall_mem_cons.1 h
    have hcursor : x.value.2.2 = rest := cursor_parseLine_spy hspy rest
    rw [hcursor] at ih
    simp only [hcursor, List.map_cons, ih hrest]

theorem value_processLine {t : Tracker} {now : Nat} (hdecode : decode raw = .ok m) :
    (t.processLine o.toOptions raw now).value.2 = (t.apply o.toOptions m now).value := by
  rw [Tracker.processLine, hdecode]
  rfl

/-- The line of a message does what the message does. -/
theorem Running.hears (h : Running failed s) (ho : o.BuiltIn)
    (hm : ∀ m ∈ s.matchers, m.IsBuiltIn) (hspy : isSpyLine raw = true)
    (hdecode : decode raw = .ok m) (hkind : m.kind ≠ .sessionEnded) (cursor : Cursor) :
    let x := s.call o (.line raw cursor)
    let y := s.tracker.apply o.toOptions m (o.clock s.ticks)
    outline x.events = outline y.events ∧ x.value.tracker = y.value ∧
      x.value.ticks = s.ticks + 1 ∧ ∃ failed, Running failed x.value := by
  intro x y
  have hgoes : y.value.context.ended = false := by
    have hmarks := congrArg Prod.fst
      (Tracker.apply_marks (o := o.toOptions) s.tracker m (o.clock s.ticks) ho).1
    have hended : s.tracker.context.ended = false := congrArg Prod.fst h.marks
    have hkind' : (m.kind == .sessionEnded) = false := beq_eq_false_iff_ne.2 hkind
    rwa [hended, hkind'] at hmarks
  have hcall : x = s.ticked.spyLine o raw (o.clock s.ticks) := by
    show s.call o (.line raw cursor) = _
    rw [call, parseLine_spy h.phase hspy, session_map]
  have hvalue : x.value = { s.ticked with tracker := y.value } := by
    rw [hcall, spyLine_eq, Emits.value_bind, value_processLine hdecode, heed, if_neg]
    · rfl
    · show ¬ y.value.context.ended = true
      simp [hgoes]
  have hreports : reports .sessionEnded raw = false := by
    simpa [reports, hspy, hdecode] using hkind
  refine ⟨?_, by rw [hvalue], by rw [hvalue]; rfl, _, (h.parseLine ho hm cursor hreports).1⟩
  rw [hcall, outline, lifecycle_spyLine (s := s.ticked) hm hdecode]
  rfl

/-- The lines of messages do what the messages do. -/
theorem Running.hears_all (h : Running failed s) (ho : o.BuiltIn)
    (hm : ∀ m ∈ s.matchers, m.IsBuiltIn) {ms : List Message}
    (hms : ∀ m ∈ ms, decode m.line = .ok m ∧ m.kind ≠ .sessionEnded)
    {ls : List (String × Cursor)} (hls : ls.map (·.1) = ms.map (·.line)) :
    let x := s.calls o (lineCalls ls)
    let y := s.tracker.applyAll o.toOptions o.clock s.ticks ms
    outline x.events = outline y.events ∧ x.value.tracker = y.value ∧
      ∃ failed, Running failed x.value := by
  induction ms generalizing s failed ls with
  | nil =>
    obtain rfl : ls = [] := by simpa using hls
    exact ⟨rfl, rfl, failed, h⟩
  | cons m ms ih =>
    obtain ⟨⟨raw, cursor⟩, ls, rfl, hraw, hrest⟩ := List.map_eq_cons_iff.1 hls
    obtain ⟨⟨hdecode, hkind⟩, hms⟩ := List.forall_mem_cons.1 hms
    obtain rfl : raw = m.line := hraw
    have hspy : isSpyLine m.line = true := isSpyLine_encode ..
    obtain ⟨hevents, htracker, hticks, failed', hrunning⟩ := h.hears ho hm hspy hdecode hkind cursor
    have hm' := isBuiltIn_call (o := o) hm (.line m.line cursor)
    obtain ⟨hevents', htracker', hrunning'⟩ := ih hrunning hm' hms hrest
    rw [htracker, hticks] at hevents' htracker'
    intro x y
    refine ⟨?_, htracker', hrunning'⟩
    show outline ((s.call o (.line m.line cursor)).events ++ _) = outline (_ ++ _)
    rw [Tracker.outline_append, Tracker.outline_append, hevents]
    exact congrArg _ hevents'

/-- At the end of the output nothing finishes if nothing is open and the session has ended. -/
theorem outline_finish_of_closed (hm : ∀ m ∈ s.matchers, m.IsBuiltIn)
    (hlive : s.context.live = []) (hdownloads : s.tracker.downloads = [])
    (hended : s.context.ended = true) : outline (s.finish o).events = [] := by
  cases hfin : s.finished with
  | true =>
    rw [finish_of_finished hfin]
    rfl
  | false =>
    obtain ⟨summary, hsummary, hes⟩ := events_finish (o := o) hm hfin
    have hflush : (s.flush o (o.clock s.ticks)).events = [] := by
      simp [events_flush, Download.sorted, Context.liveReversed, hlive, hended, hdownloads]
    rw [hes, hflush, List.append_nil, outline, lifecycle_of_messages hsummary]
    rfl

/-- The end of a session, when all projects are done. -/
theorem Running.outline_end (h : Running failed s) (ho : o.BuiltIn)
    (hm : ∀ m ∈ s.matchers, m.IsBuiltIn) {a n q : Nat} {f : Bool} (ha : a < threadBound)
    (ht : s.tracker.snapshot = Tracker.between n q f) (cursor : Cursor) :
    outline (s.calls o [.line (Script.ending a).line cursor, .finish]).events =
      [.finished (.session n) none 0 o.sessionName
        (if f then .failure "one or more projects failed" else .success)] := by
  let m := Script.ending a
  let x := s.call o (.line m.line cursor)
  have hdecode : decode m.line = .ok m :=
    decode_encode .sessionEnded ha (fun f hf => absurd hf List.not_mem_nil) fun f hf => by cases hf
  have hspy : isSpyLine m.line = true := isSpyLine_encode ..
  have hcall : x = s.ticked.spyLine o m.line (o.clock s.ticks) := by
    show s.call o (.line m.line cursor) = _
    rw [call, parseLine_spy h.phase hspy, session_map]
  obtain ⟨hevents, hafter⟩ := (Tracker.leads_endSession (a := a) ho).apply ht (o.clock s.ticks)
  have hline : outline x.events =
      outline (s.tracker.apply o.toOptions m (o.clock s.ticks)).events := by
    rw [hcall, outline, lifecycle_spyLine (s := s.ticked) hm hdecode]
    rfl
  have htracker : x.value.tracker = (s.tracker.apply o.toOptions m (o.clock s.ticks)).value := by
    rw [hcall, tracker_spyLine, value_processLine hdecode]
    rfl
  rw [← htracker] at hafter
  obtain ⟨-, -, hlive, hdownloads, -, hended⟩ := Tracker.Snapshot.mk.inj hafter
  have hfinish : outline (x.value.finish o).events = [] :=
    outline_finish_of_closed (isBuiltIn_call hm _) hlive hdownloads hended
  rw [events_calls_cons, events_calls_cons, Tracker.outline_append, Tracker.outline_append]
  show outline x.events ++ (outline (x.value.finish o).events ++ []) = _
  rw [hline, hevents, hfinish]
  rfl

end Session

/-! ## Top theorem -/

/-- A run over the lines of a script starts and finishes its tree, depth first: the projects with
their tasks, the tasks with the node of their downloads, and the session at the end.  The times are
left out. -/
theorem Session.run_script (settings : Settings) (clock : Nat → Nat) (n : Nat) (thread : UInt64)
    (ps : List Script.Project) :
    outline ((start settings (.fresh n)).run (.ofSettings settings clock)
        (Script.lines thread.toNat ps)).events =
      Script.walk settings.sessionName settings.downloadNodeName n ps := by
  have ha : thread.toNat < threadBound := thread.toNat_lt
  let o := Setup.ofSettings settings clock
  let s := start settings (.fresh n)
  have ho : o.BuiltIn := Setup.builtIn_ofSettings settings clock
  have hm : ∀ m ∈ s.matchers, m.IsBuiltIn := builtIn_start settings (.fresh n)
  have hspoken := Script.spoken_messages (a := thread.toNat) ps
  have hspy : ∀ raw ∈ Script.lines thread.toNat ps, isSpyLine raw = true := by
    intro raw hraw
    rcases List.mem_append.1 hraw with hraw | hraw
    · obtain ⟨m, -, rfl⟩ := List.mem_map.1 hraw
      exact isSpyLine_encode ..
    · rw [List.mem_singleton.1 hraw]
      exact isSpyLine_encode ..
  have hlines : (s.handed o (.ofLines (Script.lines thread.toNat ps))).map (·.1) =
      Script.lines thread.toNat ps := handed_spy hspy
  obtain ⟨ls, l, hhanded, hls, hl⟩ := List.map_eq_append_iff.1 hlines
  obtain ⟨⟨raw, cursor⟩, rfl, rfl⟩ := List.map_eq_singleton_iff.1 hl
  have hrunning : Running false s := ⟨rfl, rfl, rfl⟩
  obtain ⟨hevents, htracker, failed, hdone⟩ := hrunning.hears_all ho hm
    (fun m hm => ⟨(hspoken m hm).decode_line ha, (hspoken m hm).kind⟩) hls
  obtain ⟨hwalk, hafter⟩ := Tracker.leads_messages (f := false) ho ps o.clock s.ticks s.tracker rfl
  rw [← htracker] at hafter
  have hend := hdone.outline_end ho (isBuiltIn_calls hm _) ha hafter cursor
  have hrun : s.run o (Script.lines thread.toNat ps) =
      s.calls o (lineCalls ls) >>= fun s => s.calls o [.line
        (Script.ending thread.toNat).line cursor, .finish] := by
    rw [run_eq_calls, runCalls, hhanded, lineCalls, List.map_append, List.append_assoc]
    exact calls_append ..
  show outline (s.run o (Script.lines thread.toNat ps)).events = _
  rw [hrun, Emits.events_bind, Tracker.outline_append, hevents, hwalk, hend]
  rfl

open Script in
/-- A task that ends before the artifact that it fetches is there. -/
example :
    let app : Word := ⟨"app", by decide, by decide, by decide, by decide, by decide, by decide⟩
    let test : Word := ⟨"test", by decide, by decide, by decide, by decide, by decide, by decide⟩
    let jar : Word := ⟨"g:a:1", by decide, by decide, by decide, by decide, by decide, by decide⟩
    let task : Task := ⟨test, .skipped, [⟨jar, .unresolved⟩], by decide⟩
    walk "build" "downloads" 1 [⟨app, none, [task]⟩] =
      [.started (.entry 1 1) (some (.session 1)) 0 "app",
        .started (.entry 1 2) (some (.entry 1 1)) 0 "test",
        .started (.entry 1 3) (some (.entry 1 2)) 0 "downloads",
        .started (.download "g:a:1") (some (.entry 1 3)) 0 "g:a:1",
        .finished (.download "g:a:1") (some (.entry 1 3)) 0 "g:a:1" .unknown,
        .finished (.entry 1 3) (some (.entry 1 2)) 0 "downloads" .success,
        .finished (.entry 1 2) (some (.entry 1 1)) 0 "test" .skipped,
        .finished (.entry 1 1) (some (.session 1)) 0 "app" .success,
        .finished (.session 1) none 0 "build" .success] := by
  decide +kernel

end BuildTree
