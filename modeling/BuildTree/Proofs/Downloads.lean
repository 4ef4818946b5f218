import BuildTree.Proofs.Lifecycle

/-!
# Starts and finishes of downloads

In the stream the starts and finishes of one artifact come in pairs, whatever threads report
them, and a download is open exactly when the last of them is a start (`Paired`).  Both hang
under one download node, which is open at both moments (`Grouped`).

    the fetches of an artifact in a run    (start finish)*, each pair under one parent
    isDownloading coord, at any time       ↔   the last fetch so far is a start
-/

namespace BuildTree

open Execution Events

namespace Events

/-! ## Algorithm -/

/-- Whether an event starts or finishes the download of an artifact. -/
def isFetch (coord : String) : Event → Bool
  | .started i _ _ name => i == .download coord && name == coord
  | .finished i _ _ name _ => i == .download coord && name == coord
  | _ => false

/-- The starts and finishes of the downloads of one artifact, in order. -/
def fetches (coord : String) (es : List Event) : List Event := es.filter (isFetch coord)

/-- A start and a finish under the same parent, over and over. -/
inductive Bracketed (coord : String) : List Event → Prop
  | nil : Bracketed coord []
  | pair {h} (hb : Bracketed coord h) (parent start finish outcome) :
      Bracketed coord (h ++ [.started (.download coord) parent start coord,
        .finished (.download coord) parent finish coord outcome])

/-- What a download hangs under: a node with some property, open at that moment. -/
def Grouped (node : Entry → Prop) (es : List Event) : Event → Prop
  | .started i p _ name => i = .download name →
      ∃ e, node e ∧ p = some e.id ∧ isOpen es e.id = true
  | .finished i p _ name _ => i = .download name →
      ∃ e, node e ∧ p = some e.id ∧ isOpen es e.id = true
  | _ => True

end Events

/-- The fetches so far of every artifact tell whether its download is open. -/
structure Paired (ds : List Download) (es : List Event) : Prop where
  running : ∀ d ∈ ds, ∃ h now, Bracketed d.coord h ∧ fetches d.coord es = h ++ [d.started now]
  idle : ∀ coord, (∀ d ∈ ds, d.coord ≠ coord) → Bracketed coord (fetches coord es)

/-! ## Lemmas -/

section
variable {coord : String} {ds : List Download} {d : Download} {es : List Event} {e : Event}

/-- The name of a download is never its id, so a failed resolution is no fetch. -/
theorem EventId.named_ne_download (text : String) : EventId.named text ≠ .download text := by
  intro h
  injection h with h
  have hlen := congrArg String.length h
  rw [String.length_append] at hlen
  have : "download".length = 8 := rfl
  omega

theorem fetches_concat_of_not (he : isFetch coord e = false) :
    fetches coord (es ++ [e]) = fetches coord es := by
  simp [fetches, List.filter_append, he]

theorem fetches_concat_of (he : isFetch coord e = true) :
    fetches coord (es ++ [e]) = fetches coord es ++ [e] := by
  simp [fetches, List.filter_append, he]

theorem isFetch_of_entry {s q : Nat} (h : e.id? = some (.entry s q)) : isFetch coord e = false := by
  cases e with
  | started i p time name => cases h; rfl
  | finished i p time name outcome => cases h; rfl
  | _ => rfl

theorem isFetch_aside {c : Context} (h : Tracker.Aside c e) : isFetch coord e = false := by
  have hnamed : ∀ error : String, (EventId.named error == .download coord && error == coord) =
      false := by
    intro error
    rw [Bool.and_eq_false_imp, beq_iff_eq]
    intro hid
    refine beq_eq_false_iff_ne.2 fun herror => ?_
    exact EventId.named_ne_download coord (herror ▸ hid)
  cases h with
  | failureStarted now error hp => exact hnamed error
  | failureFinished p now error outcome => exact hnamed error
  | _ => rfl

theorem isFetch_started (now : Nat) : isFetch coord (d.started now) = (d.coord == coord) := by
  by_cases h : d.coord = coord <;> simp [isFetch, Download.started, EventId.download, h]

theorem isFetch_finished (now : Nat) (outcome : Outcome) :
    isFetch coord (d.finished now outcome) = (d.coord == coord) := by
  by_cases h : d.coord = coord <;> simp [isFetch, Download.finished, EventId.download, h]

theorem Events.Bracketed.getLast?_isStart {h : List Event} (hb : Bracketed coord h) :
    h.getLast?.any isStart = false := by
  cases hb with
  | nil => rfl
  | pair hb parent start finish outcome => simp [isStart]

theorem paired_nil : Paired [] [] :=
  ⟨fun _ hd => absurd hd List.not_mem_nil, fun _ _ => .nil⟩

theorem Paired.concat_of_not (hp : Paired ds es) (he : ∀ coord, isFetch coord e = false) :
    Paired ds (es ++ [e]) := by
  constructor
  · intro d hd
    rw [fetches_concat_of_not (he _)]
    exact hp.running d hd
  · intro coord hcoord
    rw [fetches_concat_of_not (he _)]
    exact hp.idle coord hcoord

theorem Paired.started (hp : Paired ds es) (hd : ∀ x ∈ ds, x.coord ≠ d.coord) (now : Nat) :
    Paired (ds ++ [d]) (es ++ [d.started now]) := by
  constructor
  · intro x hx
    rcases List.mem_append.1 hx with hx | hx
    · rw [fetches_concat_of_not (by simp [isFetch_started, (hd x hx).symm])]
      exact hp.running x hx
    · rw [List.mem_singleton.1 hx, fetches_concat_of (by simp [isFetch_started])]
      exact ⟨_, now, hp.idle _ hd, rfl⟩
  · intro coord hcoord
    have hne : d.coord ≠ coord := hcoord d (List.mem_append_right _ List.mem_cons_self)
    rw [fetches_concat_of_not (by simp [isFetch_started, hne])]
    exact hp.idle coord fun x hx => hcoord x (List.mem_append_left _ hx)

theorem Paired.finished (hp : Paired ds es) (hd : d ∈ ds) (now : Nat) (outcome : Outcome) :
    Paired (ds.filter (·.coord != d.coord)) (es ++ [d.finished now outcome]) := by
  constructor
  · intro x hx
    obtain ⟨hx, hne⟩ := List.mem_filter.1 hx
    have hne : x.coord ≠ d.coord := by simpa using hne
    rw [fetches_concat_of_not (by simp [isFetch_finished, hne.symm])]
    exact hp.running x hx
  · intro coord hcoord
    by_cases heq : d.coord = coord
    · -- the finish closes the start that the history ends with
      subst heq
      obtain ⟨h, start, hb, hes⟩ := hp.running d hd
      rw [fetches_concat_of (by simp [isFetch_finished]), hes, List.append_assoc]
      exact hb.pair (some d.node) start now outcome
    · rw [fetches_concat_of_not (by simp [isFetch_finished, heq])]
      refine hp.idle coord fun x hx hxc => hcoord x (List.mem_filter.2 ⟨hx, ?_⟩) hxc
      have hne : coord ≠ d.coord := fun h => heq h.symm
      simpa [hxc] using hne

end

section
variable {o : Tracker.Options} {K : Entry → Prop} {n : Nat} {t t' : Tracker} {es fs : List Event}

theorem Tracker.Move.paired (hv : t.Valid o) (h : Move o K t fs t') (hp : Paired t.downloads es) :
    Paired t'.downloads (es ++ fs) := by
  cases h with
  | starts kind thread name parent now hh hk => exact hp.concat_of_not fun _ => isFetch_of_entry rfl
  | @restarts e now he =>
    obtain ⟨q, -, hid⟩ := hv.numbered.issued e he
    exact hp.concat_of_not fun _ => isFetch_of_entry (congrArg some hid)
  | @finishes e now outcome he _ =>
    obtain ⟨q, -, hid⟩ := hv.numbered.issued e he
    exact hp.concat_of_not fun _ => isFetch_of_entry (congrArg some hid)
  | fetches now he hkind hname hid hd => exact hp.started hd now
  | fetched now outcome hd => exact hp.finished hd now outcome
  | remarks h => exact hp.concat_of_not fun _ => isFetch_aside h
  | marks c hs hn hl => rwa [List.append_nil]

/-- What holds of the entries that start holds of all that are live. -/
theorem Tracker.Move.kept (h : Move o K t fs t') (hK : ∀ e ∈ t.context.live, K e) :
    ∀ e ∈ t'.context.live, K e := by
  cases h with
  | starts kind thread name parent now hp hk =>
    intro e he
    rcases List.mem_append.1 he with he | he
    · exact hK e he
    · rw [List.mem_singleton.1 he]
      exact hk
  | finishes now outcome he hd => exact fun e he => hK e (Context.mem_of_mem_complete he)
  | marks c hs hn hl => exact hl ▸ hK
  | _ => exact hK

theorem Tracker.Move.grouped (ht : Told o n es t) (h : Move o K t fs t')
    (hK : ∀ e ∈ t.context.live, K e)
    (hes : Each (Grouped fun e => e.kind = .node ∧ e.name = o.downloadNode ∧ K e) es) :
    Each (Grouped fun e => e.kind = .node ∧ e.name = o.downloadNode ∧ K e) (es ++ fs) := by
  have hopen : ∀ e ∈ t.context.live, isOpen es e.id = true :=
    fun e he => isOpen_of_opened (ht.recorded.live e he)
  have hentry : ∀ e ∈ t.context.live, ∀ name, e.id ≠ .download name := by
    intro e he name h
    obtain ⟨q, -, hid⟩ := ht.valid.numbered.issued e he
    rw [hid] at h
    cases h
  cases h with
  | starts kind thread name parent now hp hk =>
    refine each_concat.2 ⟨hes, fun h => ?_⟩
    cases h
  | @restarts e now he => exact each_concat.2 ⟨hes, fun h => absurd h (hentry e he _)⟩
  | @finishes e now outcome he hd => exact each_concat.2 ⟨hes, fun h => absurd h (hentry e he _)⟩
  | @fetches e d now he hkind hname hid hd =>
    exact each_concat.2
      ⟨hes, fun _ => ⟨e, ⟨hkind, hname, hK e he⟩, congrArg some hid.symm, hopen e he⟩⟩
  | @fetched d now outcome hd =>
    obtain ⟨e, he, hkind, hname, hid⟩ := ht.valid.nodes d hd
    exact each_concat.2
      ⟨hes, fun _ => ⟨e, ⟨hkind, hname, hK e he⟩, congrArg some hid.symm, hopen e he⟩⟩
  | remarks h =>
    refine each_concat.2 ⟨hes, ?_⟩
    cases h with
    | failureStarted now error hp =>
      exact fun h => absurd h (EventId.named_ne_download error)
    | failureFinished p now error outcome =>
      exact fun h => absurd h (EventId.named_ne_download error)
    | sessionFinished now name outcome =>
      intro h
      cases h
    | _ => trivial
  | marks c hs hn hl => rwa [List.append_nil]

end

/-! ## Sessions -/

/-- What is known of the downloads of a tracker and of the events of its session so far. -/
structure Fetched (o : Tracker.Options) (K : Entry → Prop) (n : Nat) (es : List Event)
    (t : Tracker) : Prop where
  told : Told o n es t
  kept : ∀ e ∈ t.context.live, K e
  paired : Paired t.downloads es
  grouped : Each (Grouped fun e => e.kind = .node ∧ e.name = o.downloadNode ∧ K e) es

theorem Fetched.move {o : Tracker.Options} {K : Entry → Prop} {n : Nat} {es fs : List Event}
    {t t' : Tracker} (h : Fetched o K n es t) (hm : Tracker.Move o K t fs t') :
    Fetched o K n (es ++ fs) t' :=
  ⟨h.told.move hm, hm.kept h.kept, hm.paired h.told.valid h.paired,
    hm.grouped h.told h.kept h.grouped⟩

/-- A download is open exactly when the last fetch of its artifact is a start. -/
theorem Paired.isDownloading {t : Tracker} {es : List Event} (h : Paired t.downloads es)
    (coord : String) : t.isDownloading coord = (fetches coord es).getLast?.any isStart := by
  unfold Tracker.isDownloading
  cases hd : t.download? coord with
  | some d =>
    have hmem := List.mem_of_find?_eq_some hd
    have hcoord : d.coord = coord := by simpa using List.find?_some hd
    obtain ⟨hist, now, -, hes⟩ := h.running d hmem
    rw [← hcoord, hes]
    simp [Download.started, isStart]
  | none =>
    have hidle := h.idle coord fun d hmem => by simpa using List.find?_eq_none.1 hd d hmem
    rw [hidle.getLast?_isStart]
    rfl

namespace Session

variable (settings : Settings) (clock : Nat → Nat) (n : Nat)

theorem fetched_calls {K : Entry → Prop} (cs : List Call)
    (hK : ∀ k, ∀ e ∈ ((start settings (.fresh n)).calls (.ofSettings settings clock)
      (cs.take k)).value.context.live, K e) :
    let x := (start settings (.fresh n)).calls (.ofSettings settings clock) cs
    Fetched (Setup.ofSettings settings clock).toOptions K n x.events x.value.tracker := by
  have hfresh : Fetched (Setup.ofSettings settings clock).toOptions K n [] (.fresh n) :=
    ⟨told_calls settings clock n [], fun _ he => absurd he List.not_mem_nil, paired_nil, each_nil⟩
  exact calls_keep settings clock n cs hK hfresh fun h hm => h.move hm

/-! ## Top theorems -/

/-- In a whole run the starts and finishes of the downloads of one artifact come in pairs, each
pair under one download node of the run that is open at both moments; and after any of the lines
an artifact is being fetched exactly when the last of them so far is a start. -/
theorem run_downloads_bracketed (lines : List String) (coord : String) :
    let o := Setup.ofSettings settings clock
    let s := start settings (.fresh n)
    let after k := s.calls o ((s.runCalls o lines).take k)
    let x := s.run o lines
    Bracketed coord (fetches coord x.events) ∧
    Each (Grouped fun e => e.kind = .node ∧ e.name = settings.downloadNodeName ∧
      ∃ k, e ∈ (after k).value.context.live) x.events ∧
    ∀ k, (after k).value.tracker.isDownloading coord =
      (fetches coord (after k).events).getLast?.any isStart := by
  intro o s after x
  have hx : x = s.calls o (s.runCalls o lines) := run_eq_calls o s lines
  have hend := fetched_calls settings clock n (s.runCalls o lines)
    (K := fun e => ∃ k, e ∈ (after k).value.context.live) fun k e he => ⟨k, he⟩
  rw [← hx] at hend
  have hclosed : x.value.tracker.downloads = [] := by
    rw [hx, runCalls, calls_append]
    exact congrArg Tracker.downloads (tracker_finish (finished_lineCalls ..))
  refine ⟨hend.paired.idle coord ?_, hend.grouped, fun k => ?_⟩
  · simp [hclosed]
  · have hk := fetched_calls settings clock n ((s.runCalls o lines).take k)
      (K := fun _ => True) fun _ _ _ => trivial
    exact hk.paired.isDownloading coord

end Session

end BuildTree
