import BuildTree.Proofs.Representation

/-!
# What look-ups find

A look-up answers from the history: it finds the entry that was created last under its name, if
nothing completed that one since.  Completing an entry twice, or after another one took its name,
takes out that entry or nothing.

    find? k t name = some e   ↔   e is the latest of its key, and open         (find?_iff_latest)
    currentId                  the innermost open entry of the last thread      (currentId_eq)
    a request on a thread      leaves the other threads as they are             (onThread_request)
-/

namespace BuildTree.Execution

/-! ## Algorithm -/

/-- The last entry created under a key is `e`, and no deed after its creation completed it. -/
def Latest (ds : List Deed) (key : EntryKind × Nat × String) (e : Entry) : Prop :=
  ∃ pre post, ds = pre ++ .created e :: post ∧ e.key = key ∧
    (∀ x, .created x ∈ post → x.key ≠ key) ∧ .completed e ∉ post

/-- The entry that was created last and not completed since, of those on the thread of the last
creation. -/
def innermostOpened (ds : List Deed) : Option Entry :=
  (created ds).getLast?.bind fun z => ((opened ds).filter (·.thread == z.thread)).getLast?

/-- The thread that a request is about. -/
def Request.thread? (h : History) : Request → Option Nat
  | .get _ thread .. => some thread
  | .complete step => (h.answer? step).map (·.thread)

/-! ## Lemmas -/

namespace History

variable {n : Nat} {h : History} {e : Entry}

namespace Consistent

/-- While an entry is open nothing new gets its key. -/
theorem not_created_after (hc : Consistent n h) {pre post : List Deed}
    (hds : h.deeds = pre ++ .created e :: post) (hopen : .completed e ∉ post) {x : Entry}
    (hx : .created x ∈ post) : x.key ≠ e.key := by
  obtain ⟨mid, rest, rfl⟩ := List.append_of_mem hx
  have hopened : e ∈ opened (pre ++ .created e :: mid) :=
    mem_opened.2 ⟨pre, mid, rfl, fun hmem => hopen (List.mem_append_left _ hmem)⟩
  exact (hc.fresh (pre ++ .created e :: mid) x rest (by simp [hds]) e hopened).symm

theorem find?_iff_latest (hc : Consistent n h) {kind : EntryKind} {thread : Nat} {name : String} :
    h.context.find? kind thread name = some e ↔ Latest h.deeds (kind, thread, name) e := by
  rw [hc.find?_eq_some_iff, hc.live, mem_opened]
  constructor
  · rintro ⟨⟨pre, post, hds, hopen⟩, hkey⟩
    exact ⟨pre, post, hds, hkey, fun x hx => hkey ▸ hc.not_created_after hds hopen hx, hopen⟩
  · rintro ⟨pre, post, hds, hkey, -, hopen⟩
    exact ⟨⟨pre, post, hds, hopen⟩, hkey⟩

theorem currentId_eq (hc : Consistent n h) :
    h.context.currentId = ((innermostOpened h.deeds).map (·.id)).getD (.session n) := by
  have hsession : h.context.sessionId = .session n := by rw [Context.sessionId, hc.session]
  have hinnermost : h.context.liveOfLastThread.head? = innermostOpened h.deeds := by
    rw [Context.liveOfLastThread, innermostOpened, hc.last]
    cases (created h.deeds).getLast? with
    | none => rfl
    | some z =>
      simp only [Option.map_some, Option.bind_some, List.head?_reverse, Context.onThread, hc.live]
  rw [← hinnermost, Context.currentId]
  cases h.context.liveOfLastThread with
  | nil => exact hsession
  | cons x xs => rfl

end Consistent

/-- A request leaves the entries of other threads as they are. -/
theorem onThread_request (r : Request) {t : Nat} (ht : r.thread? h ≠ some t) :
    (h.request r).context.onThread t = h.context.onThread t := by
  cases r with
  | get kind thread project name create =>
    have hne : thread ≠ t := fun heq => ht (by rw [Request.thread?, heq])
    cases hfind : h.context.find? kind thread name with
    | some e =>
      cases create <;> simp [request, Context.get, Context.acquire_of_found hfind]
    | none =>
      cases create with
      | false => simp [request, Context.get]
      | true =>
        simp only [request, Context.get, Context.acquire_of_absent hfind, Context.make, if_true]
        have hcreate := h.context.onThread_create kind thread t name
          (h.context.parentOf kind thread project)
        rwa [if_neg hne, List.append_nil] at hcreate
  | complete step =>
    simp only [request]
    split
    · rfl
    · next e he =>
      refine Context.onThread_complete_of_ne fun heq => ht ?_
      rw [Request.thread?, he, heq]
      rfl

/-! ## Top theorems -/

/-- After any requests: a look-up finds exactly the entry created last under its key, unless that one
was completed since; asking for it again, with leave to create, returns it and changes nothing;
completing an entry that was returned once takes out that entry alone, and a second time nothing; a
request leaves the other threads as they are; and the current id is that of the entry created last,
of those still open on the thread of the last creation, or else the id of the session. -/
theorem run_lookups (n : Nat) (rs : List Request) :
    let h := run n rs
    let c := h.context
    (∀ kind thread name e,
      c.find? kind thread name = some e ↔ Latest h.deeds (kind, thread, name) e) ∧
    (∀ kind thread project name e, c.find? kind thread name = some e →
      c.get kind thread project name true = (c, some e)) ∧
    (∀ e, some e ∈ h.returned →
      c.complete e = { c with live := c.live.filter (· ≠ e) } ∧
      (c.complete e).complete e = c.complete e) ∧
    (∀ r t, r.thread? h ≠ some t → (h.request r).context.onThread t = c.onThread t) ∧
    c.currentId = ((innermostOpened h.deeds).map (·.id)).getD (.session n) := by
  intro h c
  have hc : Consistent n h := consistent_run n rs
  refine ⟨fun kind thread name e => hc.find?_iff_latest, fun kind thread project name e hfind => ?_,
    fun e he => ⟨hc.complete_eq (hc.returned e he), c.complete_complete e⟩,
    fun r t ht => onThread_request r ht, hc.currentId_eq⟩
  simp [Context.get, Context.acquire_of_found hfind]

/-- A second project of the name is there when the first one is completed once more. -/
example :
    (run 1 [.get .project 0 none "app" true, .complete 0, .get .project 0 none "app" true,
      .complete 0]).context.live.map (·.id) = [.entry 1 2] := by
  decide

end History

end BuildTree.Execution
