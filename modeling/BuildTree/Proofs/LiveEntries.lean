import BuildTree.Execution.Context
import Mathlib.Data.List.Nodup

/-!
# The live entries of a context

Ids are handed out by a counter, so no two live entries share one (`Numbered`), and taking
out an entry takes out that entry alone.

    find? k t n = some e             →   e is live, of kind k and name n, on thread t
    x live in complete e             ↔   x live and x ≠ e       (for a live e)
    parents of new entries, currentId   are held by the context   (`Holds`)
-/

namespace BuildTree.Execution.Context

/-- Whether an id is that of the session or of a live entry. -/
def Holds (c : Context) (i : EventId) : Prop := i = c.sessionId ∨ ∃ e ∈ c.live, e.id = i

/-- Live entries carry different ids of the session, all handed out already. -/
structure Numbered (c : Context) : Prop where
  issued : ∀ e ∈ c.live, ∃ q < c.nextSeq, e.id = .entry c.session q
  distinct : (c.live.map (·.id)).Nodup

variable {c : Context} {e x y : Entry} {t : Nat} {n : String} {k : EntryKind}

/-! ## Look-ups -/

theorem mem_onThread : e ∈ c.onThread t ↔ e ∈ c.live ∧ e.thread = t := by
  simp [onThread]

theorem innermostWith?_eq_some {p : Entry → Bool} (h : c.innermostWith? t p = some e) :
    e ∈ c.live ∧ e.thread = t ∧ p e = true := by
  have hmem := mem_onThread.1 (List.mem_reverse.1 (List.mem_of_find?_eq_some h))
  exact ⟨hmem.1, hmem.2, List.find?_some h⟩

theorem find?_eq_some (h : c.find? k t n = some e) :
    e ∈ c.live ∧ e.thread = t ∧ e.kind = k ∧ e.name = n := by
  obtain ⟨hl, ht, hp⟩ := innermostWith?_eq_some h
  simp only [Bool.and_eq_true, beq_iff_eq] at hp
  exact ⟨hl, ht, hp⟩

theorem holds_of_live (h : e ∈ c.live) : c.Holds e.id := Or.inr ⟨e, h, rfl⟩

theorem holds_sessionId : c.Holds c.sessionId := Or.inl rfl

theorem holds_taskParent (project : Option String) : c.Holds (c.taskParent t project).id := by
  unfold taskParent
  split
  · next p hp =>
    obtain ⟨name, -, hname⟩ := Option.bind_eq_some_iff.1 hp
    exact holds_of_live (find?_eq_some hname).1
  · exact holds_sessionId

theorem holds_nodeParent : c.Holds (c.nodeParent t).id := by
  unfold nodeParent
  split
  · next e he => exact holds_of_live (innermostWith?_eq_some he).1
  · split
    · next e he => exact holds_of_live (innermostWith?_eq_some he).1
    · exact holds_sessionId

theorem mem_liveOfLastThread (h : e ∈ c.liveOfLastThread) : e ∈ c.live := by
  unfold liveOfLastThread at h
  split at h
  · exact (mem_onThread.1 (List.mem_reverse.1 h)).1
  · cases h

theorem holds_currentId : c.Holds c.currentId := by
  unfold currentId
  split
  · next e es hes =>
    have he : e ∈ c.liveOfLastThread := by rw [hes]; exact List.mem_cons_self
    exact holds_of_live (mem_liveOfLastThread he)
  · exact holds_sessionId

/-! ## Numbers -/

theorem numbered_fresh (session : Nat) : (fresh session).Numbered :=
  ⟨fun _ he => absurd he List.not_mem_nil, List.nodup_nil⟩

theorem Numbered.eq_of_id_eq (h : c.Numbered) (hx : x ∈ c.live) (hy : y ∈ c.live)
    (hid : x.id = y.id) : x = y :=
  List.inj_on_of_nodup_map h.distinct hx hy hid

theorem Numbered.create (h : c.Numbered) (k : EntryKind) (t : Nat) (n : String) (p : Parent) :
    (c.create k t n p).1.Numbered := by
  constructor
  · intro e he
    rcases List.mem_append.1 he with he | he
    · obtain ⟨q, hq, hid⟩ := h.issued e he
      exact ⟨q, Nat.lt_succ_of_lt hq, hid⟩
    · rw [List.mem_singleton.1 he]
      exact ⟨c.nextSeq, Nat.lt_succ_self _, rfl⟩
  · show ((c.live ++ [(c.create k t n p).2]).map (·.id)).Nodup
    rw [List.map_append, List.nodup_append]
    refine ⟨h.distinct, by simp, fun i hi j hj hij => ?_⟩
    obtain ⟨e, he, rfl⟩ := List.mem_map.1 hi
    obtain ⟨q, hq, hid⟩ := h.issued e he
    -- the new number is the counter itself, above every number handed out
    have hj : j = .entry c.session c.nextSeq := by simpa [Context.create] using hj
    rw [hid, hj] at hij
    injection hij with _ hqs
    omega

theorem Numbered.mem_complete (h : c.Numbered) (he : e ∈ c.live) :
    x ∈ (c.complete e).live ↔ x ∈ c.live ∧ x ≠ e := by
  have key : x ∈ (c.complete e).live ↔ x ∈ c.live ∧ ¬ (x.thread = e.thread ∧ x.id = e.id) := by
    simp [complete, imp_iff_not_or]
  rw [key]
  constructor
  · rintro ⟨hx, hne⟩
    exact ⟨hx, fun hxe => hne (by simp [hxe])⟩
  · rintro ⟨hx, hne⟩
    exact ⟨hx, fun hids => hne (h.eq_of_id_eq hx he hids.2)⟩

theorem mem_of_mem_complete (h : x ∈ (c.complete e).live) : x ∈ c.live :=
  (List.mem_filter.1 h).1

theorem Numbered.complete (h : c.Numbered) (e : Entry) : (c.complete e).Numbered := by
  refine ⟨fun x hx => h.issued x (mem_of_mem_complete hx), ?_⟩
  exact h.distinct.sublist (List.filter_sublist.map _)

/-- An id that is not handed out yet is that of no live entry. -/
theorem Numbered.id_ne_of_le (h : c.Numbered) (he : e ∈ c.live) {q : Nat} (hq : c.nextSeq ≤ q) :
    e.id ≠ .entry c.session q := by
  obtain ⟨q', hq', hid⟩ := h.issued e he
  rw [hid]
  intro heq
  injection heq with _ hqs
  omega

theorem Numbered.id_ne_next (h : c.Numbered) (he : e ∈ c.live) :
    e.id ≠ .entry c.session c.nextSeq := h.id_ne_of_le he (Nat.le_refl _)

/-- Whether a context is numbered depends on its entries and numbers only. -/
theorem Numbered.congr {c' : Context} (h : c.Numbered) (hs : c'.session = c.session)
    (hn : c'.nextSeq = c.nextSeq) (hl : c'.live = c.live) : c'.Numbered := by
  refine ⟨?_, ?_⟩
  · simpa only [hs, hn, hl] using h.issued
  · simpa only [hl] using h.distinct

theorem Numbered.id_ne_sessionId (h : c.Numbered) (he : e ∈ c.live) : e.id ≠ c.sessionId := by
  obtain ⟨q, -, hid⟩ := h.issued e he
  rw [hid]
  exact EventId.noConfusion

/-- Completing entries changes nothing but what is live. -/
theorem foldl_complete_eq (xs : List Entry) (c : Context) :
    xs.foldl complete c = { c with live := (xs.foldl complete c).live } := by
  induction xs generalizing c with
  | nil => rfl
  | cons e xs ih => exact ih (c.complete e)

theorem of_mem_foldl_complete {xs : List Entry} (h : x ∈ (xs.foldl complete c).live) :
    x ∈ c.live ∧ x ∉ xs := by
  induction xs generalizing c with
  | nil => exact ⟨h, List.not_mem_nil⟩
  | cons e xs ih =>
    obtain ⟨hx, hxs⟩ := ih h
    have hxe : x ≠ e := by
      rintro rfl
      simp [complete] at hx
    refine ⟨mem_of_mem_complete hx, ?_⟩
    rw [List.mem_cons, not_or]
    exact ⟨hxe, hxs⟩

end BuildTree.Execution.Context
