import BuildTree.Proofs.Histories
import Mathlib.Data.List.Induction
import Mathlib.Logic.Function.Basic

/-!
# What a context represents

A context keeps the live entries of every thread, innermost last.  Whatever it is asked for, the
lists of its threads fit together with the history of the requests (`Consistent`).

    live entries   created and not completed since                 (Consistent.live)
    their lists    a table that each deed changes at one thread    (Consistent.lists)
    new numbers    ascend, so no id is handed out twice            (Consistent.ascending)
    a new entry    has a name that nothing live has                (Consistent.fresh)

`Step` says once all that a request can do, `Consistent.step` what it keeps, and `consistent_run`
is the one induction.
-/

namespace BuildTree.Execution

/-! ## Algorithm -/

/-- The live entries of a thread, if it has any. -/
def Context.list? (c : Context) (thread : Nat) : Option (List Entry) :=
  (some (c.onThread thread)).filter (· ≠ [])

/-- What a deed does to a table of lists: a new entry goes to the end of the list of its thread; a
completed one leaves the list of its thread, which goes with its last entry. -/
def Deed.store (lists : Nat → Option (List Entry)) : Deed → Nat → Option (List Entry)
  | .created e => Function.update lists e.thread (some ((lists e.thread).getD [] ++ [e]))
  | .completed e => Function.update lists e.thread
      (((lists e.thread).map (·.filter (·.id ≠ e.id))).filter (· ≠ []))

/-- The table of the lists after some deeds. -/
def stored (ds : List Deed) : Nat → Option (List Entry) := ds.foldl Deed.store fun _ => none

namespace History

/-- All that a request can do. -/
inductive Step (h : History) : History → Prop
  | answers (a : Option Entry) (ha : ∀ e ∈ a, e ∈ h.context.live) :
      Step h { h with returned := h.returned ++ [a] }
  | creates (kind thread name parent begun)
      (hnew : h.context.find? kind thread name = none)
      (hangs : h.context.Hangs (h.context.create kind thread name parent).2) :
      Step h
        { context := { (h.context.create kind thread name parent).1 with begun }
          returned := h.returned ++ [some (h.context.create kind thread name parent).2]
          deeds := h.deeds ++ [.created (h.context.create kind thread name parent).2] }
  | completes (e : Entry) (he : some e ∈ h.returned) :
      Step h
        { context := h.context.complete e
          returned := h.returned ++ [none]
          deeds := h.deeds ++ [.completed e] }

/-- A history and its context agree, and numbers and names were given out once. -/
structure Consistent (number : Nat) (h : History) : Prop where
  session : h.context.session = number
  live : h.context.live = opened h.deeds
  lists : stored h.deeds = h.context.list?
  last : h.context.lastThread = (created h.deeds).getLast?.map (·.thread)
  returned : ∀ e, some e ∈ h.returned → e ∈ created h.deeds
  issued : ∀ e ∈ created h.deeds, ∃ q, 1 ≤ q ∧ q < h.context.nextSeq ∧ e.id = .entry number q
  next_pos : 1 ≤ h.context.nextSeq
  ascending : (created h.deeds).Pairwise fun x y => x.id.seq < y.id.seq
  fresh : ∀ pre x post, h.deeds = pre ++ .created x :: post → ∀ y ∈ opened pre, y.key ≠ x.key
  names : (h.context.live.map (·.key)).Nodup

end History

/-! ## Lists -/

namespace Context

variable {c : Context} {e : Entry} {t : Nat} {es : List Entry}

theorem list?_eq_some_iff : c.list? t = some es ↔ es = c.onThread t ∧ es ≠ [] := by
  rw [list?, Option.filter_eq_some_iff, Option.some.injEq, decide_eq_true_eq, eq_comm]

theorem getD_list? (c : Context) (t : Nat) : (c.list? t).getD [] = c.onThread t := by
  rw [list?]
  by_cases h : c.onThread t = [] <;> simp [Option.filter, h]

/-- The live entries are those in the lists. -/
theorem mem_live_iff : e ∈ c.live ↔ ∃ t es, c.list? t = some es ∧ e ∈ es := by
  constructor
  · intro he
    have hon : e ∈ c.onThread e.thread := mem_onThread.2 ⟨he, rfl⟩
    exact ⟨e.thread, _, list?_eq_some_iff.2 ⟨rfl, List.ne_nil_of_mem hon⟩, hon⟩
  · rintro ⟨t, es, hes, he⟩
    rw [(list?_eq_some_iff.1 hes).1] at he
    exact (mem_onThread.1 he).1

theorem store_created (c : Context) (kind : EntryKind) (thread : Nat) (name : String)
    (parent : Parent) :
    Deed.store c.list? (.created (c.create kind thread name parent).2) =
      (c.create kind thread name parent).1.list? := by
  funext t
  have hlist : (c.create kind thread name parent).1.list? t = (some (c.onThread t ++
      if thread = t then [(c.create kind thread name parent).2] else [])).filter (· ≠ []) := by
    rw [list?, onThread_create]
  rw [Deed.store, getD_list?, hlist]
  by_cases ht : thread = t
  · subst ht
    simp [create, Option.filter]
  · have hother : t ≠ (c.create kind thread name parent).2.thread := Ne.symm ht
    rw [Function.update_of_ne hother, if_neg ht, List.append_nil, list?]

theorem store_completed (c : Context) (e : Entry) :
    Deed.store c.list? (.completed e) = (c.complete e).list? := by
  funext t
  by_cases ht : t = e.thread
  · subst ht
    have hfilter : (c.complete e).onThread e.thread = (c.onThread e.thread).filter (·.id ≠ e.id) := by
      rw [onThread_complete]
      refine List.filter_congr fun x hx => ?_
      rw [(mem_onThread.1 hx).2, beq_self_eq_true, Bool.true_and, decide_not]
      rfl
    rw [Deed.store, Function.update_self, list?, list?, hfilter]
    by_cases h : c.onThread e.thread = [] <;> simp [Option.filter, h]
  · rw [Deed.store, Function.update_of_ne ht, list?, list?, onThread_complete_of_ne ht]

end Context

namespace History

variable {n : Nat} {h h' : History} {e x : Entry} {r : Request} {rs : List Request}

/-! ## Deeds and answers -/

/-- A creation is the last deed, or one of those before it. -/
theorem created_of_concat {ds pre post : List Deed} {d : Deed}
    (h : ds ++ [d] = pre ++ .created x :: post) :
    (pre = ds ∧ d = .created x) ∨ ∃ post', ds = pre ++ .created x :: post' := by
  rcases List.eq_nil_or_concat post with rfl | ⟨post', y, rfl⟩
  · obtain ⟨hds, hd⟩ := List.append_inj' h rfl
    exact Or.inl ⟨hds.symm, List.singleton_inj.1 hd⟩
  · have h' : ds ++ [d] = (pre ++ .created x :: post') ++ [y] := by simpa using h
    exact Or.inr ⟨post', (List.append_inj' h' rfl).1⟩

theorem stored_concat (ds : List Deed) (d : Deed) :
    stored (ds ++ [d]) = Deed.store (stored ds) d := by
  simp [stored]

theorem mem_returned_of_answer? {step : Nat} (ha : h.answer? step = some e) :
    some e ∈ h.returned := by
  rw [answer?, Option.join_eq_some_iff] at ha
  exact List.mem_of_getElem? ha

/-! ## What every request keeps -/

theorem consistent_start (n : Nat) : Consistent n (start n) where
  session := rfl
  live := rfl
  lists := rfl
  last := rfl
  returned := fun _ he => absurd he List.not_mem_nil
  issued := fun _ he => absurd he List.not_mem_nil
  next_pos := Nat.le_refl 1
  ascending := List.Pairwise.nil
  fresh := fun pre _ _ h => absurd h.symm (by simp [start])
  names := List.nodup_nil

namespace Consistent

theorem mem_created_of_live (hc : Consistent n h) (he : e ∈ h.context.live) :
    e ∈ created h.deeds := by
  rw [hc.live] at he
  exact (opened_sublist h.deeds).subset he

theorem seq_lt (hc : Consistent n h) (he : e ∈ created h.deeds) :
    e.id.seq < h.context.nextSeq := by
  obtain ⟨q, -, hq, hid⟩ := hc.issued e he
  rw [hid]
  exact hq

/-- No two entries were ever created with one id. -/
theorem eq_of_id_eq (hc : Consistent n h) (he : e ∈ created h.deeds) (hx : x ∈ created h.deeds)
    (hid : e.id = x.id) : e = x := by
  have hnodup : ((created h.deeds).map (·.id)).Nodup :=
    List.pairwise_map.2 (hc.ascending.imp fun hlt heq => by simp [heq] at hlt)
  exact List.inj_on_of_nodup_map hnodup he hx hid

/-- Completing an entry takes out that entry and no other. -/
theorem complete_eq (hc : Consistent n h) (he : e ∈ created h.deeds) :
    h.context.complete e = { h.context with live := h.context.live.filter (· ≠ e) } := by
  have hfilter : h.context.live.filter (fun x => !(x.thread == e.thread && x.id == e.id)) =
      h.context.live.filter (· ≠ e) := by
    refine List.filter_congr fun x hx => ?_
    have hxe : x.id = e.id → x = e := hc.eq_of_id_eq (hc.mem_created_of_live hx) he
    rw [Bool.eq_iff_iff]
    simp only [Bool.not_eq_true', Bool.and_eq_false_imp, beq_iff_eq, beq_eq_false_iff_ne,
      decide_eq_true_eq]
    constructor
    · rintro hne rfl
      exact hne rfl rfl
    · exact fun hne _ hid => hne (hxe hid)
  rw [Context.complete, hfilter]

/-- On one thread there is one live entry of a kind and a name at most, and it is found. -/
theorem find?_eq_some_iff (hc : Consistent n h) {kind : EntryKind} {thread : Nat} {name : String} :
    h.context.find? kind thread name = some e ↔
      e ∈ h.context.live ∧ e.key = (kind, thread, name) := by
  constructor
  · intro hfind
    obtain ⟨hlive, hthread, hkind, hname⟩ := Context.find?_eq_some hfind
    exact ⟨hlive, by rw [Entry.key, hkind, hthread, hname]⟩
  · rintro ⟨hlive, hkey⟩
    obtain ⟨hkind, hthread, hname⟩ : e.kind = kind ∧ e.thread = thread ∧ e.name = name := by
      simpa [Entry.key] using hkey
    have hsome : (h.context.find? kind thread name).isSome = true := by
      refine List.find?_isSome.2 ⟨e, ?_, by simp [hkind, hname]⟩
      exact List.mem_reverse.2 (Context.mem_onThread.2 ⟨hlive, hthread⟩)
    obtain ⟨x, hx⟩ := Option.isSome_iff_exists.1 hsome
    obtain ⟨hxlive, hxthread, hxkind, hxname⟩ := Context.find?_eq_some hx
    have hxe : x = e := List.inj_on_of_nodup_map hc.names hxlive hlive (by
      rw [hkey, Entry.key, hxkind, hxthread, hxname])
    rw [hx, hxe]

theorem answers (hc : Consistent n h) {a : Option Entry} (ha : ∀ e ∈ a, e ∈ h.context.live) :
    Consistent n { h with returned := h.returned ++ [a] } :=
  { hc with
    returned := fun e he => by
      rcases List.mem_append.1 he with he | he
      · exact hc.returned e he
      · exact hc.mem_created_of_live (ha e (List.mem_singleton.1 he).symm) }

theorem creates (hc : Consistent n h) {kind : EntryKind} {thread : Nat} {name : String}
    (parent : Parent) (begun : List String) (hnew : h.context.find? kind thread name = none) :
    Consistent n
      { context := { (h.context.create kind thread name parent).1 with begun }
        returned := h.returned ++ [some (h.context.create kind thread name parent).2]
        deeds := h.deeds ++ [.created (h.context.create kind thread name parent).2] } := by
  have hkey : ∀ y ∈ h.context.live, y.key ≠ (kind, thread, name) := fun y hy hykey => by
    rw [hc.find?_eq_some_iff.2 ⟨hy, hykey⟩] at hnew
    cases hnew
  refine ⟨hc.session, ?_, ?_, ?_, fun e he => ?_, fun e he => ?_, Nat.le_add_left 1 _, ?_,
    fun pre x post hds => ?_, ?_⟩
  · rw [opened_concat_created, ← hc.live]
    rfl
  · rw [stored_concat, hc.lists]
    exact h.context.store_created kind thread name parent
  · rw [created_append, created_created, List.getLast?_concat]
    rfl
  · rw [created_append]
    rcases List.mem_append.1 he with he | he
    · exact List.mem_append_left _ (hc.returned e he)
    · exact List.mem_append_right _ (by simpa using he)
  · rw [created_append] at he
    rcases List.mem_append.1 he with he | he
    · obtain ⟨q, hpos, hq, hid⟩ := hc.issued e he
      exact ⟨q, hpos, Nat.lt_succ_of_lt hq, hid⟩
    · rw [List.mem_singleton.1 he, ← hc.session]
      exact ⟨h.context.nextSeq, hc.next_pos, Nat.lt_succ_self _, rfl⟩
  · rw [created_append, List.pairwise_append]
    refine ⟨hc.ascending, List.pairwise_singleton _ _, fun e he x hx => ?_⟩
    rw [List.mem_singleton.1 hx]
    exact hc.seq_lt he
  · rcases created_of_concat hds with ⟨rfl, hx⟩ | ⟨post', hold⟩
    · -- the new entry itself: no live entry has its name
      cases hx
      intro y hy
      rw [← hc.live] at hy
      exact hkey y hy
    · exact hc.fresh pre x post' hold
  · show ((h.context.live ++ [(h.context.create kind thread name parent).2]).map (·.key)).Nodup
    rw [List.map_append, List.nodup_append]
    refine ⟨hc.names, List.nodup_singleton _, fun k hk k' hk' => ?_⟩
    obtain ⟨y, hy, rfl⟩ := List.mem_map.1 hk
    rw [List.mem_singleton.1 hk']
    exact hkey y hy

theorem completes (hc : Consistent n h) (he : e ∈ created h.deeds) :
    Consistent n
      { context := h.context.complete e
        returned := h.returned ++ [none]
        deeds := h.deeds ++ [.completed e] } := by
  refine ⟨hc.session, ?_, ?_, ?_, fun x hx => ?_, fun x hx => ?_, hc.next_pos, ?_,
    fun pre x post hds => ?_, hc.names.sublist (List.filter_sublist.map _)⟩
  · rw [opened_concat_completed, hc.complete_eq he, ← hc.live]
  · rw [stored_concat, hc.lists]
    exact h.context.store_completed e
  · rw [created_append, created_completed, List.append_nil]
    exact hc.last
  · simpa using hc.returned x (by simpa using hx)
  · exact hc.issued x (by simpa using hx)
  · simpa using hc.ascending
  · rcases created_of_concat hds with ⟨-, hx⟩ | ⟨post', hold⟩
    · cases hx
    · exact hc.fresh pre x post' hold

theorem step (hc : Consistent n h) (hs : Step h h') : Consistent n h' := by
  cases hs with
  | answers a ha => exact hc.answers ha
  | creates kind thread name parent begun hnew _ => exact hc.creates parent begun hnew
  | completes e he => exact hc.completes (hc.returned e he)

end Consistent

theorem step_request (hc : Consistent n h) (r : Request) : Step h (h.request r) := by
  cases r with
  | get kind thread project name create =>
    cases hfind : h.context.find? kind thread name with
    | some e =>
      have hlive : ∀ x ∈ some e, x ∈ h.context.live := by
        rintro x ⟨rfl⟩
        exact (Context.find?_eq_some hfind).1
      have hget : h.context.get kind thread project name create = (h.context, some e) := by
        cases create with
        | true => simp [Context.get, Context.acquire_of_found hfind]
        | false => simp [Context.get, hfind]
      simpa [request, hget, hfind] using Step.answers (h := h) (some e) hlive
    | none =>
      cases create with
      | false =>
        simpa [request, Context.get, hfind] using Step.answers (h := h) none (by simp)
      | true =>
        have hlt : ∀ e ∈ h.context.live, e.id.seq < h.context.nextSeq := fun e he =>
          hc.seq_lt (hc.mem_created_of_live he)
        have hcreates := Step.creates (h := h) kind thread name
          (h.context.parentOf kind thread project) (h.context.begunWith kind name) hfind
          (Context.hangs_create hlt kind thread project name)
        simpa [request, Context.get, Context.acquire_of_absent hfind, Context.make, hfind] using hcreates
  | complete step =>
    simp only [request]
    split
    · exact Step.answers none (by simp)
    · next e he => exact Step.completes e (mem_returned_of_answer? he)

theorem run_concat (n : Nat) (rs : List Request) (r : Request) :
    run n (rs ++ [r]) = (run n rs).request r := by
  simp [run]

theorem consistent_run (n : Nat) (rs : List Request) : Consistent n (run n rs) := by
  induction rs using List.reverseRecOn with
  | nil => exact consistent_start n
  | append_singleton rs r ih =>
    rw [run_concat]
    exact ih.step (step_request ih r)

/-! ## New entries -/

/-- An entry that is new has the next number, and hangs under what was live. -/
theorem Step.of_created (hs : Step h h') (hd : h'.deeds = h.deeds ++ [.created e]) :
    e.id = .entry h.context.session h.context.nextSeq ∧ h.context.Hangs e := by
  cases hs with
  | answers a ha =>
    have := congrArg List.length hd
    simp at this
  | creates kind thread name parent begun hnew hangs =>
    have he : (h.context.create kind thread name parent).2 = e := by
      simpa using List.append_cancel_left hd
    rw [← he]
    exact ⟨rfl, hangs⟩
  | completes x hx =>
    have := List.append_cancel_left hd
    cases this

theorem Consistent.id_ne_of_creates (hc : Consistent n h) (hr : Creates h r e)
    (hx : some x ∈ h.returned) : x.id ≠ e.id := by
  obtain ⟨hid, -⟩ := (step_request hc r).of_created hr.1
  have hlt := hc.seq_lt (hc.returned x hx)
  intro heq
  rw [heq, hid] at hlt
  exact Nat.lt_irrefl _ hlt

/-- Whatever was created was created by one of the requests. -/
theorem exists_creates (he : e ∈ created (run n rs).deeds) :
    ∃ pre r post, rs = pre ++ r :: post ∧ Creates (run n pre) r e := by
  induction rs using List.reverseRecOn with
  | nil => cases he
  | append_singleton rs r ih =>
    have hold : e ∈ created (run n rs).deeds →
        ∃ pre r' post, rs ++ [r] = pre ++ r' :: post ∧ Creates (run n pre) r' e := by
      intro he
      obtain ⟨pre, r', post, rfl, hr'⟩ := ih he
      exact ⟨pre, r', post ++ [r], by simp, hr'⟩
    rw [run_concat] at he
    have hs := step_request (consistent_run n rs) r
    generalize hnext : (run n rs).request r = h' at he hs
    cases hs with
    | answers a ha => exact hold he
    | creates kind thread name parent begun hnew hangs =>
      rw [created_append] at he
      rcases List.mem_append.1 he with he | he
      · exact hold he
      · have he := List.mem_singleton.1 he
        exact ⟨rs, r, [], rfl, by rw [Creates, hnext, he]; exact ⟨rfl, rfl⟩⟩
    | completes x hx =>
      rw [created_append] at he
      exact hold (by simpa using he)

/-! ## Top theorems -/

/-- After any requests the table of the lists has, for each thread with live entries and for no
other, these in order of their numbers, none with the kind and the name of another; all live entries
have ids of their own that the session handed out.  A new entry gets an id that no request returned
before, and hangs under what was live on its thread. -/
theorem run_represented (n : Nat) (rs : List Request) :
    let h := run n rs
    let c := h.context
    let lists := stored h.deeds
    (∀ t, c.onThread t = (lists t).getD []) ∧
    (∀ t es, lists t = some es → es ≠ [] ∧ (∀ e ∈ es, e.thread = t) ∧
      es.Pairwise (fun x y => x.id.seq < y.id.seq) ∧
      es.Pairwise (fun x y => ¬ (x.kind = y.kind ∧ x.name = y.name))) ∧
    (∀ e, e ∈ c.live ↔ ∃ t es, lists t = some es ∧ e ∈ es) ∧
    (c.live.map (·.id)).Nodup ∧
    (∀ e ∈ c.live, ∃ q, 1 ≤ q ∧ q < c.nextSeq ∧ e.id = .entry n q) ∧
    (∀ e, e ∈ c.live ∨ some e ∈ h.returned →
      ∃ pre r post, rs = pre ++ r :: post ∧ Creates (run n pre) r e) ∧
    ∀ pre r post e, rs = pre ++ r :: post → Creates (run n pre) r e →
      (∀ x, some x ∈ (run n pre).returned → x.id ≠ e.id) ∧ (run n pre).context.Hangs e := by
  intro h c lists
  have hc : Consistent n h := consistent_run n rs
  have hlists : lists = c.list? := hc.lists
  have hlive : c.live.Pairwise fun x y => x.id.seq < y.id.seq := by
    rw [show c.live = opened h.deeds from hc.live]
    exact hc.ascending.sublist (opened_sublist _)
  rw [hlists]
  refine ⟨fun t => (c.getD_list? t).symm, fun t es hes => ?_, fun e => Context.mem_live_iff, ?_,
    fun e he => ?_, fun e he => ?_, fun pre r post e _ hr => ?_⟩
  · obtain ⟨rfl, hne⟩ := Context.list?_eq_some_iff.1 hes
    have hkeys : (c.onThread t).Pairwise fun x y => x.key ≠ y.key :=
      (List.pairwise_map.1 hc.names).sublist List.filter_sublist
    refine ⟨hne, fun e he => (Context.mem_onThread.1 he).2, hlive.sublist List.filter_sublist,
      hkeys.imp_of_mem fun hx hy hdiffer hsame => hdiffer ?_⟩
    rw [Entry.key, Entry.key, hsame.1, hsame.2, (Context.mem_onThread.1 hx).2,
      (Context.mem_onThread.1 hy).2]
  · exact List.pairwise_map.2 (hlive.imp fun hlt heq => by simp [heq] at hlt)
  · exact hc.issued e (hc.mem_created_of_live he)
  · rcases he with he | he
    · exact exists_creates (hc.mem_created_of_live he)
    · exact exists_creates (hc.returned e he)
  · have hpre := consistent_run n pre
    exact ⟨fun x hx => hpre.id_ne_of_creates hr hx, ((step_request hpre r).of_created hr.1).2⟩

end History

end BuildTree.Execution
