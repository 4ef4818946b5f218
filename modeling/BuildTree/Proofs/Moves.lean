import BuildTree.Proofs.BuiltIn
import BuildTree.Proofs.LiveEntries

/-!
# Moves of a tracker

Whatever a tracker does for a message is a sequence of small moves, each of which emits one
event at most: an entry starts, starts again or finishes, a download starts or finishes,
something is remarked aside, or a mark is set.  What every move keeps, every message keeps.

    Valid o t → Moves o K t es t' → Valid o t'                    (Moves.valid)
    Valid o t → t.apply o m now = ⟨t', es, _⟩ → Moves o K t es t'   (moves_apply)

`K` is a property of the entries that start, which the proofs choose.
-/

namespace BuildTree.Tracker

open Execution Spy

/-- Open downloads are of different artifacts, and each hangs under a live download node. -/
structure Valid (o : Options) (t : Tracker) : Prop where
  numbered : t.context.Numbered
  coords : (t.downloads.map (·.coord)).Nodup
  nodes : ∀ d ∈ t.downloads, ∃ e ∈ t.context.live,
    e.kind = .node ∧ e.name = o.downloadNode ∧ e.id = d.node

/-- An event that neither starts nor finishes an entry or a download: under something that the
context holds, or the finish of the session. -/
inductive Aside (c : Context) : Event → Prop
  | output {p} (text) (hp : c.Holds p) : Aside c (.output p text)
  | message {p} (severity title text position) (hp : c.Holds p) :
      Aside c (.message p severity title text position)
  | failureStarted {p} (now error) (hp : c.Holds p) :
      Aside c (.started (.named error) (some p) now error)
  | failureFinished (p now error outcome) : Aside c (.finished (.named error) p now error outcome)
  | sessionFinished (now name outcome) : Aside c (.finished c.sessionId none now name outcome)

inductive Move (o : Options) (K : Entry → Prop) : Tracker → List Event → Tracker → Prop
  /-- An entry with a new number starts. -/
  | starts {t} (kind thread name parent now) (hp : t.context.Holds parent.id)
      (hk : K (t.context.create kind thread name parent).2) :
      Move o K t [(t.context.create kind thread name parent).2.started now]
        { t with context := (t.context.create kind thread name parent).1 }
  /-- The start of a live entry is reported again. -/
  | restarts {t e} (now) (he : e ∈ t.context.live) : Move o K t [e.started now] t
  | finishes {t e} (now outcome) (he : e ∈ t.context.live) (hd : ∀ d ∈ t.downloads, d.node ≠ e.id) :
      Move o K t [e.finished now outcome] { t with context := t.context.complete e }
  | fetches {t e d} (now) (he : e ∈ t.context.live) (hkind : e.kind = .node)
      (hname : e.name = o.downloadNode) (hid : e.id = d.node)
      (hd : ∀ x ∈ t.downloads, x.coord ≠ d.coord) :
      Move o K t [d.started now] { t with downloads := t.downloads ++ [d] }
  | fetched {t d} (now outcome) (hd : d ∈ t.downloads) :
      Move o K t [d.finished now outcome]
        { t with downloads := t.downloads.filter (·.coord != d.coord) }
  | remarks {t e} (h : Aside t.context e) : Move o K t [e] t
  /-- What changes of the context are neither entries nor numbers. -/
  | marks {t} (c) (hs : c.session = t.context.session) (hn : c.nextSeq = t.context.nextSeq)
      (hl : c.live = t.context.live) : Move o K t [] { t with context := c }

/-- Moves one after the other, with all that they emit. -/
inductive Moves (o : Options) (K : Entry → Prop) : Tracker → List Event → Tracker → Prop
  | refl (t) : Moves o K t [] t
  | more {t t₁ t' es fs} (h : Move o K t es t₁) (hs : Moves o K t₁ fs t') :
      Moves o K t (es ++ fs) t'

variable {o : Options} {K : Entry → Prop} {t t₁ t' : Tracker} {es fs : List Event}

/-! ## What moves keep -/

theorem Move.one (h : Move o K t es t') : Moves o K t es t' := by
  have := Moves.more h (.refl t')
  rwa [List.append_nil] at this

theorem Moves.trans (h : Moves o K t es t₁) (hs : Moves o K t₁ fs t') :
    Moves o K t (es ++ fs) t' := by
  induction h with
  | refl => exact hs
  | more hm _ ih =>
    rw [List.append_assoc]
    exact .more hm (ih hs)

/-- What every move keeps of a tracker and the events so far, moves keep. -/
theorem Moves.keep {I : List Event → Tracker → Prop}
    (hI : ∀ {es t fs t'}, I es t → Move o K t fs t' → I (es ++ fs) t')
    (h : Moves o K t fs t') (hi : I es t) : I (es ++ fs) t' := by
  induction h generalizing es with
  | refl => rwa [List.append_nil]
  | more hm _ ih =>
    rw [← List.append_assoc]
    exact ih (hI hi hm)

theorem Move.session (h : Move o K t es t') : t'.context.session = t.context.session := by
  cases h with
  | marks c hs _ _ => exact hs
  | _ => rfl

theorem Moves.session (h : Moves o K t es t') : t'.context.session = t.context.session := by
  induction h with
  | refl => rfl
  | more hm _ ih => exact ih.trans hm.session

theorem Move.valid (hv : t.Valid o) (h : Move o K t es t') : t'.Valid o := by
  cases h with
  | starts kind thread name parent now hp hk =>
    refine ⟨hv.numbered.create .., hv.coords, fun d hd => ?_⟩
    obtain ⟨e, he, hne⟩ := hv.nodes d hd
    exact ⟨e, List.mem_append_left _ he, hne⟩
  | restarts now he => exact hv
  | @finishes e now outcome he hd =>
    refine ⟨hv.numbered.complete e, hv.coords, fun d hdm => ?_⟩
    obtain ⟨x, hx, hkind, hname, hid⟩ := hv.nodes d hdm
    have hxe : x ≠ e := by
      rintro rfl
      exact hd d hdm hid.symm
    exact ⟨x, (hv.numbered.mem_complete he).2 ⟨hx, hxe⟩, hkind, hname, hid⟩
  | @fetches e d now he hkind hname hid hd =>
    refine ⟨hv.numbered, ?_, fun x hx => ?_⟩
    · rw [List.map_append, List.nodup_append]
      refine ⟨hv.coords, by simp, fun a ha b hb => ?_⟩
      obtain ⟨x, hx, rfl⟩ := List.mem_map.1 ha
      rw [List.mem_singleton.1 hb]
      exact hd x hx
    · rcases List.mem_append.1 hx with hx | hx
      · exact hv.nodes x hx
      · rw [List.mem_singleton.1 hx]
        exact ⟨e, he, hkind, hname, hid⟩
  | fetched now outcome hd =>
    refine ⟨hv.numbered, hv.coords.sublist (List.filter_sublist.map _), fun x hx => ?_⟩
    exact hv.nodes x (List.mem_filter.1 hx).1
  | remarks h => exact hv
  | marks c hs hn hl =>
    refine ⟨hv.numbered.congr hs hn hl, hv.coords, ?_⟩
    simpa only [hl] using hv.nodes

theorem Moves.valid (hv : t.Valid o) (h : Moves o K t es t') : t'.Valid o := by
  induction h with
  | refl => exact hv
  | more hm _ ih => exact ih (hm.valid hv)

theorem valid_fresh (o : Options) (session : Nat) : (fresh session).Valid o :=
  ⟨Context.numbered_fresh session, List.nodup_nil, fun _ hd => absurd hd List.not_mem_nil⟩

/-! ## Several events of one kind -/

theorem moves_asides (h : ∀ e ∈ es, Aside t.context e) : Moves o K t es t := by
  induction es with
  | nil => exact .refl t
  | cons e es ih =>
    exact .more (.remarks (h e List.mem_cons_self)) (ih fun x hx => h x (List.mem_cons_of_mem _ hx))

theorem moves_messages {p : EventId} (hp : t.context.Holds p) (h : ∀ e ∈ es, e.IsMessage p) :
    Moves o K t es t := by
  refine moves_asides fun e he => ?_
  obtain ⟨severity, title, text, position, rfl⟩ := h e he
  exact .message severity title text position hp

/-- Downloads finish one after the other. -/
theorem moves_abandon (now : Nat) {ds : List Download} (hc : (t.downloads.map (·.coord)).Nodup)
    (hds : ∀ d ∈ ds, d ∈ t.downloads) (hn : ds.Nodup) :
    Moves o K t (ds.map (·.finished now .unknown))
      { t with downloads := t.downloads.filter (· ∉ ds) } := by
  induction ds generalizing t with
  | nil =>
    rw [List.filter_eq_self.2 (by simp)]
    exact .refl t
  | cons d ds ih =>
    obtain ⟨hd, hds⟩ := List.forall_mem_cons.1 hds
    obtain ⟨hnd, hn⟩ := List.nodup_cons.1 hn
    have hcoord : ∀ x ∈ t.downloads, x.coord = d.coord ↔ x = d := fun x hx =>
      ⟨List.inj_on_of_nodup_map hc hx hd, fun h => h ▸ rfl⟩
    have hstep := Move.fetched (o := o) (K := K) now .unknown hd
    have hrest := ih (t := { t with downloads := t.downloads.filter (·.coord != d.coord) })
      (hc.sublist (List.filter_sublist.map _))
      (fun x hx => List.mem_filter.2 ⟨hds x hx, by
        have : x.coord ≠ d.coord := fun h => hnd ((hcoord x (hds x hx)).1 h ▸ hx)
        simpa using this⟩) hn
    have hfilter : (t.downloads.filter (·.coord != d.coord)).filter (· ∉ ds) =
        t.downloads.filter (· ∉ d :: ds) := by
      rw [List.filter_filter]
      refine List.filter_congr fun x hx => ?_
      rw [Bool.eq_iff_iff]
      simp [bne, hcoord x hx, and_comm]
    simp only [hfilter] at hrest
    exact .more hstep hrest

/-- Entries finish one after the other when no download is open. -/
theorem moves_finishEntries (now : Nat) {xs : List Entry} (hv : t.context.Numbered)
    (hd : t.downloads = []) (hxs : ∀ e ∈ xs, e ∈ t.context.live) (hn : xs.Nodup) :
    Moves o K t (xs.map (·.finished now .unknown))
      { t with context := xs.foldl Context.complete t.context } := by
  induction xs generalizing t with
  | nil => exact .refl t
  | cons e xs ih =>
    obtain ⟨he, hxs⟩ := List.forall_mem_cons.1 hxs
    obtain ⟨hne, hn⟩ := List.nodup_cons.1 hn
    have hstep := Move.finishes (o := o) (K := K) now .unknown he (by simp [hd])
    refine .more hstep (ih (hv.complete e) hd (fun x hx => ?_) hn)
    exact (hv.mem_complete he).2 ⟨hxs x hx, fun h => hne (h ▸ hx)⟩

end BuildTree.Tracker
