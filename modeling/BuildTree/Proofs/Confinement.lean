import BuildTree.Proofs.Workers

/-!
# What a message leaves alone

A message changes nothing of what another thread has (`confined_apply`): it creates entries on its
own thread, finishes entries of its own thread, and opens and closes downloads of artifacts that
belong to it.

    Seen r owner a s t → Confined owner b t t' → a ≠ b → Seen r owner a s t'
-/

namespace BuildTree.Tracker

open Execution Spy

/-- What one thread does leaves what the others have as it is. -/
structure Confined (owner : String → Nat) (b : Nat) (t t' : Tracker) : Prop where
  session : t'.context.session = t.context.session
  live : ∀ a ≠ b, t'.context.onThread a = t.context.onThread a
  fetching : ∀ a ≠ b, t'.fetching owner a = t.fetching owner a
  owned : Owned owner t'

section
variable {o : Options} {r : Renumbering} {owner : String → Nat} {a b : Nat} {s t t₁ t' : Tracker}
  {m : Message} {now : Nat} {e : Entry} {c : String}

/-! ## Lemmas -/

theorem Confined.refl (hown : Owned owner t) : Confined owner b t t :=
  ⟨rfl, fun _ _ => rfl, fun _ _ => rfl, hown⟩

theorem Confined.trans (h : Confined owner b t t₁) (h' : Confined owner b t₁ t') :
    Confined owner b t t' where
  session := h'.session.trans h.session
  live a ha := (h'.live a ha).trans (h.live a ha)
  fetching a ha := (h'.fetching a ha).trans (h.fetching a ha)
  owned := h'.owned

/-- Marks of the session belong to no thread. -/
theorem Confined.marks (h : Confined owner b t t') {c : Context}
    (hs : c.session = t'.context.session) (hl : c.live = t'.context.live) :
    Confined owner b t { t' with context := c } := by
  refine ⟨hs.trans h.session, fun a ha => ?_, h.fetching, fun d hd e he => ?_⟩
  · rw [← h.live a ha, Context.onThread, hl, Context.onThread]
  · exact h.owned d hd e (hl ▸ he)

theorem confined_create (hv : t.Valid o) (hown : Owned owner t) (kind : EntryKind) (name : String)
    (p : Parent) :
    Confined owner b t { t with context := (t.context.create kind b name p).1 } := by
  refine ⟨rfl, fun a ha => ?_, fun _ _ => rfl, fun d hd e he hid => ?_⟩
  · rw [Context.onThread_create, if_neg (Ne.symm ha), List.append_nil]
  · rcases List.mem_append.1 he with he | he
    · exact hown d hd e he hid
    · -- no download hangs under a new entry: what it hangs under was live before
      rw [List.mem_singleton.1 he] at hid
      obtain ⟨x, hx, -, -, hnode⟩ := hv.nodes d hd
      exact absurd (hnode.trans hid.symm) (hv.numbered.id_ne_next hx)

theorem confined_complete (hown : Owned owner t) (he : e.thread = b) :
    Confined owner b t { t with context := t.context.complete e } := by
  refine ⟨rfl, fun a ha => ?_, fun _ _ => rfl, fun d hd x hx => ?_⟩
  · exact Context.onThread_complete_of_ne (he ▸ ha)
  · exact hown d hd x (Context.mem_of_mem_complete hx)

/-- Downloads of the artifacts of the thread are taken out. -/
theorem confined_filter (hown : Owned owner t) {p : Download → Bool}
    (hp : ∀ d ∈ t.downloads, owner d.coord ≠ b → p d = true) :
    Confined owner b t { t with downloads := t.downloads.filter p } := by
  refine ⟨rfl, fun _ _ => rfl, fun a ha => ?_, fun d hd => hown d (List.mem_filter.1 hd).1⟩
  rw [fetching, fetching, List.filter_filter]
  refine List.filter_congr fun d hd => ?_
  by_cases hd' : owner d.coord = a
  · simp [hd', hp d hd (hd' ▸ ha)]
  · simp [hd']

theorem confined_fetch (hv : t.Valid o) (hown : Owned owner t) (hlive : e ∈ t.context.live)
    (he : e.thread = b) (hc : owner c = b) :
    Confined owner b t { t with downloads := t.downloads ++ [⟨c, e.id⟩] } := by
  refine ⟨rfl, fun _ _ => rfl, fun a ha => ?_, fun d hd x hx hid => ?_⟩
  · have hca : (owner c == a) = false := by simpa [hc] using Ne.symm ha
    simp [fetching, List.filter_append, hca]
  · rcases List.mem_append.1 hd with hd | hd
    · exact hown d hd x hx hid
    · rw [List.mem_singleton.1 hd] at hid ⊢
      rw [hv.numbered.eq_of_id_eq hx hlive hid, he, hc]

theorem confined_make (hv : t.Valid o) (hown : Owned owner t) {kind : EntryKind}
    {project : Option String} {name : String} {x : Context}
    (hmake : t.context.make kind b project name = (x, e)) :
    Confined owner b t { t with context := x } := by
  obtain ⟨rfl, rfl⟩ := Prod.mk.inj hmake
  exact (confined_create hv hown kind name (t.context.parentOf kind b project)).marks rfl rfl

/-! ## Acts -/

theorem Act.confined (hv : t.Valid o) (hown : Owned owner t)
    (hc : ∀ c, m.artifact? = some c → owner c = m.thread) {es : List Event}
    (h : Act o m now t es t') : Confined owner m.thread t t' := by
  cases h with
  | rests | restarts | complains => exact .refl hown
  | announces | ends | fails => exact (Confined.refl hown).marks rfl rfl
  | starts hm hnew hmake => exact confined_make hv hown hmake
  | finishes hm hkind hfound => exact confined_complete hown (Context.find?_eq_some hfound).2.1
  | @closes node hm hnode =>
    obtain ⟨hlive, hthread, -, -⟩ := Context.find?_eq_some hnode
    have hclose := confined_filter (b := m.thread) (p := (·.node != node.id)) hown
      fun d hd hne => by
        have : d.node ≠ node.id := fun h => hne (by rw [← hown d hd node hlive h.symm, hthread])
        simpa using this
    exact hclose.trans (confined_complete hclose.owned hthread)
  | @fetches coord node hm hcoord hidle hnode =>
    obtain ⟨hlive, hthread, -, -⟩ := Context.find?_eq_some hnode
    exact confined_fetch hv hown hlive hthread (hc coord (by simp [Message.artifact?, hm, hcoord]))
  | @groups coord x node hm hcoord hidle hnew hmake =>
    have hstart := confined_make hv hown hmake
    have hvalid : Valid o { t with context := x } :=
      (moves_make (K := fun _ => True) hmake trivial now).valid hv
    obtain ⟨rfl, rfl⟩ := Prod.mk.inj hmake
    exact hstart.trans (confined_fetch hvalid hstart.owned
      (List.mem_append_right _ List.mem_cons_self) rfl
      (hc coord (by simp [Message.artifact?, hm, hcoord])))
  | @resolves coord d outcome hm hcoord hd =>
    have hdc : d.coord = coord := by simpa using List.find?_some hd
    have howner : owner coord = m.thread := hc coord (by simp [Message.artifact?, hm, hcoord])
    refine confined_filter hown fun x hx hne => ?_
    have : x.coord ≠ d.coord := fun h => hne (by rw [h, hdc, howner])
    simpa using this

theorem Acts.confined (hv : t.Valid o) (hown : Owned owner t)
    (hc : ∀ c, m.artifact? = some c → owner c = m.thread) {es : List Event}
    (h : Acts o m now t es t') : Confined owner m.thread t t' := by
  induction h with
  | one h => exact h.confined hv hown hc
  | more hm h _ ih =>
    have hact := h.confined hv hown hc
    exact hact.trans (ih (h.valid hv) hact.owned)

/-- A message changes nothing of what another thread has. -/
theorem confined_apply (hv : t.Valid o) (hown : Owned owner t)
    (hc : ∀ c, m.artifact? = some c → owner c = m.thread) (now : Nat) :
    Confined owner m.thread t (t.apply o m now).value := by
  obtain ⟨es, -, hacts⟩ := acts_apply o t m now
  exact hacts.confined hv hown hc

/-- What another thread did is not seen. -/
theorem Seen.confined (h : Seen r owner a s t) (h' : Confined owner b t t') (hab : a ≠ b) :
    Seen r owner a s t' := by
  refine ⟨?_, ?_, ?_⟩
  · rw [h'.session, h.session]
  · rw [h'.live a hab, h.live]
  · rw [h'.fetching a hab, h.fetching]

end

end BuildTree.Tracker
