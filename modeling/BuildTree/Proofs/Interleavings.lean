import BuildTree.Proofs.Confinement
import Mathlib.Algebra.Order.BigOperators.Group.List
import Mathlib.Algebra.Order.Ring.Nat
import Mathlib.Data.Nat.Pairing
import Mathlib.Logic.Equiv.Basic

/-!
# Interleavings of threads

The messages of all threads arrive in one sequence, and how they are interleaved is an accident.
What a thread is told does not depend on it: the starts and finishes that are emitted for the
messages of one thread are the same in every interleaving, up to times and numbers.

A thread among the others is compared with the thread alone (`trace_emittedFor`): the k-th entry
that it creates is number k when it is alone, and `place ns a k` among the others.  Two
interleavings are then compared number by number.

    Interleaves family ms        ms, cut down to thread a, is family a
    emittedFor o a t ms          what is emitted for the messages of thread a
    created o t ms               the numbers handed out, each with the thread it is for
-/

namespace BuildTree

open Execution Spy Events

/-! ## Algorithm -/

/-- Whether a sequence of messages, each with the time it arrives, is made of one sequence for each
thread, in the order of the thread. -/
def Spy.Interleaves (family : Nat → List Message) (ms : List (Message × Nat)) : Prop :=
  ∀ a, (ms.map (·.1)).filter (·.thread == a) = family a

/-- No artifact is fetched by two threads. -/
def Spy.SharesNoArtifact (family : Nat → List Message) : Prop :=
  ∀ a b, ∀ m ∈ family a, ∀ m' ∈ family b, ∀ c,
    m.artifact? = some c → m'.artifact? = some c → a = b

namespace Tracker

/-- What is emitted for the messages of one thread, while the messages of all are applied. -/
def emittedFor (o : Options) (a : Nat) : Tracker → List (Message × Nat) → List Event
  | _, [] => []
  | t, (m, now) :: ms =>
    let x := t.apply o m now
    (if m.thread = a then x.events else []) ++ emittedFor o a x.value ms

/-- The numbers of the entries that messages create, each with the thread of the entry. -/
def created (o : Options) : Tracker → List (Message × Nat) → List (Nat × Nat)
  | _, [] => []
  | t, (m, now) :: ms =>
    let t' := (t.apply o m now).value
    if t'.context.nextSeq = t.context.nextSeq then created o t' ms
    else (m.thread, t.context.nextSeq) :: created o t' ms

/-- The messages of one thread, as if there were no others, at no time in particular. -/
def alone (a : Nat) (ms : List (Message × Nat)) : List (Message × Nat) :=
  ((ms.map (·.1)).filter (·.thread == a)).map (·, 0)

/-- A fresh tracker that counts its entries from 0 on. -/
def zeroth (session : Nat) : Tracker := { context := { session, nextSeq := 0 } }

/-- The numbers handed out to a thread, in order. -/
def numbersOf (ns : List (Nat × Nat)) (a : Nat) : List Nat := (ns.filter (·.1 == a)).map (·.2)

/-- The `i`-th of the numbers above all that were handed out. -/
def unused (ns : List (Nat × Nat)) (i : Nat) : Nat := (ns.map (·.2)).sum + 1 + i

/-- The number of the `k`-th entry of a thread; a number of its own if there is no such entry. -/
def place (ns : List (Nat × Nat)) (a k : Nat) : Nat :=
  (numbersOf ns a)[k]?.getD (unused ns (2 * Nat.pair a k))

end Tracker

/-! ## Lemmas -/

namespace Tracker

section
variable {o : Options} {r : Renumbering} {owner : String → Nat} {a b k l q : Nat} {s t : Tracker}
  {ms : List (Message × Nat)} {ns ns' : List (Nat × Nat)}

/-! ### Numbers -/

theorem Move.nextSeq_le {K : Entry → Prop} {es : List Event} {t' : Tracker} (h : Move o K t es t') :
    t.context.nextSeq ≤ t'.context.nextSeq := by
  cases h with
  | starts => exact Nat.le_succ _
  | marks c hs hn hl => exact Nat.le_of_eq hn.symm
  | _ => exact Nat.le_refl _

theorem Moves.nextSeq_le {K : Entry → Prop} {es : List Event} {t' : Tracker}
    (h : Moves o K t es t') : t.context.nextSeq ≤ t'.context.nextSeq := by
  induction h with
  | refl => exact Nat.le_refl _
  | more hm _ ih => exact Nat.le_trans hm.nextSeq_le ih

theorem Valid.apply (hv : t.Valid o) (ho : o.BuiltIn) (m : Message) (now : Nat) :
    (t.apply o m now).value.Valid o ∧
      t.context.nextSeq ≤ (t.apply o m now).value.context.nextSeq := by
  have hmoves : Moves o (fun _ => True) t (t.apply o m now).events (t.apply o m now).value :=
    moves_apply hv ho fun _ _ => trivial
  exact ⟨hmoves.valid hv, hmoves.nextSeq_le⟩

theorem le_of_mem_created (ho : o.BuiltIn) (hv : t.Valid o) {p : Nat × Nat}
    (hp : p ∈ created o t ms) : t.context.nextSeq ≤ p.2 := by
  induction ms generalizing t with
  | nil => cases hp
  | cons x ms ih =>
    obtain ⟨hv', hle⟩ := hv.apply ho x.1 x.2
    unfold created at hp
    dsimp only at hp
    split at hp
    · exact Nat.le_trans hle (ih hv' hp)
    · rcases List.mem_cons.1 hp with rfl | hp
      · exact Nat.le_refl _
      · exact Nat.le_trans hle (ih hv' hp)

/-- No number is handed out twice. -/
theorem nodup_created (ho : o.BuiltIn) (hv : t.Valid o) (ms : List (Message × Nat)) :
    ((created o t ms).map (·.2)).Nodup := by
  induction ms generalizing t with
  | nil => exact List.nodup_nil
  | cons x ms ih =>
    obtain ⟨hv', hle⟩ := hv.apply ho x.1 x.2
    unfold created
    dsimp only
    split
    · exact ih hv'
    · next hnew =>
      refine List.nodup_cons.2 ⟨fun hmem => ?_, ih hv'⟩
      -- later numbers are above the counter as it is after the message
      obtain ⟨p, hp, hpq⟩ := List.mem_map.1 hmem
      have hlater := le_of_mem_created ho hv' hp
      dsimp only at hpq
      omega

theorem numbersOf_cons (p : Nat × Nat) (ns : List (Nat × Nat)) :
    numbersOf (p :: ns) a = (if p.1 = a then [p.2] else []) ++ numbersOf ns a := by
  by_cases h : p.1 = a <;> simp [numbersOf, h]

theorem mem_numbersOf : q ∈ numbersOf ns a ↔ (a, q) ∈ ns := by
  simp [numbersOf]

theorem lt_unused (h : (a, q) ∈ ns) (i : Nat) : q < unused ns i := by
  have := List.le_sum_of_mem (List.mem_map_of_mem (f := (·.2)) h)
  dsimp only at this
  unfold unused
  omega

theorem place_cases (ns : List (Nat × Nat)) (a k : Nat) :
    ((numbersOf ns a)[k]? = some (place ns a k) ∧ (a, place ns a k) ∈ ns) ∨
      place ns a k = unused ns (2 * Nat.pair a k) := by
  unfold place
  cases h : (numbersOf ns a)[k]? with
  | none => exact Or.inr rfl
  | some q => exact Or.inl ⟨rfl, mem_numbersOf.1 (List.mem_of_getElem? h)⟩

theorem place_ne_unused (ns : List (Nat × Nat)) (a k i : Nat) :
    place ns a k ≠ unused ns (2 * i + 1) := by
  rcases place_cases ns a k with ⟨-, hmem⟩ | heq
  · exact Nat.ne_of_lt (lt_unused hmem _)
  · rw [heq]
    unfold unused
    omega

/-- Different entries have different places. -/
theorem place_inj (hn : (ns.map (·.2)).Nodup) (h : place ns a k = place ns b l) :
    a = b ∧ k = l := by
  rcases place_cases ns a k with ⟨hk, hmem⟩ | heq <;>
    rcases place_cases ns b l with ⟨hl, hmem'⟩ | heq'
  · rw [← h] at hl hmem'
    have hab : a = b := congrArg Prod.fst (List.inj_on_of_nodup_map hn hmem hmem' rfl)
    subst hab
    have hnodup : (numbersOf ns a).Nodup := hn.sublist (List.filter_sublist.map _)
    have hlt := (List.getElem?_eq_some_iff.1 hk).1
    exact ⟨rfl, (List.getElem?_inj hlt hnodup).1 (hk.trans hl.symm)⟩
  · exact absurd (h.trans heq') (Nat.ne_of_lt (lt_unused hmem _))
  · exact absurd (h.symm.trans heq) (Nat.ne_of_lt (lt_unused hmem' _))
  · have hpair : Nat.pair a k = Nat.pair b l := by
      rw [heq, heq'] at h
      unfold unused at h
      omega
    exact Nat.pair_eq_pair.1 hpair

theorem place_injective (hn : (ns.map (·.2)).Nodup) :
    Function.Injective fun p : Nat × Nat => place ns p.1 p.2 := fun _ _ h =>
  Prod.ext (place_inj hn h).1 (place_inj hn h).2

/-! ### One thread among the others -/

theorem seen_zeroth (owner : String → Nat) (a : Nat) {n n' : Nat} (h : r.session n = n') :
    Seen r owner a (zeroth n) (fresh n') :=
  ⟨h.symm, rfl, rfl⟩

/-- What is emitted for the messages of a thread among the others is what is emitted for them when
the thread is alone. -/
theorem trace_emittedFor (ho : o.BuiltIn) (hs : s.Valid o) (ht : t.Valid o)
    (hseen : Seen r owner a s t) (hown : Owned owner s) (hown' : Owned owner t)
    (hc : ∀ x ∈ ms, ∀ c, x.1.artifact? = some c → owner c = x.1.thread)
    (hnew : ∀ k q, (numbersOf (created o t ms) a)[k]? = some q →
      q = r.entry (s.context.nextSeq + k)) :
    trace (emittedFor o a t ms) = (trace (emittedFor o a s (alone a ms))).map (·.renumber r) := by
  induction ms generalizing s t with
  | nil => rfl
  | cons x ms ih =>
    obtain ⟨m, now⟩ := x
    obtain ⟨hm, hms⟩ := List.forall_mem_cons.1 hc
    obtain ⟨ht', -⟩ := ht.apply ho m now
    have hconf := confined_apply ht hown' hm now
    have hcreated : created o t ((m, now) :: ms) =
        if (t.apply o m now).value.context.nextSeq = t.context.nextSeq
        then created o (t.apply o m now).value ms
        else (m.thread, t.context.nextSeq) :: created o (t.apply o m now).value ms := rfl
    by_cases ha : m.thread = a
    · subst ha
      obtain ⟨hs', -⟩ := hs.apply ho m 0
      have hagree := agree_apply ho hseen hown hown' hm 0 now fun hne => by
        refine hnew 0 _ ?_
        rw [hcreated, if_neg hne, numbersOf_cons, if_pos rfl]
        rfl
      have halone : alone m.thread ((m, now) :: ms) = (m, 0) :: alone m.thread ms := by simp [alone]
      have hrest := ih hs' ht' hagree.seen (confined_apply hs hown hm 0).owned hconf.owned hms ?_
      · rw [halone, emittedFor, emittedFor, if_pos rfl, if_pos rfl, trace_append, trace_append,
          List.map_append, hagree.events, hrest]
      · intro k q hk
        rcases hagree.numbers with ⟨hs₀, ht₀⟩ | ⟨hs₁, ht₁⟩
        · rw [hcreated, if_pos ht₀] at hnew
          rw [hs₀]
          exact hnew k q hk
        · rw [hcreated, if_neg (by omega), numbersOf_cons, if_pos rfl] at hnew
          rw [hs₁, Nat.add_right_comm, Nat.add_assoc]
          exact hnew (k + 1) q hk
    · have halone : alone a ((m, now) :: ms) = alone a ms := by simp [alone, ha]
      rw [halone, emittedFor, if_neg ha, List.nil_append]
      refine ih hs ht' (hseen.confined hconf (Ne.symm ha)) hown hconf.owned hms fun k q hk => ?_
      refine hnew k q ?_
      rw [hcreated]
      split
      · exact hk
      · rwa [numbersOf_cons, if_neg ha, List.nil_append]

/-! ### Two interleavings -/

/-- Entries at the same place can be given the numbers that they have in another sequence. -/
theorem exists_place_to_place (hn : (ns.map (·.2)).Nodup) (hn' : (ns'.map (·.2)).Nodup) :
    ∃ f : Nat → Nat, Function.Injective f ∧ ∀ a k, f (place ns a k) = place ns' a k := by
  have hinj := place_injective hn
  -- numbers that are no places go above those that are
  let f := Function.extend (fun p : Nat × Nat => place ns p.1 p.2)
    (fun p => place ns' p.1 p.2) fun q => unused ns' (2 * q + 1)
  have hplace : ∀ a k, f (place ns a k) = place ns' a k := fun a k =>
    hinj.extend_apply _ _ (a, k)
  refine ⟨f, fun q q' h => ?_, hplace⟩
  by_cases hq : ∃ p : Nat × Nat, place ns p.1 p.2 = q
  · obtain ⟨⟨a, k⟩, rfl⟩ := hq
    rw [hplace] at h
    by_cases hq' : ∃ p : Nat × Nat, place ns p.1 p.2 = q'
    · obtain ⟨⟨b, l⟩, rfl⟩ := hq'
      rw [hplace] at h
      obtain ⟨rfl, rfl⟩ := place_inj hn' h
      rfl
    · rw [show f q' = _ from Function.extend_apply' _ _ _ hq'] at h
      exact absurd h (place_ne_unused ns' a k q')
  · rw [show f q = _ from Function.extend_apply' _ _ _ hq] at h
    by_cases hq' : ∃ p : Nat × Nat, place ns p.1 p.2 = q'
    · obtain ⟨⟨b, l⟩, rfl⟩ := hq'
      rw [hplace] at h
      exact absurd h.symm (place_ne_unused ns' b l q)
    · rw [show f q' = _ from Function.extend_apply' _ _ _ hq'] at h
      unfold unused at h
      omega

/-- Every artifact belongs to the one thread that fetches it. -/
theorem exists_owner {family : Nat → List Message} (h : SharesNoArtifact family) :
    ∃ owner : String → Nat, ∀ a, ∀ m ∈ family a, ∀ c, m.artifact? = some c → owner c = a := by
  have hone : ∀ c, ∃ b, ∀ a, ∀ m ∈ family a, m.artifact? = some c → b = a := by
    intro c
    by_cases hused : ∃ b, ∃ m ∈ family b, m.artifact? = some c
    · obtain ⟨b, m, hm, hc⟩ := hused
      exact ⟨b, fun a m' hm' hc' => h b a m hm m' hm' c hc hc'⟩
    · exact ⟨0, fun a m hm hc => absurd ⟨a, m, hm, hc⟩ hused⟩
  choose owner howner using hone
  exact ⟨owner, fun a m hm c hc => howner c a m hm hc⟩

/-- A thread among the others, in one interleaving. -/
theorem trace_emittedFor_interleaved (ho : o.BuiltIn) {family : Nat → List Message}
    (howner : ∀ a, ∀ m ∈ family a, ∀ c, m.artifact? = some c → owner c = a)
    (h : Interleaves family ms) {n n' : Nat} (hr : r.session n = n')
    (hplace : ∀ k, r.entry k = place (created o (fresh n') ms) a k) :
    trace (emittedFor o a (fresh n') ms) =
      (trace (emittedFor o a (zeroth n) ((family a).map (·, 0)))).map (·.renumber r) := by
  have hvalid : (zeroth n).Valid o :=
    ⟨⟨fun _ he => absurd he List.not_mem_nil, List.nodup_nil⟩, List.nodup_nil,
      fun _ hd => absurd hd List.not_mem_nil⟩
  have hthread : ∀ x ∈ ms, x.1 ∈ family x.1.thread := by
    intro x hx
    rw [← h, List.mem_filter]
    exact ⟨List.mem_map_of_mem hx, beq_self_eq_true _⟩
  rw [← h a]
  refine trace_emittedFor ho hvalid (valid_fresh o n') (seen_zeroth owner a hr)
    (fun _ hd => absurd hd List.not_mem_nil) (fun _ hd => absurd hd List.not_mem_nil)
    (fun x hx c => howner _ x.1 (hthread x hx) c) fun k q hk => ?_
  rw [show (zeroth n).context.nextSeq + k = k from Nat.zero_add k, hplace, place, hk]
  rfl

end

/-! ## Top theorems -/

/-- In two interleavings of the messages of the same threads, of which no two fetch the same
artifact, the entries and downloads that start and finish for the messages of a thread are the same,
in the same order, up to the times and to the numbers of the entries. -/
theorem emittedFor_interleavings {o : Options} (ho : o.BuiltIn) {family : Nat → List Message}
    (hcoords : SharesNoArtifact family) {xs ys : List (Message × Nat)}
    (hx : Interleaves family xs) (hy : Interleaves family ys) (n n' : Nat) :
    ∃ r : Renumbering, r.session n = n' ∧ ∀ a,
      trace (emittedFor o a (fresh n') ys) =
        (trace (emittedFor o a (fresh n) xs)).map (·.renumber r) := by
  obtain ⟨owner, howner⟩ := exists_owner hcoords
  have hnx := nodup_created ho (valid_fresh o n) xs
  have hny := nodup_created ho (valid_fresh o n') ys
  obtain ⟨f, hf, hplace⟩ := exists_place_to_place hnx hny
  have hinj : ∀ {ns : List (Nat × Nat)} (a : Nat), (ns.map (·.2)).Nodup →
      Function.Injective (place ns a) := fun _ hn _ _ h => (place_inj hn h).2
  let σ := Equiv.swap n n'
  have hσ : σ n = n' := Equiv.swap_apply_left n n'
  refine ⟨⟨σ, f, σ.injective, hf⟩, hσ, fun a => ?_⟩
  -- from the thread alone to the one interleaving, and to the other
  let rx : Renumbering := ⟨id, place (created o (fresh n) xs) a, Function.injective_id, hinj a hnx⟩
  let ry : Renumbering := ⟨σ, place (created o (fresh n') ys) a, σ.injective, hinj a hny⟩
  have hxs : trace (emittedFor o a (fresh n) xs) = _ :=
    trace_emittedFor_interleaved (r := rx) ho howner hx rfl fun _ => rfl
  have hys : trace (emittedFor o a (fresh n') ys) = _ :=
    trace_emittedFor_interleaved (r := ry) ho howner hy hσ fun _ => rfl
  rw [hys, hxs, List.map_map]
  refine List.map_congr_left fun e _ => ?_
  exact (Event.renumber_renumber (fun _ => rfl) (hplace a) e).symm

/-- Two projects on two threads, one after the other in the one sequence and side by side in the
other; one of them fetches an artifact. -/
theorem emittedFor_interleavings_projects :
    let o : Options := ⟨"build", "Downloading dependencies", []⟩
    let app : Message := ⟨1, .projectStarted, [("id", "app")]⟩
    let fetch : Message := ⟨1, .artifactDownloading, [("artifactCoord", "g:a:1")]⟩
    let appDone : Message := ⟨1, .projectSucceeded, [("id", "app")]⟩
    let lib : Message := ⟨2, .projectStarted, [("id", "lib")]⟩
    let libDone : Message := ⟨2, .projectSkipped, [("id", "lib")]⟩
    let family : Nat → List Message := fun a =>
      if a = 1 then [app, fetch, appDone] else if a = 2 then [lib, libDone] else []
    let xs := [(app, 0), (fetch, 0), (appDone, 0), (lib, 0), (libDone, 0)]
    let ys := [(lib, 5), (app, 6), (fetch, 6), (libDone, 7), (appDone, 9)]
    (o.BuiltIn ∧ SharesNoArtifact family ∧ Interleaves family xs ∧ Interleaves family ys) ∧
    ∃ r : Renumbering, r.session 1 = 1 ∧ ∀ a,
      trace (emittedFor o a (fresh 1) ys) =
        (trace (emittedFor o a (fresh 1) xs)).map (·.renumber r) := by
  intro o app fetch appDone lib libDone family xs ys
  have ho : o.BuiltIn := fun m hm => absurd hm List.not_mem_nil
  have hfetch : ∀ a, ∀ m ∈ family a, ∀ c, m.artifact? = some c → a = 1 := by
    intro a m hm c hc
    by_contra ha
    have hlib : m ∈ [lib, libDone] := by
      simp only [family, if_neg ha] at hm
      split at hm
      · exact hm
      · cases hm
    rcases List.mem_pair.1 hlib with rfl | rfl <;> cases hc
  have hcoords : SharesNoArtifact family := fun a b m hm m' hm' c hc hc' =>
    (hfetch a m hm c hc).trans (hfetch b m' hm' c hc').symm
  have hinterleaves : ∀ {ms : List (Message × Nat)}, (∀ x ∈ ms, x.1.thread = 1 ∨ x.1.thread = 2) →
      (ms.map (·.1)).filter (·.thread == 1) = family 1 →
      (ms.map (·.1)).filter (·.thread == 2) = family 2 → Interleaves family ms := by
    intro ms hms h1 h2 a
    by_cases ha1 : a = 1
    · rw [ha1, h1]
    · by_cases ha2 : a = 2
      · rw [ha2, h2]
      · simp only [family, if_neg ha1, if_neg ha2, List.filter_eq_nil_iff, List.mem_map]
        rintro _ ⟨x, hx, rfl⟩
        rcases hms x hx with h | h <;> simp [h, Ne.symm ha1, Ne.symm ha2]
  have hx : Interleaves family xs := hinterleaves (by decide) rfl rfl
  have hy : Interleaves family ys := hinterleaves (by decide) rfl rfl
  exact ⟨⟨ho, hcoords, hx, hy⟩, emittedFor_interleavings ho hcoords hx hy 1 1⟩

end Tracker

end BuildTree
