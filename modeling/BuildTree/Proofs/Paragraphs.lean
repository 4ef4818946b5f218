import BuildTree.Proofs.Turns
import Mathlib.Data.List.TakeWhile

/-!
# Diagnostics line by line and as one block

The errors of the Java compiler come twice: line by line in the output, behind the mark of errors,
and as one block with the failure of the goal.  The output is read with a look ahead that gives
back the first line that does not continue; the block is read in one pass that adds to the newest
diagnostic.  Of the same paragraphs, each a diagnostic with indented lines below it, both make the
same errors.

    diagnostics (joined ps)                  = ps.map diagnostic          (diagnostics_joined)
    errors of parseAll for logged ps         = ps.map error               (Ready.errors_parseAll)
-/

namespace BuildTree

open Text Execution

/-! ## Algorithm -/

/-- A text without line feeds and carriage returns. -/
def Text.OneLine (s : List Char) : Prop := '\n' ∉ s ∧ '\r' ∉ s

instance (s : List Char) : Decidable (OneLine s) := inferInstanceAs (Decidable (_ ∧ _))

/-- Title, text and position of an error. -/
def Event.error? : Event → Option (String × String × Option Position)
  | .message _ .error title text position => some (title, text, position)
  | _ => none

namespace Events

/-- The errors among some events, without what they hang under. -/
def errors (es : List Event) : List (String × String × Option Position) := es.filterMap Event.error?

end Events

namespace Javac

/-- A diagnostic of the Java compiler with indented lines below it. -/
structure Paragraph where
  head : String
  found : Diagnostic
  more : List String := []
  reads : parse? head = some found
  unindented : startsBlank head.toList = false
  memory : isOutOfMemory head = false
  indented : ∀ t ∈ more, startsBlank t.toList = true ∧ allBlank t.toList = false
  unread : ∀ t ∈ more, parse? t = none
  oneLine : ∀ t ∈ head :: more, OneLine t.toList

namespace Paragraph

def texts (p : Paragraph) : List String := p.head :: p.more

/-- The lines below the diagnostic, trimmed. -/
def below (p : Paragraph) : List String := p.more.map fun t => String.ofList (trim t.toList)

/-- The diagnostic with the lines below it. -/
def diagnostic (p : Paragraph) : Diagnostic := p.found.extend p.below

def error (p : Paragraph) : String × String × Option Position :=
  (Diagnostic.title p.diagnostic.message, p.diagnostic.message, some p.diagnostic.position)

end Paragraph

/-- A text as a line of the output. -/
def log (text : String) : String := Level.error.mark ++ text

/-- Paragraphs as lines of the output. -/
def logged (ps : List Paragraph) : List String := (ps.flatMap Paragraph.texts).map log

/-- Paragraphs as one block of text. -/
def joined (ps : List Paragraph) : String := "\n".intercalate (ps.flatMap Paragraph.texts)

end Javac

/-! ## Lines of a text -/

namespace Text

variable {s t : List Char} {c : Char}

theorem oneLine_cons : OneLine (c :: s) ↔ isLineEnd c = false ∧ OneLine s := by
  simp only [OneLine, isLineEnd, List.mem_cons, not_or, Bool.or_eq_false_iff, beq_eq_false_iff_ne,
    ne_comm (a := c)]
  exact and_and_and_comm

theorem OneLine.isLineEnd (h : OneLine s) (hc : c ∈ s) : isLineEnd c = false := by
  induction s with
  | nil => cases hc
  | cons d s ih =>
    obtain ⟨hd, hs⟩ := oneLine_cons.1 h
    rcases List.mem_cons.1 hc with rfl | hc
    · exact hd
    · exact ih hs hc

/-- What a terminal shows of one line is the line. -/
theorem OneLine.shownChars_eq (h : OneLine s) : Line.shownChars s = s := by
  have hreturn : ∀ c ∈ s.reverse, (c != '\r') = true := by
    intro c hc
    have hne : c ≠ '\r' := fun heq => h.2 (heq ▸ List.mem_reverse.1 hc)
    simpa using hne
  rw [Line.shownChars, chomp_eq_self fun c hc => h.isLineEnd (List.mem_of_getLast? hc),
    List.takeWhile_eq_self_iff.2 hreturn, List.reverse_reverse]

theorem lines_cons (hc : Text.isLineEnd c = false) (s : List Char) :
    lines (c :: s) = match lines s with
      | [] => [[c]]
      | l :: ls => (c :: l) :: ls := by
  conv => lhs; unfold lines
  split
  · next h => cases h
  · next h =>
    obtain ⟨rfl, -⟩ := List.cons.inj h
    cases hc
  · next h =>
    obtain ⟨rfl, -⟩ := List.cons.inj h
    cases hc
  · next h =>
    obtain ⟨rfl, rfl⟩ := List.cons.inj h
    rfl

theorem lines_append_lineFeed (ht : OneLine t) (s : List Char) :
    lines (t ++ '\n' :: s) = t :: lines s := by
  induction t with
  | nil => rw [List.nil_append, lines]
  | cons c t ih =>
    obtain ⟨hc, ht⟩ := oneLine_cons.1 ht
    rw [List.cons_append, lines_cons hc, ih ht]

theorem lines_eq_singleton (ht : OneLine t) (hne : t ≠ []) : lines t = [t] := by
  induction t with
  | nil => exact absurd rfl hne
  | cons c t ih =>
    obtain ⟨hc, ht⟩ := oneLine_cons.1 ht
    rw [lines_cons hc]
    cases t with
    | nil => rfl
    | cons d t => rw [ih ht (List.cons_ne_nil d t)]

/-- Texts of one line each, none empty, are the lines of the text that they make up. -/
theorem lines_intercalate {ts : List (List Char)} (h : ∀ t ∈ ts, t ≠ [] ∧ OneLine t) :
    lines (List.intercalate ['\n'] ts) = ts := by
  induction ts with
  | nil => rfl
  | cons t ts ih =>
    obtain ⟨⟨hne, ht⟩, hts⟩ := List.forall_mem_cons.1 h
    cases ts with
    | nil => rw [List.intercalate_singleton, lines_eq_singleton ht hne]
    | cons u us =>
      rw [List.intercalate_cons_cons, List.append_assoc, List.singleton_append,
        lines_append_lineFeed ht, ih hts]

end Text

/-! ## Blocks -/

@[simp] theorem Diagnostic.extend_extend (d : Diagnostic) (xs ys : List String) :
    (d.extend xs).extend ys = d.extend (xs ++ ys) := by
  simp only [extend, List.foldl_append]

namespace Javac

variable {p : Paragraph} {ps : List Paragraph}

theorem Paragraph.ne_nil {t : String} (h : t ∈ p.texts) : t.toList ≠ [] := by
  intro hnil
  rcases List.mem_cons.1 h with rfl | h
  · have hreads := p.reads
    rw [parse?, hnil] at hreads
    cases hreads
  · have hindented := (p.indented t h).1
    rw [hnil] at hindented
    cases hindented

/-- Indented lines go to the newest diagnostic. -/
theorem foldl_addLine_more {more : List String}
    (hindented : ∀ t ∈ more, startsBlank t.toList = true ∧ allBlank t.toList = false)
    (hunread : ∀ t ∈ more, parse? t = none) (d : Diagnostic) (ds : List Diagnostic) :
    (more.map String.toList).foldl Block.addLine (d :: ds) =
      d.extend (more.map fun t => String.ofList (trim t.toList)) :: ds := by
  induction more generalizing d with
  | nil => rfl
  | cons t more ih =>
    obtain ⟨⟨hstarts, hblank⟩, hindented⟩ := List.forall_mem_cons.1 hindented
    obtain ⟨ht, hunread⟩ := List.forall_mem_cons.1 hunread
    have hadd : Block.addLine (d :: ds) t.toList =
        d.extend [String.ofList (trim t.toList)] :: ds := by
      simp [Block.addLine, ht, hstarts, hblank]
    rw [List.map_cons, List.foldl_cons, hadd, ih hindented hunread, Diagnostic.extend_extend]
    rfl

theorem Paragraph.foldl_addLine (p : Paragraph) (ds : List Diagnostic) :
    (p.texts.map String.toList).foldl Block.addLine ds = p.diagnostic :: ds := by
  have hadd : Block.addLine ds p.head.toList = p.found :: ds := by
    simp [Block.addLine, p.reads]
  rw [texts, List.map_cons, List.foldl_cons, hadd, foldl_addLine_more p.indented p.unread]
  rfl

theorem foldl_addLine_texts (ps : List Paragraph) (ds : List Diagnostic) :
    ((ps.flatMap Paragraph.texts).map String.toList).foldl Block.addLine ds =
      (ps.map Paragraph.diagnostic).reverse ++ ds := by
  induction ps generalizing ds with
  | nil => rfl
  | cons p ps ih =>
    rw [List.flatMap_cons, List.map_append, List.foldl_append, p.foldl_addLine, ih]
    simp

theorem lines_joined (ps : List Paragraph) :
    lines (joined ps).toList = (ps.flatMap Paragraph.texts).map String.toList := by
  rw [joined, String.toList_intercalate]
  refine lines_intercalate fun t ht => ?_
  obtain ⟨text, htext, rfl⟩ := List.mem_map.1 ht
  obtain ⟨p, -, hp⟩ := List.mem_flatMap.1 htext
  exact ⟨p.ne_nil hp, p.oneLine text hp⟩

/-- A block of paragraphs has one diagnostic for each. -/
theorem diagnostics_joined (ps : List Paragraph) :
    Block.diagnostics (joined ps) = ps.map Paragraph.diagnostic := by
  rw [Block.diagnostics, lines_joined, foldl_addLine_texts, List.append_nil, List.reverse_reverse]

theorem errors_joined (parent : EventId) (ps : List Paragraph) :
    Events.errors (Block.tryConsume parent (joined ps)).events = ps.map Paragraph.error := by
  rw [Block.tryConsume, diagnostics_joined, Events.errors, List.map_map, List.filterMap_map]
  exact congrFun List.filterMap_eq_map ps

/-! ## Lines of the output -/

section
variable {t : String} (ht : OneLine t.toList)
include ht

theorem classify_log : Line.classify (log t) = ⟨some .error, t⟩ := by
  have hlog : OneLine (log t).toList := by
    obtain ⟨hfeed, hreturn⟩ := ht
    exact ⟨by simp [log, Level.mark, hfeed], by simp [log, Level.mark, hreturn]⟩
  rw [Line.classify_some_iff, Line.shown, hlog.shownChars_eq, String.ofList_toList, log]

theorem follows_log :
    Line.follows (some .error) (log t) = (startsBlank t.toList && !allBlank t.toList) := by
  simp [Line.follows, Line.continues, classify_log ht]

theorem extra_log : Line.extra (log t) = String.ofList (trim t.toList) := by
  rw [Line.extra, Line.trimmed, classify_log ht]

end

theorem isSpyLine_log (t : String) : Spy.isSpyLine (log t) = false := by
  simp [Spy.isSpyLine, Spy.lineMark, log, Level.mark, after?]

theorem isBlank_log (t : String) : Line.isBlank (log t) = false := by
  have hbracket : isBlank '[' = false := by decide
  simp [Line.isBlank, log, Level.mark, allBlank, hbracket]

theorem logged_cons (p : Paragraph) (ps : List Paragraph) :
    logged (p :: ps) = log p.head :: (p.more.map log ++ logged ps) := by
  simp [logged, Paragraph.texts]

/-- The look ahead stops at the next paragraph. -/
theorem takeWhile_logged (ps : List Paragraph) :
    (logged ps).takeWhile (Line.follows (some .error)) = [] ∧
    (logged ps).dropWhile (Line.follows (some .error)) = logged ps := by
  cases ps with
  | nil => exact ⟨rfl, rfl⟩
  | cons p ps =>
    have hhead : ¬ Line.follows (some .error) (log p.head) = true := by
      rw [follows_log (p.oneLine p.head List.mem_cons_self), p.unindented]
      simp
    rw [logged_cons, List.takeWhile_cons_of_neg hhead, List.dropWhile_cons_of_neg hhead]
    exact ⟨rfl, rfl⟩

/-- The look ahead behind the head of a paragraph takes the rest of the paragraph. -/
theorem readContinuation_logged (p : Paragraph) {ps : List Paragraph} {cursor : Cursor}
    (hc : cursor.pending = p.more.map log ++ logged ps) :
    (cursor.readContinuation (some .error)).1 = p.below ∧
    (cursor.readContinuation (some .error)).2.pending = logged ps := by
  have hmore : ∀ t ∈ p.more, OneLine t.toList :=
    fun t ht => p.oneLine t (List.mem_cons_of_mem _ ht)
  have hfollows : ∀ raw ∈ p.more.map log, Line.follows (some .error) raw = true := by
    intro raw hraw
    obtain ⟨t, ht, rfl⟩ := List.mem_map.1 hraw
    obtain ⟨hstarts, hblank⟩ := p.indented t ht
    rw [follows_log (hmore t ht), hstarts, hblank]
    rfl
  obtain ⟨htexts, hrest⟩ := cursor.readContinuation_eq (some .error)
  obtain ⟨htake, hdrop⟩ := takeWhile_logged ps
  rw [hc, List.takeWhile_append_of_pos hfollows, htake, List.append_nil, List.map_map] at htexts
  rw [hc, List.dropWhile_append_of_pos hfollows, hdrop] at hrest
  refine ⟨htexts.trans (List.map_congr_left fun t ht => ?_), hrest⟩
  exact extra_log (hmore t ht)

/-! ## Two paragraphs -/

/-- With a line below that says more. -/
def Paragraph.missingSymbol : Paragraph where
  head := "/src/A.java:[3,8] cannot find symbol"
  found := ⟨⟨"/src/A.java", some 3, some 8⟩, "cannot find symbol"⟩
  more := ["  symbol: class X"]
  reads := by decide +kernel
  unindented := by decide
  memory := by decide +kernel
  indented := by decide
  unread := by decide +kernel
  oneLine := by decide

def Paragraph.missingSemicolon : Paragraph where
  head := "/src/B.java:[9] ';' expected"
  found := ⟨⟨"/src/B.java", some 9, none⟩, "';' expected"⟩
  reads := by decide +kernel
  unindented := by decide
  memory := by decide +kernel
  indented := by decide
  unread := by decide
  oneLine := by decide

end Javac

/-! ## Sessions -/

namespace LineMatcher

/-- The matcher for the Java compiler comes first. -/
def JavacFirst (ms : List LineMatcher) : Prop := ∃ tally ks, ms = .javac tally :: ks

theorem stays_javacFirst : Session.Stays JavacFirst where
  offer context parent line cursor h := by
    obtain ⟨tally, ks, rfl⟩ := h
    unfold offer
    split
    · simp only [Emits.value_bind]
      split <;> exact ⟨_, _, rfl⟩
    · exact ⟨_, _, rfl⟩
  finalizeAll session h := by
    obtain ⟨tally, ks, rfl⟩ := h
    exact ⟨_, _, rfl⟩

theorem javacFirst_builtIn (kotlin : Bool) : JavacFirst (builtIn true kotlin) := ⟨_, _, rfl⟩

/-- A diagnostic among the errors is reported with what continues it, by the first matcher. -/
theorem offer_javac {text : String} {d : Diagnostic} (hmemory : Javac.isOutOfMemory text = false)
    (hreads : Javac.parse? text = some d) (tally : Javac.Tally) (ks : List LineMatcher)
    (context : Context) (parent : EventId) (cursor : Cursor) :
    offer context parent ⟨some .error, text⟩ cursor (.javac tally :: ks) =
      ⟨(true, .javac (tally.count .error) :: ks, (cursor.readContinuation (some .error)).2),
        [Javac.report parent ⟨some .error, text⟩ d (cursor.readContinuation (some .error)).1],
        []⟩ := by
  simp only [offer, supports, Javac.supports, tryConsume, Javac.tryConsume, hmemory, hreads]
  rfl

end LineMatcher

namespace Session

open Events Javac

variable {o : Setup} {s : Session}

/-- The session runs, and diagnostics of the Java compiler are reported. -/
structure Ready (s : Session) : Prop where
  phase : s.phase = .active
  first : LineMatcher.JavacFirst s.matchers

theorem errors_append (es fs : List Event) : errors (es ++ fs) = errors es ++ errors fs :=
  List.filterMap_append

theorem errors_forward (c : Context) (raw : String) : errors (forward c raw).events = [] := by
  rw [errors, List.filterMap_eq_nil_iff]
  intro e he
  obtain ⟨i, -, rfl⟩ := List.mem_map.1 he
  rfl

/-- A session takes a paragraph as a whole, and makes one error of it. -/
theorem Ready.parseLine (h : s.Ready) (p : Paragraph) {ps : List Paragraph} {cursor : Cursor}
    (hc : cursor.pending = p.more.map log ++ logged ps) :
    let x := s.parseLine o (log p.head) cursor
    errors x.events = [p.error] ∧ x.value.2.1.Ready ∧ x.value.2.2.pending = logged ps := by
  obtain ⟨tally, ks, hms⟩ := h.first
  have hticked : s.ticked.matchers = .javac tally :: ks := hms
  obtain ⟨htexts, hrest⟩ := readContinuation_logged p hc
  have hclass := classify_log (p.oneLine p.head List.mem_cons_self)
  have hoffer : s.ticked.offerLine (log p.head) cursor =
      ⟨(true, .javac (tally.count .error) :: ks, (cursor.readContinuation (some .error)).2),
        [report s.ticked.context.currentId ⟨some .error, p.head⟩ p.found
          (cursor.readContinuation (some .error)).1], []⟩ := by
    rw [offerLine, hclass, hticked]
    exact LineMatcher.offer_javac p.memory p.reads tally ks ..
  have hforward : errors (if o.forward then
      (forward s.ticked.context (log p.head)).events else []) = [] := by
    split
    · exact errors_forward ..
    · rfl
  rw [parseLine_plain h.phase (isSpyLine_log p.head) (isBlank_log p.head)]
  simp only [events_plainLine, value_plainLine, errors_append, hforward, hoffer, htexts]
  exact ⟨rfl, ⟨h.phase, _, _, rfl⟩, hrest⟩

theorem Ready.errors_parseAll (h : s.Ready) {ps : List Paragraph} {cursor : Cursor}
    (hc : cursor.pending = logged ps) :
    errors (s.parseAll o cursor).events = ps.map Paragraph.error := by
  induction ps generalizing s cursor with
  | nil =>
    rw [parseAll_of_end (Cursor.next?_eq_none_iff.2 hc)]
    rfl
  | cons p ps ih =>
    obtain ⟨rest, hnext, hpending, -⟩ := Cursor.exists_next? (hc.trans (logged_cons p ps))
    obtain ⟨herror, hready, hrest⟩ := h.parseLine (o := o) p hpending
    rw [parseAll_of_next hnext, Emits.events_bind, Emits.events_map, Emits.value_map,
      errors_append, herror, ih hready hrest]
    rfl

/-! ## Top theorems -/

/-- Paragraphs given line by line, as errors of the output, to any running session with the
matcher for the Java compiler make the same errors, up to what they hang under, as the same
paragraphs given in one block to the matcher for failed compilations: one for each. -/
theorem errors_logged_eq_joined (o : Setup) (settings : Settings) (context c : Context)
    (cs : List Call) (parent : EventId) (ps : List Paragraph)
    (hjavac : settings.matchers.javac = true)
    (hactive : ((start settings context).calls o cs).value.phase = .active) :
    let s := ((start settings context).calls o cs).value
    let lined := s.parseAll o (.ofLines (logged ps))
    let block := ErrorMatcher.compilationFailure.tryConsume c parent (joined ps)
    errors lined.events = errors block.events ∧ errors block.events = ps.map Paragraph.error := by
  intro s lined block
  have hfirst : LineMatcher.JavacFirst (start settings context).matchers := by
    simpa [start, hjavac] using LineMatcher.javacFirst_builtIn settings.matchers.kotlin
  have hready : s.Ready := ⟨hactive, LineMatcher.stays_javacFirst.calls hfirst cs⟩
  have hblock : errors block.events = ps.map Paragraph.error := errors_joined parent ps
  exact ⟨(hready.errors_parseAll rfl).trans hblock.symm, hblock⟩

/-- The session has parsed an error before. -/
theorem errors_logged_two_paragraphs :
    let ps := [Paragraph.missingSymbol, Paragraph.missingSemicolon]
    let o := Setup.ofSettings {} fun _ => 0
    let s := ((start {} (.fresh 1)).calls o [.line "[ERROR] C.java:[1,1] no class" .empty]).value
    logged ps = ["[ERROR] /src/A.java:[3,8] cannot find symbol", "[ERROR]   symbol: class X",
      "[ERROR] /src/B.java:[9] ';' expected"] ∧
    joined ps = "/src/A.java:[3,8] cannot find symbol\n  symbol: class X\n" ++
      "/src/B.java:[9] ';' expected" ∧
    s.phase = .active ∧
    errors (s.parseAll o (.ofLines (logged ps))).events =
      [("cannot find symbol", "cannot find symbol\nsymbol: class X",
          some ⟨"/src/A.java", some 3, some 8⟩),
        ("';' expected", "';' expected", some ⟨"/src/B.java", some 9, none⟩)] := by
  intro ps o s
  have hactive : s.phase = .active := by decide +kernel
  have hsame := errors_logged_eq_joined o {} (.fresh 1) (.fresh 1)
    [.line "[ERROR] C.java:[1,1] no class" .empty] (.session 1) ps rfl hactive
  have herrors : ps.map Paragraph.error = [("cannot find symbol",
      "cannot find symbol\nsymbol: class X", some ⟨"/src/A.java", some 3, some 8⟩),
      ("';' expected", "';' expected", some ⟨"/src/B.java", some 9, none⟩)] := by
    decide +kernel
  exact ⟨by decide +kernel, by decide +kernel, hactive,
    (hsame.1.trans hsame.2).trans herrors⟩

end Session

end BuildTree
