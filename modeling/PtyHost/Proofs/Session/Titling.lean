import PtyHost.Proofs.Emulation.Captions
import PtyHost.Proofs.Session.Writes

/-!
# Titles from the owner and from output

The titles of a session are written by its owner, in four ways, and by its program, in output that
comes in any blocks. A title in the output is written with the block in which its command ends.

Main statement: `titles_last_written`.
-/

namespace PtyHost

namespace Escape

variable {body : Bytes}

/-- The command that an ESC and a bracket begin is collected. -/
theorem run_opened (h : ∀ b ∈ body, isHeld b = true) :
    run .escape (0x5D :: body) = (.command (printed body).reverse, []) := by
  have hrun := (run_of_isHeld [] h).1
  rw [List.append_nil] at hrun
  rw [run, documented.opens_command]
  dsimp only
  rw [hrun]
  rfl

/-- A command that is read is ended by a bell and by an ESC. -/
theorem run_ending (collected : Bytes) {ending : UInt8} (h : ending = bel ∨ ending = esc) :
    (run (.command collected) [ending]).2 = [closeCommand collected] := by
  rcases h with rfl | rfl
  · rw [run, documented.command_bel]
    rfl
  · rw [run, documented.command_esc]
    rfl

end Escape

namespace Session

open Emulation

/-- Something by which the titles of a session may be written: a call of the owner, or a block of
output. -/
inductive Titling
  | userTitle (what : UInt16) (caption : String)
  | title (caption : String)
  | iconText (caption : String)
  | iconName (caption : String)
  | output (block : Bytes)

/-- The output. -/
def Titling.block : Titling → Bytes
  | .output block => block
  | _ => []

/-- Whether something is a call of the owner. -/
def Titling.isCall : Titling → Bool
  | .output _ => false
  | _ => true

section

variable {ε : Type} [Emulation ε]

/-- Does it to a session. -/
def Titling.act (s : Session ε) : Titling → Traced ε
  | .userTitle what caption => s.setUserTitle what caption
  | .title caption => s.setTitle caption
  | .iconText caption => s.setIconText caption
  | .iconName caption => s.setIconName caption
  | .output block => s.feed block

/-- What it tells a session, and the emulation that goes on from there: a call writes one title, and
output does what the emulation reports of it. -/
def Titling.told (e : ε) : Titling → List Event × ε
  | .userTitle what caption => ([.userTitle what caption], e)
  | .title caption => ([.userTitle 30 caption], e)
  | .iconText caption => ([.userTitle 1 caption], e)
  | .iconName caption => ([.userTitle 32 caption], e)
  | .output block => Emulation.takeEvents (Emulation.receive e block)

/-- Does things to a session, one after the other. -/
def actAll (s : Session ε) (ops : List Titling) : Traced ε :=
  ops.foldl (fun t op ↦ t.andThen fun s ↦ op.act s) ⟨s, []⟩

/-- What things tell a session, one after the other. -/
def toldAll (e : ε) : List Titling → List Event × ε
  | [] => ([], e)
  | op :: ops =>
    ((op.told e).1 ++ (toldAll (op.told e).2 ops).1, (toldAll (op.told e).2 ops).2)

/-- Things are told in two parts. -/
theorem toldAll_append (e : ε) (first rest : List Titling) :
    toldAll e (first ++ rest) =
      ((toldAll e first).1 ++ (toldAll (toldAll e first).2 rest).1,
        (toldAll (toldAll e first).2 rest).2) := by
  induction first generalizing e with
  | nil => rfl
  | cons op first ih => simp [toldAll, ih]

/-- Calls tell the emulation nothing. -/
theorem toldAll_of_isCall (e : ε) {ops : List Titling} (h : ∀ op ∈ ops, op.isCall = true) :
    (toldAll e ops).2 = e ∧ inputs (toldAll e ops).1 = [] := by
  induction ops with
  | nil => exact ⟨rfl, rfl⟩
  | cons op ops ih =>
    rw [List.forall_mem_cons] at h
    obtain ⟨hemulation, hinputs⟩ := ih h.2
    cases op with
    | output => cases h.1
    | _ => exact ⟨hemulation, hinputs⟩

end

/-! ### What a clean tracker tells -/

section Tracker

variable {e : TitleTracker} {s : Session TitleTracker}

/-- A clean tracker stays clean, and it is told of no window size and no scroll lock. -/
theorem Titling.kept (h : e.IsClean) (op : Titling) :
    (op.told e).2.IsClean ∧ (op.told e).2.size = e.size ∧ (op.told e).2.held = e.held := by
  cases op with
  | output block =>
    refine ⟨TitleTracker.lasting_isClean.received e block h, ?_, ?_⟩
    · show (e.receive block).size = e.size
      rw [TitleTracker.receive_eq]
    · show (e.receive block).held = e.held
      rw [TitleTracker.receive_eq]
  | _ => exact ⟨h, rfl, rfl⟩

/-- A clean tracker stays clean, and it is told of no window size and no scroll lock. -/
theorem kept_toldAll (h : e.IsClean) (ops : List Titling) :
    (toldAll e ops).2.IsClean ∧ (toldAll e ops).2.size = e.size ∧
      (toldAll e ops).2.held = e.held := by
  induction ops generalizing e with
  | nil => exact ⟨h, rfl, rfl⟩
  | cons op ops ih =>
    obtain ⟨hclean, hsize, hheld⟩ := Titling.kept h op
    obtain ⟨hclean', hsize', hheld'⟩ := ih hclean
    exact ⟨hclean', hsize'.trans hsize, hheld'.trans hheld⟩

/-- Something that is done to a session does what it tells. -/
theorem Titling.settles (h : s.emulation.IsClean) (op : Titling) :
    Settles s (op.told s.emulation) (op.act s) := by
  cases op with
  | userTitle | title | iconText | iconName => exact settles_setUserTitle s _ _
  | output block => exact settles_feed_of_isClean h block

/-- Things that are done to a session do what they tell. -/
theorem settles_actAll (h : s.emulation.IsClean) (ops : List Titling) :
    Settles s (toldAll s.emulation ops) (s.actAll ops) := by
  induction ops using List.reverseRecOn with
  | nil => exact settles_nil s
  | append_singleton ops op ih =>
    have hclean : (s.actAll ops).session.emulation.IsClean := by
      rw [ih.emulation]
      exact (kept_toldAll h ops).1
    have hall := ih.trans (op.settles hclean)
    rw [ih.emulation] at hall
    rw [toldAll_append, toldAll, toldAll, List.append_nil]
    simpa [actAll, Traced.andThen] using hall

/-! ### Titles in the output -/

/-- Where the parser is behind a block. -/
theorem Titling.parser_told (e : TitleTracker) (op : Titling) :
    (op.told e).2.parser = (Escape.feed e.parser op.block).1 := by
  cases op with
  | output block =>
    show (e.receive block).parser = _
    rw [TitleTracker.receive_eq]
    rfl
  | _ =>
    have hnone : Escape.feed e.parser [] = (e.parser, []) := by
      rw [Escape.feed, Escape.heeded_nil]
      rfl
    exact (congrArg Prod.fst hnone).symm

/-- What a block tells is what the part of it reports that is heeded. -/
theorem Titling.told_output (h : e.reported = []) (block : Bytes) :
    ((Titling.output block).told e).1 = reports e.parser (Escape.heeded e.parser block) := by
  show (e.receive block).reported.reverse = _
  rw [TitleTracker.receive_eq, h, List.append_nil, List.reverse_reverse]
  rfl

/-- Where the parser is behind output of which no byte is lost. -/
theorem parser_of_keeps {ops : List Titling}
    (h : Escape.Keeps e.parser (ops.flatMap Titling.block)) :
    (toldAll e ops).2.parser = (Escape.run e.parser (ops.flatMap Titling.block)).1 := by
  induction ops generalizing e with
  | nil => rfl
  | cons op ops ih =>
    rw [List.flatMap_cons, Escape.keeps_append] at h
    have hparser : (op.told e).2.parser = (Escape.run e.parser op.block).1 := by
      rw [op.parser_told, Escape.feed, Escape.heeded_of_keeps h.1]
    rw [← hparser] at h
    rw [toldAll, ih h.2, hparser, List.flatMap_cons, Escape.run_append]

/-- Where the parser is behind an ESC and bytes of which none is lost, whatever was read before and
wherever the output is cut. -/
theorem parser_of_esc {ops : List Titling} {before bytes : Bytes}
    (hfed : ops.flatMap Titling.block = before ++ Escape.esc :: bytes)
    (h : Escape.Keeps .escape bytes) (hhead : ∀ b ∈ bytes.head?, b < 0x80) :
    (toldAll e ops).2.parser = (Escape.run .escape bytes).1 := by
  induction ops generalizing e before with
  | nil => simp at hfed
  | cons op ops ih =>
    rw [List.flatMap_cons] at hfed
    rcases List.append_eq_append_iff.1 hfed with ⟨rest, rfl, hrest⟩ | ⟨rest, hblock, hrest⟩
    · exact ih hrest
    · cases rest with
      | nil =>
        have hnext : ops.flatMap Titling.block = [] ++ Escape.esc :: bytes := hrest.symm
        exact ih hnext
      | cons b head =>
        rw [List.cons_append] at hrest
        obtain ⟨rfl, rfl⟩ := List.cons_eq_cons.1 hrest
        obtain ⟨hfirst, hlater⟩ := Escape.keeps_append.1 h
        have hascii : ∀ b ∈ head.head?, b < 0x80 := by
          intro b hb
          refine hhead b ?_
          rw [List.head?_append, Option.mem_def.1 hb]
          rfl
        have hparser : (op.told e).2.parser = (Escape.run .escape head).1 := by
          rw [op.parser_told, hblock, Escape.feed, Escape.heeded_append_esc _ _ hascii,
            Escape.run_append]
          exact Escape.state_run_esc _ head
        rw [← hparser] at hlater
        rw [toldAll, parser_of_keeps hlater, hparser, Escape.run_append]

variable {body rest : Bytes} {ending : UInt8} {what : UInt16}

/-- What is reported where a command ends that is a title. -/
theorem reports_ending (htitle : IsTitle (Escape.printed body) what rest)
    (hending : ending = Escape.bel ∨ ending = Escape.esc) (more : Bytes) :
    reports (.command (Escape.printed body).reverse) (ending :: more) =
      .userTitle what (caption ((Bytes.fields 0x3B rest).take 15)) ::
        reports (Escape.step (.command (Escape.printed body).reverse) ending).1 more := by
  rw [reports_cons, reports, Escape.run_ending _ hending, Escape.closeCommand,
    List.reverse_reverse, filterMap_ofToken, ofToken, ofCommand_of_isTitle htitle]
  rfl

/-- A title that ends in a block is told of with it, whatever was read before and wherever the
output is cut, in front of what comes later in the block. -/
theorem told_ending (h : e.IsClean) {ops : List Titling} {before tail : Bytes}
    (hfed : ops.flatMap Titling.block ++ tail = before ++ Escape.esc :: 0x5D :: body)
    (hbody : ∀ b ∈ body, Escape.isHeld b = true)
    (hending : ending = Escape.bel ∨ ending = Escape.esc)
    (htitle : IsTitle (Escape.printed body) what rest) (more : Bytes) :
    ∃ earlier,
      ((Titling.output (tail ++ ending :: more)).told (toldAll e ops).2).1 =
        earlier ++ .userTitle what (caption ((Bytes.fields 0x3B rest).take 15)) ::
          reports (Escape.step (.command (Escape.printed body).reverse) ending).1 more := by
  have hopened := Escape.run_opened hbody
  have hkeeps : Escape.Keeps .escape (0x5D :: body ++ [Escape.bel]) :=
    (Escape.run_command hbody (.inl rfl)).2
  have hreports := reports_ending htitle hending more
  rw [Titling.told_output (kept_toldAll h ops).1.2]
  have hwithin (last : Bytes) (htail : tail = last ++ Escape.esc :: 0x5D :: body) :
      ∃ earlier, reports (toldAll e ops).2.parser
          (Escape.heeded (toldAll e ops).2.parser (tail ++ ending :: more)) =
        earlier ++ reports (.command (Escape.printed body).reverse) (ending :: more) := by
    have hascii : ∀ b ∈ (0x5D :: (body ++ ending :: more)).head?, b < 0x80 := by
      rintro b ⟨⟩
      decide
    rw [htail, List.append_assoc, List.cons_append, List.cons_append,
      Escape.heeded_append_esc _ _ hascii, reports_append, reports_cons, Escape.documented.restarts,
      ← List.cons_append, reports_append .escape, hopened, ← List.append_assoc, ← List.append_assoc]
    exact ⟨_, rfl⟩
  rw [← hreports]
  rcases List.append_eq_append_iff.1 hfed with ⟨last, -, htail⟩ | ⟨bytes, hops, hbytes⟩
  · exact hwithin last htail
  cases bytes with
  | nil => exact hwithin [] hbytes.symm
  | cons b bytes =>
    -- the command has begun in an earlier block, so that the parser is not in text
    rw [List.cons_append] at hbytes
    obtain ⟨rfl, hread⟩ := List.cons_eq_cons.1 hbytes
    rw [hread, List.append_assoc, Escape.keeps_append] at hkeeps
    have hascii : ∀ b ∈ bytes.head?, b < 0x80 := by
      intro b hb
      cases bytes with
      | nil => cases hb
      | cons c bytes =>
        rw [List.cons_append] at hread
        obtain ⟨rfl, -⟩ := List.cons_eq_cons.1 hread
        obtain rfl : 0x5D = b := by simpa using hb
        decide
    have hparser := parser_of_esc (e := e) hops hkeeps.1 hascii
    rw [← hparser] at hkeeps
    have hbegun : (toldAll e ops).2.parser ≠ .ground true := by
      have hmore := hkeeps.2
      cases tail with
      | nil => exact hmore.1
      | cons c tail => exact hmore.1
    have hrun : Escape.run (toldAll e ops).2.parser tail =
        (.command (Escape.printed body).reverse, []) := by
      rw [hread, Escape.run_append, ← hparser] at hopened
      obtain ⟨hstate, hnone⟩ := Prod.ext_iff.1 hopened
      exact Prod.ext hstate (List.append_eq_nil_iff.1 hnone).2
    refine ⟨[], ?_⟩
    rw [Escape.heeded_of_ne hbegun, reports_append, hrun, reports, hrun]
    rfl

/-! ### Output that is heard -/

/-- What output does to the titles depends on the titles, on the number and on the emulation. -/
theorem feed_congr (h : s.emulation.IsClean) {u : Session TitleTracker} (hid : u.id = s.id)
    (htitles : u.titles = s.titles) (hemulation : u.emulation = s.emulation) (block : Bytes) :
    (u.feed block).session.titles = (s.feed block).session.titles ∧
      (u.feed block).session.emulation = (s.feed block).session.emulation ∧
      retitlings (u.feed block).trace = retitlings (s.feed block).trace := by
  have hs := settles_feed_of_isClean h block
  have hu := settles_feed_of_isClean (s := u) (hemulation ▸ h) block
  rw [hemulation] at hu
  refine ⟨hu.titles.trans ?_, hu.emulation.trans hs.emulation.symm, hu.told.trans ?_⟩
  · rw [htitles]
    exact hs.titles.symm
  · rw [hid, htitles]
    exact hs.told.symm

/-- A block that is heard and not lost does to the titles what it does by itself. -/
theorem Course.retitled_output {c : Course TitleTracker} (hclean : c.session.emulation.IsClean)
    {m : Move} {block : Bytes} (h : c.heard? m = some (.output block))
    (hkept : c.overflows m = false) :
    (c.advance m).session.titles = (c.session.feed block).session.titles ∧
      (c.advance m).session.emulation = (c.session.feed block).session.emulation ∧
      retitlings (c.advance m).trace = retitlings (c.session.feed block).trace := by
  obtain ⟨a, _, _, rfl, -⟩ := heard?_eq_some_iff.1 h
  have hhappening := happening h
  show (c.advance _).toTraced.session.titles = _ ∧ (c.advance _).toTraced.session.emulation = _ ∧
    retitlings (c.advance _).toTraced.trace = _
  revert hhappening
  generalize (c.advance (.happen (.output block) a)).toTraced = t
  intro hhappening
  cases hhappening with
  | @noted g _ waiting =>
    have hnoting := noting c.session block a.now
    revert hnoting
    generalize c.session.noteOutput block a.now = o
    intro hnoting
    cases hnoting with
    | unwatched => exact ⟨rfl, rfl, rfl⟩
    | lost hwatched hbeyond =>
      have hdispatching : c.isDraining = false := by simp [isDraining, waiting]
      rw [(overflows_output_iff h).2 ⟨hdispatching, hwatched, hbeyond⟩] at hkept
      cases hkept
    | @watched at? =>
      have hannounce : retitlings c.session.announce.trace = [] := by
        rw [trace_announce]
        split <;> rfl
      obtain ⟨htitles, hemulation, htold⟩ := feed_congr hclean
        (u := { c.session with notified := true }.modifyRunning
          fun r ↦ { r with silenceAt := some at? })
        (by unfold modifyRunning; split <;> rfl) (by unfold modifyRunning; split <;> rfl)
        (by unfold modifyRunning; split <;> rfl) block
      refine ⟨htitles, hemulation, ?_⟩
      show retitlings (c.session.announce.trace ++ _) = _
      rw [retitlings_append, hannounce]
      exact htold
  | collected => exact ⟨rfl, rfl, rfl⟩
  | completed _ _ _ last => simp [Wake.endsDrain] at last
  | failed failure => simp at failure

end Tracker

/-- In whatever state a session is, and whatever calls of the owner and blocks of output come: each
of the four titles is the caption that was last written to it, or what it was before; nothing else
changes but for the emulation of the output and what it queues as input, and a call changes nothing
but titles; the owner is told of new titles once for each write that changes one that it addresses,
and not else. A command in the output is the writing of a title with the block in which it ends if
it is a title, whatever was read before and wherever the output is cut. All this is so of each block
that is heard while the session is driven. -/
theorem titles_last_written (id : SessionId) (options : SessionOptions) (sink : Sink)
    (before : List Move) (ops : List Titling) :
    let c := (Course.start (.new id options ({ sink } : TitleTracker))).run before
    let s := c.session
    let done := s.actAll ops
    let told := toldAll s.emulation ops
    (∀ p, done.session.titles.get p = s.titles.current (writes told.1) p) ∧
    done.session =
      ({ s with titles := done.session.titles, emulation := told.2 } :
        Session TitleTracker).queueing (inputs told.1) ∧
    (told.2.size = s.emulation.size ∧ told.2.held = s.emulation.held ∧ told.2.reported = []) ∧
    ((∀ op ∈ ops, op.isCall = true) → done.session = { s with titles := done.session.titles }) ∧
    retitlings done.trace = retold s.id s.titles [] (writes told.1) ∧
    (∀ earlier tail body more rest ending what,
      ops.flatMap Titling.block ++ tail = earlier ++ Escape.esc :: 0x5D :: body →
      (∀ b ∈ body, Escape.isHeld b = true) → ending = Escape.bel ∨ ending = Escape.esc →
      IsTitle (Escape.printed body) what rest →
      ∃ between kept later, Bytes.Cut 0x3B 14 rest kept ∧ (more = [] → later = []) ∧
        writes (toldAll s.emulation (ops ++ [.output (tail ++ ending :: more)])).1 =
          writes told.1 ++ between ++ ⟨what, Utf8.decodeLossy kept⟩ :: later) ∧
    ∀ m block, c.heard? m = some (.output block) → c.overflows m = false →
      (c.advance m).session.titles = (s.feed block).session.titles ∧
      (c.advance m).session.emulation = (s.feed block).session.emulation ∧
      retitlings (c.advance m).trace = retitlings (s.feed block).trace := by
  intro c s done told
  have hclean : s.emulation.IsClean :=
    Course.lasting_run TitleTracker.lasting_isClean Phase.wellFormed_idle
      (TitleTracker.isClean_new sink) before
  have hsettles : Settles s told done := settles_actAll hclean ops
  have hsession : done.session =
      ({ s with titles := done.session.titles, emulation := told.2 } :
        Session TitleTracker).queueing (inputs told.1) := by
    rw [hsettles.titles]
    exact hsettles.session
  obtain ⟨hkept, hsize, hheld⟩ := kept_toldAll hclean ops
  refine ⟨?_, hsession, ⟨hsize, hheld, hkept.2⟩, ?_, hsettles.told, ?_, ?_⟩
  · intro p
    rw [hsettles.titles, Titles.get_writeAll]
  · intro hcalls
    obtain ⟨hemulation, hinputs⟩ := toldAll_of_isCall s.emulation hcalls
    rw [hinputs, queueing_nil, hemulation] at hsession
    exact hsession
  · intro earlier tail body more rest ending what hfed hbody hending htitle
    obtain ⟨between, hbetween⟩ := told_ending hclean hfed hbody hending htitle more
    let behind := (Escape.step (.command (Escape.printed body).reverse) ending).1
    refine ⟨writes between, _, writes (reports behind more), Bytes.cut_fields 0x3B 14 rest, ?_, ?_⟩
    · rintro rfl
      rfl
    · rw [toldAll_append, toldAll, toldAll, List.append_nil, hbetween, caption_eq]
      simp only [writes, List.filterMap_append, List.append_assoc]
      rfl
  · intro m block hheard hin
    exact Course.retitled_output hclean hheard hin

/-- A title in the output that is cut into three blocks with calls in between: one that sets two
titles, one of a kind that there is not, and one that changes nothing. -/
theorem titles_last_written_cut :
    let s := ((Course.start (.new 7 {} ({} : TitleTracker))).run [.run "sh" {}]).session
    let ops : List Titling := [.userTitle 0 "a", .output (Bytes.ofAscii "x" ++ [Escape.esc]),
      .iconName "i", .output (Bytes.ofAscii "]2"), .userTitle 5 "u", .iconText "a"]
    let last : Titling := .output (Bytes.ofAscii ";b" ++ [Escape.bel])
    let done := s.actAll (ops ++ [last])
    (∀ p, done.session.titles.get p = (⟨"sh", "b", "a", "i"⟩ : Titles).get p) ∧
      retitlings done.trace = List.replicate 3 (.titleChanged 7) ∧
      ∃ before, writes (toldAll s.emulation (ops ++ [last])).1 = before ++ [⟨2, "b"⟩] := by
  intro s ops last done
  have hstate : ((Course.start (.new 7 {} ({} : TitleTracker))).run [.run "sh" {}]).session = s :=
    rfl
  have hstart : s.titles = ⟨"sh", "", "", ""⟩ ∧ s.id = 7 := by decide
  have hwrites : writes (toldAll s.emulation (ops ++ [last])).1 =
      [⟨0, "a"⟩, ⟨32, "i"⟩, ⟨5, "u"⟩, ⟨1, "a"⟩, ⟨2, "b"⟩] := by decide
  have hfed : ops.flatMap Titling.block ++ Bytes.ofAscii ";b" =
      Bytes.ofAscii "x" ++ Escape.esc :: 0x5D :: Bytes.ofAscii "2;b" := by decide
  have hdigits : ∀ b ∈ Bytes.ofAscii "2", Escape.isDigit b = true :=
    List.all_iff_forall_prop.1 (by decide)
  have htitle : IsTitle (Escape.printed (Bytes.ofAscii "2;b")) 2 (Bytes.ofAscii "b") :=
    ⟨by decide, Bytes.ofAscii "2", by decide, [], Bytes.ofAscii "2", rfl, .inl rfl, by decide,
      hdigits, rfl⟩
  obtain ⟨htitles, -, -, -, htold, -⟩ := titles_last_written 7 {} {} [.run "sh" {}] (ops ++ [last])
  obtain ⟨-, -, -, -, -, hending, -⟩ := titles_last_written 7 {} {} [.run "sh" {}] ops
  clear_value s
  simp only [hstate] at htitles htold hending
  obtain ⟨between, kept, later, hcut, hlast, hall⟩ := hending _ _ _ [] _ _ _ hfed
    (List.all_iff_forall_prop.1 (by decide)) (.inl rfl) htitle
  have hcaption : Utf8.decodeLossy kept = "b" :=
    ((hcut.decodeLossy_eq_iff (by decide)).2 (by decide)).trans (by decide)
  rw [hlast rfl, hcaption] at hall
  rw [hwrites, hstart.1] at htitles
  rw [hwrites, hstart.1, hstart.2] at htold
  refine ⟨?_, htold.trans (by decide), _, hall⟩
  intro p
  refine (htitles p).trans ?_
  cases p <;> decide

end Session

end PtyHost
